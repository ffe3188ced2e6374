import SqlOutline.Proofs.Text.Slice
import SqlOutline.Text.Case

/-!
# Words of a text

A word that reaches up to white space or to the end of the text is the first one.

## Main results

* `exists_of_words_eq_cons` — where the first word stands.
* `words_append_word` — a word that is made longer.
-/

namespace SqlOutline.Text

open List

/-! ## Facts about all characters of a text -/

-- The characters of a text are few, so they are tried one by one, and not all characters there are.
section Decidable

variable (p : Char → Prop) [DecidablePred p]

instance (priority := high) decidableForallMem (t : Text) : Decidable (∀ c ∈ t, p c) :=
  decidableBAll p t

instance (priority := high) decidableForallMemOption (o : Option Char) :
    Decidable (∀ c ∈ o, p c) :=
  Option.decidableForallMem o

end Decidable

/-! ## Words, from left to right -/

variable {sep : Char → Bool} {c : Char}

section Words

variable {w t x : Text}

lemma splitOnChar_cons (hc : sep c = false) {p : Text}
    {ps : List Text} (h : splitOnChar sep t = p :: ps) :
    splitOnChar sep (c :: t) = (c :: p) :: ps := by
  rw [splitOnChar, if_neg (by simp [hc]), h]

lemma words_append_of_blank (hw : ∀ c ∈ w, isBlank c) (t : Text) :
    words (w ++ t) = words t := by
  induction w with
  | nil => rfl
  | cons c w ih =>
    have hc := hw c mem_cons_self
    rw [cons_append, words, splitOnChar, if_pos hc]
    simpa [words] using ih fun d hd => hw d (mem_cons_of_mem c hd)

lemma splitOnChar_append (hx : ∀ c ∈ x, sep c = false) (ht : ∀ c ∈ t.head?, sep c) :
    splitOnChar sep (x ++ t) = x :: (splitOnChar sep t).tail := by
  induction x with
  | nil =>
    cases t with
    | nil => rfl
    | cons c t =>
      have hc : sep c := ht c rfl
      rw [nil_append, splitOnChar, if_pos hc, tail_cons]
  | cons c x ih =>
    refine splitOnChar_cons (hx c mem_cons_self) (ih fun d hd => ?_)
    exact hx d (mem_cons_of_mem c hd)

lemma splitOnChar_ne_nil (sep : Char → Bool) (t : Text) : splitOnChar sep t ≠ [] := by
  cases t with
  | nil => exact cons_ne_nil _ _
  | cons c t =>
    rw [splitOnChar]
    grind

lemma splitOnChar_append_sep (hc : sep c) (x y : Text) :
    splitOnChar sep (x ++ c :: y) = splitOnChar sep x ++ splitOnChar sep y := by
  induction x with
  | nil => simp [splitOnChar, hc]
  | cons d x ih =>
    rw [cons_append, splitOnChar, splitOnChar, ih]
    split_ifs
    · rfl
    · obtain ⟨p, ps, hps⟩ := exists_cons_of_ne_nil (splitOnChar_ne_nil sep x)
      rw [hps]
      rfl

lemma splitOnChar_of_not_mem {l : Text} (h : '\n' ∉ l) : splitOnChar (· == '\n') l = [l] := by
  have hsep : ∀ c ∈ l, (c == '\n') = false := by
    intro c hc
    exact beq_eq_false_iff_ne.mpr fun heq => h (heq ▸ hc)
  simpa [splitOnChar] using splitOnChar_append (t := []) hsep (by simp)

lemma splitOnChar_flatMap {ls : List Text} (h : ∀ l ∈ ls, '\n' ∉ l) (rest : Text) :
    splitOnChar (· == '\n') (ls.flatMap (· ++ ['\n']) ++ rest) =
      ls ++ splitOnChar (· == '\n') rest := by
  induction ls with
  | nil => rfl
  | cons l ls ih =>
    rw [forall_mem_cons] at h
    rw [flatMap_cons, append_assoc, append_assoc, singleton_append,
      splitOnChar_append_sep rfl, splitOnChar_of_not_mem h.1, ih h.2]
    rfl

lemma words_append_of_not_blank (hne : x ≠ []) (hx : ∀ c ∈ x, isBlank c = false)
    (ht : ∀ c ∈ t.head?, isBlank c) : words (x ++ t) = x :: words t := by
  have hempty : x.isEmpty = false := by simpa using hne
  rw [words, splitOnChar_append hx ht, filter_cons, hempty, Bool.not_false, if_pos rfl, words]
  congr 1
  cases t with
  | nil => rfl
  | cons c t =>
    have hc : isBlank c := ht c rfl
    rw [splitOnChar, if_pos hc, tail_cons]
    rfl

lemma exists_word_split (t : Text) : (∀ c ∈ t, isBlank c) ∨
      ∃ w x u, t = w ++ (x ++ u) ∧ (∀ c ∈ w, isBlank c) ∧ x ≠ [] ∧
        (∀ c ∈ x, isBlank c = false) ∧ ∀ c ∈ u.head?, isBlank c := by
  set r := t.dropWhile isBlank with hr
  have hw : ∀ c ∈ t.takeWhile isBlank, isBlank c := fun c hc => mem_takeWhile_imp hc
  have ht : t = t.takeWhile isBlank ++ r := takeWhile_append_dropWhile.symm
  rcases eq_or_ne r [] with hnil | hne
  · left
    rw [ht, hnil, append_nil]
    exact hw
  · right
    refine ⟨t.takeWhile isBlank, r.takeWhile (!isBlank ·), r.dropWhile (!isBlank ·), ?_, hw, ?_,
      fun c hc => by simpa using mem_takeWhile_imp hc, fun c hc => ?_⟩
    · rw [takeWhile_append_dropWhile]
      exact ht
    · -- what is left behind the white space starts with a character of a word
      obtain ⟨c, s, hcs⟩ := exists_cons_of_ne_nil hne
      have hc : isBlank c = false := not_of_mem_head?_dropWhile (t := t) (by rw [← hr, hcs]; rfl)
      simp [hcs, hc]
    · simpa using not_of_mem_head?_dropWhile hc

/-- **Where the first word stands**: behind white space, and before white space or the end of the
text; the other words are those of the rest. -/
lemma exists_of_words_eq_cons {ws : List Text} (h : words t = x :: ws) :
    ∃ w u, t = w ++ (x ++ u) ∧ (∀ c ∈ w, isBlank c) ∧ x ≠ [] ∧
      (∀ c ∈ x, isBlank c = false) ∧ (∀ c ∈ u.head?, isBlank c) ∧ words u = ws := by
  rcases exists_word_split t with hblank | ⟨w, y, u, rfl, hw, hne, hy, hu⟩
  · have := words_append_of_blank hblank []
    rw [append_nil, h] at this
    cases this
  · rw [words_append_of_blank hw, words_append_of_not_blank hne hy hu] at h
    obtain ⟨rfl, rfl⟩ := cons.inj h
    exact ⟨w, u, rfl, hw, hne, hy, hu, rfl⟩

/-- **A word that is made longer**: text without white space behind a text that does not end in
white space belongs to its last word. -/
lemma words_append_word (hw : ∀ c ∈ w, isBlank c = false) (ht : t ≠ [])
    (hlast : ∀ c ∈ t.getLast?, isBlank c = false) :
    ∃ ws z, words t = ws ++ [z] ∧ words (t ++ w) = ws ++ [z ++ w] := by
  induction hn : t.length using Nat.strong_induction_on generalizing t with
  | _ n ih =>
    rcases exists_word_split t with hblank | ⟨v, x, u, rfl, hv, hne, hx, hu⟩
    · -- a text that does not end in white space is not white space
      exfalso
      have hmem := getLast_mem ht
      have := hlast _ (getLast?_eq_getLast_of_ne_nil ht)
      rw [hblank _ hmem] at this
      cases this
    · rcases eq_or_ne u [] with rfl | hune
      · refine ⟨[], x, ?_, ?_⟩
        · rw [words_append_of_blank hv, words_append_of_not_blank hne hx hu]
          rfl
        · have hxw : ∀ c ∈ x ++ w, isBlank c = false := fun c hc =>
            (mem_append.mp hc).elim (hx c) (hw c)
          have hwords := words_append_of_not_blank (t := []) (by simp [hne]) hxw (by simp)
          rw [append_nil] at hwords ⊢
          rw [append_assoc, words_append_of_blank hv, hwords]
          rfl
      · have hlen : u.length < n := by
          have := length_pos_iff.mpr hne
          rw [← hn, length_append, length_append]
          omega
        obtain ⟨ws, z, hz, hzw⟩ := ih _ hlen hune (by
          rw [getLast?_append_of_ne_nil, getLast?_append_of_ne_nil] at hlast
          · exact hlast
          · exact hune
          · simp [hune]) rfl
        refine ⟨x :: ws, z, ?_, ?_⟩
        · rw [words_append_of_blank hv, words_append_of_not_blank hne hx hu, hz, cons_append]
        · have hhead : ∀ c ∈ (u ++ w).head?, isBlank c := by
            rwa [head?_append_of_ne_nil _ hune]
          rw [append_assoc, append_assoc, words_append_of_blank hv,
            words_append_of_not_blank hne hx hhead, hzw, cons_append]

end Words

/-! ## Letters -/

lemma toUpper_of_not_isAsciiAlpha (h : isAsciiAlpha c = false) : c.toUpper = c := by
  unfold Char.toUpper
  rw [dif_neg]
  rintro ⟨h₁, h₂⟩
  have hlower : ('a' ≤ c && c ≤ 'z') := by
    rw [Bool.and_eq_true, decide_eq_true_eq, decide_eq_true_eq]
    exact ⟨h₁, h₂⟩
  rw [isAsciiAlpha, hlower, Bool.true_or] at h
  cases h

lemma isAsciiAlpha_of_eqIgnoreCase {s k : Text} (h : eqIgnoreCase s k)
    (hk : ∀ c ∈ upper k, isAsciiAlpha c) : ∀ c ∈ s, isAsciiAlpha c := by
  intro c hc
  by_contra hne
  rw [Bool.not_eq_true] at hne
  have hmem : c.toUpper ∈ upper s := mem_map_of_mem hc
  rw [toUpper_of_not_isAsciiAlpha hne, beq_iff_eq.mp h] at hmem
  rw [hk c hmem] at hne
  cases hne

/-! ## The first occurrence of a text -/

lemma beforeSub?_append_of_not_mem {m : Char} {x : Text} (hm : m ∉ x) (ms t : Text) :
    beforeSub? (m :: ms) (x ++ (m :: ms ++ t)) = some x := by
  induction x with
  | nil => simp [beforeSub?]
  | cons c x ih =>
    have hc : m ≠ c := fun h => hm (h ▸ mem_cons_self)
    have hno : ¬ (m :: ms).isPrefixOf (c :: (x ++ (m :: ms ++ t))) := by
      simp [isPrefixOf, hc]
    rw [cons_append, beforeSub?, if_neg hno, ih fun h => hm (mem_cons_of_mem c h)]
    rfl

end SqlOutline.Text
