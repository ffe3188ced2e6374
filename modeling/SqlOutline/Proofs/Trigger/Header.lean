import SqlOutline.Proofs.Pattern.Search
import SqlOutline.Proofs.Text.Classes
import SqlOutline.Trigger.Scan

/-!
# Texts in which no header starts

The header of a trigger starts with `CREATE`, white space, and one of a few letters. One can start
only in the account that a trigger runs as, and in the last part of the name of its table.

## Main definitions

* `Announces`, `Quiet`, `Silent` — texts that start like a header, and those without a start.

## Main results

* `exists_of_spells_qualified` — only the last part of a dotted name can announce one.
-/

namespace SqlOutline.TriggerScan

open Bool List Text Pattern

/-! ## Announcements -/

def isOpening (c : Char) : Bool := ['O', 'D', 'C', 'T'].contains c.toUpper

def Opens (r : Text) : Prop :=
  ∃ s c z, r = s ++ c :: z ∧ s ≠ [] ∧ (∀ d ∈ s, isBlank d) ∧ isOpening c

/-- A text that starts like the header of a trigger. -/
def Announces (r : Text) : Prop := ∃ w z, r = w ++ z ∧ Spelled "CREATE" w ∧ Opens z

variable {k c : Char} {x w r : Text} {b : Option Char}

lemma toUpper_of_letterMatches (h : letterMatches k c)
    (hc : isAsciiAlpha c) : c.toUpper = k.toUpper := by
  have hlt := (toNat_of_isAsciiAlpha hc).2
  simp only [letterMatches, or_eq_true, and_eq_true, beq_iff_eq] at h
  rcases h with (h | ⟨-, h⟩) | ⟨-, h⟩
  · exact h
  · omega
  · omega

lemma isAsciiAlpha_of_letterMatches (h : letterMatches k c)
    (hk : isAsciiAlpha k.toUpper) (hK : k.toUpper ≠ 'K') (hS : k.toUpper ≠ 'S') :
    isAsciiAlpha c := by
  simp only [letterMatches, beq_eq_false_iff_ne.mpr hK, beq_eq_false_iff_ne.mpr hS, Bool.false_and,
    Bool.or_false, beq_iff_eq] at h
  exact isAsciiAlpha_of_toUpper (h ▸ hk)

lemma isAsciiAlpha_of_spelled {s : String} (h : Spelled s x)
    (hs : ∀ k ∈ s.toList, isAsciiAlpha k.toUpper ∧ k.toUpper ≠ 'K' ∧ k.toUpper ≠ 'S') :
    ∀ c ∈ x, isAsciiAlpha c := by
  unfold Spelled at h
  generalize s.toList = ks at h hs
  induction h with
  | nil => simp
  | cons hkc _ ih =>
    obtain ⟨⟨hk, hK, hS⟩, hs⟩ := forall_mem_cons.mp hs
    exact forall_mem_cons.mpr ⟨isAsciiAlpha_of_letterMatches hkc hk hK hS, ih hs⟩

lemma isAsciiAlpha_of_create (h : Spelled "CREATE" w) : ∀ c ∈ w, isAsciiAlpha c :=
  isAsciiAlpha_of_spelled h (by decide)

lemma byteLength_of_create (h : Spelled "CREATE" w) : byteLength w = 6 := by
  have hbytes : ∀ x : Text, (∀ c ∈ x, isAsciiAlpha c) → byteLength x = x.length := by
    intro x hx
    induction x with
    | nil => rfl
    | cons c x ih =>
      obtain ⟨hc, hx⟩ := forall_mem_cons.mp hx
      rw [byteLength_cons, utf8Size_of_isAsciiAlpha hc, ih hx, length_cons, Nat.add_comm]
  rw [hbytes w (isAsciiAlpha_of_create h)]
  exact (List.Forall₂.length_eq h).symm

lemma exists_cons_of_spelled {s : String} (h : Spelled s x)
    (hs : s.toList.head? = some k) (hk : isAsciiAlpha k.toUpper) (hK : k.toUpper ≠ 'K')
    (hS : k.toUpper ≠ 'S') : ∃ c y, x = c :: y ∧ c.toUpper = k.toUpper ∧ isAsciiAlpha c := by
  obtain ⟨ks, hks⟩ := head?_eq_some_iff.mp hs
  unfold Spelled at h
  rw [hks] at h
  obtain ⟨c, y, hc, -, rfl⟩ := forall₂_cons_left_iff.mp h
  have halpha := isAsciiAlpha_of_letterMatches hc hk hK hS
  exact ⟨c, y, rfl, toUpper_of_letterMatches hc halpha, halpha⟩

lemma Opens.head (h : Opens r) : ∃ c z, r = c :: z ∧ isBlank c := by
  obtain ⟨s, c, z, rfl, hne, hs, -⟩ := h
  obtain ⟨d, s, rfl⟩ := exists_cons_of_ne_nil hne
  exact ⟨d, _, rfl, hs d mem_cons_self⟩

lemma isAsciiAlpha_of_isOpening (h : isOpening c) : isAsciiAlpha c := by
  apply isAsciiAlpha_of_toUpper
  have hall : ∀ u ∈ ['O', 'D', 'C', 'T'], isAsciiAlpha u := by decide
  exact hall _ (by simpa [isOpening] using h)

variable {f : Char → Bool} {q : Text}

/-- **A run of a class that announces a header** is the word `CREATE` itself, if the class has the
letters and no white space. -/
lemma Announces.spelled (hf : ∀ c, isAsciiAlpha c → f c)
    (hb : ∀ c, isBlank c → f c = false) {y : Text} (hq : ∀ c ∈ q, f c)
    (hy : y.head?.any f = false) (h : Announces (q ++ y)) : Spelled "CREATE" q ∧ Opens y := by
  obtain ⟨w, z, heq, hw, hz⟩ := h
  have hhead : z.head?.any f = false := by
    obtain ⟨c, t, rfl, hc⟩ := hz.head
    simp [hb c hc]
  obtain ⟨rfl, rfl⟩ := append_inj_of_class heq hq
    (fun c hc => hf c (isAsciiAlpha_of_create hw c hc)) hy hhead
  exact ⟨hw, hz⟩

lemma Announces.letters {t : Text} (h : Announces (c :: t)) :
    c.toUpper = 'C' ∧ ∃ d u, t = d :: u ∧ d.toUpper = 'R' := by
  obtain ⟨w, z, heq, hw, -⟩ := h
  have halpha := isAsciiAlpha_of_create hw
  have hletters : List.Forall₂ (fun k c => letterMatches k c)
      ('C' :: 'R' :: "EATE".toList) w := hw
  obtain ⟨c', v, hc, hv, rfl⟩ := forall₂_cons_left_iff.mp hletters
  obtain ⟨d, u, hd, -, rfl⟩ := forall₂_cons_left_iff.mp hv
  obtain ⟨rfl, rfl⟩ := cons.inj heq
  exact ⟨toUpper_of_letterMatches hc (halpha _ (by simp)), d, u ++ z, rfl,
    toUpper_of_letterMatches hd (halpha _ (by simp))⟩

/-! ## Quiet texts -/

/-- No header starts in the text `x` before the text `y`. -/
def Quiet (x y : Text) : Prop := ∀ p q, x = p ++ q → q ≠ [] → ¬ Announces (q ++ y)

section Quiet

variable {x y z : Text}

lemma quiet_nil (y : Text) : Quiet [] y := by
  intro p q h hq
  exact absurd (append_eq_nil_iff.mp h.symm).2 hq

lemma Quiet.cons (hc : ¬ Announces (c :: (x ++ y))) (hx : Quiet x y) : Quiet (c :: x) y := by
  intro p q h hq
  cases p with
  | nil =>
    obtain rfl : c :: x = q := h
    exact hc
  | cons d p => exact hx p q (cons.inj h).2 hq

lemma Quiet.append (hx : Quiet x (y ++ z)) (hy : Quiet y z) : Quiet (x ++ y) z := by
  induction x with
  | nil => exact hy
  | cons c x ih =>
    have hstart := hx [] (c :: x) rfl (cons_ne_nil _ _)
    rw [cons_append, ← append_assoc] at hstart
    exact .cons hstart (ih fun p q h => hx (c :: p) q (by rw [h, cons_append]))

lemma Quiet.exists_of_announces {p : Text} (hx : Quiet x (y ++ z)) (h : x ++ y = p ++ q)
    (ha : Announces (q ++ z)) : ∃ a, p = x ++ a ∧ y = a ++ q := by
  rcases append_eq_append_iff.mp h with ⟨a, rfl, rfl⟩ | ⟨a, rfl, rfl⟩
  · exact ⟨a, rfl, rfl⟩
  · by_cases hne : a = []
    · subst hne
      exact ⟨[], by simp, rfl⟩
    · rw [append_assoc] at ha
      exact absurd ha (hx p a rfl hne)

lemma quiet_of_forall (h : ∀ c ∈ x, c.toUpper ≠ 'C') (y : Text) : Quiet x y := by
  induction x with
  | nil => exact quiet_nil y
  | cons c x ih =>
    obtain ⟨hc, hx⟩ := forall_mem_cons.mp h
    exact .cons (fun ha => hc ha.letters.1) (ih hx)

lemma quiet_of_class (hf : ∀ c, isAsciiAlpha c → f c)
    (hb : ∀ c, isBlank c → f c = false) (hx : ∀ c ∈ x, f c)
    (hy : y.head?.any f = false) (hopen : ¬ Opens y) : Quiet x y := by
  rintro p q rfl - ha
  exact hopen (ha.spelled hf hb (fun c hc => hx c (mem_append_right p hc)) hy).2

end Quiet

/-! ## Silent patterns -/

/-- A pattern that spells only texts in which no header starts. -/
def Silent (p : Pattern) : Prop := ∀ b x r, Pattern.Spells p b x r → Quiet x r

variable {s z : Text}

section Silent

variable {p q : Pattern}

lemma Silent.seq (hp : Silent p) (hq : Silent q) : Silent (.seq p q) := by
  intro b x r h
  obtain ⟨y, z, rfl, hy, hz⟩ := spells_seq_iff.mp h
  exact (hp _ _ _ hy).append (hq _ _ _ hz)

lemma Silent.alt (hp : Silent p) (hq : Silent q) : Silent (.alt p q) := by
  intro b x r h
  rcases spells_alt_iff.mp h with h | h
  · exact hp _ _ _ h
  · exact hq _ _ _ h

lemma silent_empty : Silent .empty := by
  intro b x r h
  obtain rfl := spells_empty_iff.mp h
  exact quiet_nil r

lemma Silent.opt (hp : Silent p) : Silent (opt p) := hp.alt silent_empty

lemma Silent.group (hp : Silent p) (n : Nat) : Silent (.group n p) :=
  fun b x r h => hp b x r (spells_group_iff.mp h)

lemma Silent.all_cons {ps : List Pattern} (hp : Silent p) (hps : Silent (all ps)) :
    Silent (all (p :: ps)) := by
  intro b x r h
  obtain ⟨y, z, rfl, hy, hz⟩ := spells_all_cons_iff.mp h
  exact (hp _ _ _ hy).append (hps _ _ _ hz)

lemma toUpper_ne_of_isBlank (h : isBlank c) : c.toUpper ≠ 'C' := by
  intro hc
  have halpha : isAsciiAlpha c := isAsciiAlpha_of_toUpper (by rw [hc]; rfl)
  rw [isBlank_eq_false_of_isAsciiAlpha halpha] at h
  cases h

lemma quiet_of_blank (h : ∀ c ∈ x, isBlank c) (y : Text) : Quiet x y :=
  quiet_of_forall (fun c hc => toUpper_ne_of_isBlank (h c hc)) y

lemma quiet_of_mark {u : Text} {m : Char} (hs : ∀ c ∈ s, isBlank c)
    (hm : m.toUpper ≠ 'C') (hu : ∀ c ∈ u, isBlank c) (y : Text) : Quiet (s ++ m :: u) y :=
  (quiet_of_blank hs _).append (.cons (fun h => hm h.letters.1) (quiet_of_blank hu y))

lemma silent_blanks : Silent blanks := fun _ _ r h => quiet_of_blank (spells_blanks_iff.mp h).2 r

def harmless : List Char → Bool
  | [] => true
  | [k] => k.toUpper != 'C'
  | k :: l :: ks => (k.toUpper != 'C' || l.toUpper != 'R') && harmless (l :: ks)

lemma silent_lit {s : String} (hs : harmless s.toList) : Silent (lit s) := by
  intro b x r h
  replace h := spells_lit_iff.mp h
  unfold Spelled at h
  have hletter : ∀ {k c u : Char}, letterMatches k c → c.toUpper = u →
      isAsciiAlpha u → k.toUpper = u := by
    intro k c u hkc hu halpha
    rw [← hu, toUpper_of_letterMatches hkc (isAsciiAlpha_of_toUpper (hu ▸ halpha))]
  generalize s.toList = ks at h hs
  induction h with
  | nil => exact quiet_nil r
  | @cons k c ks x hkc hx ih =>
    refine .cons (fun ha => ?_) (ih ?_)
    · obtain ⟨hc, d, u, hd, hr⟩ := ha.letters
      have hk := hletter hkc hc rfl
      cases hx with
      | nil => simp [harmless, hk] at hs
      | @cons l e ls y hle hy =>
        obtain ⟨rfl, -⟩ := cons.inj hd
        simp [harmless, hk, hletter hle hr rfl] at hs
    · cases ks with
      | nil => rfl
      | cons l ls => exact (and_eq_true_iff.mp hs).2

lemma exists_of_announces_of_create {p q : Text} (hw : Spelled "CREATE" w)
    (hs : ∀ c ∈ s, isBlank c) (h : w ++ (s ++ z) = p ++ q) (hp : p ≠ [])
    (ha : Announces (q ++ r)) : ∃ a, p = w ++ (s ++ a) ∧ z = a ++ q := by
  have hletters : List.Forall₂ (fun k c => letterMatches k c) ('C' :: "REATE".toList) w := hw
  obtain ⟨c, v, -, hv, rfl⟩ := forall₂_cons_left_iff.mp hletters
  obtain ⟨d, p, rfl⟩ := exists_cons_of_ne_nil hp
  obtain ⟨rfl, htail⟩ := cons.inj h
  have hword : Quiet v (s ++ z ++ r) := silent_lit rfl none v _ (spells_lit_iff.mpr hv)
  obtain ⟨a, rfl, ha'⟩ := hword.exists_of_announces htail ha
  obtain ⟨a, rfl, rfl⟩ := (quiet_of_blank hs _).exists_of_announces ha' ha
  exact ⟨a, rfl, rfl⟩

end Silent

/-! ## Names -/

def isIdentChar (c : Char) : Bool := isWordChar c || c == '$' || c == '#'

/-- A text without the marks with which quoted identifiers start. -/
def Unquoted (t : Text) : Prop := ∀ c ∈ t, c ≠ '"' ∧ c ≠ '`' ∧ c ≠ '['

instance (t : Text) : Decidable (Unquoted t) := List.decidableBAll _ t

lemma isIdentChar_of_isAsciiAlpha (h : isAsciiAlpha c = true) : isIdentChar c = true := by
  simp [isIdentChar, isWordChar_of_isAsciiAlpha h]

lemma isIdentChar_eq_false_of_isBlank (h : isBlank c = true) : isIdentChar c = false := by
  have hdollar : c ≠ '$' := by
    rintro rfl
    exact absurd h (by decide)
  have hsharp : c ≠ '#' := by
    rintro rfl
    exact absurd h (by decide)
  simp [isIdentChar, isWordChar_eq_false_of_isBlank h, hdollar, hsharp]

lemma of_spells_ident (hx : Unquoted x)
    (h : Pattern.Spells ident b x r) : x ≠ [] ∧ ∀ c ∈ x, isIdentChar c = true := by
  have hquoted : ∀ (open_ : Char) (ps : List Pattern), open_ ∈ ['"', '`', '['] →
      ¬ Pattern.Spells (all (char open_ :: ps)) b x r := by
    intro open_ ps hopen hall
    obtain ⟨y, z, rfl, hy, -⟩ := spells_all_cons_iff.mp hall
    obtain rfl := spells_char_iff.mp hy
    have := hx open_ (by simp)
    simp_all
  simp only [ident, anyOf, spells_alt_iff] at h
  rcases h with h | h | h | h
  · exact absurd h (hquoted '"' _ (by simp))
  · exact absurd h (hquoted '`' _ (by simp))
  · exact absurd h (hquoted '[' _ (by simp))
  · exact spells_some1_one_iff.mp h

def dotted : Pattern := all [blanks0, char '.', blanks0, ident]

lemma of_spells_dotted (hx : Unquoted x) (h : Pattern.Spells dotted b x r) :
    ∃ s u w, x = s ++ '.' :: (u ++ w) ∧ (∀ c ∈ s, isBlank c) ∧ (∀ c ∈ u, isBlank c) ∧
      w ≠ [] ∧ ∀ c ∈ w, isIdentChar c := by
  obtain ⟨s, y, rfl, hs, h⟩ := spells_all_cons_iff.mp h
  obtain ⟨d, z, rfl, hd, h⟩ := spells_all_cons_iff.mp h
  obtain ⟨u, w, rfl, hu, h⟩ := spells_all_cons_iff.mp h
  obtain rfl := spells_char_iff.mp hd
  have hw := of_spells_ident (fun c hc => hx c (by simp [hc])) h
  exact ⟨s, u, w, rfl, spells_blanks0_iff.mp hs, spells_blanks0_iff.mp hu, hw.1, hw.2⟩

lemma not_opens {d : Char} (hs : ∀ c ∈ s, isBlank c) (hd : isBlank d = false)
    (hopen : isOpening d = false) : ¬ Opens (s ++ d :: z) := by
  rintro ⟨u, c, v, heq, -, hu, hc⟩
  have hblank : isBlank c = false := isBlank_eq_false_of_isAsciiAlpha (isAsciiAlpha_of_isOpening hc)
  obtain ⟨-, htail⟩ := append_inj_of_class heq hs hu (by simp [hd]) (by simp [hblank])
  obtain ⟨rfl, -⟩ := cons.inj htail
  rw [hopen] at hc
  cases hc

lemma quiet_ident {d : Char} (hw : ∀ c ∈ w, isIdentChar c)
    (hs : ∀ c ∈ s, isBlank c) (hd : isBlank d = false) (hopen : isOpening d = false)
    (hsep : s ≠ [] ∨ isIdentChar d = false) : Quiet w (s ++ d :: z) := by
  refine quiet_of_class (fun _ => isIdentChar_of_isAsciiAlpha)
    (fun _ => isIdentChar_eq_false_of_isBlank) hw ?_ (not_opens hs hd hopen)
  cases s with
  | nil => simpa using hsep
  | cons c s => simp [isIdentChar_eq_false_of_isBlank (hs c mem_cons_self)]

/-- **Further parts of a dotted name**: there are none, or they start with white space and a dot and
only the last one can announce a header. -/
lemma of_spells_many_dotted (hx : Unquoted x) (h : Pattern.Spells (.many true dotted) b x r) :
    x = [] ∨ (∃ s z, x = s ++ '.' :: z ∧ ∀ c ∈ s, isBlank c) ∧
      ∃ p w, x = p ++ w ∧ w ≠ [] ∧ (∀ c ∈ w, isIdentChar c) ∧ Quiet p (w ++ r) := by
  generalize hq : many true dotted = q at h
  induction h with
  | stop => exact .inl rfl
  | @round _ _ b x y r hne hp hmore _ ih =>
    obtain ⟨rfl, rfl⟩ := many.inj hq
    obtain ⟨s, u, w, rfl, hs, hu, hw, hident⟩ :=
      of_spells_dotted (fun c hc => hx c (mem_append_left y hc)) hp
    have hdot : ∀ z, Quiet (s ++ '.' :: u) z := quiet_of_mark hs (by decide) hu
    refine .inr ⟨⟨s, u ++ w ++ y, by simp, hs⟩, ?_⟩
    rcases ih (fun c hc => hx c (mem_append_right _ hc)) rfl with
      rfl | ⟨⟨s', z, hy, hs'⟩, p, v, rfl, hv, hvident, hquiet⟩
    · exact ⟨s ++ '.' :: u, w, by simp, hw, hident, hdot _⟩
    · refine ⟨(s ++ '.' :: u) ++ (w ++ p), v, by simp, hv, hvident, ?_⟩
      refine (hdot _).append (Quiet.append ?_ hquiet)
      rw [← append_assoc, hy, append_assoc]
      exact quiet_ident hident hs' (by decide) (by decide) (.inr (by decide))
  | _ => cases hq

/-- **A dotted name**: only its last part can announce a header. -/
lemma exists_of_spells_qualified (hx : Unquoted x) (h : Pattern.Spells qualified b x r) :
    ∃ p w, x = p ++ w ∧ w ≠ [] ∧ (∀ c ∈ w, isIdentChar c) ∧ Quiet p (w ++ r) := by
  obtain ⟨w, y, rfl, hw, hy⟩ := spells_seq_iff.mp h
  obtain ⟨hne, hident⟩ := of_spells_ident (fun c hc => hx c (mem_append_left y hc)) hw
  rcases of_spells_many_dotted (fun c hc => hx c (mem_append_right w hc)) hy with
    rfl | ⟨⟨s, z, hdot, hs⟩, p, v, rfl, hv, hvident, hquiet⟩
  · exact ⟨[], w, by simp, hne, hident, quiet_nil _⟩
  · refine ⟨w ++ p, v, by simp, hv, hvident, Quiet.append ?_ hquiet⟩
    rw [← append_assoc, hdot, append_assoc]
    exact quiet_ident hident hs (by decide) (by decide) (.inr (by decide))

end SqlOutline.TriggerScan
