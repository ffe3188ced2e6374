import SqlOutline.Proofs.Pattern.Lead
import SqlOutline.Proofs.Pattern.Shift
import SqlOutline.Proofs.Trigger.Header
import SqlOutline.Proofs.Trigger.TextWords

/-!
# The search for block words

The words that open and close blocks are searched for with a pattern.

## Main definitions

* `IsReach`, `Agrees` — what a search takes together, and agreement with the words of a text.

## Main results

* `spells_blockWord_iff` — what the search finds.
* `blockEnd?_eq_closing?` — the end of a block is told by the words of the text.
-/

namespace SqlOutline

open Option Text Pattern Cursor
open List hiding all find?

namespace TriggerScan

variable {l : Cursor} {g : Text} {depth : Nat} {v : TextWord}

/-! ## Keywords -/

variable {c : Char} {s : String} {x y w r : Text} {b : Option Char} {k : Cursor}

lemma letterMatches_iff {k : Char} (hk : k.toUpper = k ∧ k ≠ 'K' ∧ k ≠ 'S') :
    letterMatches k c ↔ c.toUpper = k := by
  simp [letterMatches, hk]

lemma spelled_iff_upper (hs : ∀ k ∈ s.toList, k.toUpper = k ∧ k ≠ 'K' ∧ k ≠ 'S') :
    Spelled s x ↔ upper x = s.toList := by
  unfold Spelled upper
  generalize s.toList = ks at hs
  induction ks generalizing x with
  | nil => simp
  | cons k ks ih =>
    obtain ⟨hk, hs⟩ := forall_mem_cons.mp hs
    cases x with
    | nil => simp
    | cons c x => rw [forall₂_cons, letterMatches_iff hk, ih hs, map_cons, cons.injEq]

lemma isAsciiAlpha_toUpper (h : isAsciiAlpha c) : isAsciiAlpha c.toUpper := by
  have hall : ∀ n < 123, isAsciiAlpha (Char.ofNat n) →
      isAsciiAlpha (Char.ofNat n).toUpper := by decide
  have hc := hall c.toNat (Nat.lt_succ_of_le (toNat_of_isAsciiAlpha h).2)
  rw [Char.ofNat_toNat] at hc
  exact hc h

lemma letterMatches_s_iff : letterMatches 'S' c ↔ c.toUpper = 'S' ∨ c.toUpper = 'ſ' := by
  have hwide : c.toUpper = 'ſ' ↔ c.toNat = 0x17F := by
    constructor
    · intro h
      have hc : isAsciiAlpha c = false := by
        by_contra hc
        have halpha := isAsciiAlpha_toUpper (by simpa using hc)
        rw [h] at halpha
        exact absurd halpha (by decide)
      rw [toUpper_of_not_isAsciiAlpha hc] at h
      rw [h]
      rfl
    · intro h
      obtain rfl : c = 'ſ' := by rw [← Char.ofNat_toNat c, h]
      decide
  rw [hwide]
  simp [letterMatches]

lemma spelled_iff_upper_or {long : String} (a b : Text) (hs : s.toList = a ++ 'S' :: b)
    (hlong : long.toList = a ++ 'ſ' :: b)
    (hplain : ∀ k ∈ a ++ b, k.toUpper = k ∧ k ≠ 'K' ∧ k ≠ 'S') :
    Spelled s x ↔ upper x = s.toList ∨ upper x = long.toList := by
  rw [hs, hlong]
  unfold Spelled
  rw [hs]
  clear hs hlong
  have hcons (c : Char) (y : Text) : upper (c :: y) = c.toUpper :: upper y := rfl
  induction a generalizing x with
  | nil =>
    have hrest {y : Text} : List.Forall₂ (fun k c => letterMatches k c) b y ↔ upper y = b := by
      have hkey := spelled_iff_upper (s := String.ofList b) (x := y) (by simpa using hplain)
      rwa [Spelled, String.toList_ofList] at hkey
    cases x with
    | nil => simp [upper]
    | cons c x =>
      rw [nil_append, nil_append, forall₂_cons, letterMatches_s_iff, hrest, hcons,
        cons.injEq, cons.injEq]
      exact or_and_right
  | cons k a ih =>
    obtain ⟨hk, hplain⟩ := forall_mem_cons.mp hplain
    cases x with
    | nil => simp [upper]
    | cons c x =>
      have hrest : List.Forall₂ (fun k c => letterMatches k c) (a ++ 'S' :: b) x ↔
          upper x = a ++ 'S' :: b ∨ upper x = a ++ 'ſ' :: b := ih hplain
      rw [cons_append, cons_append, forall₂_cons, letterMatches_iff hk, hrest, hcons,
        cons.injEq, cons.injEq]
      exact and_or_left

lemma spelled_case_iff : Spelled "CASE" x ↔ upper x = "CASE".toList ∨ upper x = "CAſE".toList :=
  spelled_iff_upper_or ['C', 'A'] ['E'] rfl rfl (by decide)

lemma isWordChar_of_upper (h : upper x = y) (hy : ∀ c ∈ y, isWordChar c) :
    ∀ c ∈ x, isWordChar c := by
  subst h
  intro c hc
  have hupper := hy c.toUpper (mem_map_of_mem hc)
  cases halpha : isAsciiAlpha c with
  | true => exact isWordChar_of_isAsciiAlpha halpha
  | false => rwa [toUpper_of_not_isAsciiAlpha halpha] at hupper

lemma isWordBoundary_of_word (hne : w ≠ []) (hw : ∀ c ∈ w, isWordChar c)
    (b c : Option Char) : isWordBoundary (w.getLast?.or b) c ↔ c.any isWordChar = false := by
  rw [getLast?_eq_getLast_of_ne_nil hne, some_or, isWordBoundary, any_some, hw _ (getLast_mem hne)]
  simp

lemma isWordBoundary_before_word (hne : w ≠ []) (hw : ∀ c ∈ w, isWordChar c)
    (b : Option Char) (r : Text) :
    isWordBoundary b (w ++ r).head? ↔ b.any isWordChar = false := by
  obtain ⟨c, w, rfl⟩ := exists_cons_of_ne_nil hne
  simp [isWordBoundary, hw c mem_cons_self]

lemma head?_not_blank_of_word (hne : w ≠ []) (hw : ∀ c ∈ w, isWordChar c)
    (r : Text) : (w ++ r).head?.any isBlank = false := by
  obtain ⟨c, w, rfl⟩ := exists_cons_of_ne_nil hne
  have hc := hw c mem_cons_self
  cases hblank : isBlank c with
  | false => simp [hblank]
  | true =>
    rw [isWordChar_eq_false_of_isBlank hblank] at hc
    cases hc

/-! ## The search for block words -/

/-- The words that are taken together with an `END` in front of them. -/
def endWords : List String := "CASE" :: uncountedTextWords

/-- A text is one of some words, in any letter case. -/
def IsOneOf (keywords : List String) (w : Text) : Prop := ∃ k ∈ keywords, upper w = k.toList

instance (keywords : List String) (w : Text) : Decidable (IsOneOf keywords w) :=
  inferInstanceAs (Decidable (∃ k ∈ keywords, upper w = k.toList))

lemma IsOneOf.word {keywords : List String} (h : IsOneOf keywords w)
    (hk : ∀ k ∈ keywords, k.toList ≠ [] ∧ ∀ c ∈ k.toList, isWordChar c) :
    w ≠ [] ∧ ∀ c ∈ w, isWordChar c := by
  obtain ⟨k, hmem, hw⟩ := h
  obtain ⟨hne, hall⟩ := hk k hmem
  refine ⟨?_, isWordChar_of_upper hw hall⟩
  rintro rfl
  exact hne hw.symm

lemma isOneOf_endWords_word (h : IsOneOf endWords w) :
    w ≠ [] ∧ ∀ c ∈ w, isWordChar c := h.word (by decide)

def qualifier : Pattern :=
  all [blanks, anyOf [lit "IF", lit "LOOP", lit "WHILE", lit "REPEAT", lit "CASE"], .boundary]

lemma spells_qualifier_iff :
    qualifier.Spells b x r ↔ ∃ g q, x = g ++ q ∧ g ≠ [] ∧ (∀ c ∈ g, isBlank c) ∧
      IsOneOf endWords q ∧ r.head?.any isWordChar = false := by
  have hword {b : Option Char} {q r : Text} :
      (anyOf [lit "IF", lit "LOOP", lit "WHILE", lit "REPEAT", lit "CASE"]).Spells b q r ↔
        IsOneOf endWords q := by
    simp only [anyOf, spells_alt_iff, spells_lit_iff, spelled_case_iff]
    rw [spelled_iff_upper (by decide), spelled_iff_upper (by decide), spelled_iff_upper (by decide),
      spelled_iff_upper (by decide)]
    simp only [IsOneOf, endWords, uncountedTextWords, mem_cons, not_mem_nil, or_false,
      exists_eq_or_imp, exists_eq_left, or_left_comm]
  rw [qualifier, spells_all_cons_iff]
  constructor
  · rintro ⟨g, z, rfl, hg, hz⟩
    obtain ⟨q, z, rfl, hq, hz⟩ := spells_all_cons_iff.mp hz
    obtain ⟨rfl, hbound⟩ := spells_boundary_iff.mp hz
    have hq := hword.mp hq
    obtain ⟨hne, hall⟩ := isOneOf_endWords_word hq
    obtain ⟨hgne, hblank⟩ := spells_blanks_iff.mp hg
    exact ⟨g, q, by rw [append_nil], hgne, hblank, hq,
      (isWordBoundary_of_word hne hall _ _).mp hbound⟩
  · rintro ⟨g, q, rfl, hgne, hblank, hq, hr⟩
    obtain ⟨hne, hall⟩ := isOneOf_endWords_word hq
    refine ⟨g, q, rfl, spells_blanks_iff.mpr ⟨hgne, hblank⟩, spells_all_cons_iff.mpr
      ⟨q, [], (append_nil q).symm, hword.mpr hq, ?_⟩⟩
    exact spells_boundary_iff.mpr ⟨rfl, (isWordBoundary_of_word hne hall _ _).mpr hr⟩

/-- The words that open and close blocks, as they are searched for. -/
def blockWords : List String := ["BEGIN", "CASE", "CAſE", "END"]

lemma isOneOf_blockWords_word (h : IsOneOf blockWords w) :
    w ≠ [] ∧ ∀ c ∈ w, isWordChar c := h.word (by decide)

/-- A block word with what is taken together with it: nothing, or behind `END` white space and a
word. -/
def IsReach (w x : Text) : Prop :=
  x = [] ∨ upper w = "END".toList ∧ ∃ g q, x = g ++ q ∧ g ≠ [] ∧ (∀ c ∈ g, isBlank c) ∧
    IsOneOf endWords q

lemma isWordBoundary_of_isReach (hw : IsOneOf blockWords w) (hy : IsReach w y) (b c : Option Char) :
    isWordBoundary ((w ++ y).getLast?.or b) c ↔ c.any isWordChar = false := by
  obtain ⟨hne, hall⟩ := isOneOf_blockWords_word hw
  rcases hy with rfl | ⟨-, g, q, rfl, -, -, hq⟩
  · rw [append_nil]
    exact isWordBoundary_of_word hne hall b c
  · obtain ⟨hqne, hqall⟩ := isOneOf_endWords_word hq
    rw [getLast?_append_of_ne_nil _ (append_ne_nil_of_right_ne_nil _ hqne),
      getLast?_append_of_ne_nil _ hqne]
    exact isWordBoundary_of_word hqne hqall b c

/-- **What the search for block words finds.** -/
lemma spells_blockWord_iff :
    blockWord.Spells b x r ↔ b.any isWordChar = false ∧ r.head?.any isWordChar = false ∧
      ∃ w y, x = w ++ y ∧ IsOneOf blockWords w ∧ IsReach w y := by
  have hblock : blockWord = all [.boundary,
      anyOf [lit "BEGIN", lit "CASE", all [lit "END", opt qualifier]], .boundary] := rfl
  have hword {w : Text} : IsOneOf blockWords w ↔
      Spelled "BEGIN" w ∨ Spelled "CASE" w ∨ Spelled "END" w := by
    rw [spelled_case_iff, spelled_iff_upper (by decide), spelled_iff_upper (by decide)]
    simp only [IsOneOf, blockWords, mem_cons, not_mem_nil, or_false, exists_eq_or_imp,
      exists_eq_left]
    exact or_congr_right or_assoc.symm
  have hend {w : Text} : Spelled "END" w ↔ upper w = "END".toList := spelled_iff_upper (by decide)
  rw [hblock, spells_all_cons_iff]
  constructor
  · rintro ⟨x, z, rfl, hx, hz⟩
    obtain ⟨rfl, hstart⟩ := spells_boundary_iff.mp hx
    obtain ⟨x, z, rfl, hx, hz⟩ := spells_all_cons_iff.mp hz
    obtain ⟨rfl, hstop⟩ := spells_boundary_iff.mp hz
    rw [append_nil] at hstart ⊢
    have hparts : ∃ w y, x = w ++ y ∧ IsOneOf blockWords w ∧ IsReach w y := by
      simp only [anyOf, spells_alt_iff, spells_lit_iff] at hx
      rcases hx with hx | hx | hx
      · exact ⟨x, [], by simp, hword.mpr (.inl hx), .inl rfl⟩
      · exact ⟨x, [], by simp, hword.mpr (.inr (.inl hx)), .inl rfl⟩
      · obtain ⟨w, y, rfl, hw, hy⟩ := spells_all_cons_iff.mp hx
        have hkey := spells_lit_iff.mp hw
        refine ⟨w, y, rfl, hword.mpr (.inr (.inr hkey)), ?_⟩
        rcases spells_opt_iff.mp hy with hy | hy
        · obtain ⟨g, q, rfl, hg, hblank, hq, -⟩ := spells_qualifier_iff.mp hy
          exact .inr ⟨hend.mp hkey, g, q, rfl, hg, hblank, hq⟩
        · exact .inl hy
    obtain ⟨w, y, rfl, hw, hy⟩ := hparts
    obtain ⟨hne, hall⟩ := isOneOf_blockWords_word hw
    rw [append_assoc, isWordBoundary_before_word hne hall] at hstart
    exact ⟨hstart, (isWordBoundary_of_isReach hw hy _ _).mp hstop, w, y, by simp, hw, hy⟩
  · rintro ⟨hb, hr, w, y, rfl, hw, hy⟩
    obtain ⟨hne, hall⟩ := isOneOf_blockWords_word hw
    refine ⟨[], w ++ y, rfl, spells_boundary_iff.mpr ⟨rfl, ?_⟩, spells_all_cons_iff.mpr
      ⟨w ++ y, [], (append_nil _).symm, ?_, spells_boundary_iff.mpr
        ⟨rfl, (isWordBoundary_of_isReach hw hy _ _).mpr hr⟩⟩⟩
    · rw [append_assoc]
      exact (isWordBoundary_before_word hne hall _ _).mpr hb
    · simp only [anyOf, spells_alt_iff, spells_lit_iff]
      rcases hy with rfl | ⟨hupper, g, q, rfl, hg, hblank, hq⟩
      · rw [append_nil]
        refine (hword.mp hw).imp_right (Or.imp_right fun h => spells_all_cons_iff.mpr ?_)
        exact ⟨w, [], by simp, spells_lit_iff.mpr h, spells_opt_iff.mpr (.inr rfl)⟩
      · refine .inr (.inr (spells_all_cons_iff.mpr ⟨w, g ++ q, rfl, ?_, ?_⟩))
        · exact spells_lit_iff.mpr (hend.mpr hupper)
        · exact spells_opt_iff.mpr (.inl (spells_qualifier_iff.mpr
            ⟨g, q, rfl, hg, hblank, hq, by simpa using hr⟩))

lemma head?_of_isReach (hy : IsReach w y) (hr : r.head?.any isWordChar = false) :
    (y ++ r).head?.any isWordChar = false := by
  rcases hy with rfl | ⟨-, g, q, rfl, hg, hblank, -⟩
  · exact hr
  · obtain ⟨c, g, rfl⟩ := exists_cons_of_ne_nil hg
    simp [isWordChar_eq_false_of_isBlank (hblank c mem_cons_self)]

/-- **What matches at a word**: a block word and what is taken together with it. -/
lemma of_matchAt?_blockWord (h : blockWord.matchAt? k = some l) :
    k.before.any isWordChar = false ∧ l.rest.head?.any isWordChar = false ∧
      ∃ w y, k.Reaches (w ++ y) l ∧ IsOneOf blockWords w ∧ IsReach w y ∧
        k.rest = w ++ (y ++ l.rest) := by
  obtain ⟨x, hx, hspells⟩ := exists_spells_of_matchAt? rfl h
  obtain ⟨hb, hr, w, y, rfl, hw, hy⟩ := spells_blockWord_iff.mp hspells
  exact ⟨hb, hr, w, y, hx, hw, hy, by rw [hx.rest, append_assoc]⟩

section Word

variable {k : Cursor} {w r : Text}

lemma word_eq_of_matchAt? (hw : ∀ c ∈ w, isWordChar c)
    (hr : r.head?.any isWordChar = false) (hk : k.rest = w ++ r)
    (h : blockWord.matchAt? k = some l) :
    IsOneOf blockWords w ∧ ∃ y, k.Reaches (w ++ y) l ∧ IsReach w y ∧ r = y ++ l.rest := by
  obtain ⟨-, hl, v, y, hreach, hv, hy, hrest⟩ := of_matchAt?_blockWord h
  obtain ⟨rfl, rfl⟩ :=
    append_inj_of_class (hk.symm.trans hrest) hw (isOneOf_blockWords_word hv).2 hr
    (head?_of_isReach hy hl)
  exact ⟨hv, y, hreach, hy, rfl⟩

lemma exists_matchAt?_of_word (hb : k.before.any isWordChar = false) (hw : IsOneOf blockWords w)
    (hr : r.head?.any isWordChar = false) (hk : k.rest = w ++ r)
    (hmax : ∀ y z, r = y ++ z → z.head?.any isWordChar = false → IsReach w y → y = []) :
    ∃ l, blockWord.matchAt? k = some l ∧ k.Reaches w l := by
  have hspells : blockWord.Spells k.before w r :=
    spells_blockWord_iff.mpr ⟨hb, hr, w, [], (append_nil w).symm, hw, .inl rfl⟩
  obtain ⟨l, hl⟩ := isSome_iff_exists.mp (isSome_matchAt?_of_spells hspells hk)
  obtain ⟨-, y, hreach, hy, hrest⟩ := word_eq_of_matchAt? (isOneOf_blockWords_word hw).2 hr hk hl
  obtain ⟨-, hend, -⟩ := of_matchAt?_blockWord hl
  obtain rfl := hmax y l.rest hrest hend hy
  exact ⟨l, hl, by rwa [append_nil] at hreach⟩

/-- **An `END` with a word that is taken together with it.**

**Proof sketch.** The other block words fail here, and behind `END` the attempt with the white space
and the word is made first. It succeeds, and it can end nowhere else. -/
lemma exists_matchAt?_of_end {q : Text} (hb : k.before.any isWordChar = false)
    (hw : upper w = "END".toList) (hg : g ≠ []) (hblank : ∀ c ∈ g, isBlank c)
    (hq : IsOneOf endWords q) (hr : r.head?.any isWordChar = false)
    (hk : k.rest = w ++ (g ++ (q ++ r))) :
    ∃ l, blockWord.matchAt? k = some l ∧ k.Reaches (w ++ (g ++ q)) l := by
  have hwkey : Spelled "END" w := (spelled_iff_upper (by decide)).mpr hw
  obtain ⟨hwne, hwall⟩ := isOneOf_blockWords_word ⟨"END", by decide, hw⟩
  obtain ⟨hqne, hqall⟩ := isOneOf_endWords_word hq
  have hhead : (g ++ (q ++ r)).head?.any isWordChar = false := by
    have hreach : IsReach w (g ++ q) := .inr ⟨hw, g, q, rfl, hg, hblank, hq⟩
    simpa using head?_of_isReach hreach hr
  set start : Cursor := { k with groups := [] } with hstart
  let last : Continuation := fun l => boundary.run l some
  have hlast {l m : Cursor} (h : last l = some m) :
      m = l ∧ isWordBoundary l.before l.rest.head? := by
    simp only [last, run] at h
    split_ifs at h with hbound
    exact ⟨(some.inj h).symm, hbound⟩
  -- The other block words do not stand here.
  have hother {s : String} (hs : (lit s).floats)
      (hkey : ∀ x, Spelled s x → IsOneOf blockWords x ∧ upper x ≠ "END".toList) :
      (lit s).run start last = none := by
    by_contra hsome
    obtain ⟨m, hm⟩ := ne_none_iff_exists'.mp hsome
    obtain ⟨x, l, hl, hx, hm⟩ := sound_of_floats hs start last m hm
    obtain ⟨hxword, hne⟩ := hkey x (spells_lit_iff.mp hx)
    obtain ⟨hxne, hxall⟩ := isOneOf_blockWords_word hxword
    have hbound := (hlast hm).2
    rw [hl.before, isWordBoundary_of_word hxne hxall] at hbound
    obtain ⟨rfl, -⟩ := append_inj_of_class (hl.rest.symm.trans hk) hxall hwall hbound hhead
    exact hne hw
  have hbegin : (lit "BEGIN").run start last = none := hother rfl fun x hx => by
    have hx := (spelled_iff_upper (by decide)).mp hx
    exact ⟨⟨"BEGIN", by decide, hx⟩, by rw [hx]; decide⟩
  have hcase : (lit "CASE").run start last = none := hother rfl fun x hx => by
    rcases spelled_case_iff.mp hx with hx | hx
    · exact ⟨⟨"CASE", by decide, hx⟩, by rw [hx]; decide⟩
    · exact ⟨⟨"CAſE", by decide, hx⟩, by rw [hx]; decide⟩
  -- Behind `END` the longer attempt is made first.
  set middle : Cursor := start.behind w
  have hmiddle : start.Reaches w middle := reaches_behind hk
  have hrest : middle.rest = (g ++ q) ++ r := by
    rw [append_assoc]
    exact hmiddle.rest_eq hk
  have hsome : (qualifier.run middle last).isSome := by
    refine complete qualifier middle last (g ++ q) r ?_ hrest fun l hl => ?_
    · exact spells_qualifier_iff.mpr ⟨g, q, rfl, hg, hblank, hq, hr⟩
    · have hbound : isWordBoundary l.before l.rest.head? := by
        rw [hl.rest_eq hrest, hl.before, getLast?_append_of_ne_nil _ hqne]
        exact (isWordBoundary_of_word hqne hqall _ _).mpr hr
      simp [last, run, hbound]
  have hrun : blockWord.matchAt? k = qualifier.run middle last := by
    have hbound : isWordBoundary start.before start.rest.head? := by
      rw [hstart]
      dsimp only
      rw [hk, isWordBoundary_before_word hwne hwall]
      exact hb
    have hparts : blockWord = all [.boundary, .alt (lit "BEGIN") (.alt (lit "CASE")
      (all [lit "END", opt qualifier])), .boundary] := rfl
    have hblock : blockWord.run start some = (alt (lit "BEGIN") (.alt (lit "CASE")
        (all [lit "END", opt qualifier]))).run start last := by
      rw [hparts, run_all_cons, run, if_pos hbound, run_all_cons]
      rfl
    rw [matchAt?, hblock, run_alt, hbegin, none_or, run_alt, hcase, none_or, run_all_cons,
      run_lit (k := start) hwkey hk]
    have hopt : (all [opt qualifier]).run middle last =
        (qualifier.run middle last).or (last middle) := run_alt qualifier .empty middle last
    rw [hopt, or_of_isSome hsome]
  -- It can end nowhere else.
  obtain ⟨m, hm⟩ := isSome_iff_exists.mp hsome
  obtain ⟨x, l, hl, hx, hm'⟩ := sound_of_floats rfl middle last m hm
  obtain ⟨rfl, -⟩ := hlast hm'
  obtain ⟨g', q', rfl, -, hblank', hq', hr'⟩ := spells_qualifier_iff.mp hx
  obtain ⟨hqne', hqall'⟩ := isOneOf_endWords_word hq'
  have hsplit : g' ++ (q' ++ m.rest) = g ++ (q ++ r) := by
    rw [← append_assoc, ← hl.rest, hrest, append_assoc]
  obtain ⟨rfl, hword⟩ := append_inj_of_class hsplit hblank' hblank
    (head?_not_blank_of_word hqne' hqall' _) (head?_not_blank_of_word hqne hqall _)
  obtain ⟨rfl, -⟩ := append_inj_of_class hword hqall' hqall hr' hr
  have hreach := hmiddle.trans hl
  exact ⟨m, hrun.trans hm, hreach.rest, hreach.before, hreach.offset⟩

end Word

/-! ## Block words, one after the other -/

lemma proper_blockWord : blockWord.Proper := by
  refine ⟨rfl, fun b r h => ?_⟩
  obtain ⟨-, -, w, y, hnil, hw, -⟩ := spells_blockWord_iff.mp h
  exact (isOneOf_blockWords_word hw).1 (append_eq_nil_iff.mp hnil.symm).1

lemma matchAt?_blockWord_eq_none
    (h : k.before.any isWordChar ∨ k.rest.head?.any isWordChar = false) :
    blockWord.matchAt? k = none := by
  by_contra hsome
  obtain ⟨l, hl⟩ := ne_none_iff_exists'.mp hsome
  obtain ⟨hb, -, w, y, -, hw, -, hrest⟩ := of_matchAt?_blockWord hl
  obtain ⟨hne, hall⟩ := isOneOf_blockWords_word hw
  obtain ⟨c, w, rfl⟩ := exists_cons_of_ne_nil hne
  rcases h with h | h
  · rw [h] at hb
    cases hb
  · rw [hrest] at h
    simp [hall c mem_cons_self] at h

lemma exists_of_reaches_inside {n : Nat} {z : Text}
    (hk : Cursor.Reaches ⟨b, x ++ y, n, []⟩ z k) (hlt : k.offset < n + byteLength x) :
    ∃ u, u ≠ [] ∧ x = z ++ u ∧ k.rest = u ++ y := by
  have hoffset : k.offset = n + byteLength z := hk.offset
  have hrest : x ++ y = z ++ k.rest := hk.rest
  rcases append_eq_append_iff.mp hrest with ⟨v, rfl, -⟩ | ⟨u, rfl, hu⟩
  · rw [byteLength_append] at hoffset
    omega
  · refine ⟨u, ?_, rfl, hu⟩
    rintro rfl
    rw [append_nil] at hlt
    omega

lemma findAllFrom_gap (hg : ∀ c ∈ g, isWordChar c = false) (b : Option Char) (n : Nat) (t : Text) :
    blockWord.findAllFrom b n (g ++ t) =
      blockWord.findAllFrom (g.getLast?.or b) (n + byteLength g) t := by
  refine proper_blockWord.findAllFrom_append fun z k hk hlt => matchAt?_blockWord_eq_none (.inr ?_)
  obtain ⟨u, hne, rfl, hrest⟩ := exists_of_reaches_inside hk hlt
  obtain ⟨c, u, rfl⟩ := exists_cons_of_ne_nil hne
  rw [hrest]
  simp [hg c (by simp)]

lemma findAllFrom_word_of_not (hw : ∀ c ∈ w, isWordChar c)
    (hr : r.head?.any isWordChar = false) (hnot : ¬ IsOneOf blockWords w) (b : Option Char)
    (n : Nat) : blockWord.findAllFrom b n (w ++ r) =
      blockWord.findAllFrom (w.getLast?.or b) (n + byteLength w) r := by
  refine proper_blockWord.findAllFrom_append fun z k hk hlt => ?_
  obtain ⟨u, hne, hwz, hrest⟩ := exists_of_reaches_inside hk hlt
  by_cases hz : z = []
  · by_contra hsome
    obtain ⟨l, hl⟩ := ne_none_iff_exists'.mp hsome
    rw [hz, nil_append] at hwz
    rw [← hwz] at hrest
    exact hnot (word_eq_of_matchAt? hw hr hrest hl).1
  · have hlast : z.getLast hz ∈ w := by
      rw [hwz]
      exact mem_append_left u (getLast_mem hz)
    refine matchAt?_blockWord_eq_none (.inl ?_)
    rw [hk.before, getLast?_eq_getLast_of_ne_nil hz]
    exact hw _ hlast

lemma exists_findAllFrom_of_matchAt? {n : Nat} (h : blockWord.matchAt? ⟨b, x ++ r, n, []⟩ = some l)
    (hl : Cursor.Reaches ⟨b, x ++ r, n, []⟩ x l) :
    (blockWord.findAllFrom b n (x ++ r)).map (·.whole) = ⟨n, n + byteLength x, x⟩ ::
      (blockWord.findAllFrom (x.getLast?.or b) (n + byteLength x) r).map (·.whole) := by
  have hrest : l.rest = r := hl.rest_eq rfl
  have hbefore : l.before = x.getLast?.or b := hl.before
  have hoffset : l.offset = n + byteLength x := hl.offset
  rw [proper_blockWord.findAllFrom_of_some (findFrom?_of_matchAt? h), map_cons, hrest, hbefore,
    hoffset, Found.whole, textTo, hoffset, Nat.add_sub_cancel_left, takeBytes_byteLength]

lemma TextWord.is_iff {w : TextWord} {k : String} : w.is k ↔ upper w.text = k.toList :=
  beq_iff_eq

lemma TextWord.is_eq_false {w : TextWord} {k : String} (h : upper w.text ≠ k.toList) :
    w.is k = false := beq_eq_false_iff_ne.mpr h

lemma closing?_some {w : TextWord} {ws : List TextWord}
    (h : ∀ v ∈ ws.head?, w.is "END" → v.adjoins → v.is "CASE" = false) :
    closing? depth (some w) ws = closing? depth none ws := by
  cases ws with
  | nil => rfl
  | cons v ws =>
    have hv := h v rfl
    have hmark : textMark (some w) v ws.head? = textMark none v ws.head? := by
      rw [textMark, textMark]
      cases hcase : v.is "CASE" with
      | false => rfl
      | true =>
        have hfalse : (v.adjoins && w.is "END") = false := by
          cases hend : w.is "END" with
          | false => rw [Bool.and_false]
          | true =>
            cases hadjoins : v.adjoins with
            | false => rfl
            | true =>
              rw [hv hend hadjoins] at hcase
              cases hcase
        simp [hfalse]
    rw [closing?, closing?, hmark]

lemma closing?_some_of_ne {w : TextWord} (hw : upper w.text ≠ "END".toList)
    (ws : List TextWord) : closing? depth (some w) ws = closing? depth none ws :=
  closing?_some fun _ _ hend => absurd (TextWord.is_iff.mp hend) hw

section Step

variable {depth : Nat} {w : TextWord} {ws : List TextWord}

lemma closing?_opens (h : upper w.text = "BEGIN".toList ∨ upper w.text = "CASE".toList) :
    closing? depth none (w :: ws) = closing? (depth + 1) none ws := by
  have hmark : textMark none w ws.head? = .opens := by
    rcases h with h | h
    · rw [textMark, if_pos (TextWord.is_iff.mpr h)]
    · simp [textMark, TextWord.is, h]
  rw [closing?, hmark]
  refine closing?_some_of_ne ?_ ws
  rcases h with h | h <;> rw [h] <;> decide

lemma closing?_other (hbegin : upper w.text ≠ "BEGIN".toList) (hcase : upper w.text ≠ "CASE".toList)
    (hend : upper w.text ≠ "END".toList) :
    closing? depth none (w :: ws) = closing? depth none ws := by
  have hmark : textMark none w ws.head? = .none := by
    rw [textMark, TextWord.is_eq_false hbegin, TextWord.is_eq_false hcase,
      TextWord.is_eq_false hend]
    rfl
  rw [closing?, hmark]
  exact closing?_some_of_ne hend ws

lemma closing?_end (hend : upper w.text = "END".toList)
    (h : ∀ v ∈ ws.head?, v.adjoins → ¬ IsOneOf endWords v.text) :
    closing? depth none (w :: ws) =
      if depth = 0 then some w.start else closing? (depth - 1) none ws := by
  have hmark : textMark none w ws.head? = .closes := by
    have hafter : (ws.head?.any fun v => v.adjoins && uncountedTextWords.any v.is) = false := by
      cases hhead : ws.head? with
      | none => rfl
      | some v =>
        by_contra hv
        simp only [any_some, Bool.not_eq_false, Bool.and_eq_true, List.any_eq_true] at hv
        obtain ⟨hadjoins, k, hk, hkey⟩ := hv
        exact h v hhead hadjoins ⟨k, mem_cons_of_mem _ hk, TextWord.is_iff.mp hkey⟩
    simp [textMark, TextWord.is, hend, hafter]
  have hnext : ∀ v ∈ ws.head?, w.is "END" → v.adjoins → v.is "CASE" = false := by
    intro v hv _ hadjoins
    exact TextWord.is_eq_false fun hcase => h v hv hadjoins ⟨"CASE", by decide, hcase⟩
  rw [closing?, hmark]
  dsimp only
  rw [closing?_some hnext]

lemma closing?_end_case (hend : upper w.text = "END".toList)
    (hadjoins : v.adjoins) (hcase : upper v.text = "CASE".toList) :
    closing? depth none (w :: v :: ws) =
      if depth = 0 then some w.start else closing? (depth - 1) none ws := by
  have hmark : textMark none w (some v) = .closes := by
    simp [textMark, TextWord.is, hend, hcase, uncountedTextWords]
  have hmark' : textMark (some w) v ws.head? = .none := by
    simp [textMark, TextWord.is, hend, hcase, hadjoins]
  have hne : upper v.text ≠ "END".toList := by
    rw [hcase]
    decide
  rw [closing?, head?_cons, hmark]
  dsimp only
  rw [closing?, hmark']
  dsimp only
  rw [closing?_some_of_ne hne]

lemma closing?_end_uncounted (hend : upper w.text = "END".toList)
    (hadjoins : v.adjoins) (hv : IsOneOf uncountedTextWords v.text) :
    closing? depth none (w :: v :: ws) = closing? depth none ws := by
  obtain ⟨k, hk, hkey⟩ := hv
  have hmark : textMark none w (some v) = .none := by
    have hany : uncountedTextWords.any v.is :=
      any_eq_true.mpr ⟨k, hk, TextWord.is_iff.mpr hkey⟩
    simp [textMark, TextWord.is, hend, hadjoins, hany]
  have hne : ∀ k ∈ uncountedTextWords, k.toList ≠ "BEGIN".toList ∧ k.toList ≠ "CASE".toList ∧
      k.toList ≠ "END".toList := by decide
  obtain ⟨hbegin, hcase, hend'⟩ := hne k hk
  rw [← hkey] at hbegin hcase hend'
  rw [closing?, head?_cons, hmark]
  dsimp only
  rw [closing?_some fun u hu _ _ => ?_, closing?_other hbegin hcase hend']
  obtain rfl := some.inj hu
  exact TextWord.is_eq_false hcase

end Step

section Capture

variable {depth n m : Nat} {x : Text} {cs : List Capture}

lemma blockEnd?_opens (h : upper x = "BEGIN".toList ∨ upper x = "CASE".toList) :
    blockEnd? depth (⟨n, m, x⟩ :: cs) = blockEnd? (depth + 1) cs := by
  rw [blockEnd?]
  rcases h with h | h <;> simp [h]

lemma blockEnd?_closes
    (h : upper x = "END".toList ∨ ∃ y, upper x = "END".toList ++ y ++ "CASE".toList) :
    blockEnd? (depth + 1) (⟨n, m, x⟩ :: cs) = if depth = 0 then some n else blockEnd? depth cs := by
  rw [blockEnd?]
  rcases h with h | ⟨y, h⟩
  · simp [h]
  · have hsuffix : endsWith "CASE".toList ("END".toList ++ y ++ "CASE".toList) := by
      rw [endsWith, isSuffixOf_iff_suffix]
      exact suffix_append _ _
    rw [h, hsuffix]
    simp

lemma blockEnd?_other (hbegin : upper x ≠ "BEGIN".toList) (hend : upper x ≠ "END".toList)
    (hcase : ¬ "CASE".toList <:+ upper x) :
    blockEnd? depth (⟨n, m, x⟩ :: cs) = blockEnd? depth cs := by
  have hsuffix : endsWith "CASE".toList (upper x) = false := by
    rw [endsWith, Bool.eq_false_iff, ne_eq, isSuffixOf_iff_suffix]
    exact hcase
  have hne : upper x ≠ "CASE".toList := fun h => hcase (h ▸ suffix_rfl)
  rw [blockEnd?]
  dsimp only
  rw [hsuffix, beq_eq_false_iff_ne.mpr hbegin, beq_eq_false_iff_ne.mpr hend,
    beq_eq_false_iff_ne.mpr hne]
  rfl

end Capture

lemma not_case_suffix {k : String} (hk : k ∈ uncountedTextWords) (y : Text) :
    ¬ "CASE".toList <:+ y ++ k.toList := by
  rw [← reverse_prefix, reverse_append]
  simp only [uncountedTextWords, mem_cons, not_mem_nil, or_false] at hk
  rcases hk with rfl | rfl | rfl | rfl | rfl <;> simp

/-! ## The end of a block -/

/-- The search for block words and the words of the text tell the same end of a block, wherever the
text stands, unless it goes on with a word. -/
def Agrees (t : Text) : Prop :=
  ∀ (b : Option Char) (n depth : Nat), (b.any isWordChar = false ∨ t.head?.any isWordChar = false) →
    blockEnd? (depth + 1) ((blockWord.findAllFrom b n t).map (·.whole)) =
      closing? depth none (textWords n t)

lemma closing?_behind (depth : Nat) (g : Text) (ws : List TextWord) :
    closing? depth none (behind g ws) = closing? depth none ws := by
  cases ws with
  | nil => rfl
  | cons w ws =>
    have hrest (d : Nat) : closing? d (some { w with gap := g ++ w.gap }) ws =
        closing? d (some w) ws := by
      cases ws <;> rfl
    rw [behind, closing?, closing?, textMark_behind]
    simp only [hrest]

lemma agrees_nil : Agrees [] := by
  intro b n depth _
  have hnone : blockWord.findAllFrom b n [] = [] := by
    rw [findAllFrom, findFrom?, matchAt?_blockWord_eq_none (.inr rfl)]
    rfl
  rw [hnone]
  rfl

lemma Agrees.gap {t : Text} (ht : Agrees t) (hg : ∀ c ∈ g, isWordChar c = false) :
    Agrees (g ++ t) := by
  intro b n depth hb
  rw [findAllFrom_gap hg, textWords_gap hg, closing?_behind]
  apply ht
  cases hlast : g.getLast? with
  | none =>
    obtain rfl := getLast?_eq_none_iff.mp hlast
    exact hb
  | some c => exact .inl (hg c (mem_of_getLast? hlast))

section Word

variable {w r : Text}

lemma before_of_word (hne : w ≠ []) (hw : ∀ c ∈ w, isWordChar c)
    (h : b.any isWordChar = false ∨ (w ++ r).head?.any isWordChar = false) :
    b.any isWordChar = false := by
  obtain ⟨c, w, rfl⟩ := exists_cons_of_ne_nil hne
  rcases h with h | h
  · exact h
  · simp [hw c mem_cons_self] at h

lemma Agrees.word_of_not (hr : Agrees r) (hne : w ≠ []) (hw : ∀ c ∈ w, isWordChar c)
    (hhead : r.head?.any isWordChar = false) (hnot : ¬ IsOneOf blockWords w) : Agrees (w ++ r) := by
  intro b n depth _
  have hkey {k : String} (hk : k ∈ blockWords) : upper w ≠ k.toList := fun h => hnot ⟨k, hk, h⟩
  rw [findAllFrom_word_of_not hw hhead hnot, textWords_run hne hw hhead,
    closing?_other (hkey (by decide)) (hkey (by decide)) (hkey (by decide))]
  exact hr _ _ _ (.inr hhead)

lemma Agrees.word_of_ne_end (hr : Agrees r) (hhead : r.head?.any isWordChar = false)
    (hw : IsOneOf blockWords w) (hend : upper w ≠ "END".toList) : Agrees (w ++ r) := by
  intro b n depth hb
  obtain ⟨hne, hall⟩ := isOneOf_blockWords_word hw
  have hmax : ∀ y z, r = y ++ z → z.head?.any isWordChar = false → IsReach w y → y = [] := by
    rintro y z - - (hy | ⟨hw, -⟩)
    · exact hy
    · exact absurd hw hend
  obtain ⟨l, hl, hreach⟩ := exists_matchAt?_of_word (k := ⟨b, w ++ r, n, []⟩)
    (before_of_word hne hall hb) hw hhead rfl hmax
  rw [exists_findAllFrom_of_matchAt? hl hreach, textWords_run hne hall hhead]
  obtain ⟨k, hk, hkey⟩ := hw
  by_cases hopens : upper w = "BEGIN".toList ∨ upper w = "CASE".toList
  · rw [blockEnd?_opens hopens, closing?_opens hopens]
    exact hr _ _ _ (.inr hhead)
  · obtain ⟨hbegin, hcase⟩ := not_or.mp hopens
    have hlong : upper w = "CAſE".toList := by
      simp only [blockWords, mem_cons, not_mem_nil, or_false] at hk
      rcases hk with rfl | rfl | rfl | rfl
      · exact absurd hkey hbegin
      · exact absurd hkey hcase
      · exact hkey
      · exact absurd hkey hend
    rw [blockEnd?_other hbegin hend (by rw [hlong]; decide), closing?_other hbegin hcase hend]
    exact hr _ _ _ (.inr hhead)

lemma Agrees.end_alone (hr : Agrees r) (hhead : r.head?.any isWordChar = false)
    (hw : upper w = "END".toList)
    (halone : ∀ g q z, r = g ++ (q ++ z) → z.head?.any isWordChar = false → g ≠ [] →
      (∀ c ∈ g, isBlank c) → ¬ IsOneOf endWords q) : Agrees (w ++ r) := by
  intro b n depth hb
  have hblock : IsOneOf blockWords w := ⟨"END", by decide, hw⟩
  obtain ⟨hne, hall⟩ := isOneOf_blockWords_word hblock
  have hmax : ∀ y z, r = y ++ z → z.head?.any isWordChar = false → IsReach w y → y = [] := by
    rintro y z hyz hz (hy | ⟨-, g, q, rfl, hg, hblank, hq⟩)
    · exact hy
    · exact absurd hq (halone g q z (by rw [hyz, append_assoc]) hz hg hblank)
  obtain ⟨l, hl, hreach⟩ := exists_matchAt?_of_word (k := ⟨b, w ++ r, n, []⟩)
    (before_of_word hne hall hb) hblock hhead rfl hmax
  have hnext : ∀ v ∈ (textWords (n + byteLength w) r).head?, v.adjoins →
      ¬ IsOneOf endWords v.text := by
    obtain ⟨g, hg, rfl | ⟨q, z, rfl, hqne, hq, hz⟩⟩ := exists_first_run r
    · have hnil := textWords_gap hg (n + byteLength w) []
      rw [append_nil] at hnil
      rw [hnil]
      simp [textWords, behind]
    · rw [textWords_gap hg, textWords_run hqne hq hz]
      rintro v hv hadjoins
      obtain rfl := some.inj hv
      refine halone g q z rfl hz ?_ ?_
      · rintro rfl
        obtain ⟨c, q, rfl⟩ := exists_cons_of_ne_nil hqne
        simp [hq c mem_cons_self] at hhead
      · simpa [TextWord.adjoins] using hadjoins
  rw [exists_findAllFrom_of_matchAt? hl hreach, textWords_run hne hall hhead,
    blockEnd?_closes (.inl hw), closing?_end hw hnext]
  cases depth with
  | zero => rfl
  | succ depth => exact hr _ _ _ (.inr hhead)

lemma Agrees.end_with {q : Text} (hr : Agrees r) (hhead : r.head?.any isWordChar = false)
    (hw : upper w = "END".toList) (hg : g ≠ []) (hblank : ∀ c ∈ g, isBlank c)
    (hq : IsOneOf endWords q) : Agrees (w ++ (g ++ (q ++ r))) := by
  intro b n depth hb
  obtain ⟨hne, hall⟩ := isOneOf_blockWords_word ⟨"END", by decide, hw⟩
  obtain ⟨hqne, hqall⟩ := isOneOf_endWords_word hq
  have hgap : ∀ c ∈ g, isWordChar c = false := fun c hc =>
    isWordChar_eq_false_of_isBlank (hblank c hc)
  have hgr : (g ++ (q ++ r)).head?.any isWordChar = false := by
    have hreach : IsReach w (g ++ q) := .inr ⟨hw, g, q, rfl, hg, hblank, hq⟩
    simpa using head?_of_isReach hreach hhead
  obtain ⟨l, hl, hreach⟩ := exists_matchAt?_of_end (k := ⟨b, w ++ (g ++ (q ++ r)), n, []⟩)
    (before_of_word hne hall hb) hw hg hblank hq hhead rfl
  have hsplit : w ++ (g ++ (q ++ r)) = (w ++ (g ++ q)) ++ r := by simp
  have hcaptures : (blockWord.findAllFrom b n (w ++ (g ++ (q ++ r)))).map (·.whole) =
      ⟨n, n + byteLength (w ++ (g ++ q)), w ++ (g ++ q)⟩ ::
        (blockWord.findAllFrom ((w ++ (g ++ q)).getLast?.or b) (n + byteLength (w ++ (g ++ q)))
          r).map (·.whole) := by
    rw [hsplit] at hl hreach ⊢
    exact exists_findAllFrom_of_matchAt? hl hreach
  have hwords : textWords n (w ++ (g ++ (q ++ r))) = ⟨n, [], w⟩ ::
      ⟨n + byteLength w + byteLength g, g, q⟩ ::
        textWords (n + byteLength (w ++ (g ++ q))) r := by
    rw [textWords_run hne hall hgr, textWords_gap hgap, textWords_run hqne hqall hhead, behind,
      byteLength_append, byteLength_append, append_nil]
    simp only [Nat.add_assoc]
  have hadjoins : TextWord.adjoins ⟨n + byteLength w + byteLength g, g, q⟩ := by
    simpa [TextWord.adjoins] using hblank
  have hupper : upper (w ++ (g ++ q)) = "END".toList ++ upper g ++ upper q := by
    simp only [upper, map_append, append_assoc]
    rw [← hw, upper]
  rw [hcaptures, hwords]
  obtain ⟨k, hk, hkey⟩ := hq
  rcases mem_cons.mp hk with rfl | hk
  · rw [blockEnd?_closes (.inr ⟨upper g, by rw [hupper, hkey]⟩), closing?_end_case hw hadjoins hkey]
    cases depth with
    | zero => rfl
    | succ depth => exact hr _ _ _ (.inr hhead)
  · rw [closing?_end_uncounted hw hadjoins ⟨k, hk, hkey⟩, blockEnd?_other]
    · exact hr _ _ _ (.inr hhead)
    · rw [hupper]
      simp
    · rw [hupper]
      simpa [upper] using fun h => absurd h hg
    · rw [hupper, hkey]
      exact not_case_suffix hk _

end Word

/-- **The end of a block is told by the words of the text.** -/
lemma blockEnd?_eq_closing? (t : Text) : Agrees t := by
  induction hn : t.length using Nat.strongRecOn generalizing t with
  | ind size ih =>
    obtain ⟨g, hg, rfl | ⟨w, r, rfl, hne, hw, hr⟩⟩ := exists_first_run t
    · have := agrees_nil.gap hg
      rwa [append_nil] at this
    · have hpos := length_pos_of_ne_nil hne
      simp only [length_append] at hn
      apply Agrees.gap _ hg
      have hrest : Agrees r := ih r.length (by omega) r rfl
      by_cases hblock : IsOneOf blockWords w
      · by_cases hend : upper w = "END".toList
        · by_cases halone : ∃ g q z, r = g ++ (q ++ z) ∧ z.head?.any isWordChar = false ∧ g ≠ [] ∧
            (∀ c ∈ g, isBlank c) ∧ IsOneOf endWords q
          · obtain ⟨g', q, z, rfl, hz, hg', hblank, hq⟩ := halone
            refine Agrees.end_with (ih z.length ?_ z rfl) hz hend hg' hblank hq
            simp only [length_append] at hn
            omega
          · refine hrest.end_alone hr hend fun g' q z hr' hz hg' hblank hq => halone ?_
            exact ⟨g', q, z, hr', hz, hg', hblank, hq⟩
        · exact hrest.word_of_ne_end hr hblock hend
      · exact hrest.word_of_not hne hw hr hblock

end TriggerScan

end SqlOutline
