import SqlOutline.Proofs.Trigger.Header

/-!
# The shapes of headers

What the shapes of headers spell, cut where another header can start.

## Main definitions

* `IsDefiner`, `IsStart`, `IsMysqlHeader` — the account, the first words, and the whole header.

## Main results

* `of_spells_mysqlHeader` — the header of a MySQL trigger in a text without quotes.
* `IsMysqlHeader.spelled_of_announces` — another one can start only in the table's name.
-/

namespace SqlOutline.TriggerScan

open Text Pattern
open List hiding all find?

/-! ## The account -/

/-- The clause that names the account a trigger runs as: white space may stand around the sign, and
the account has none. -/
def IsDefiner (x : Text) : Prop :=
  ∃ v s u y e, x = v ++ (s ++ ('=' :: (u ++ (y ++ e)))) ∧ Spelled "DEFINER" v ∧
    (∀ c ∈ s, isBlank c) ∧ (∀ c ∈ u, isBlank c) ∧
    (y ≠ [] ∧ ∀ c ∈ y, isBlank c = false) ∧ e ≠ [] ∧ ∀ c ∈ e, isBlank c

variable {b : Option Char} {x r w s : Text} {k : Cursor}

lemma spells_definer_iff : Pattern.Spells definer b x r ↔ IsDefiner x := by
  simp only [definer, spells_all_cons_iff, spells_lit_iff, spells_blanks0_iff, spells_char_iff,
    spells_some1_one_iff, spells_blanks_iff, Bool.not_eq_true']
  constructor
  · rintro ⟨v, _, rfl, hv, s, _, rfl, hs, _, _, rfl, rfl, u, _, rfl, hu, y, _, rfl, hy, e, _, rfl,
      he, hnil⟩
    obtain rfl := spells_empty_iff.mp hnil
    exact ⟨v, s, u, y, e, by simp, hv, hs, hu, hy, he⟩
  · rintro ⟨v, s, u, y, e, rfl, hv, hs, hu, hy, he⟩
    exact ⟨v, _, rfl, hv, s, _, rfl, hs, ['='], _, rfl, rfl, u, _, rfl, hu, y, _, rfl, hy, e, [],
      by simp, he, .empty⟩

/-- **A place has at most one clause**, if no white space stands behind it. -/
lemma IsDefiner.eq_of_append {x' r' : Text} (hx : IsDefiner x) (hx' : IsDefiner x')
    (h : x ++ r = x' ++ r') (hr : r.head?.any isBlank = false)
    (hr' : r'.head?.any isBlank = false) : x = x' ∧ r = r' := by
  obtain ⟨v, s, u, y, e, rfl, hv, hs, hu, ⟨hy, hyb⟩, he, heb⟩ := hx
  obtain ⟨v', s', u', y', e', rfl, hv', hs', hu', ⟨hy', hyb'⟩, he', heb'⟩ := hx'
  have hhead : ∀ {f : Char → Bool} {a z : Text}, a ≠ [] → (∀ c ∈ a, f c = false) →
      (a ++ z).head?.any f = false := by
    intro f a z hne ha
    obtain ⟨c, a, rfl⟩ := exists_cons_of_ne_nil hne
    simp [ha c mem_cons_self]
  simp only [append_assoc, cons_append] at h
  have hlen : v.length = v'.length :=
    (List.Forall₂.length_eq hv).symm.trans (List.Forall₂.length_eq hv')
  obtain ⟨rfl, h₁⟩ := append_inj h hlen
  obtain ⟨rfl, h₂⟩ := append_inj_of_class h₁ hs hs' rfl rfl
  obtain ⟨rfl, h₃⟩ := append_inj_of_class (cons.inj h₂).2 hu hu' (hhead hy hyb)
    (hhead hy' hyb')
  have hnot : ∀ {a : Text}, (∀ c ∈ a, isBlank c = false) → ∀ c ∈ a, (!isBlank c) :=
    fun ha c hc => by simp [ha c hc]
  have hblank : ∀ {a : Text}, (∀ c ∈ a, isBlank c) → ∀ c ∈ a, (!isBlank c) = false :=
    fun ha c hc => by simp [ha c hc]
  obtain ⟨rfl, h₄⟩ := append_inj_of_class h₃ (hnot hyb) (hnot hyb') (hhead he (hblank heb))
    (hhead he' (hblank heb'))
  obtain ⟨rfl, rfl⟩ := append_inj_of_class h₄ heb heb' hr hr'
  exact ⟨rfl, rfl⟩

lemma IsDefiner.exists_head (hx : IsDefiner x) :
    ∃ c y, x = c :: y ∧ c.toUpper = 'D' ∧ isAsciiAlpha c := by
  obtain ⟨v, _, _, _, _, rfl, hv, -⟩ := hx
  obtain ⟨c, y, rfl, hc⟩ := exists_cons_of_spelled hv rfl rfl (by decide) (by decide)
  exact ⟨c, _, rfl, hc⟩

lemma IsDefiner.exists_account (hx : IsDefiner x) :
    ∃ a y e, x = a ++ (y ++ e) ∧ (∀ z, Quiet a z) ∧ (∀ c ∈ y, isBlank c = false) ∧ e ≠ [] ∧
      ∀ c ∈ e, isBlank c := by
  obtain ⟨v, s, u, y, e, rfl, hv, hs, hu, ⟨-, hy⟩, he, heb⟩ := hx
  have hword : ∀ z, Quiet v z := fun z =>
    silent_lit (s := "DEFINER") rfl none v z (spells_lit_iff.mpr hv)
  have hsign : ∀ z, Quiet (s ++ '=' :: u) z := quiet_of_mark hs (by decide) hu
  exact ⟨v ++ (s ++ '=' :: u), y, e, by simp, fun z => (hword _).append (hsign z), hy, he, heb⟩

/-! ## The start of a header -/

lemma eq_of_create {w' s' z z' : Text} (h : w ++ (s ++ z) = w' ++ (s' ++ z'))
    (hw : Spelled "CREATE" w) (hw' : Spelled "CREATE" w') (hs : ∀ c ∈ s, isBlank c)
    (hs' : ∀ c ∈ s', isBlank c) (hz : z.head?.any isBlank = false)
    (hz' : z'.head?.any isBlank = false) : w = w' ∧ s = s' ∧ z = z' := by
  have hlen : w.length = w'.length :=
    (List.Forall₂.length_eq hw).symm.trans (List.Forall₂.length_eq hw')
  obtain ⟨rfl, htail⟩ := append_inj h hlen
  exact ⟨rfl, append_inj_of_class htail hs hs' hz hz'⟩

/-- The words of a header up to `TRIGGER`, in the shape that MySQL has: the word `CREATE`, white
space, perhaps an account, and the word `TRIGGER`. -/
structure IsStart (w s d t : Text) : Prop where
  create : Spelled "CREATE" w
  ne_nil : s ≠ []
  blank : ∀ c ∈ s, isBlank c
  account : d = [] ∨ IsDefiner d
  trigger : Spelled "TRIGGER" t

/-- **The header of a MySQL trigger** starts like any header. -/
lemma IsStart.spells_anyHeader {d t : Text} (h : IsStart w s d t)
    (hb : isWordBoundary b (w ++ (s ++ (d ++ t)) ++ r).head?)
    (hr : r.head?.any isWordChar = false) :
    Pattern.Spells anyHeader b (w ++ (s ++ (d ++ t))) r := by
  have hlast : ∀ b', isWordBoundary (t.getLast?.or b') r.head? := by
    intro b'
    have hne : t ≠ [] := by
      obtain ⟨c, z, rfl, -⟩ := exists_cons_of_spelled h.trigger rfl rfl (by decide) (by decide)
      exact cons_ne_nil c z
    have halpha := isAsciiAlpha_of_spelled h.trigger (by decide) _ (getLast_mem hne)
    rw [getLast?_eq_getLast_of_ne_nil hne, Option.some_or, isWordBoundary, hr, Option.any_some,
      isWordChar_of_isAsciiAlpha halpha]
    rfl
  have hdefiner : ∀ b', Pattern.Spells (opt definer) b' d (t ++ r) := fun _ =>
    spells_opt_iff.mpr (h.account.symm.imp_left spells_definer_iff.mpr)
  refine spells_all_cons_iff.mpr ⟨[], _, rfl, .boundary hb, ?_⟩
  refine spells_all_cons_iff.mpr ⟨w, _, rfl, spells_lit_iff.mpr h.create, ?_⟩
  refine spells_all_cons_iff.mpr ⟨s, _, rfl, spells_blanks_iff.mpr ⟨h.ne_nil, h.blank⟩, ?_⟩
  refine spells_all_cons_iff.mpr ⟨[], _, rfl, spells_opt_iff.mpr (.inr rfl), ?_⟩
  refine spells_all_cons_iff.mpr ⟨d, _, rfl, hdefiner _, ?_⟩
  refine spells_all_cons_iff.mpr ⟨[], _, rfl, spells_opt_iff.mpr (.inr rfl), ?_⟩
  refine spells_all_cons_iff.mpr ⟨t, [], by simp, spells_lit_iff.mpr h.trigger, ?_⟩
  exact .boundary (hlast _)

/-- **The start of any header**: the word `CREATE`, white space, and words that start with certain
letters. -/
structure IsAnyStart (w s o d k t r : Text) : Prop where
  create : Spelled "CREATE" w
  ne_nil : s ≠ []
  blank : ∀ c ∈ s, isBlank c
  replace_head : o = [] ∨ ∃ c z, o = c :: z ∧ c.toUpper = 'O'
  replace_quiet : Quiet o (d ++ (k ++ (t ++ r)))
  account : d = [] ∨ IsDefiner d
  constraint_head : k = [] ∨ ∃ c z, k = c :: z ∧ c.toUpper = 'C'
  constraint_quiet : Quiet k (t ++ r)
  trigger : Spelled "TRIGGER" t

lemma exists_head_of_spells_opt {word : String} {ps : List Pattern} {l : Char}
    (hword : word.toList.head? = some l) (hl : isAsciiAlpha l.toUpper)
    (hK : l.toUpper ≠ 'K') (hS : l.toUpper ≠ 'S')
    (h : Pattern.Spells (opt (all (lit word :: ps))) b x r) :
    x = [] ∨ ∃ c z, x = c :: z ∧ c.toUpper = l.toUpper := by
  rcases spells_opt_iff.mp h with h | rfl
  · obtain ⟨y, z, rfl, hy, -⟩ := spells_all_cons_iff.mp h
    obtain ⟨c, y, rfl, hc, -⟩ := exists_cons_of_spelled (spells_lit_iff.mp hy) hword hl hK hS
    exact .inr ⟨c, y ++ z, rfl, hc⟩
  · exact .inl rfl

lemma of_spells_anyHeader (h : Pattern.Spells anyHeader b x r) :
    ∃ w s o d k t, x = w ++ (s ++ (o ++ (d ++ (k ++ t)))) ∧ IsAnyStart w s o d k t r := by
  obtain ⟨_, x₁, rfl, hb, h⟩ := spells_all_cons_iff.mp h
  obtain ⟨w, x₂, rfl, hw, h⟩ := spells_all_cons_iff.mp h
  obtain ⟨s, x₃, rfl, hs, h⟩ := spells_all_cons_iff.mp h
  obtain ⟨o, x₄, rfl, ho, h⟩ := spells_all_cons_iff.mp h
  obtain ⟨d, x₅, rfl, hd, h⟩ := spells_all_cons_iff.mp h
  obtain ⟨k, x₆, rfl, hk, h⟩ := spells_all_cons_iff.mp h
  obtain ⟨t, x₇, rfl, ht, h⟩ := spells_all_cons_iff.mp h
  obtain ⟨rfl, -⟩ := spells_boundary_iff.mp hb
  obtain ⟨rfl, -⟩ := spells_boundary_iff.mp h
  obtain ⟨hne, hblank⟩ := spells_blanks_iff.mp hs
  have hreplace :
      Silent (opt (all [lit "OR", blanks, anyOf [lit "REPLACE", lit "ALTER"], blanks])) :=
    .opt (.all_cons (silent_lit rfl) (.all_cons silent_blanks
      (.all_cons (.alt (silent_lit rfl) (silent_lit rfl)) silent_blanks)))
  have hconstraint : Silent (opt (all [lit "CONSTRAINT", blanks])) :=
    .opt (.all_cons (silent_lit rfl) silent_blanks)
  refine ⟨w, s, o, d, k, t, by simp, spells_lit_iff.mp hw, hne, hblank, ?_, ?_, ?_, ?_, ?_,
    spells_lit_iff.mp ht⟩
  · exact exists_head_of_spells_opt rfl rfl (by decide) (by decide) ho
  · simpa using hreplace _ _ _ ho
  · exact (spells_opt_iff.mp hd).symm.imp_right spells_definer_iff.mp
  · exact exists_head_of_spells_opt rfl rfl (by decide) (by decide) hk
  · simpa using hconstraint _ _ _ hk

lemma isOpening_of_toUpper {c : Char} (h : c.toUpper = 'C' ∨ c.toUpper = 'T') :
    isOpening c := by
  rcases h with h | h <;> simp [isOpening, h]

namespace IsAnyStart

variable {w s o d k t r : Text} (h : IsAnyStart w s o d k t r)
include h

lemma exists_head : ∃ c z, k ++ t = c :: z ∧ (c.toUpper = 'C' ∨ c.toUpper = 'T') := by
  rcases h.constraint_head with rfl | ⟨c, z, rfl, hc⟩
  · obtain ⟨c, z, rfl, hc, -⟩ := exists_cons_of_spelled h.trigger rfl rfl (by decide) (by decide)
    exact ⟨c, z, rfl, .inr hc⟩
  · exact ⟨c, z ++ t, rfl, .inl hc⟩

lemma exists_opening : ∃ c z, o ++ (d ++ (k ++ t)) = c :: z ∧ isOpening c := by
  rcases h.replace_head with rfl | ⟨c, z, rfl, hc⟩
  · rcases h.account with rfl | hd
    · obtain ⟨c, z, hz, hc⟩ := h.exists_head
      exact ⟨c, z, hz, isOpening_of_toUpper hc⟩
    · obtain ⟨c, y, rfl, hc, -⟩ := hd.exists_head
      exact ⟨c, _, rfl, by simp [isOpening, hc]⟩
  · exact ⟨c, _, rfl, by simp [isOpening, hc]⟩

/-- **A header is announced.** -/
lemma announces : Announces (w ++ (s ++ (o ++ (d ++ (k ++ t)))) ++ r) := by
  obtain ⟨c, z, hz, hc⟩ := h.exists_opening
  exact ⟨w, s ++ (c :: z) ++ r, by simp [hz], h.create, s, c, z ++ r, by simp, h.ne_nil, h.blank,
    hc⟩

/-- **Inside the start of a header** another one can start only in the account, and the words
`CONSTRAINT` or `TRIGGER` follow it. -/
lemma of_announces {p q : Text} (hx : w ++ (s ++ (o ++ (d ++ (k ++ t)))) = p ++ q) (hp : p ≠ [])
    (hq : q ≠ []) (ha : Announces (q ++ r)) :
    ∃ u e c z, q ++ r = u ++ (e ++ c :: z) ∧ Spelled "CREATE" u ∧ (∀ c ∈ e, isBlank c) ∧
      (c.toUpper = 'C' ∨ c.toUpper = 'T') := by
  have hend : Quiet (k ++ t) r :=
    h.constraint_quiet.append (silent_lit rfl none t r (spells_lit_iff.mpr h.trigger))
  obtain ⟨a, rfl, ha₁⟩ := exists_of_announces_of_create h.create h.blank hx hp ha
  obtain ⟨a, rfl, ha₂⟩ := Quiet.exists_of_announces (by simpa using h.replace_quiet) ha₁ ha
  rcases h.account with rfl | hd
  · exact absurd ha (hend a q ha₂ hq)
  obtain ⟨v, y, e, rfl, hv, hy, he, heb⟩ := hd.exists_account
  simp only [append_assoc] at ha₂
  obtain ⟨a, rfl, ha₃⟩ := (hv _).exists_of_announces ha₂ ha
  rcases append_eq_append_iff.mp ha₃ with ⟨a', rfl, hq'⟩ | ⟨u, rfl, rfl⟩
  · exact absurd ha (((quiet_of_blank heb _).append hend) a' q hq' hq)
  · obtain ⟨c, z, hz, hc⟩ := h.exists_head
    obtain ⟨b, e', rfl⟩ := exists_cons_of_ne_nil he
    rw [append_assoc] at ha
    have hu := ha.spelled (f := fun c => !isBlank c)
      (fun c hc => by simp [isBlank_eq_false_of_isAsciiAlpha hc]) (fun c hc => by simp [hc])
      (fun c hc => by simp [hy c (mem_append_right a hc)]) (by simp [heb b mem_cons_self])
    exact ⟨u, b :: e', c, z ++ r, by simp [hz], hu.1, heb, hc⟩

lemma eq_nil_of_isDefiner {p q w' s' d' t' z : Text}
    (hx : w ++ (s ++ (o ++ (d ++ (k ++ t)))) = p ++ q) (hq : q ≠ []) (hstart : IsStart w' s' d' t')
    (hd : IsDefiner d') (heq : q ++ r = w' ++ (s' ++ (d' ++ z))) : p = [] := by
  obtain ⟨c, y, rfl, hD, halpha⟩ := hd.exists_head
  have hannounced : Announces (q ++ r) := by
    rw [heq]
    exact ⟨w', _, rfl, hstart.create, s', c, y ++ z, rfl, hstart.ne_nil, hstart.blank,
      by simp [isOpening, hD]⟩
  by_contra hp
  obtain ⟨u, e, c', z', heq', hu, he, hc⟩ := h.of_announces hx hp hq hannounced
  have hblank : isBlank c' = false :=
    isBlank_eq_false_of_isAsciiAlpha (isAsciiAlpha_of_isOpening (isOpening_of_toUpper hc))
  obtain ⟨-, -, hletter⟩ := eq_of_create (heq.symm.trans heq') hstart.create hu hstart.blank he
    (by simp [isBlank_eq_false_of_isAsciiAlpha halpha]) (by simp [hblank])
  obtain ⟨rfl, -⟩ := cons.inj hletter
  rw [hD] at hc
  exact absurd hc (by decide)

/-- **The account of a header** is also the account of a header that starts at the same place. -/
lemma exists_of_isDefiner {w' s' d' t' z : Text} (hstart : IsStart w' s' d' t') (hd : IsDefiner d')
    (heq : w ++ (s ++ (o ++ (d ++ (k ++ t)))) ++ r = w' ++ (s' ++ (d' ++ (t' ++ z)))) :
    ∃ x, w ++ (s ++ (o ++ (d ++ (k ++ t)))) = w' ++ (s' ++ (d' ++ x)) := by
  have hz : (t' ++ z).head?.any isBlank = false := by
    obtain ⟨c, y, rfl, -, halpha⟩ :=
      exists_cons_of_spelled hstart.trigger rfl rfl (by decide) (by decide)
    simp [isBlank_eq_false_of_isAsciiAlpha halpha]
  obtain ⟨c, y, rfl, hc, halpha⟩ := hd.exists_head
  obtain ⟨c', x, hx, hopen⟩ := h.exists_opening
  have hhead : (o ++ (d ++ (k ++ t)) ++ r).head?.any isBlank = false := by
    rw [hx]
    simpa using isBlank_eq_false_of_isAsciiAlpha (isAsciiAlpha_of_isOpening hopen)
  have heq' : w ++ (s ++ (o ++ (d ++ (k ++ t)) ++ r)) = w' ++ (s' ++ (c :: y ++ (t' ++ z))) := by
    rw [← heq]
    simp
  obtain ⟨rfl, rfl, heq₂⟩ := eq_of_create heq' h.create hstart.create h.blank hstart.blank hhead
    (by simp [isBlank_eq_false_of_isAsciiAlpha halpha])
  simp only [append_assoc] at heq₂
  obtain rfl : o = [] := by
    rcases h.replace_head with ho | ⟨e, o, rfl, he⟩
    · exact ho
    · obtain ⟨rfl, -⟩ := cons.inj heq₂
      exact absurd (hc.symm.trans he) (by decide)
  obtain ⟨e, x', hx', he⟩ := h.exists_head
  have htail : k ++ (t ++ r) = e :: (x' ++ r) := by
    rw [← append_assoc, hx', cons_append]
  rcases h.account with rfl | hd₀
  · rw [nil_append, nil_append, htail] at heq₂
    obtain ⟨rfl, -⟩ := cons.inj heq₂
    rw [hc] at he
    exact absurd he (by decide)
  · have hletter : isBlank e = false :=
      isBlank_eq_false_of_isAsciiAlpha (isAsciiAlpha_of_isOpening (isOpening_of_toUpper he))
    obtain ⟨rfl, -⟩ := hd₀.eq_of_append hd heq₂ (by rw [htail]; simpa using hletter) hz
    exact ⟨k ++ t, by simp⟩

end IsAnyStart

/-! ## The header of a MySQL trigger -/

/-- The parts of the header of a MySQL trigger before the text `r`: behind its start stand a text
`y` in which no header starts and the last part `v` of the name of the table. -/
structure IsMysqlHeader (w s d t y v r : Text) : Prop extends IsStart w s d t where
  gap : ∃ c z, y = c :: z ∧ isBlank c
  quiet : Quiet y (v ++ r)
  table_ne_nil : v ≠ []
  table : ∀ c ∈ v, isIdentChar c

def timingWords : List Pattern :=
  [blanks, .group 2 (anyOf [lit "BEFORE", lit "AFTER"]), blanks,
    .group 3 (anyOf [lit "INSERT", lit "UPDATE", lit "DELETE"]), blanks, lit "ON", blanks]

lemma silent_timingWords : Silent (all timingWords) := by
  have htiming : Silent (anyOf [lit "BEFORE", lit "AFTER"]) :=
    .alt (silent_lit rfl) (silent_lit rfl)
  have hevent : Silent (anyOf [lit "INSERT", lit "UPDATE", lit "DELETE"]) :=
    .alt (silent_lit rfl) (.alt (silent_lit rfl) (silent_lit rfl))
  have hon : Silent (all [blanks, lit "ON", blanks]) :=
    .all_cons silent_blanks (.all_cons (silent_lit rfl) silent_blanks)
  exact .all_cons silent_blanks (.all_cons (htiming.group 2) (.all_cons silent_blanks
    (.all_cons (hevent.group 3) hon)))

lemma quiet_ident_of_timingWords {u m : Text}
    (hu : ∀ c ∈ u, isIdentChar c) (hm : Pattern.Spells (all timingWords) b m r) :
    Quiet u (m ++ r) := by
  obtain ⟨e, m, rfl, he, hm⟩ := spells_all_cons_iff.mp hm
  obtain ⟨y, m, rfl, hy, -⟩ := spells_all_cons_iff.mp hm
  obtain ⟨hne, hblank⟩ := spells_blanks_iff.mp he
  have htiming : ∃ c z, y = c :: z ∧ isAsciiAlpha c ∧ isOpening c = false := by
    rcases spells_alt_iff.mp (spells_group_iff.mp hy) with hy | hy
    · obtain ⟨c, z, rfl, hc, halpha⟩ :=
        exists_cons_of_spelled (spells_lit_iff.mp hy) rfl rfl (by decide) (by decide)
      have hB : c.toUpper = 'B' := hc
      exact ⟨c, z, rfl, halpha, by simp [isOpening, hB]⟩
    · obtain ⟨c, z, rfl, hc, halpha⟩ :=
        exists_cons_of_spelled (spells_lit_iff.mp hy) rfl rfl (by decide) (by decide)
      have hA : c.toUpper = 'A' := hc
      exact ⟨c, z, rfl, halpha, by simp [isOpening, hA]⟩
  obtain ⟨c, z, rfl, halpha, hopen⟩ := htiming
  simpa using quiet_ident hu hblank (isBlank_eq_false_of_isAsciiAlpha halpha) hopen (.inl hne)

/-- **The header of a MySQL trigger** in a text without quotes.

**Proof sketch.** Keywords and white space are silent. Of a name only the last part can announce a
header; that of the trigger is followed by `BEFORE` or `AFTER`, with which no header goes on. -/
lemma of_spells_mysqlHeader (hx : Unquoted x) (h : Pattern.Spells mysqlHeader b x r) :
    isWordBoundary b (x ++ r).head? ∧
      ∃ w s d t y v, x = w ++ (s ++ (d ++ (t ++ (y ++ v)))) ∧ IsMysqlHeader w s d t y v r := by
  obtain ⟨_, x₁, rfl, hb, h⟩ := spells_all_cons_iff.mp h
  obtain ⟨rfl, hb⟩ := spells_boundary_iff.mp hb
  obtain ⟨w, x₂, rfl, hw, h⟩ := spells_all_cons_iff.mp h
  obtain ⟨s, x₃, rfl, hs, h⟩ := spells_all_cons_iff.mp h
  obtain ⟨d, x₄, rfl, hd, h⟩ := spells_all_cons_iff.mp h
  obtain ⟨t, x₅, rfl, ht, h⟩ := spells_all_cons_iff.mp h
  obtain ⟨g, x₆, rfl, hg, h⟩ := spells_all_cons_iff.mp h
  obtain ⟨i, x₇, rfl, hi, h⟩ := spells_all_cons_iff.mp h
  obtain ⟨n, x₈, rfl, hn, h⟩ := spells_all_cons_iff.mp h
  have htable : Pattern.Spells (all (timingWords ++ [.group 4 qualified])) _ x₈ r := h
  obtain ⟨m, z, rfl, hm, hz⟩ := spells_all_append_iff.mp htable
  obtain ⟨p, u, rfl, -, hu, hp⟩ :=
    exists_of_spells_qualified (fun c hc => hx c (by simp [hc])) (spells_group_iff.mp hn)
  obtain ⟨p', v, rfl, hv, hident, hp'⟩ :=
    exists_of_spells_qualified (fun c hc => hx c (by simp [hc])) (spells_group_iff.mp hz)
  have hif : Silent (opt (all [phrase ["IF", "NOT", "EXISTS"], blanks])) :=
    .opt (.all_cons ((silent_lit rfl).seq (silent_blanks.seq ((silent_lit rfl).seq
      (silent_blanks.seq (silent_lit rfl))))) silent_blanks)
  have hmiddle : Quiet m (p' ++ v ++ r) := silent_timingWords _ _ _ hm
  refine ⟨by simpa using hb, w, s, d, t, g ++ (i ++ ((p ++ u) ++ (m ++ p'))), v, by simp, ?_⟩
  have hstart : IsStart w s d t :=
    ⟨spells_lit_iff.mp hw, (spells_blanks_iff.mp hs).1, (spells_blanks_iff.mp hs).2,
      (spells_opt_iff.mp hd).symm.imp_right spells_definer_iff.mp, spells_lit_iff.mp ht⟩
  refine ⟨hstart, ?_, ?_, hv, hident⟩
  · obtain ⟨hne, hblank⟩ := spells_blanks_iff.mp hg
    obtain ⟨c, g, rfl⟩ := exists_cons_of_ne_nil hne
    exact ⟨c, _, rfl, hblank c mem_cons_self⟩
  · have hname : Quiet u (m ++ (p' ++ v ++ r)) := quiet_ident_of_timingWords hu hm
    have hgap : Quiet g (i ++ (p ++ u ++ (m ++ (p' ++ v))) ++ r) := silent_blanks _ _ _ hg
    have hnot : Quiet i (p ++ u ++ (m ++ (p' ++ v)) ++ r) := hif _ _ _ hi
    simp only [append_assoc] at hgap hnot hp hname hmiddle hp'
    refine Quiet.append (by simpa using hgap) (Quiet.append (by simpa using hnot) ?_)
    refine Quiet.append (Quiet.append ?_ ?_) (Quiet.append hmiddle hp')
    · simpa using hp
    · simpa using hname

/-- **Behind the account** another header can start only in the name of the table, and what is left
of the name is the word `CREATE`. -/
lemma IsMysqlHeader.spelled_of_announces {d t y v p q : Text}
    (h : IsMysqlHeader w s d t y v r) (hr : r.head?.any isIdentChar = false)
    (hx : t ++ (y ++ v) = p ++ q) (ha : Announces (q ++ r)) : Spelled "CREATE" q := by
  have htrigger : Quiet t (y ++ v ++ r) := silent_lit rfl none t _ (spells_lit_iff.mpr h.trigger)
  obtain ⟨a, rfl, ha₁⟩ := htrigger.exists_of_announces hx ha
  obtain ⟨a, rfl, rfl⟩ := h.quiet.exists_of_announces ha₁ ha
  exact (ha.spelled (fun _ => isIdentChar_of_isAsciiAlpha)
    (fun _ => isIdentChar_eq_false_of_isBlank)
    (fun c hc => h.table c (mem_append_right a hc)) hr).1

/-! ## The end of a name -/

/-- Runs of the pattern in a text without quotes go on where an identifier has ended. Only what is
tried behind a text must succeed. -/
def ReadsToEnd (p : Pattern) : Prop :=
  ∀ (k : Cursor) (next : Continuation) (r : Cursor), Unquoted k.rest →
    (∀ x l, x ≠ [] → k.Reaches x l → (next l).isSome) → p.run k next = some r →
      ∃ x l, x ≠ [] ∧ k.Reaches x l ∧ l.rest.head?.any isIdentChar = false ∧ next l = some r

lemma Unquoted.of_reaches {l : Cursor} (h : Unquoted k.rest) (hl : k.Reaches x l) :
    Unquoted l.rest := fun c hc => h c (by rw [hl.rest]; exact mem_append_right x hc)

lemma eq_some_of_run_alt {p q : Pattern} {r : Cursor} {next : Continuation}
    (h : (alt p q).run k next = some r) :
    p.run k next = some r ∨ q.run k next = some r := by
  rw [run] at h
  split at h
  · exact .inl (by rw [← h]; assumption)
  · exact .inr h

lemma readsToEnd_ident : ReadsToEnd ident := by
  intro k next r hk hnext h
  have hquoted : ∀ (mark : Char) (ps : List Pattern), (all (char mark :: ps)).floats →
      mark ∈ ['"', '`', '['] → (all (char mark :: ps)).run k next ≠ some r := by
    intro mark ps hfloats hmark h
    obtain ⟨x, l, hl, hx, -⟩ := sound_of_floats hfloats k next r h
    obtain ⟨y, z, rfl, hy, -⟩ := spells_all_cons_iff.mp hx
    obtain rfl := spells_char_iff.mp hy
    have hmem := hk mark (by simp [hl.rest])
    simp_all
  have hplain : (some1 (.one isIdentChar)).run k next = some r := by
    rcases eq_some_of_run_alt h with h | h
    · exact absurd h (hquoted '"' _ rfl (by simp))
    rcases eq_some_of_run_alt h with h | h
    · exact absurd h (hquoted '`' _ rfl (by simp))
    rcases eq_some_of_run_alt h with h | h
    · exact absurd h (hquoted '[' _ rfl (by simp))
    · exact h
  rw [some1, run, run] at hplain
  split at hplain
  · cases hplain
  case h_2 c t hrest =>
    split_ifs at hplain with hc
    have hfirst : k.Reaches [c] (k.next c t) := .next hrest
    obtain ⟨x, l, hl, hhead, hr⟩ := exists_reaches_of_rounds_one (Nat.le_refl _)
      (fun x l hl => hnext _ l (cons_ne_nil c x) (hfirst.trans hl)) hplain
    exact ⟨[c] ++ x, l, cons_ne_nil c x, hfirst.trans hl, hhead, hr⟩

lemma readsToEnd_dotted : ReadsToEnd dotted := by
  intro k next r hk hnext h
  have hparts : dotted = all ([blanks0, char '.', blanks0] ++ [ident]) := rfl
  rw [hparts] at h
  obtain ⟨x, l, hl, h⟩ := exists_run_of_run_all_append (by decide) h
  have hnext' : ∀ y m, y ≠ [] → l.Reaches y m → (next m).isSome := by
    intro y m hy hm
    exact hnext _ m (append_ne_nil_of_right_ne_nil x hy) (hl.trans hm)
  obtain ⟨y, m, hy, hm, hhead, hr⟩ := readsToEnd_ident l next r (hk.of_reaches hl) hnext' h
  exact ⟨x ++ y, m, append_ne_nil_of_right_ne_nil x hy, hl.trans hm, hhead, hr⟩

lemma exists_of_rounds_dotted {fuel : Text} {r : Cursor} {next : Continuation}
    (hk : Unquoted k.rest) (hend : k.rest.head?.any isIdentChar = false)
    (hnext : ∀ x l, k.Reaches x l → (next l).isSome)
    (h : rounds dotted.run true fuel k next = some r) :
    ∃ x l, k.Reaches x l ∧ l.rest.head?.any isIdentChar = false ∧ next l = some r := by
  induction fuel generalizing k with
  | nil => exact ⟨[], k, .refl k, hend, h⟩
  | cons c fuel ih =>
    rcases eq_some_of_rounds_cons h with h | h
    · obtain ⟨x, l, -, hl, hhead, hr⟩ := readsToEnd_dotted k _ r hk (fun x l hx hl => by
        rw [if_pos (hl.offset_lt hx)]
        exact isSome_rounds_of_next (hnext x l hl)) h
      split_ifs at hr
      obtain ⟨y, m, hm, hhead, hr⟩ :=
        ih (hk.of_reaches hl) hhead (fun y m hm => hnext _ m (hl.trans hm)) hr
      exact ⟨x ++ y, m, hl.trans hm, hhead, hr⟩
    · exact ⟨[], k, .refl k, hend, h⟩

lemma readsToEnd_qualified : ReadsToEnd qualified := by
  intro k next r hk hnext h
  have hmore : ∀ x l, x ≠ [] → k.Reaches x l → (rounds dotted.run true l.rest l next).isSome :=
    fun x l hx hl => isSome_rounds_of_next (hnext x l hx hl)
  obtain ⟨x, l, hx, hl, hhead, hr⟩ := readsToEnd_ident k _ r hk hmore h
  obtain ⟨y, m, hm, hhead', hr'⟩ := exists_of_rounds_dotted (hk.of_reaches hl) hhead
    (fun y m hm => hnext _ m (append_ne_nil_of_left_ne_nil hx y) (hl.trans hm)) hr
  exact ⟨x ++ y, m, append_ne_nil_of_left_ne_nil hx y, hl.trans hm, hhead', hr'⟩

/-- **The name of the table is read to its end.** -/
lemma not_isIdentChar_of_matchAt? {l : Cursor} (hk : Unquoted k.rest)
    (h : mysqlHeader.matchAt? k = some l) : l.rest.head?.any isIdentChar = false := by
  have hparts : mysqlHeader = all ([.boundary, lit "CREATE", blanks, opt definer, lit "TRIGGER",
      blanks, opt (all [phrase ["IF", "NOT", "EXISTS"], blanks]), .group 1 qualified] ++ timingWords
      ++ [.group 4 qualified]) := rfl
  rw [matchAt?, hparts] at h
  obtain ⟨x, m, hm, h⟩ := exists_run_of_run_all_append (by decide) h
  have hunquoted : Unquoted m.rest := Unquoted.of_reaches (k := { k with groups := [] }) hk hm
  obtain ⟨y, n, -, -, hend, hn⟩ := readsToEnd_qualified m _ l hunquoted (fun _ _ _ _ => rfl) h
  obtain rfl := Option.some.inj hn
  exact hend

end SqlOutline.TriggerScan
