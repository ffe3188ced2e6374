import Mathlib.Data.List.Forall2
import SqlOutline.Pattern.Basic

/-!
# Texts that patterns spell

What a pattern matches, without regard to which match is preferred.

## Main definitions

* `Spells` — a pattern spells a text between the character before it and the text behind it.

## Main results

* `sound_of_floats` — runs go on behind what is spelled.
* `complete` — what is spelled runs with success.
-/

namespace SqlOutline

open Option List Text

/-- The place `l` stands behind the place `k` with the text `x` between them. -/
structure Cursor.Reaches (k : Cursor) (x : Text) (l : Cursor) : Prop where
  rest : k.rest = x ++ l.rest
  before : l.before = x.getLast?.or k.before
  offset : l.offset = k.offset + byteLength x

variable {c : Char} {r : Text}

namespace Cursor.Reaches

variable {k l m : Cursor} {x y : Text}

lemma refl (k : Cursor) : k.Reaches [] k := ⟨rfl, rfl, rfl⟩

lemma trans (h : k.Reaches x l) (h' : l.Reaches y m) : k.Reaches (x ++ y) m where
  rest := by rw [h.rest, h'.rest, append_assoc]
  before := by rw [h'.before, h.before, getLast?_append, Option.or_assoc]
  offset := by rw [h'.offset, h.offset, byteLength_append, Nat.add_assoc]

lemma next {t : Text} (h : k.rest = c :: t) : k.Reaches [c] (k.next c t) :=
  ⟨h, rfl, by simp [Cursor.next]⟩

lemma withGroups (h : k.Reaches x l) (groups : List (Nat × Capture)) :
    k.Reaches x { l with groups } :=
  ⟨h.rest, h.before, h.offset⟩

lemma rest_eq (h : k.Reaches x l) (hr : k.rest = x ++ r) : l.rest = r :=
  append_cancel_left (h.rest.symm.trans hr)

lemma ne_nil (h : k.Reaches x l) (hlt : k.offset < l.offset) : x ≠ [] := by
  rintro rfl
  exact absurd h.offset (Nat.ne_of_gt hlt)

lemma offset_lt (h : k.Reaches x l) (hx : x ≠ []) : k.offset < l.offset := by
  obtain ⟨c, t, rfl⟩ := exists_cons_of_ne_nil hx
  have hc := Char.utf8Size_pos c
  rw [h.offset, byteLength_cons]
  omega

end Cursor.Reaches

namespace Pattern

variable {step : Cursor → Continuation → Option Cursor} {ps : List Pattern}

/-- The pattern does not ask for the start or the end of the text. -/
def floats : Pattern → Bool
  | .empty | .one _ | .boundary => true
  | .atStart | .atEnd => false
  | .seq p q | .alt p q => p.floats && q.floats
  | .many _ p | .group _ p => p.floats

/-! ## Attempts -/

variable {greedy : Bool} {fuel : Text} {k r : Cursor} {next : Continuation} {p : Pattern}

lemma run_alt (p q : Pattern) (k : Cursor) (next : Continuation) :
    (alt p q).run k next = (p.run k next).or (q.run k next) := by
  rw [run]
  cases p.run k next <;> rfl

lemma run_all_cons (p : Pattern) (ps : List Pattern) (k : Cursor) (next : Continuation) :
    (all (p :: ps)).run k next = p.run k fun l => (all ps).run l next := by
  cases ps with
  | nil => rfl
  | cons q qs => rfl

section Rounds

variable (step : Cursor → Continuation → Option Cursor) (greedy : Bool) (c : Char) (fuel : Text)
  (k : Cursor) (next : Continuation)

lemma rounds_cons : rounds step greedy (c :: fuel) k next =
      let another := step k fun l =>
        if k.offset < l.offset then rounds step greedy fuel l next else none
      if greedy then another.or (next k) else (next k).or another := by
  rw [rounds]
  dsimp only
  cases greedy with
  | true =>
    rw [if_pos rfl, if_pos rfl]
    cases step k fun l => if k.offset < l.offset then rounds step true fuel l next else none <;> rfl
  | false =>
    rw [if_neg Bool.false_ne_true, if_neg Bool.false_ne_true]
    cases next k <;> rfl

lemma isSome_rounds_cons : (rounds step greedy (c :: fuel) k next).isSome ↔
      (step k fun l =>
        if k.offset < l.offset then rounds step greedy fuel l next else none).isSome ∨
      (next k).isSome := by
  rw [rounds_cons]
  cases greedy <;> simp [or_comm]

end Rounds

lemma isSome_rounds_of_next (h : (next k).isSome) : (rounds step greedy fuel k next).isSome := by
  cases fuel with
  | nil => exact h
  | cons c fuel => exact (isSome_rounds_cons ..).mpr (Or.inr h)

/-! ## Texts that are spelled -/

/-- A pattern spells a text behind the character `b` and before the text `r`. -/
inductive Spells : Pattern → Option Char → Text → Text → Prop
  | empty {b : Option Char} {r : Text} : Spells .empty b [] r
  | one {p : Char → Bool} {b : Option Char} {c : Char} {r : Text} (hc : p c) :
    Spells (.one p) b [c] r
  | boundary {b : Option Char} {r : Text} (h : isWordBoundary b r.head?) :
    Spells .boundary b [] r
  | seq {p q : Pattern} {b : Option Char} {x y r : Text} (hp : Spells p b x (y ++ r))
    (hq : Spells q (x.getLast?.or b) y r) : Spells (.seq p q) b (x ++ y) r
  | altLeft {p q : Pattern} {b : Option Char} {x r : Text} (h : Spells p b x r) :
    Spells (.alt p q) b x r
  | altRight {p q : Pattern} {b : Option Char} {x r : Text} (h : Spells q b x r) :
    Spells (.alt p q) b x r
  | stop {greedy : Bool} {p : Pattern} {b : Option Char} {r : Text} : Spells (.many greedy p) b [] r
  | round {greedy : Bool} {p : Pattern} {b : Option Char} {x y r : Text} (hx : x ≠ [])
    (hp : Spells p b x (y ++ r)) (hmore : Spells (.many greedy p) (x.getLast?.or b) y r) :
    Spells (.many greedy p) b (x ++ y) r
  | group {n : Nat} {p : Pattern} {b : Option Char} {x r : Text} (h : Spells p b x r) :
    Spells (.group n p) b x r

/-! ## Runs go on behind what is spelled -/

def Sound (p : Pattern) : Prop :=
  ∀ (k : Cursor) (next : Continuation) (r : Cursor), p.run k next = some r →
    ∃ x l, k.Reaches x l ∧ Spells p k.before x l.rest ∧ next l = some r

lemma eq_some_of_rounds_cons (h : rounds step greedy (c :: fuel) k next = some r) :
    (step k fun l => if k.offset < l.offset then rounds step greedy fuel l next else none) =
        some r ∨ next k = some r := by
  rw [rounds_cons] at h
  dsimp only at h
  split_ifs at h
  · exact (or_eq_some_iff.mp h).imp id And.right
  · exact (or_eq_some_iff.mp h).symm.imp And.right id

lemma exists_spells_of_rounds (hp : p.Sound) (h : rounds p.run greedy fuel k next = some r) :
    ∃ x l, k.Reaches x l ∧ Spells (.many greedy p) k.before x l.rest ∧ next l = some r := by
  induction fuel generalizing k with
  | nil => exact ⟨[], k, .refl k, .stop, h⟩
  | cons c fuel ih =>
    rcases eq_some_of_rounds_cons h with h | h
    · obtain ⟨x, l, hl, hx, h⟩ := hp k _ r h
      split_ifs at h with hmove
      obtain ⟨y, m, hm, hy, h⟩ := ih h
      rw [hl.before] at hy
      rw [hm.rest] at hx
      exact ⟨x ++ y, m, hl.trans hm, .round (hl.ne_nil hmove) hx hy, h⟩
    · exact ⟨[], k, .refl k, .stop, h⟩

/-- **Runs go on behind what is spelled.** -/
lemma sound_of_floats (hp : p.floats) : p.Sound := by
  induction p with
  | empty => exact fun k next r h => ⟨[], k, .refl k, .empty, h⟩
  | one q =>
    intro k next r h
    dsimp only [run] at h
    split at h
    · cases h
    case h_2 c t hrest =>
      split_ifs at h with hc
      exact ⟨[c], k.next c t, .next hrest, .one hc, h⟩
  | boundary =>
    intro k next r h
    dsimp only [run] at h
    split_ifs at h with hb
    exact ⟨[], k, .refl k, .boundary hb, h⟩
  | atStart => cases hp
  | atEnd => cases hp
  | seq p q ihp ihq =>
    obtain ⟨hp, hq⟩ := Bool.and_eq_true_iff.mp hp
    intro k next r h
    obtain ⟨x, l, hl, hx, h⟩ := ihp hp k _ r h
    obtain ⟨y, m, hm, hy, h⟩ := ihq hq l next r h
    rw [hl.before] at hy
    rw [hm.rest] at hx
    exact ⟨x ++ y, m, hl.trans hm, .seq hx hy, h⟩
  | alt p q ihp ihq =>
    obtain ⟨hp, hq⟩ := Bool.and_eq_true_iff.mp hp
    intro k next r h
    rw [run_alt] at h
    rcases or_eq_some_iff.mp h with h | ⟨-, h⟩
    · obtain ⟨x, l, hl, hx, h⟩ := ihp hp k next r h
      exact ⟨x, l, hl, .altLeft hx, h⟩
    · obtain ⟨x, l, hl, hx, h⟩ := ihq hq k next r h
      exact ⟨x, l, hl, .altRight hx, h⟩
  | many greedy p ih => exact fun k next r h => exists_spells_of_rounds (ih hp) h
  | group n p ih =>
    intro k next r h
    obtain ⟨x, l, hl, hx, h⟩ := ih hp k _ r h
    exact ⟨x, { l with groups := (n, k.textTo l) :: l.groups }, hl.withGroups _, .group hx, h⟩

lemma exists_spells_of_matchAt? (hp : p.floats) {l : Cursor}
    (h : p.matchAt? k = some l) : ∃ x, k.Reaches x l ∧ Spells p k.before x l.rest := by
  obtain ⟨x, l', hl, hx, h⟩ := sound_of_floats hp _ _ _ h
  obtain rfl := some.inj h
  exact ⟨x, ⟨hl.rest, hl.before, hl.offset⟩, hx⟩

lemma exists_run_of_run_all_append {q : Pattern}
    (hps : ∀ p ∈ ps, p.floats) (h : (all (ps ++ [q])).run k next = some r) :
    ∃ x l, k.Reaches x l ∧ q.run l next = some r := by
  induction ps generalizing k with
  | nil => exact ⟨[], k, .refl k, h⟩
  | cons p ps ih =>
    obtain ⟨hp, hps⟩ := forall_mem_cons.mp hps
    have hseq : all (p :: ps ++ [q]) = .seq p (all (ps ++ [q])) := by cases ps <;> rfl
    rw [hseq] at h
    obtain ⟨x, l, hl, -, h⟩ := sound_of_floats hp k _ r h
    obtain ⟨y, m, hm, h⟩ := ih hps h
    exact ⟨x ++ y, m, hl.trans hm, h⟩

/-! ## What is spelled runs with success -/

def Complete (p : Pattern) : Prop :=
  ∀ (k : Cursor) (next : Continuation) (x r : Text), Spells p k.before x r → k.rest = x ++ r →
    (∀ l, k.Reaches x l → (next l).isSome) → (p.run k next).isSome

lemma isSome_rounds_of_spells (hp : p.Complete) {x r : Text}
    (hx : Spells (.many greedy p) k.before x r)
    (hrest : k.rest = x ++ r) (hfuel : x.length ≤ fuel.length)
    (hnext : ∀ l, k.Reaches x l → (next l).isSome) : (rounds p.run greedy fuel k next).isSome := by
  generalize hb : k.before = b at hx
  generalize hq : many greedy p = q at hx
  induction hx generalizing k fuel with
  | stop => exact isSome_rounds_of_next (hnext k (.refl k))
  | @round _ _ b x y r hne hx hmore _ ih =>
    obtain ⟨rfl, rfl⟩ := many.inj hq
    obtain ⟨c, t, rfl⟩ := exists_cons_of_ne_nil hne
    obtain ⟨d, fuel, rfl⟩ : ∃ d fuel', fuel = d :: fuel' :=
      exists_cons_of_length_pos (by rw [cons_append, length_cons] at hfuel; omega)
    refine (isSome_rounds_cons ..).mpr (.inl ?_)
    rw [append_assoc] at hrest
    refine hp k _ (c :: t) (y ++ r) (hb ▸ hx) hrest fun l hl => ?_
    rw [if_pos (hl.offset_lt hne)]
    refine ih (hl.rest_eq hrest) ?_ (fun m hm => hnext m (hl.trans hm)) ?_ rfl
    · simp only [length_append, length_cons] at hfuel
      omega
    · rw [hl.before, hb]
  | _ => cases hq

/-- **What is spelled runs with success.** -/
lemma complete (p : Pattern) : p.Complete := by
  induction p with
  | empty =>
    intro k next x r hx hrest hnext
    cases hx
    exact hnext k (.refl k)
  | one q =>
    intro k next x r hx hrest hnext
    cases hx with
    | @one _ _ c _ hc =>
      rw [run, hrest]
      dsimp only [cons_append, nil_append]
      rw [if_pos hc]
      exact hnext _ (.next hrest)
  | boundary =>
    intro k next x r hx hrest hnext
    cases hx with
    | boundary hb =>
      rw [run, hrest, nil_append, if_pos hb]
      exact hnext k (.refl k)
  | atStart =>
    intro k next x r hx
    cases hx
  | atEnd =>
    intro k next x r hx
    cases hx
  | seq p q ihp ihq =>
    intro k next x r hx hrest hnext
    cases hx with
    | @seq _ _ _ x y _ hp hq =>
      rw [append_assoc] at hrest
      refine ihp k _ x (y ++ r) hp hrest fun l hl => ?_
      refine ihq l next y r (hl.before ▸ hq) (hl.rest_eq hrest) fun m hm => ?_
      exact hnext m (hl.trans hm)
  | alt p q ihp ihq =>
    intro k next x r hx hrest hnext
    rw [run_alt, isSome_or, Bool.or_eq_true]
    cases hx with
    | altLeft h => exact .inl (ihp k next x r h hrest hnext)
    | altRight h => exact .inr (ihq k next x r h hrest hnext)
  | many greedy p ih =>
    intro k next x r hx hrest hnext
    refine isSome_rounds_of_spells ih hx hrest ?_ hnext
    rw [hrest, length_append]
    exact Nat.le_add_right _ _
  | group n p ih =>
    intro k next x r hx hrest hnext
    cases hx with
    | group h => exact ih k _ x r h hrest fun l hl => hnext _ (hl.withGroups _)

lemma isSome_matchAt?_of_spells {x r : Text}
    (hx : Spells p k.before x r) (hrest : k.rest = x ++ r) : (p.matchAt? k).isSome :=
  complete p _ _ x r hx hrest fun _ _ => rfl

/-! ## What built patterns spell -/

/-- A text has the letters of a fixed one, in any letter case. -/
def Spelled (s : String) (x : Text) : Prop :=
  List.Forall₂ (fun k c => letterMatches k c) s.toList x

section Built

variable {p q : Pattern} {f : Char → Bool} {greedy : Bool} {b : Option Char} {x r : Text}

@[simp]
lemma spells_empty_iff : Spells .empty b x r ↔ x = [] := by
  constructor
  · rintro ⟨⟩
    rfl
  · rintro rfl
    exact .empty

@[simp]
lemma spells_one_iff : Spells (.one f) b x r ↔ ∃ c, f c ∧ x = [c] := by
  constructor
  · intro h
    cases h with
    | @one _ _ c _ hc => exact ⟨c, hc, rfl⟩
  · rintro ⟨c, hc, rfl⟩
    exact .one hc

@[simp]
lemma spells_boundary_iff : Spells .boundary b x r ↔ x = [] ∧ isWordBoundary b r.head? := by
  constructor
  · intro h
    cases h with
    | boundary hb => exact ⟨rfl, hb⟩
  · rintro ⟨rfl, hb⟩
    exact .boundary hb

lemma spells_seq_iff : Spells (.seq p q) b x r ↔
      ∃ y z, x = y ++ z ∧ Spells p b y (z ++ r) ∧ Spells q (y.getLast?.or b) z r := by
  constructor
  · intro h
    cases h with
    | @seq _ _ _ y z _ hp hq => exact ⟨y, z, rfl, hp, hq⟩
  · rintro ⟨y, z, rfl, hp, hq⟩
    exact .seq hp hq

@[simp]
lemma spells_alt_iff : Spells (.alt p q) b x r ↔ Spells p b x r ∨ Spells q b x r := by
  constructor
  · intro h
    cases h with
    | altLeft h => exact .inl h
    | altRight h => exact .inr h
  · rintro (h | h)
    · exact .altLeft h
    · exact .altRight h

@[simp]
lemma spells_group_iff {n : Nat} : Spells (.group n p) b x r ↔ Spells p b x r := by
  constructor
  · intro h
    cases h with
    | group h => exact h
  · exact .group

@[simp]
lemma spells_opt_iff : Spells (opt p) b x r ↔ Spells p b x r ∨ x = [] := by
  rw [opt, spells_alt_iff, spells_empty_iff]

lemma spells_all_cons_iff : Spells (all (p :: ps)) b x r ↔
      ∃ y z, x = y ++ z ∧ Spells p b y (z ++ r) ∧ Spells (all ps) (y.getLast?.or b) z r := by
  cases ps with
  | nil =>
    constructor
    · exact fun h => ⟨x, [], (append_nil x).symm, h, .empty⟩
    · rintro ⟨y, z, rfl, hy, hz⟩
      obtain rfl := spells_empty_iff.mp hz
      rwa [append_nil]
  | cons q qs => exact spells_seq_iff

lemma spells_all_append_iff {qs : List Pattern} : Spells (all (ps ++ qs)) b x r ↔
      ∃ y z, x = y ++ z ∧ Spells (all ps) b y (z ++ r) ∧ Spells (all qs) (y.getLast?.or b) z r := by
  induction ps generalizing b x with
  | nil =>
    constructor
    · exact fun h => ⟨[], x, rfl, .empty, h⟩
    · rintro ⟨y, z, rfl, hy, hz⟩
      obtain rfl := spells_empty_iff.mp hy
      exact hz
  | cons p ps ih =>
    rw [cons_append, spells_all_cons_iff]
    constructor
    · rintro ⟨y, z, rfl, hy, hz⟩
      obtain ⟨u, v, rfl, hu, hv⟩ := ih.mp hz
      refine ⟨y ++ u, v, (append_assoc ..).symm,
        spells_all_cons_iff.mpr ⟨y, u, rfl, ?_, hu⟩, ?_⟩
      · rwa [← append_assoc]
      · rwa [getLast?_append, Option.or_assoc]
    · rintro ⟨y, z, rfl, hy, hz⟩
      obtain ⟨u, v, rfl, hu, hv⟩ := spells_all_cons_iff.mp hy
      refine ⟨u, v ++ z, append_assoc .., ?_, ih.mpr ⟨v, z, rfl, hv, ?_⟩⟩
      · rwa [append_assoc]
      · rwa [getLast?_append, Option.or_assoc] at hz

lemma spells_many_one_iff : Spells (.many greedy (.one f)) b x r ↔ ∀ c ∈ x, f c := by
  constructor
  · intro h
    generalize hq : many greedy (.one f) = q at h
    induction h with
    | stop => simp
    | round hne hx hmore _ ih =>
      obtain ⟨rfl, rfl⟩ := many.inj hq
      obtain ⟨c, hc, rfl⟩ := spells_one_iff.mp hx
      rw [singleton_append, forall_mem_cons]
      exact ⟨hc, ih rfl⟩
    | _ => cases hq
  · intro h
    induction x generalizing b with
    | nil => exact .stop
    | cons c x ih =>
      obtain ⟨hc, hx⟩ := forall_mem_cons.mp h
      exact .round (x := [c]) (cons_ne_nil _ _) (.one hc) (ih hx)

lemma spells_some1_one_iff : Spells (some1 (.one f)) b x r ↔ x ≠ [] ∧ ∀ c ∈ x, f c := by
  rw [some1, spells_seq_iff]
  constructor
  · rintro ⟨y, z, rfl, hy, hz⟩
    obtain ⟨c, hc, rfl⟩ := spells_one_iff.mp hy
    rw [singleton_append, forall_mem_cons]
    exact ⟨cons_ne_nil _ _, hc, spells_many_one_iff.mp hz⟩
  · rintro ⟨hne, h⟩
    obtain ⟨c, t, rfl⟩ := exists_cons_of_ne_nil hne
    obtain ⟨hc, ht⟩ := forall_mem_cons.mp h
    exact ⟨[c], t, rfl, .one hc, spells_many_one_iff.mpr ht⟩

@[simp]
lemma spells_blanks_iff : Spells blanks b x r ↔ x ≠ [] ∧ ∀ c ∈ x, isBlank c :=
  spells_some1_one_iff

@[simp]
lemma spells_blanks0_iff : Spells blanks0 b x r ↔ ∀ c ∈ x, isBlank c :=
  spells_many_one_iff

@[simp]
lemma spells_char_iff : Spells (char c) b x r ↔ x = [c] := by
  simp [char]

/-- **A fixed text** is spelled letter by letter. -/
@[simp]
lemma spells_lit_iff {s : String} : Spells (lit s) b x r ↔ Spelled s x := by
  unfold lit Spelled
  induction s.toList generalizing b x with
  | nil => simp [all]
  | cons k ks ih =>
    rw [map_cons, spells_all_cons_iff]
    constructor
    · rintro ⟨y, z, rfl, hy, hz⟩
      obtain ⟨c, hc, rfl⟩ := spells_one_iff.mp hy
      exact .cons hc (ih.mp hz)
    · intro h
      obtain ⟨c, t, hc, ht, rfl⟩ := forall₂_cons_left_iff.mp h
      exact ⟨[c], t, rfl, .one hc, ih.mpr ht⟩

end Built

/-! ## Greedy rounds of a class -/

/-- **Greedy rounds of a class** take all its characters, if what is tried behind them always
succeeds. -/
lemma exists_reaches_of_rounds_one {f : Char → Bool} (hfuel : k.rest.length ≤ fuel.length)
    (hnext : ∀ x l, k.Reaches x l → (next l).isSome)
    (h : rounds (one f).run true fuel k next = some r) :
    ∃ x l, k.Reaches x l ∧ l.rest.head?.any f = false ∧ next l = some r := by
  induction fuel generalizing k with
  | nil =>
    have hrest : k.rest = [] := eq_nil_of_length_eq_zero (Nat.le_zero.mp hfuel)
    exact ⟨[], k, .refl k, by rw [hrest]; rfl, h⟩
  | cons d fuel ih =>
    rw [rounds_cons, if_pos rfl, run] at h
    cases hrest : k.rest with
    | nil =>
      rw [hrest] at h
      exact ⟨[], k, .refl k, by rw [hrest]; rfl, h⟩
    | cons c t =>
      rw [hrest] at h hfuel
      dsimp only at h
      split_ifs at h with hc hmove
      · have hreach : k.Reaches [c] (k.next c t) := .next hrest
        have hmore : (rounds (one f).run true fuel (k.next c t) next).isSome :=
          isSome_rounds_of_next (hnext [c] _ hreach)
        rw [or_of_isSome hmore] at h
        obtain ⟨x, l, hl, hhead, hl'⟩ := ih (Nat.le_of_succ_le_succ hfuel)
          (fun x l hl => hnext _ l (hreach.trans hl)) h
        exact ⟨_, l, hreach.trans hl, hhead, hl'⟩
      · exact absurd ((Cursor.Reaches.next hrest).offset_lt (cons_ne_nil _ _)) hmove
      · exact ⟨[], k, .refl k, by rw [hrest]; simpa using hc, h⟩

end Pattern

end SqlOutline
