import SqlOutline.Proofs.Pattern.Spell
import SqlOutline.Proofs.Text.Classes

/-!
# The preferred way of a pattern

Where it is known what a pattern meets, its run can be followed step by step.

## Main definitions

* `Leads`, `Fails` — the preferred way of a pattern leads to a place, or there is none.

## Main results

* `run_many_lazy` — lazy rounds stop at the first place where what is tried succeeds.
* `leads_anyOf_phrase` — one of several phrases in front of white space.
-/

namespace SqlOutline

open Option List Text Cursor

/-- The place behind a text that stands at a place. -/
def Cursor.behind (x : Text) (k : Cursor) : Cursor :=
  ⟨x.getLast?.or k.before, k.rest.drop x.length, k.offset + byteLength x, k.groups⟩

variable {c : Char}

namespace Cursor

variable {k : Cursor} {x y r : Text}

lemma behind_append (x y : Text) (k : Cursor) : k.behind (x ++ y) = (k.behind x).behind y := by
  simp [behind, getLast?_append, Option.or_assoc, Nat.add_comm x.length, Nat.add_assoc]

lemma rest_behind (h : k.rest = x ++ r) : (k.behind x).rest = r := by
  rw [behind, h, drop_left]

lemma next_eq_behind (h : k.rest = c :: r) : k.next c r = k.behind [c] := by
  simp [next, behind, h]

lemma reaches_behind (h : k.rest = x ++ r) : k.Reaches x (k.behind x) :=
  ⟨by rw [rest_behind h, h], rfl, rfl⟩

end Cursor

namespace Pattern

variable {s : String} {next : Continuation} {ws : List String}

/-- The preferred way of a pattern leads from one place to another, if what is tried there
succeeds. -/
def Leads (p : Pattern) (k l : Cursor) : Prop :=
  ∀ next : Continuation, (next l).isSome → p.run k next = next l

def Fails (p : Pattern) (k : Cursor) : Prop := ∀ next : Continuation, p.run k next = none

variable {p q : Pattern} {ps : List Pattern} {k l m : Cursor} {f : Char → Bool} {x r : Text}

lemma Leads.seq (hp : p.Leads k l) (hq : q.Leads l m) : (seq p q).Leads k m := by
  intro next hnext
  have hrest := hq next hnext
  rw [run, hp _ (by rwa [hrest]), hrest]

lemma leads_all_nil (k : Cursor) : (all []).Leads k k := fun _ _ => rfl

lemma Leads.cons (hp : p.Leads k l) (hps : (all ps).Leads l m) : (all (p :: ps)).Leads k m := by
  intro next hnext
  have hrest := hps next hnext
  rw [run_all_cons, hp _ (by rwa [hrest]), hrest]

lemma run_one (hc : f c) (hk : k.rest = c :: r) :
    (one f).run k next = next (k.behind [c]) := by
  rw [run, hk]
  dsimp only
  rw [if_pos hc, next_eq_behind hk]

lemma leads_one (hc : f c) (hk : k.rest = c :: r) :
    (one f).Leads k (k.behind [c]) := fun _ _ => run_one hc hk

lemma leads_boundary (h : isWordBoundary k.before k.rest.head?) :
    boundary.Leads k k := fun _ _ => if_pos h

lemma leads_atStart (h : k.offset = 0) : atStart.Leads k k := fun _ _ => if_pos h

lemma run_lit (hx : Spelled s x) (hk : k.rest = x ++ r) :
    (lit s).run k next = next (k.behind x) := by
  unfold Spelled at hx
  unfold lit
  generalize s.toList = ks at hx
  induction hx generalizing k with
  | nil =>
    have hnil : k.behind [] = k := by simp [behind]
    rw [hnil]
    rfl
  | @cons a c ks x hc _ ih =>
    rw [map_cons, run_all_cons, run_one hc (r := x ++ r) hk, ih (rest_behind (x := [c]) hk),
      ← behind_append]
    rfl

lemma leads_lit (hx : Spelled s x) (hk : k.rest = x ++ r) : (lit s).Leads k (k.behind x) :=
  fun _ _ => run_lit hx hk

lemma run_one_round {c : Char} {next : Continuation} (hc : f c) (hk : k.rest = c :: r)
    (hnext : (next (k.behind [c])).isSome) :
    (one f).run k (fun l => if k.offset < l.offset then next l else none) =
      next (k.behind [c]) := by
  have hmove : k.offset < (k.behind [c]).offset :=
    (reaches_behind (x := [c]) hk).offset_lt (cons_ne_nil _ _)
  have hround := leads_one (f := f) hc hk fun l => if k.offset < l.offset then next l else none
  rw [if_pos hmove] at hround
  exact hround hnext

lemma leads_many (hx : ∀ c ∈ x, f c) (hr : r.head?.any f = false) (hk : k.rest = x ++ r) :
    (many true (.one f)).Leads k (k.behind x) := by
  intro next hnext
  rw [run]
  have hfuel : x.length ≤ k.rest.length := by rw [hk, length_append]; omega
  generalize k.rest = fuel at hfuel
  induction x generalizing k fuel with
  | nil =>
    have hnil : k.behind [] = k := by simp [behind]
    rw [hnil]
    cases fuel with
    | nil => rfl
    | cons d fuel =>
      have hstop (g : Continuation) : (one f).run k g = none := by
        rw [run, hk, nil_append]
        cases r with
        | nil => rfl
        | cons c r =>
          have hc : f c = false := hr
          simp [hc]
      rw [rounds_cons, if_pos rfl, hstop, none_or]
  | cons c x ih =>
    obtain ⟨hc, hx⟩ := forall_mem_cons.mp hx
    obtain ⟨d, fuel, rfl⟩ : ∃ d fuel', fuel = d :: fuel' :=
      exists_cons_of_length_pos (by rw [length_cons] at hfuel; omega)
    have hmore := ih hx (k := k.behind [c]) (rest_behind (x := [c]) hk)
      (by rw [← behind_append]; exact hnext) fuel (Nat.le_of_succ_le_succ hfuel)
    rw [← behind_append] at hmore
    rw [rounds_cons, if_pos rfl, run_one_round hc hk (by rwa [hmore]), hmore]
    exact or_of_isSome hnext

lemma leads_some1 (hne : x ≠ []) (hx : ∀ c ∈ x, f c) (hr : r.head?.any f = false)
    (hk : k.rest = x ++ r) : (some1 (.one f)).Leads k (k.behind x) := by
  obtain ⟨c, x, rfl⟩ := exists_cons_of_ne_nil hne
  obtain ⟨hc, hx⟩ := forall_mem_cons.mp hx
  refine (leads_one hc hk).seq ?_
  have hmore := leads_many hx hr (k := k.behind [c]) (rest_behind (x := [c]) hk)
  rwa [← behind_append] at hmore

lemma Leads.group (hp : p.Leads k l) (n : Nat) :
    (group n p).Leads k { l with groups := (n, k.textTo l) :: l.groups } :=
  fun _ hnext => hp _ hnext

lemma Leads.altLeft (hp : p.Leads k l) (q : Pattern) : (alt p q).Leads k l := by
  intro next hnext
  rw [run_alt, hp next hnext, or_of_isSome hnext]

lemma Leads.altRight (hp : p.Fails k) (hq : q.Leads k l) : (alt p q).Leads k l := by
  intro next hnext
  rw [run_alt, hp next, none_or, hq next hnext]

lemma leads_opt_of_fails (hp : p.Fails k) : (opt p).Leads k k := .altRight hp fun _ _ => rfl

lemma leads_atEnd (h : k.rest = []) : atEnd.Leads k k := fun _ _ => if_pos (by simp [h])

lemma Leads.run_cons (hp : p.Leads k l)
    (h : (all ps).run l next = some m) : (all (p :: ps)).run k next = some m := by
  rw [run_all_cons, hp _ (by rw [h]; rfl), h]

/-- **Lazy rounds** of a class stop at the first place where what is tried there succeeds. -/
lemma run_many_lazy (hx : ∀ c ∈ x, f c) (hk : k.rest = x ++ r)
    (hfail : ∀ y z, x = y ++ z → z ≠ [] → next (k.behind y) = none)
    (h : next (k.behind x) = some m) : (many false (.one f)).run k next = some m := by
  rw [run]
  have hfuel : x.length ≤ k.rest.length := by rw [hk, length_append]; omega
  generalize k.rest = fuel at hfuel
  have hnil (k : Cursor) : k.behind [] = k := by simp [behind]
  induction x generalizing k fuel with
  | nil =>
    rw [hnil] at h
    cases fuel with
    | nil => exact h
    | cons d fuel => rw [rounds_cons, if_neg (by decide), h, some_or]
  | cons c x ih =>
    obtain ⟨hc, hx⟩ := forall_mem_cons.mp hx
    obtain ⟨d, fuel, rfl⟩ : ∃ d fuel', fuel = d :: fuel' :=
      exists_cons_of_length_pos (by rw [length_cons] at hfuel; omega)
    have hfirst : next k = none := by
      have h := hfail [] (c :: x) rfl (cons_ne_nil _ _)
      rwa [hnil] at h
    have hmore := ih hx (k := k.behind [c]) (rest_behind (x := [c]) hk)
      (fun y z hyz hz => by
        rw [← behind_append]
        exact hfail ([c] ++ y) z (by rw [hyz]; rfl) hz)
      (by rw [← behind_append]; exact h) fuel (Nat.le_of_succ_le_succ hfuel)
    rw [rounds_cons, if_neg (by decide), hfirst, none_or,
      run_one_round hc hk (by rw [hmore]; rfl), hmore]

lemma fails_of_not_spells (hp : p.floats)
    (h : ∀ x r, k.rest = x ++ r → ¬ Spells p k.before x r) : p.Fails k := by
  intro next
  by_contra hsome
  obtain ⟨m, hm⟩ := ne_none_iff_exists'.mp hsome
  obtain ⟨x, l, hl, hx, -⟩ := sound_of_floats hp k next m hm
  exact h x l.rest hl.rest hx

/-! ## Words -/

def capital (c : Char) : Char :=
  if c.toNat = 0x212A then 'K' else if c.toNat = 0x17F then 'S' else c.toUpper

def IsCapital (s : String) : Prop :=
  s.toList ≠ [] ∧ ∀ a ∈ s.toList, isAsciiAlpha a ∧ a.toUpper = a

instance (s : String) : Decidable (IsCapital s) := inferInstanceAs (Decidable (_ ∧ _))

lemma capital_of_letterMatches {a : Char} (ha : isAsciiAlpha a ∧ a.toUpper = a)
    (h : letterMatches a c) : capital c = a ∧ isBlank c = false := by
  simp only [letterMatches, Bool.or_eq_true, Bool.and_eq_true, beq_iff_eq, ha.2] at h
  rcases h with (h | ⟨rfl, hc⟩) | ⟨rfl, hc⟩
  · have hc : isAsciiAlpha c := isAsciiAlpha_of_toUpper (h ▸ ha.1)
    have hcode := toNat_of_isAsciiAlpha hc
    refine ⟨?_, isBlank_eq_false_of_isAsciiAlpha hc⟩
    rw [capital, if_neg (by omega), if_neg (by omega), h]
  · simp [capital, isBlank, hc]
  · simp [capital, isBlank, hc]

lemma spelled_of_upper (hs : IsCapital s) (h : upper x = s.toList) : Spelled s x := by
  rw [Spelled, ← h, upper, forall₂_map_left_iff, forall₂_same]
  intro c hc
  have hupper := hs.2 c.toUpper (h ▸ mem_map_of_mem hc)
  simp [letterMatches, hupper.2]

lemma Spelled.isBlank_eq_false (hs : IsCapital s) (hx : Spelled s x) :
    ∀ c ∈ x, isBlank c = false := by
  unfold Spelled at hx
  replace hs := hs.2
  generalize s.toList = as at hs hx
  induction hx with
  | nil => simp
  | cons hac _ ih =>
    obtain ⟨ha, hs⟩ := forall_mem_cons.mp hs
    exact forall_mem_cons.mpr ⟨(capital_of_letterMatches ha hac).2, ih hs⟩

lemma Spelled.ne_nil (hs : IsCapital s) (hx : Spelled s x) : x ≠ [] := by
  rintro rfl
  exact hs.1 (forall₂_nil_right_iff.mp hx)

lemma Spelled.isPrefix {u : String} {y w : Text} (hs : IsCapital s) (hu : IsCapital u)
    (hx : Spelled s x) (hy : Spelled u y) (hr : ∀ c ∈ r.head?, isBlank c)
    (heq : x ++ r = y ++ w) : u.toList <+: s.toList := by
  unfold Spelled at hx hy
  replace hs := hs.2
  replace hu := hu.2
  generalize s.toList = as at hs hx
  generalize u.toList = bs at hu hy
  induction hy generalizing as x with
  | nil => exact nil_prefix
  | @cons b c bs y hc _ ih =>
    obtain ⟨hb, hu⟩ := forall_mem_cons.mp hu
    cases hx with
    | nil =>
      have hblank := hr c (by rw [← nil_append r, heq]; rfl)
      rw [(capital_of_letterMatches hb hc).2] at hblank
      cases hblank
    | @cons a d as x hd hx =>
      obtain ⟨ha, hs⟩ := forall_mem_cons.mp hs
      obtain ⟨rfl, htail⟩ := cons.inj heq
      have hab : a = b :=
        (capital_of_letterMatches ha hd).1.symm.trans (capital_of_letterMatches hb hc).1
      rw [hab, cons_prefix_cons]
      exact ⟨rfl, ih htail as hs hx hu⟩

def IsGap (g : Text) : Prop := g ≠ [] ∧ ∀ c ∈ g, isBlank c

instance (g : Text) : Decidable (IsGap g) := inferInstanceAs (Decidable (_ ∧ _))

lemma IsGap.head {g : Text} (hg : IsGap g) (y : Text) : ∀ c ∈ (g ++ y).head?, isBlank c := by
  obtain ⟨c, g, rfl⟩ := exists_cons_of_ne_nil hg.1
  rintro _ ⟨⟩
  exact hg.2 c mem_cons_self

lemma IsGap.leads (hx : IsGap x) (hr : r.head?.any isBlank = false) (hk : k.rest = x ++ r) :
    blanks.Leads k (k.behind x) := leads_some1 hx.1 hx.2 hr hk

/-- Words in any letter case with white space between them. -/
inductive InWords : List String → Text → Prop
  | single {s : String} {x : Text} (hx : Spelled s x) : InWords [s] x
  | cons {s u : String} {us : List String} {x g y : Text} (hx : Spelled s x) (hg : IsGap g)
    (hy : InWords (u :: us) y) : InWords (s :: u :: us) (x ++ (g ++ y))

lemma InWords.exists_spelled (h : InWords (s :: ws) x) :
    ∃ y r, x = y ++ r ∧ Spelled s y ∧ ∀ c ∈ r.head?, isBlank c := by
  cases h with
  | single hx => exact ⟨x, [], (append_nil x).symm, hx, by simp⟩
  | @cons _ _ _ x g y hx hg hy => exact ⟨x, g ++ y, rfl, hx, hg.head y⟩

lemma InWords.head_eq_false (h : InWords (s :: ws) x)
    (hs : IsCapital s) (r : Text) : (x ++ r).head?.any isBlank = false := by
  obtain ⟨y, w, rfl, hy, -⟩ := h.exists_spelled
  obtain ⟨c, y, rfl⟩ := exists_cons_of_ne_nil (hy.ne_nil hs)
  exact hy.isBlank_eq_false hs c mem_cons_self

lemma leads_phrase (hws : ∀ s ∈ ws, IsCapital s) (h : InWords ws x)
    (hk : k.rest = x ++ r) : (phrase ws).Leads k (k.behind x) := by
  induction h generalizing k with
  | single hx => exact leads_lit hx hk
  | @cons s u us x g y hx hg hy ih =>
    obtain ⟨-, hws⟩ := forall_mem_cons.mp hws
    rw [append_assoc, append_assoc] at hk
    have hgap := hg.leads (hy.head_eq_false (hws u mem_cons_self) r)
      (rest_behind hk)
    have hmore := ih hws (k := (k.behind x).behind g)
      (rest_behind (rest_behind hk))
    rw [behind_append, behind_append]
    exact (leads_lit hx hk).seq (hgap.seq hmore)

lemma floats_lit (s : String) : (lit s).floats := by
  unfold lit
  induction s.toList with
  | nil => rfl
  | cons a as ih =>
    cases as with
    | nil => rfl
    | cons b as => exact ih

lemma fails_phrase {u : String} {a b : List String} (hs : IsCapital s) (hu : IsCapital u)
    (h : InWords (s :: a) x) (hr : ∀ c ∈ r.head?, isBlank c) (hk : k.rest = x ++ r)
    (hne : ¬ u.toList <+: s.toList) : (phrase (u :: b)).Fails k := by
  obtain ⟨y, w, rfl, hy, hw⟩ := h.exists_spelled
  have hlit : (lit u).Fails k := by
    refine fails_of_not_spells (floats_lit u) fun z v hz hspells => hne ?_
    have hblank : ∀ c ∈ (w ++ r).head?, isBlank c := by
      cases w with
      | nil => exact hr
      | cons c w => exact hw
    refine hy.isPrefix hs hu (spells_lit_iff.mp hspells) hblank (w := v) ?_
    rw [← hz, hk, append_assoc]
  cases b with
  | nil => exact hlit
  | cons v b => exact fun next => hlit _

/-- **One of several phrases** is read where it stands in front of white space. -/
lemma leads_anyOf_phrase {wss : List (List String)} (hcapital : ∀ us ∈ wss, ∀ u ∈ us, IsCapital u)
    (hapart : wss.Pairwise fun us vs => us ≠ [] ∧
      ∀ u ∈ us.head?, ∀ v ∈ vs.head?, ¬ u.toList <+: v.toList)
    (hws : s :: ws ∈ wss) (h : InWords (s :: ws) x) (hr : ∀ c ∈ r.head?, isBlank c)
    (hk : k.rest = x ++ r) : (anyOf (wss.map phrase)).Leads k (k.behind x) := by
  induction wss with
  | nil => cases hws
  | cons us wss ih =>
    obtain ⟨hus, hcapital'⟩ := forall_mem_cons.mp hcapital
    obtain ⟨hfirst, hapart'⟩ := pairwise_cons.mp hapart
    rcases mem_cons.mp hws with rfl | hmem
    · have hlead := leads_phrase hus h hk
      cases wss with
      | nil => exact hlead
      | cons vs wss => exact hlead.altLeft _
    · obtain ⟨hne, hstart⟩ := hfirst _ hmem
      obtain ⟨u, us, rfl⟩ := exists_cons_of_ne_nil hne
      have hfail : (phrase (u :: us)).Fails k :=
        fails_phrase (hcapital _ (mem_cons_of_mem _ hmem) s mem_cons_self)
          (hus u mem_cons_self) h hr hk (hstart u rfl s rfl)
      have hlead := ih hcapital' hapart' hmem
      cases wss with
      | nil => cases hmem
      | cons vs wss => exact .altRight hfail hlead

lemma Leads.matchAt? (hp : p.Leads { k with groups := [] } l) : p.matchAt? k = some l :=
  hp some rfl

end Pattern

end SqlOutline
