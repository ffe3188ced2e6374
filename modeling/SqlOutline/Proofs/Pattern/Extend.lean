import SqlOutline.Proofs.Pattern.Search
import SqlOutline.Proofs.Text.Slice

/-!
# Patterns in texts that go on

A pattern that matches in a text also matches in a longer one, but perhaps in another way, which is
preferred and leads out of the text.

## Main definitions

* `Cursor.Extends`, `Outcome` — places in both texts, and how runs in both end.

## Main results

* `refines_run` — running a pattern in both texts.
* `Proper.exists_findAllFrom_append` — the matches of both texts.
-/

namespace SqlOutline

open Option List Text

variable {n : Nat} {t y : Text}

namespace Text

lemma takeBytes_append_of_le {x : Text} (h : n ≤ byteLength x) (y : Text) :
    takeBytes n (x ++ y) = takeBytes n x := by
  induction x generalizing n with
  | nil =>
    obtain rfl : n = 0 := Nat.le_zero.mp h
    rw [nil_append, takeBytes_zero, takeBytes_zero]
  | cons c x ih =>
    rw [cons_append, takeBytes, takeBytes]
    split_ifs
    · rfl
    · rw [byteLength_cons] at h
      rw [ih (by omega)]

lemma length_lt_of_suffix {x : Text} (hx : x <:+ t) (hy : y <:+ t)
    (h : byteLength x < byteLength y) : x.length < y.length := by
  rcases suffix_or_suffix_of_suffix hx hy with ⟨z, rfl⟩ | ⟨z, rfl⟩
  · have hz : z ≠ [] := by
      rintro rfl
      exact absurd h (Nat.lt_irrefl _)
    have hpos := length_pos_of_ne_nil hz
    rw [length_append]
    omega
  · rw [byteLength_append] at h
    omega

end Text

/-- The place `k` of the text `t`, which ends at the offset `stop`, seen as the place `k'` of the
text that goes on with `y`. The text does not end in a word. -/
structure Cursor.Extends (t y : Text) (stop : Nat) (k k' : Cursor) : Prop where
  rest : k'.rest = k.rest ++ y
  before : k'.before = k.before
  offset : k'.offset = k.offset
  groups : k'.groups = k.groups
  suffix : k.rest <:+ t
  end_eq : k.offset + byteLength k.rest = stop
  last : (k.rest.getLast?.or k.before).any isWordChar = false

variable {r : Text}

namespace Cursor.Extends

variable {t y : Text} {stop : Nat} {k k' l l' : Cursor}

lemma next (h : k.Extends t y stop k') {c : Char} (hrest : k.rest = c :: r) :
    (k.next c r).Extends t y stop (k'.next c (r ++ y)) where
  rest := rfl
  before := rfl
  offset := congrArg (· + c.utf8Size) h.offset
  groups := h.groups
  suffix := (suffix_cons c r).trans (hrest ▸ h.suffix)
  end_eq := by
    have hend := h.end_eq
    rw [hrest, byteLength_cons] at hend
    simp only [Cursor.next]
    omega
  last := by
    have hlast := h.last
    rw [hrest, getLast?_cons] at hlast
    simp only [Cursor.next]
    cases hr : r.getLast? <;> simpa [hr] using hlast

lemma withGroups (h : k.Extends t y stop k') (groups : List (Nat × Capture)) :
    Cursor.Extends t y stop { k with groups } { k' with groups } :=
  ⟨h.rest, h.before, h.offset, rfl, h.suffix, h.end_eq, h.last⟩

lemma textTo_eq (h : k.Extends t y stop k') (hl : l.Extends t y stop l') :
    k'.textTo l' = k.textTo l := by
  have hend := h.end_eq
  have hend' := hl.end_eq
  rw [textTo, textTo, h.offset, hl.offset, h.rest, takeBytes_append_of_le (by omega)]

end Cursor.Extends

variable {p : Pattern} {k' r' : Cursor} {greedy : Bool} {fuel : Text} {b : Option Char}

namespace Pattern

/-! ## Runs -/

/-- How runs in a text and in the longer one end: both fail, or both lead to one place, or the
second leads out of the text. -/
inductive Outcome (t y : Text) (stop : Nat) : Option Cursor → Option Cursor → Prop
  | fails : Outcome t y stop none none
  | inside {r r' : Cursor} (h : r.Extends t y stop r') : Outcome t y stop (some r) (some r')
  | outside (o : Option Cursor) {r' : Cursor} (h : stop ≤ r'.offset) : Outcome t y stop o (some r')

structure Refines (t y : Text) (stop : Nat) (next next' : Continuation) : Prop where
  outcome : ∀ k k', Cursor.Extends t y stop k k' → Outcome t y stop (next k) (next' k')
  forward : ∀ k' r', next' k' = some r' → k'.offset ≤ r'.offset

section Refines

variable {t y : Text} {stop : Nat} {next next' : Continuation}

lemma Outcome.eq_none {o : Option Cursor} (h : Outcome t y stop o none) : o = none := by
  cases h
  rfl

lemma Outcome.exists_inside {o : Option Cursor} (h : Outcome t y stop o (some r'))
    (hr : r'.offset < stop) : ∃ r, o = some r ∧ r.Extends t y stop r' := by
  cases h with
  | inside h => exact ⟨_, rfl, h⟩
  | outside _ h => exact absurd hr (Nat.not_lt.mpr h)

/-- At the end of the text a run in the longer one can only fail or lead out of the text. -/
lemma Outcome.of_end {o o' : Option Cursor} {k : Cursor} (hk : k.Extends t y stop k')
    (hrest : k.rest = []) (hforward : ∀ r', o' = some r' → k'.offset ≤ r'.offset)
    (hnone : o' = none → o = none) : Outcome t y stop o o' := by
  cases o' with
  | none =>
    rw [hnone rfl]
    exact .fails
  | some r' =>
    have hend := hk.end_eq
    rw [hrest, byteLength_nil, Nat.add_zero, ← hk.offset] at hend
    exact .outside o (hend ▸ hforward r' rfl)

lemma refines_some : Refines t y stop some some :=
  ⟨fun _ _ => .inside, fun _ _ h => some.inj h ▸ Nat.le_refl _⟩

lemma forward_run (hp : p.floats)
    (hnext : ∀ k' r', next' k' = some r' → k'.offset ≤ r'.offset)
    (h : p.run k' next' = some r') : k'.offset ≤ r'.offset := by
  obtain ⟨x, l, hl, -, hr⟩ := sound_of_floats hp k' next' r' h
  have hle := hnext l r' hr
  rw [hl.offset] at hle
  omega

lemma forward_rounds (hp : p.floats)
    (hnext : ∀ k' r', next' k' = some r' → k'.offset ≤ r'.offset)
    (h : rounds p.run greedy fuel k' next' = some r') : k'.offset ≤ r'.offset := by
  obtain ⟨x, l, hl, -, hr⟩ := exists_spells_of_rounds (sound_of_floats hp) h
  have hle := hnext l r' hr
  rw [hl.offset] at hle
  omega

lemma refines_or {f g f' g' : Continuation} (hf : Refines t y stop f f')
    (hg : Refines t y stop g g') :
    Refines t y stop (fun k => (f k).or (g k)) (fun k => (f' k).or (g' k)) where
  outcome := by
    intro k k' hk
    have hf := hf.outcome k k' hk
    generalize f k = o at hf
    generalize f' k' = o' at hf
    cases hf with
    | fails => exact hg.outcome k k' hk
    | inside h => exact .inside h
    | outside _ h => exact .outside _ h
  forward := by
    intro k' r' h
    rcases or_eq_some_iff.mp h with h | ⟨-, h⟩
    · exact hf.forward k' r' h
    · exact hg.forward k' r' h

/-- **Rounds in both texts.**

**Proof sketch.** Induction on the fuel of the text. Where it is used up, the place is the end of
the text, and another round in the longer text leads out of the text. Elsewhere another round leads
to a place with less text behind it. -/
lemma refines_rounds (hp : p.floats) (hstep : ∀ next next', Refines t y stop next next' →
      Refines t y stop (p.run · next) (p.run · next'))
    (hnext : Refines t y stop next next') {fuel' : Text}
    (hfuel : fuel.length ≤ fuel'.length) {k : Cursor} (hk : k.Extends t y stop k')
    (hrest : k.rest.length ≤ fuel.length) :
    Outcome t y stop (rounds p.run greedy fuel k next) (rounds p.run greedy fuel' k' next') := by
  induction fuel generalizing fuel' k k' with
  | nil =>
    refine .of_end hk (eq_nil_of_length_eq_zero (Nat.le_zero.mp hrest))
      (fun r' => forward_rounds hp hnext.forward) fun h => ?_
    have hnone : next' k' = none := by
      by_contra hsome
      have hrounds : (rounds p.run greedy fuel' k' next').isSome :=
        isSome_rounds_of_next (isSome_iff_ne_none.mpr hsome)
      rw [h] at hrounds
      cases hrounds
    exact (hnone ▸ hnext.outcome k k' hk).eq_none
  | cons c fuel ih =>
    obtain ⟨c', fuel', rfl⟩ := exists_cons_of_length_pos (Nat.lt_of_lt_of_le
      (Nat.succ_pos fuel.length) hfuel)
    have hround : Refines t y stop
        (fun l => if k.offset < l.offset then rounds p.run greedy fuel l next else none)
        (fun l => if k'.offset < l.offset then rounds p.run greedy fuel' l next' else none) := by
      refine ⟨fun l l' hl => ?_, fun l' r' h => ?_⟩
      · rw [hk.offset, hl.offset]
        split_ifs with hlt
        · have hend := hk.end_eq
          have hend' := hl.end_eq
          have hshort := length_lt_of_suffix hl.suffix hk.suffix (by omega)
          rw [length_cons] at hrest
          exact ih (Nat.le_of_succ_le_succ hfuel) hl (by omega)
        · exact .fails
      · split_ifs at h
        exact forward_rounds hp hnext.forward h
    have hanother := hstep _ _ hround
    rw [rounds_cons, rounds_cons]
    cases greedy with
    | true => exact (refines_or hanother hnext).outcome k k' hk
    | false => exact (refines_or hnext hanother).outcome k k' hk

/-- **Running a pattern in both texts.**

**Proof sketch.** Induction on the pattern, for all continuations. Only at the end of the text can
the longer one make a difference: no character is left in the text, and a word boundary there needs
a character behind it, since the text does not end in a word. -/
lemma refines_run (hp : p.floats) (hnext : Refines t y stop next next') :
    Refines t y stop (p.run · next) (p.run · next') := by
  induction p generalizing next next' with
  | empty => exact hnext
  | one f =>
    refine ⟨fun k k' hk => ?_, fun _ _ => forward_run hp hnext.forward⟩
    cases hrest : k.rest with
    | nil =>
      exact .of_end hk hrest (fun _ => forward_run hp hnext.forward) fun _ => by
        simp only [run, hrest]
    | cons c r =>
      dsimp only [run]
      rw [hk.rest, hrest]
      dsimp only [cons_append]
      split_ifs
      · exact hnext.outcome _ _ (hk.next hrest)
      · exact .fails
  | boundary =>
    refine ⟨fun k k' hk => ?_, fun _ _ => forward_run hp hnext.forward⟩
    cases hrest : k.rest with
    | nil =>
      have hlast := hk.last
      rw [hrest, getLast?_nil, none_or] at hlast
      exact .of_end hk hrest (fun _ => forward_run hp hnext.forward) fun _ => by
        simp [run, isWordBoundary, hrest, hlast]
    | cons c r =>
      dsimp only [run]
      rw [hk.before, hk.rest, hrest, cons_append, head?_cons, head?_cons]
      split_ifs
      · exact hnext.outcome k k' hk
      · exact .fails
  | atStart => cases hp
  | atEnd => cases hp
  | seq p q ihp ihq =>
    obtain ⟨hp, hq⟩ := Bool.and_eq_true_iff.mp hp
    exact ihp hp (ihq hq hnext)
  | alt p q ihp ihq =>
    obtain ⟨hp, hq⟩ := Bool.and_eq_true_iff.mp hp
    simp only [run_alt]
    exact refines_or (ihp hp hnext) (ihq hq hnext)
  | many greedy p ih =>
    refine ⟨fun k k' hk => ?_, fun _ _ => forward_run hp hnext.forward⟩
    have hfuel : k.rest.length ≤ k'.rest.length := by
      rw [hk.rest, length_append]
      omega
    exact refines_rounds (p := p) hp (fun _ _ => ih hp) hnext hfuel hk (Nat.le_refl _)
  | group n p ih =>
    refine ⟨fun k k' hk => ?_, fun _ _ => forward_run hp hnext.forward⟩
    have hgroup : Refines t y stop
        (fun l => next { l with groups := (n, k.textTo l) :: l.groups })
        (fun l => next' { l with groups := (n, k'.textTo l) :: l.groups }) := by
      refine ⟨fun l l' hl => ?_, fun l' r' => hnext.forward _ r'⟩
      rw [hk.textTo_eq hl, hl.groups]
      exact hnext.outcome _ _ (hl.withGroups _)
    exact (ih hp hgroup).outcome k k' hk

end Refines

/-! ## Matches -/

/-- A match of the text `t` seen as a match of the text that goes on with `y`. -/
structure Found.Extends (t y : Text) (stop : Nat) (m m' : Found) : Prop where
  start : m.start.Extends t y stop m'.start
  stop : m.stop.Extends t y stop m'.stop

lemma Found.Extends.text?_eq {stop : Nat} {m m' : Found} (h : m.Extends t y stop m')
    (n : Nat) : m'.text? n = m.text? n := by
  rw [text?, text?, Cursor.group?, Cursor.group?, h.stop.groups]

section Matches

variable {p : Pattern} {t y : Text} {stop : Nat} {k k' : Cursor}

lemma outcome_matchAt? (hp : p.floats) (hk : k.Extends t y stop k') :
    Outcome t y stop (p.matchAt? k) (p.matchAt? k') :=
  (refines_run hp refines_some).outcome _ _ (hk.withGroups [])

lemma matchAt?_eq_none_of_extends (hp : p.floats) (hk : k.Extends t y stop k')
    (h : p.matchAt? k' = none) : p.matchAt? k = none :=
  (h ▸ outcome_matchAt? hp hk).eq_none

lemma findFrom?_of_matchAt? {l : Cursor} (h : p.matchAt? ⟨b, t, n, []⟩ = some l) :
    p.findFrom? b n t = some ⟨⟨b, t, n, []⟩, l⟩ := by
  cases t with
  | nil => rw [findFrom?, h, map_some]
  | cons c t => rw [findFrom?, h]

lemma offset_le_of_matchAt? (hp : p.floats) {l : Cursor} (h : p.matchAt? k = some l) :
    k.offset ≤ l.offset := by
  obtain ⟨x, hx, -⟩ := exists_spells_of_matchAt? hp h
  rw [hx.offset]
  exact Nat.le_add_right _ _

/-- **The leftmost match in both texts.** -/
lemma findFrom?_of_extends (hp : p.floats)
    (hr : Cursor.Extends t y stop ⟨b, r, n, []⟩ ⟨b, r ++ y, n, []⟩) :
    (∀ m', p.findFrom? b n (r ++ y) = some m' → m'.stop.offset < stop →
        ∃ m, p.findFrom? b n r = some m ∧ m.Extends t y stop m') ∧
      ∀ m, p.findFrom? b n r = some m →
        ∃ m', p.findFrom? b n (r ++ y) = some m' ∧ m'.start.offset ≤ m.start.offset := by
  induction r generalizing b n with
  | nil =>
    have hend : n = stop := hr.end_eq
    refine ⟨fun m' h hlt => ?_, fun m h => ?_⟩
    · obtain ⟨⟨x, hx⟩, hmatch, -⟩ := of_findFrom?_eq_some h
      have hstart : m'.start.offset = n + byteLength x := hx.offset
      have hle := offset_le_of_matchAt? hp hmatch
      omega
    · obtain ⟨l, hl, rfl⟩ := map_eq_some_iff.mp h
      cases hmatch : p.matchAt? ⟨b, [] ++ y, n, []⟩ with
      | none =>
        rw [matchAt?_eq_none_of_extends hp hr hmatch] at hl
        cases hl
      | some l' => exact ⟨_, findFrom?_of_matchAt? hmatch, Nat.le_refl n⟩
  | cons c r ih =>
    have hnext : Cursor.Extends t y stop ⟨some c, r, n + c.utf8Size, []⟩
        ⟨some c, r ++ y, n + c.utf8Size, []⟩ := hr.next rfl
    obtain ⟨hinside, hfound⟩ := ih hnext
    rw [cons_append, findFrom?, findFrom?]
    cases hmatch' : p.matchAt? ⟨b, c :: (r ++ y), n, []⟩ with
    | none =>
      have hmatch := matchAt?_eq_none_of_extends hp hr hmatch'
      simp only [hmatch]
      exact ⟨hinside, hfound⟩
    | some l' =>
      dsimp only
      refine ⟨fun m' h hlt => ?_, fun m h => ⟨_, rfl, ?_⟩⟩
      · obtain rfl := some.inj h
        obtain ⟨l, hl, hext⟩ := Outcome.exists_inside (hmatch' ▸ outcome_matchAt? hp hr) hlt
        rw [hl]
        exact ⟨_, rfl, hr, hext⟩
      · cases hmatch : p.matchAt? ⟨b, c :: r, n, []⟩ with
        | none =>
          rw [hmatch] at h
          obtain ⟨⟨x, hx⟩, -⟩ := of_findFrom?_eq_some h
          have hoffset : m.start.offset = n + c.utf8Size + byteLength x := hx.offset
          dsimp only
          omega
        | some l =>
          rw [hmatch] at h
          obtain rfl := some.inj h
          exact Nat.le_refl _

end Matches

lemma Proper.start_lt_of_findFrom? (hp : p.Proper) {m : Found} (h : p.findFrom? b n r = some m) :
    m.start.offset < n + byteLength r := by
  obtain ⟨⟨x, hx⟩, hmatch, -⟩ := of_findFrom?_eq_some h
  obtain ⟨w, hw, hreach, -⟩ := hp.exists_of_matchAt? hmatch
  have hmove := hreach.offset_lt hw
  have hrest : r = x ++ w ++ m.stop.rest := (hx.trans hreach).rest
  have hoffset : m.stop.offset = n + byteLength (x ++ w) := (hx.trans hreach).offset
  rw [hrest, byteLength_append]
  omega

/-- **The matches of both texts.** Those of the longer text that end before the end of the text are
the first matches of the text. There are more only if a match of the longer text starts in the text
and ends behind it.

**Proof sketch.** Induction along the search. The leftmost match of the longer text is that of the
text, if it ends before the end of the text. If not, no later one does. -/
lemma Proper.exists_findAllFrom_append (hp : p.Proper) {stop : Nat}
    (hr : Cursor.Extends t y stop ⟨b, r, n, []⟩ ⟨b, r ++ y, n, []⟩) :
    ∃ ms ms' more more', p.findAllFrom b n r = ms ++ more ∧
      p.findAllFrom b n (r ++ y) = ms' ++ more' ∧ List.Forall₂ (Found.Extends t y stop) ms ms' ∧
      (∀ m' ∈ more', stop ≤ m'.stop.offset) ∧
      (more ≠ [] → ∃ m' ∈ more', m'.start.offset < stop) := by
  induction hn : r.length using Nat.strongRecOn generalizing b n r with
  | ind size ih =>
    obtain ⟨hinside, hfound⟩ := findFrom?_of_extends hp.floats hr
    cases hfind' : p.findFrom? b n (r ++ y) with
    | none =>
      have hfind : p.findFrom? b n r = none := by
        by_contra hsome
        obtain ⟨m, hm⟩ := ne_none_iff_exists'.mp hsome
        obtain ⟨m', hm', -⟩ := hfound m hm
        rw [hfind'] at hm'
        cases hm'
      exact ⟨[], [], [], [], by rw [findAllFrom, hfind]; rfl, by rw [findAllFrom, hfind']; rfl,
        .nil, by simp, by simp⟩
    | some m' =>
      rw [hp.findAllFrom_of_some hfind']
      by_cases hlt : m'.stop.offset < stop
      · obtain ⟨m, hfind, hext⟩ := hinside m' hfind' hlt
        have hshort := hp.length_lt_of_findFrom? hfind
        have hplace : Cursor.Extends t y stop ⟨m.stop.before, m.stop.rest, m.stop.offset, []⟩
            ⟨m.stop.before, m.stop.rest ++ y, m.stop.offset, []⟩ :=
          ⟨rfl, rfl, rfl, rfl, hext.stop.suffix, hext.stop.end_eq, hext.stop.last⟩
        obtain ⟨ms, ms', more, more', hms, hms', hforall, houtside, hmore⟩ :=
          ih _ (hn ▸ hshort) hplace rfl
        refine ⟨m :: ms, m' :: ms', more, more', ?_, ?_, .cons hext hforall, houtside, hmore⟩
        · rw [hp.findAllFrom_of_some hfind, hms, cons_append]
        · rw [hext.stop.before, hext.stop.offset, hext.stop.rest, hms', cons_append]
      · refine ⟨[], [], _, _, rfl, rfl, .nil, fun f hf => ?_, fun hne => ?_⟩
        · rcases mem_cons.mp hf with rfl | hf
          · exact Nat.not_lt.mp hlt
          · obtain ⟨⟨x, hx⟩, hmatch⟩ := hp.of_mem_findAllFrom hf
            have hstart : f.start.offset = m'.stop.offset + byteLength x := hx.offset
            have hle := offset_le_of_matchAt? hp.floats hmatch
            omega
        · cases hfind : p.findFrom? b n r with
          | none =>
            rw [findAllFrom, hfind] at hne
            exact absurd rfl hne
          | some m =>
            obtain ⟨f, hf, hle⟩ := hfound m hfind
            obtain rfl := some.inj (hfind'.symm.trans hf)
            have hlt := hp.start_lt_of_findFrom? hfind
            have hend : n + byteLength r = stop := hr.end_eq
            exact ⟨m', mem_cons_self, by omega⟩

end Pattern

end SqlOutline
