import Mathlib.Data.List.Infix
import Mathlib.Tactic.Lemma
import SqlOutline.Sql.Grammar.Name

/-!
# What readers take

A reader that succeeds has taken tokens from the front of those it was given. All of these stand at
the end of one fixed list, so a reader may be known by what it does at its places.

## Main definitions

* `Takes`, `TakesAt` — what a reader takes, as a relation between its result and the tokens.
* `Looks`, `Yields` — a reader that takes nothing, and a property of all results.

## Main results

* `Takes.bind`, `TakesAt.bind` — what a sequence of readers takes.
-/

namespace SqlOutline.Sql.Reader

open List

variable {α β : Type} {s s' : Input} {U : List Token} {P : α → List Token → Prop}
  {Q : β → List Token → Prop} {p : Reader α} {f : α → Reader β}

variable {P' : α → List Token → Prop} {a : α}

lemma bind_eq_ok {b : β} : (p >>= f) s = .ok (b, s') ↔
    ∃ a s₁, p s = .ok (a, s₁) ∧ f a s₁ = .ok (b, s') := by
  change Except.bind (p s) (fun r => f r.1 r.2) = _ ↔ _
  cases p s with
  | error e => simp [Except.bind]
  | ok r =>
    obtain ⟨a, s₁⟩ := r
    simp [Except.bind]

/-! ## Tokens that are taken -/

/-- From an input, a reader that succeeds takes tokens that are related to its result. -/
def TakesAt (s : Input) (p : Reader α) (P : α → List Token → Prop) : Prop :=
  ∀ a s', p s = .ok (a, s') → ∃ x, s.rest = x ++ s'.rest ∧ P a x

/-- A reader takes tokens that are related to its result from every end of `U`. -/
def Takes (U : List Token) (p : Reader α) (P : α → List Token → Prop) : Prop :=
  ∀ s, s.rest <:+ U → TakesAt s p P

/-- **What a sequence of readers takes**, where what the first one takes is known. -/
lemma TakesAt.bind (hp : TakesAt s p P)
    (hf : ∀ a x s₁, s.rest = x ++ s₁.rest → P a x → TakesAt s₁ (f a) fun b y => Q b (x ++ y)) :
    TakesAt s (p >>= f) Q := by
  intro b s' h
  obtain ⟨a, s₁, ha, hb⟩ := bind_eq_ok.mp h
  obtain ⟨x, hx, hpx⟩ := hp a s₁ ha
  obtain ⟨y, hy, hq⟩ := hf a x s₁ hx hpx b s' hb
  exact ⟨x ++ y, by rw [hx, hy, append_assoc], hq⟩

lemma TakesAt.mono (hp : TakesAt s p P) (h : ∀ a x, P a x → P' a x) : TakesAt s p P' := by
  intro a s' ha
  obtain ⟨x, hx, hpx⟩ := hp a s' ha
  exact ⟨x, hx, h a x hpx⟩

lemma TakesAt.and (hp : TakesAt s p P) (hp' : TakesAt s p P') :
    TakesAt s p fun a x => P a x ∧ P' a x := by
  intro a s' ha
  obtain ⟨x, hx, hpx⟩ := hp a s' ha
  obtain ⟨y, hy, hpy⟩ := hp' a s' ha
  obtain rfl : x = y := append_cancel_right (hx.symm.trans hy)
  exact ⟨x, hx, hpx, hpy⟩

lemma takesAt_pure (h : P a []) : TakesAt s (pure a) P := by
  intro b s' hb
  cases hb
  exact ⟨[], rfl, h⟩

lemma suffix_of_eq_append {x : List Token} (hs : s.rest <:+ U) (h : s.rest = x ++ s'.rest) :
    s'.rest <:+ U :=
  (suffix_append x s'.rest).trans (h ▸ hs)

/-- **What a sequence of readers takes.** -/
lemma Takes.bind (hp : Takes U p P) (hf : ∀ a x, P a x → Takes U (f a) fun b y => Q b (x ++ y)) :
    Takes U (p >>= f) Q := fun s hs =>
  (hp s hs).bind fun a x s₁ hx hpx => hf a x hpx s₁ (suffix_of_eq_append hs hx)

lemma Takes.mono (hp : Takes U p P) (h : ∀ a x, P a x → P' a x) :
    Takes U p P' := fun s hs => (hp s hs).mono h

lemma takes_pure (h : P a []) : Takes U (pure a) P := fun _ _ => takesAt_pure h

lemma takes_fail : Takes U fail P := by
  intro s _ a s' h
  cases h

/-- A reader that takes nothing and never fails. -/
def Looks (p : Reader α) : Prop := ∀ s, ∃ a, p s = .ok (a, s)

lemma Looks.takes_bind (hp : Looks p) (hf : ∀ a, Takes U (f a) Q) : Takes U (p >>= f) Q := by
  intro s hs b s' h
  obtain ⟨a, s₁, ha, hb⟩ := bind_eq_ok.mp h
  obtain ⟨a', ha'⟩ := hp s
  obtain ⟨rfl, rfl⟩ : a' = a ∧ s = s₁ := by simpa [ha'] using ha
  exact hf a' s hs b s' hb

lemma looks_bound : Looks bound := fun s => ⟨s.rest.length + 1, rfl⟩

lemma looks_peek : Looks peek := fun s => ⟨s.rest.head?, rfl⟩

lemma takesAt_peek {f : Option Token → Reader β} (hf : ∀ o, s.rest.head? = o → TakesAt s (f o) Q) :
    TakesAt s (peek >>= f) Q := by
  intro b s' h
  obtain ⟨o, _, ho, h⟩ := bind_eq_ok.mp h
  cases ho
  exact hf _ rfl b s' h

variable (k : String) (ks : List String)

lemma looks_peekKeyword : Looks (peekKeyword k) := fun s =>
  ⟨s.rest.head?.any (·.isKeyword k), rfl⟩

lemma looks_peekAny : Looks (peekAny ks) := fun s =>
  ⟨s.rest.head?.any fun t => ks.any (t.isKeyword ·), rfl⟩

lemma looks_peekSymbol : Looks (peekSymbol k) := fun s =>
  ⟨s.rest.head?.any (·.isSymbol k), rfl⟩

/-! ## Basic readers -/

lemma skip_ite_apply (test : Token → Bool) (s : Input) :
    (if s.rest.head?.any test then (do skip 1; return true : Reader Bool) else return false) s =
      if s.rest.head?.any test then .ok (true, { s with rest := s.rest.tail })
      else .ok (false, s) := by
  rw [← drop_one]
  split <;> rfl

lemma keyword?_apply (s : Input) : keyword? k s =
    if s.rest.head?.any (·.isKeyword k) then .ok (true, { s with rest := s.rest.tail })
    else .ok (false, s) :=
  skip_ite_apply (·.isKeyword k) s

section Test

variable {p : Reader Bool} {test : Token → Bool}
  (hp : ∀ s, p s = if s.rest.head?.any test then .ok (true, { s with rest := s.rest.tail })
    else .ok (false, s))

include hp

lemma takesAt_test : TakesAt s p fun b x =>
    if b then ∃ t, x = [t] ∧ test t = true else x = [] ∧ s.rest.head?.any test = false := by
  intro b s' h
  rw [hp] at h
  split at h
  next htest =>
    cases h
    cases hr : s.rest with
    | nil => simp [hr] at htest
    | cons t ts =>
      refine ⟨[t], rfl, t, rfl, ?_⟩
      simpa [hr] using htest
  next htest =>
    cases h
    exact ⟨[], rfl, rfl, Bool.eq_false_iff.mpr htest⟩

lemma takes_test :
    Takes U p fun b x => if b then ∃ t, x = [t] ∧ test t = true else x = [] := fun _ _ =>
  (takesAt_test hp).mono fun b _ h => by
    cases b
    · exact h.1
    · exact h

end Test

lemma takes_keyword? : Takes U (keyword? k) fun b x =>
    if b then ∃ t, x = [t] ∧ t.isKeyword k = true else x = [] :=
  takes_test (keyword?_apply k)

lemma takes_symbol? : Takes U (symbol? k) fun b x =>
    if b then ∃ t, x = [t] ∧ t.isSymbol k = true else x = [] :=
  takes_test (skip_ite_apply (·.isSymbol k))

variable {R : List Token → Prop}

lemma Takes.test {p : Reader Bool} {P : Bool → List Token → Prop}
    (hp : Takes U p fun b x => if b then R x else x = []) (hfalse : P false [])
    (htrue : ∀ x, R x → P true x) : Takes U p P :=
  hp.mono fun b x hx => by
    cases b with
    | false =>
      obtain rfl : x = [] := hx
      exact hfalse
    | true => exact htrue x hx

lemma Takes.bind_test {p : Reader Bool} {f : Bool → Reader β}
    (hp : Takes U p fun b x => if b then R x else x = []) (hfalse : Takes U (f false) Q)
    (htrue : ∀ x, R x → Takes U (f true) fun b y => Q b (x ++ y)) : Takes U (p >>= f) Q :=
  Takes.bind (hp.test (P := fun b x => Takes U (f b) fun c y => Q c (x ++ y)) hfalse htrue)
    fun _ _ h => h

variable {r r' : Reader α}

lemma takesAt_keyword_ite {k : String} (hs : s.rest <:+ U)
    (hr : ∀ t, t.isKeyword k → Takes U r fun a y => P a (t :: y))
    (hr' : s.rest.head?.any (·.isKeyword k) = false → TakesAt s r' P) :
    TakesAt s (do if (← keyword? k) then r else r') P := by
  intro a s' h
  obtain ⟨b, s₁, hb, ha⟩ := bind_eq_ok.mp h
  obtain ⟨x, hx, hk⟩ := takesAt_test (keyword?_apply k) b s₁ hb
  cases b with
  | true =>
    obtain ⟨t, rfl, ht⟩ : ∃ t, x = [t] ∧ t.isKeyword k := hk
    obtain ⟨y, hy, hp⟩ := hr t ht s₁ (suffix_of_eq_append hs hx) a s' ha
    exact ⟨t :: y, by rw [hx, hy, cons_append, cons_append, nil_append], hp⟩
  | false =>
    obtain ⟨-, hnone⟩ : x = [] ∧ s.rest.head?.any (·.isKeyword k) = false := hk
    rw [keyword?_apply, hnone] at hb
    cases hb
    exact hr' hnone a s' ha

lemma takes_must {p : Reader Bool} (hp : Takes U p fun b x => if b then R x else x = []) :
    Takes U (do if !(← p) then fail : Reader Unit) fun _ x => R x :=
  hp.bind_test takes_fail fun x hx => takes_pure (by rwa [append_nil])

lemma takes_keyword : Takes U (keyword k) fun _ x => ∃ t, x = [t] ∧ t.isKeyword k :=
  takes_must (takes_keyword? k)

lemma takes_symbol : Takes U (symbol k) fun _ x => ∃ t, x = [t] ∧ t.isSymbol k :=
  takes_must (takes_symbol? k)

lemma exists_of_startsWithKeywords {ks : List String} {ts : List Token}
    (h : startsWithKeywords ks ts) :
    ∃ x, ts = x ++ ts.drop ks.length ∧ List.Forall₂ (fun t k => t.isKeyword k) x ks := by
  induction ks generalizing ts with
  | nil => exact ⟨[], rfl, .nil⟩
  | cons k ks ih =>
    cases ts with
    | nil => cases h
    | cons t ts =>
      rw [startsWithKeywords, Bool.and_eq_true] at h
      obtain ⟨x, hx, hks⟩ := ih h.2
      exact ⟨t :: x, by rw [cons_append, length_cons, drop_succ_cons, ← hx],
        .cons h.1 hks⟩

lemma keywords?_apply (s : Input) : keywords? ks s =
    if startsWithKeywords ks s.rest then .ok (true, { s with rest := s.rest.drop ks.length })
    else .ok (false, s) := by
  change (if startsWithKeywords ks s.rest then (do skip ks.length; return true : Reader Bool)
    else return false) s = _
  split <;> rfl

lemma takes_keywords? : Takes U (keywords? ks) fun b x =>
    if b then List.Forall₂ (fun t k => t.isKeyword k) x ks else x = [] := by
  intro s _ b s' h
  rw [keywords?_apply] at h
  split at h
  next hks =>
    cases h
    obtain ⟨x, hx, hks⟩ := exists_of_startsWithKeywords hks
    exact ⟨x, hx, hks⟩
  next =>
    cases h
    exact ⟨[], rfl, rfl⟩

lemma takes_anyKeyword? : Takes U (anyKeyword? ks) fun o x =>
    o.elim (x = []) fun k => k ∈ ks ∧ ∃ t, x = [t] ∧ t.isKeyword k := by
  intro s _
  refine takesAt_peek fun o ho => ?_
  split
  next t =>
    split
    next k hfind =>
      obtain ⟨ts, hrest⟩ : ∃ ts, s.rest = t :: ts := head?_eq_some_iff.mp ho
      intro o s' h
      cases h
      refine ⟨[t], by simp [hrest], mem_of_find?_eq_some hfind, t, rfl, ?_⟩
      exact find?_some (p := (t.isKeyword ·)) hfind
    next => exact takesAt_pure rfl
  next => exact takesAt_pure rfl

lemma Takes.anyKeyword? {P : Option String → List Token → Prop} (hnone : P none [])
    (hsome : ∀ k ∈ ks, ∀ t, t.isKeyword k → P (some k) [t]) : Takes U (anyKeyword? ks) P :=
  (takes_anyKeyword? ks).mono fun o x hx => by
    cases o with
    | none =>
      obtain rfl : x = [] := hx
      exact hnone
    | some k =>
      obtain ⟨hk, t, rfl, ht⟩ : k ∈ ks ∧ ∃ t, x = [t] ∧ t.isKeyword k := hx
      exact hsome k hk t ht

lemma takes_next : Takes U next fun o x => x = o.toList := by
  intro s _ o s' h
  cases h
  cases s.rest with
  | nil => exact ⟨[], rfl, rfl⟩
  | cons t ts => exact ⟨[t], rfl, rfl⟩

lemma Takes.attempt (hp : Takes U p P) : Takes U (attempt p) fun o x =>
    match o with
    | some a => P a x | none => x = [] := by
  intro s hs o s' h
  unfold Reader.attempt at h
  split at h
  next ha =>
    cases h
    exact hp s hs _ _ ha
  next =>
    cases h
    exact ⟨[], rfl, rfl⟩
  next => cases h

/-! ## Sequences -/

lemma Takes.commaSeparated {R : List α → List Token → Prop} (hp : Takes U p P)
    (hone : ∀ a x, P a x → R [a] x)
    (hcons : ∀ a x t as y, P a x → t.isSymbol "," → R as y → R (a :: as) (x ++ t :: y)) :
    Takes U (commaSeparated p) R := by
  refine looks_bound.takes_bind fun n => ?_
  induction n with
  | zero => exact takes_fail
  | succ n ih =>
    refine hp.bind fun a x hx => (takes_symbol? ",").bind_test (takes_pure ?_) ?_
    · simpa using hone a x hx
    · rintro _ ⟨t, rfl, ht⟩
      refine ih.bind fun as z hz => takes_pure ?_
      simpa using hcons a x t as z hx ht hz

lemma Takes.many {p : Reader (Option α)} {P : Option α → List Token → Prop}
    {R : List α → List Token → Prop} (hp : Takes U p P) (hnil : ∀ x, P none x → R [] x)
    (hcons : ∀ a x as y, P (some a) x → R as y → R (a :: as) (x ++ y)) : Takes U (many p) R := by
  refine looks_bound.takes_bind fun n => ?_
  induction n with
  | zero => exact takes_fail
  | succ n ih =>
    refine hp.bind fun o x hx => ?_
    cases o with
    | none =>
      refine takes_pure ?_
      simpa using hnil x hx
    | some a =>
      refine ih.bind fun as y hy => takes_pure ?_
      simpa using hcons a x as y hx hy

/-! ## Results -/

def YieldsAt (s : Input) (p : Reader α) (P : α → Prop) : Prop := ∀ a s', p s = .ok (a, s') → P a

/-- All results of a reader have a property. -/
def Yields (p : Reader α) (P : α → Prop) : Prop := ∀ s, YieldsAt s p P

lemma YieldsAt.bind {P' : β → Prop} (hp : TakesAt s p P)
    (hf : ∀ a x s₁, s.rest = x ++ s₁.rest → P a x → YieldsAt s₁ (f a) P') :
    YieldsAt s (p >>= f) P' := by
  intro b s' h
  obtain ⟨a, s₁, ha, hb⟩ := bind_eq_ok.mp h
  obtain ⟨x, hx, hpx⟩ := hp a s₁ ha
  exact hf a x s₁ hx hpx b s' hb

lemma YieldsAt.mono {P P' : α → Prop} (hp : YieldsAt s p P) (h : ∀ a, P a → P' a) :
    YieldsAt s p P' := fun a s' ha => h a (hp a s' ha)

lemma Yields.bind {P : β → Prop} (hf : ∀ a, Yields (f a) P) : Yields (p >>= f) P := by
  intro s b s' h
  obtain ⟨a, s₁, -, hb⟩ := bind_eq_ok.mp h
  exact hf a s₁ b s' hb

lemma yields_pure {P : α → Prop} (h : P a) : Yields (pure a) P := by
  intro s b s' hb
  cases hb
  exact h

lemma Takes.and_yields {R : α → Prop} (hp : Takes U p P) (hr : Yields p R) :
    Takes U p fun a x => R a ∧ P a x := by
  intro s hs a s' h
  obtain ⟨x, hx, hpx⟩ := hp s hs a s' h
  exact ⟨x, hx, hr s a s' h, hpx⟩

lemma yields_fail {P : α → Prop} : Yields fail P := by
  intro s a s' h
  cases h

lemma yields_ite {P : α → Prop} {c : Prop} [Decidable c] (hr : Yields r P)
    (hr' : Yields r' P) : Yields (if c then r else r') P := by
  split
  · exact hr
  · exact hr'

end SqlOutline.Sql.Reader
