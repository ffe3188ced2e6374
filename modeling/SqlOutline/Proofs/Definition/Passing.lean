import SqlOutline.Proofs.Definition.Label
import SqlOutline.Proofs.Sql.Taking

/-!
# Readers and the marks of what they take

What a sequence of readers does is found by following it from site to site in the marks.

## Main definitions

* `Passes`, `Stays` — the tokens of a reader lead from a site to another one, or back to it.

## Main results

* `Passes.bind` — a sequence of readers.
* `passes_ident` — a name stands where names do, in parentheses, or where nobody watches.
-/

namespace SqlOutline

open Bool List Sql Reader Grammar Mark

variable {α β : Type} {w : Bool} {U : List Token} {p : Site} {d : Nat}

/-! ## Sites -/

/-- The tokens that a reader takes lead from a site to another one, and show no constraint. -/
def Passes (watched : Bool) (U : List Token) (p : Site) (r : Reader α) (q : α → Site) : Prop :=
  Takes U r fun a x => Shows watched p (q a) (marksOf x) []

abbrev Stays (watched : Bool) (U : List Token) (d : Nat) (r : Reader α) : Prop :=
  Passes watched U ⟨false, d⟩ r fun _ => ⟨false, d⟩

abbrev Closes (watched : Bool) (U : List Token) (d : Nat) (r : Reader α) : Prop :=
  Passes watched U ⟨false, d + 1⟩ r fun _ => ⟨false, d⟩

namespace Passes

variable {r : Reader α} {f : α → Reader β} {q : α → Site} {t : β → Site}

lemma bind_takes {l : β → List ConstraintLabel} (hr : Passes w U p r q)
    (hf : ∀ a, Takes U (f a) fun b y => Shows w (q a) (t b) (marksOf y) (l b)) :
    Takes U (r >>= f) fun b y => Shows w p (t b) (marksOf y) (l b) := by
  refine Takes.bind hr fun a x hx => (hf a).mono fun b y hy => ?_
  rw [marksOf_append]
  exact hx.append hy

/-- **A sequence of readers.** -/
lemma bind (hr : Passes w U p r q) (hf : ∀ a, Passes w U (q a) (f a) t) :
    Passes w U p (r >>= f) t :=
  hr.bind_takes hf

lemma attempt (hr : Passes w U ⟨false, d⟩ r fun _ => ⟨false, d⟩) : Stays w U d (attempt r) :=
  (Takes.attempt hr).mono fun o x h => by
    cases o with
    | none =>
      obtain rfl : x = [] := h
      exact .refl w _
    | some a => exact h

end Passes

variable {r : Reader α} {m : Mark} {k : String} {ks : List String}

lemma passes_pure (a : α) : Passes w U p (pure a) fun _ => p :=
  takes_pure (.refl w p)

variable {q : α → Site}

lemma passes_fail : Passes w U p fail q := takes_fail

lemma Sql.Reader.Looks.passes (hr : Looks r) : Passes w U p r fun _ => p := by
  intro s _ a s' h
  obtain ⟨a', ha'⟩ := hr s
  obtain ⟨rfl, rfl⟩ : a' = a ∧ s = s' := by simpa [ha'] using h
  exact ⟨[], rfl, .refl w p⟩

variable {r' : Reader α}

lemma passes_ite {b : Bool} (ht : Passes w U p r q)
    (hf : Passes w U p r' q) : Passes w U p (if b then r else r') q := by
  cases b
  · exact hf
  · exact ht

/-! ## Tokens -/

def isPlainWord (k : String) : Bool := isSpelling k && !starters.contains k

lemma Mark.nesting?_of_isWord {commas : Bool} (h : m.isWord k)
    (d : Nat) : m.nesting? commas d = some d := by
  obtain ⟨name, rfl⟩ := isWord_iff.mp h
  rfl

lemma Mark.isAnyWord_of_isWord (h : m.isWord k) (ks : List String) :
    m.isAnyWord ks = ks.contains k := by
  obtain ⟨name, rfl⟩ := isWord_iff.mp h
  rw [Bool.eq_iff_iff, isAnyWord, any_eq_true]
  simp [isWord]

variable {t : Token}

lemma shows_keyword_label {label : Option ConstraintLabel}
    (hk : isSpelling k) (hlabel : ∀ next, (word k none).label? next = label)
    (ht : t.isKeyword k) :
    Shows w p ⟨introducers.contains k, p.depth⟩ t.marks label.toList := by
  obtain ⟨m, hmarks, hm⟩ := Token.marks_of_isKeyword hk ht
  have hi : m.introduces = introducers.contains k := by
    rw [← isAnyWord_of_isWord hm]
    obtain ⟨name, rfl⟩ := isWord_iff.mp hm
    simp [introduces]
  rw [hmarks, ← hi]
  refine .of_mark (nesting?_of_isWord hm _) fun _ _ rest _ _ => ?_
  obtain ⟨name, rfl⟩ := isWord_iff.mp hm
  rw [← hlabel rest.head?]
  rfl

lemma shows_keyword (hk : isPlainWord k) (ht : t.isKeyword k) :
    Shows w p ⟨introducers.contains k, p.depth⟩ t.marks [] := by
  rw [isPlainWord, and_eq_true, not_eq_true'] at hk
  refine shows_keyword_label (w := w) (p := p) hk.1 (fun next => label?_eq_none ?_ next) ht
  rw [isAnyWord_of_isWord (k := k) (by simp [isWord])]
  exact hk.2

variable {x : List Token}

lemma shows_keywords (hks : ks.all isPlainWord)
    (hx : List.Forall₂ (fun t k => t.isKeyword k) x ks) :
    Shows w ⟨false, d⟩ ⟨false, d⟩ (marksOf x) [] := by
  induction hx with
  | nil => exact .refl w _
  | cons ht hx ih =>
    rw [all_cons, and_eq_true] at hks
    exact (shows_keyword hks.1 ht).forget.append (ih hks.2)

lemma shows_pair {j : String} (hj : isSpelling j)
    (hk : isPlainWord k) (hx : List.Forall₂ (fun t k => t.isKeyword k) x [j, k]) :
    Shows w ⟨false, d⟩ ⟨false, d⟩ (marksOf x)
      ((word j none).label? (some (.word k none))).toList := by
  rw [isPlainWord, and_eq_true, not_eq_true'] at hk
  obtain _ | ⟨hs, _ | ⟨ht, _ | _⟩⟩ := hx
  obtain ⟨m, hm, hmj⟩ := Token.marks_of_isKeyword hj hs
  obtain ⟨n, hn, hnk⟩ := Token.marks_of_isKeyword hk.1 ht
  have hstart : n.isAnyWord starters = false := by
    rw [isAnyWord_of_isWord hnk]
    exact hk.2
  have hlabel : m.label? (some n) = (word j none).label? (some (.word k none)) := by
    obtain ⟨name, rfl⟩ := isWord_iff.mp hmj
    obtain ⟨name', rfl⟩ := isWord_iff.mp hnk
    rfl
  rw [marksOf_cons, marksOf_cons, hm, hn, ← hlabel]
  exact (Shows.of_pair (p := ⟨false, d⟩) (nesting?_of_isWord hmj _)
    (nesting?_of_isWord hnk _) hstart).forget

lemma stays_keyword? (hk : isPlainWord k) : Stays w U d (keyword? k) :=
  (takes_keyword? k).test (.refl w _) fun
    | _, ⟨t, rfl, ht⟩ => by simpa using (shows_keyword hk ht).forget

lemma passes_introducer (hk : isPlainWord k) (hi : introducers.contains k) :
    Passes w U ⟨false, d⟩ (keyword? k) fun b => ⟨b, d⟩ :=
  (takes_keyword? k).test (.refl w _) fun
    | _, ⟨t, rfl, ht⟩ => by
      have hshows := shows_keyword (w := w) (p := ⟨false, d⟩) hk ht
      rw [hi] at hshows
      simpa using hshows

lemma stays_keywords? (hks : ks.all isPlainWord) : Stays w U d (keywords? ks) :=
  (takes_keywords? ks).test (.refl w _) fun _ hx => shows_keywords hks hx

lemma stays_anyKeyword? (hks : ks.all isPlainWord) : Stays w U d (anyKeyword? ks) :=
  Takes.anyKeyword? ks (.refl w _) fun k hk t ht => by
    simpa using (shows_keyword (all_eq_true.mp hks k hk) ht).forget

lemma Passes.map {g : α → β} {q : Site} (hr : Passes w U p r fun _ => q) :
    Passes w U p (r >>= fun a => pure (g a)) fun _ => q :=
  hr.bind fun _ => passes_pure _

lemma Passes.must {r : Reader Bool} {q : Bool → Site} (hr : Passes w U p r q) :
    Passes w U p (do if !(← r) then fail : Reader Unit) fun _ => q true := by
  refine hr.bind fun b => ?_
  cases b with
  | true => exact passes_pure ()
  | false => exact passes_fail

lemma stays_keyword (hk : isPlainWord k) : Stays w U d (keyword k) :=
  (stays_keyword? hk).must

lemma stays_keywords (hks : ks.all isPlainWord) : Stays w U d (keywords ks) :=
  (stays_keywords? hks).must

lemma stays_anyKeyword (hks : ks.all isPlainWord) : Stays w U d (anyKeyword ks) := by
  refine (stays_anyKeyword? hks).bind fun o => ?_
  cases o with
  | none => exact passes_fail
  | some k => exact passes_pure k

lemma Passes.whenever {r : Reader Bool} (hr : Stays w U d r) (condition : Bool) :
    Stays w U d (whenever condition r) :=
  passes_ite hr (passes_pure false)

/-! ## Symbols -/

lemma shows_other : Shows w p ⟨false, p.depth⟩ [.other] [] :=
  .of_not_starter (m := .other) rfl rfl

lemma shows_punctuation (c : Char) {e : Nat} (hn : (symbol c).nesting? false d = some e) :
    Shows w ⟨false, d⟩ ⟨c == '.' || c == '<', e⟩ [.symbol c] [] := by
  have hword (ks : List String) : (symbol c).isAnyWord ks = false :=
    any_eq_false.mpr fun k _ => by simp [isWord]
  have hi : (symbol c).introduces = (c == '.' || c == '<') := by
    simp [introduces, hword, beq_eq_decide_eq]
  rw [← hi]
  exact .of_not_starter (p := ⟨false, d⟩) hn (hword _)

lemma passes_symbol? {q : Site} (hq : Shows w p q (Token.symbol k).marks []) :
    Passes w U p (symbol? k) fun b => if b then q else p :=
  (takes_symbol? k).test (.refl w _) fun
    | _, ⟨t, rfl, ht⟩ => by simpa [Token.eq_of_isSymbol ht] using hq

lemma stays_symbol? (hk : (Token.symbol k).marks.all (· = .other)) :
    Stays w U d (symbol? k) := by
  have hshows (ms : List Mark) (h : ms.all (· = .other)) :
      Shows w ⟨false, d⟩ ⟨false, d⟩ ms [] := by
    induction ms with
    | nil => exact .refl w _
    | cons m ms ih =>
      rw [all_cons, and_eq_true, decide_eq_true_eq] at h
      obtain ⟨rfl, h⟩ := h
      exact (shows_other (p := ⟨false, d⟩)).append (ih h)
  exact (passes_symbol? (hshows _ hk)).mono fun b x h => by cases b <;> exact h

lemma stays_symbol (hk : (Token.symbol k).marks.all (· = .other)) : Stays w U d (symbol k) :=
  (stays_symbol? hk).must

lemma passes_open? : Passes w U ⟨false, d⟩ (symbol? "(") fun b =>
    if b then ⟨false, d + 1⟩ else ⟨false, d⟩ :=
  passes_symbol? (shows_punctuation '(' rfl)

lemma passes_open : Passes w U ⟨false, d⟩ (symbol "(") fun _ => ⟨false, d + 1⟩ := passes_open?.must

lemma closes_paren : Closes w U d (symbol ")") :=
  (passes_symbol? (shows_punctuation ')' rfl)).must

lemma stays_comma? : Stays w U (d + 1) (symbol? ",") :=
  (passes_symbol? (shows_punctuation ',' (e := d + 1) rfl)).mono fun b x h => by
    cases b <;> exact h

lemma passes_dot? : Passes w U ⟨false, d⟩ (symbol? ".") fun b => ⟨b, d⟩ :=
  (passes_symbol? (shows_punctuation '.' (e := d) rfl)).mono fun b x h => by cases b <;> exact h

/-! ## Names -/

def Mark.Names (m : Mark) (i : Ident) : Prop := m = .other ∨ m.isName ∧ m.name? = i.plain?

lemma Mark.Names.nesting? {i : Ident} (h : m.Names i) (commas : Bool) (d : Nat) :
    m.nesting? commas d = some d := by
  cases m with
  | symbol c =>
    rcases h with h | ⟨h, -⟩
    · cases h
    · cases h
  | _ => rfl

variable (v : Word) (dialect : Dialect)

lemma names_word : ∃ m, (Token.word v).marks = [m] ∧ m.Names (ofWord v) := by
  cases hq : v.quote with
  | none => exact ⟨_, by rw [Token.marks, hq], .inr ⟨rfl, rfl⟩⟩
  | some c => exact ⟨_, by rw [Token.marks, hq], .inr ⟨rfl, rfl⟩⟩

lemma takes_ident : Takes U ident fun i x => ∃ m, marksOf x = [m] ∧ m.Names i := by
  refine takes_next.bind fun o x hx => ?_
  obtain rfl : x = o.toList := hx
  split
  next v =>
    refine takes_pure ?_
    simpa using names_word v
  next s => exact takes_pure ⟨.other, rfl, .inl rfl⟩
  next s => exact takes_pure ⟨.other, rfl, .inl rfl⟩
  next => exact takes_fail

/-- **A name** stands where names do, in parentheses, or where nobody watches. -/
lemma passes_ident (hp : w → p.named ∨ 0 < p.depth) :
    Passes w U p ident fun _ => ⟨false, p.depth⟩ :=
  takes_ident.mono fun i x ⟨m, hm, hi⟩ => by
    rw [hm]
    exact (Shows.of_safe (hi.nesting? false p.depth) hp).forget

lemma passes_objectName (hp : w → p.named ∨ 0 < p.depth) :
    Passes w U p objectName fun _ => ⟨false, p.depth⟩ := by
  refine looks_bound.passes.bind fun n => ?_
  induction n generalizing p with
  | zero => exact passes_fail
  | succ n ih =>
    refine (passes_ident hp).bind fun i => passes_dot?.bind fun b => ?_
    cases b with
    | false => exact passes_pure [i]
    | true =>
      exact (ih (p := ⟨true, p.depth⟩) fun _ => .inl rfl).bind fun is => passes_pure (i :: is)

/-! ## Lists -/

lemma Stays.parens (hr : Stays w U (d + 1) r) : Stays w U d (parens r) := by
  refine passes_open.bind fun _ => hr.bind fun a => closes_paren.bind fun _ => ?_
  exact passes_pure a

lemma stays_open (hr : Closes w U d r) (hr' : Stays w U d r') :
    Stays w U d (do if (← symbol? "(") then r else r') := by
  refine passes_open?.bind fun b => ?_
  cases b with
  | false => exact hr'
  | true => exact hr

lemma Stays.commaSeparated (hr : Stays w U (d + 1) r) : Stays w U (d + 1) (commaSeparated r) := by
  refine Takes.commaSeparated hr (fun _ _ h => h) fun _ x t _ y hx ht hy => ?_
  have hcomma : Shows w ⟨false, d + 1⟩ ⟨false, d + 1⟩ t.marks [] := by
    rw [Token.eq_of_isSymbol ht]
    exact shows_punctuation ',' rfl
  rw [marksOf_append, marksOf_cons]
  exact hx.append (hcomma.append hy)

lemma stays_ident : Stays w U (d + 1) ident :=
  passes_ident (p := ⟨false, d + 1⟩) fun _ => .inr (Nat.succ_pos d)

lemma stays_columnList : Stays w U d columnList := Stays.parens (Stays.commaSeparated stays_ident)

lemma stays_columnList? : Stays w U d columnList? :=
  (looks_peekSymbol "(").passes.bind fun _ => passes_ite stays_columnList (passes_pure [])

/-! ## Marks of one kind -/

def TakesOnly (good : Mark → Prop) (U : List Token) (r : Reader α) : Prop :=
  Takes U r fun _ x => ∀ m ∈ marksOf x, good m

section TakesOnly

variable {good : Mark → Prop} {k : String}

variable {ks : List String}

lemma TakesOnly.bind {f : α → Reader β} (hr : TakesOnly good U r)
    (hf : ∀ a, TakesOnly good U (f a)) : TakesOnly good U (r >>= f) := by
  refine Takes.bind hr fun a x hx => (hf a).mono fun b y hy => ?_
  rw [marksOf_append, forall_mem_append]
  exact ⟨hx, hy⟩

lemma takesOnly_pure (a : α) : TakesOnly good U (pure a) := takes_pure (by simp)

lemma Sql.Reader.Looks.takesOnly (hr : Looks r) : TakesOnly good U r := by
  intro s _ a s' h
  obtain ⟨a', ha'⟩ := hr s
  obtain ⟨rfl, rfl⟩ : a' = a ∧ s = s' := by simpa [ha'] using h
  exact ⟨[], rfl, by simp⟩

lemma forall_mem_marks_of_isKeyword (hk : isSpelling k)
    (hgood : ∀ name, good (.word k name)) (ht : t.isKeyword k) : ∀ m ∈ t.marks, good m := by
  obtain ⟨m, hm, hword⟩ := Token.marks_of_isKeyword hk ht
  obtain ⟨name, rfl⟩ := isWord_iff.mp hword
  simpa [hm] using hgood name

lemma takesOnly_keyword? (hk : isSpelling k) (hgood : ∀ name, good (.word k name)) :
    TakesOnly good U (keyword? k) :=
  (takes_keyword? k).test (by simp) fun
    | _, ⟨t, rfl, ht⟩ => by simpa using forall_mem_marks_of_isKeyword hk hgood ht

lemma takesOnly_keywords? (hks : ks.all isSpelling)
    (hgood : ∀ k ∈ ks, ∀ name, good (.word k name)) : TakesOnly good U (keywords? ks) :=
  (takes_keywords? ks).test (by simp) fun x hx => by
    induction hx with
    | nil => simp
    | cons ht _ ih =>
      rw [all_cons, and_eq_true] at hks
      rw [forall_mem_cons] at hgood
      rw [marksOf_cons, forall_mem_append]
      exact ⟨forall_mem_marks_of_isKeyword hks.1 hgood.1 ht, ih hks.2 hgood.2⟩

lemma takesOnly_anyKeyword? (hks : ks.all isSpelling)
    (hgood : ∀ k ∈ ks, ∀ name, good (.word k name)) : TakesOnly good U (anyKeyword? ks) :=
  Takes.anyKeyword? ks (by simp) fun k hk t ht => by
    simpa using forall_mem_marks_of_isKeyword (all_eq_true.mp hks k hk) (hgood k hk) ht

lemma takesOnly_anyKeyword (hks : ks.all isSpelling)
    (hgood : ∀ k ∈ ks, ∀ name, good (.word k name)) : TakesOnly good U (anyKeyword ks) := by
  refine (takesOnly_anyKeyword? hks hgood).bind fun o => ?_
  cases o with
  | none => exact takes_fail
  | some k => exact takesOnly_pure k

end TakesOnly

/-! ## Literals -/

lemma passes_next {f : Option Token → Reader α} {q' : α → Site} (hf : ∀ o, f o = fail ∨
      ∃ t q, o = some t ∧ Shows w p q t.marks [] ∧ Passes w U q (f o) q') :
    Passes w U p (next >>= f) q' := by
  refine takes_next.bind fun o x hx => ?_
  obtain rfl : x = o.toList := hx
  rcases hf o with hfail | ⟨t, q, rfl, ht, hgo⟩
  · rw [hfail]
    exact takes_fail
  · refine hgo.mono fun a y hy => ?_
    rw [Option.toList_some, marksOf_append, marksOf_cons, marksOf_nil, append_nil]
    exact ht.append hy

lemma stays_uint : Stays w U d uint := by
  refine passes_next fun o => ?_
  cases o with
  | none => exact .inl rfl
  | some t =>
    cases t with
    | number s long =>
      refine .inr ⟨_, _, rfl, shows_other, ?_⟩
      dsimp only
      split
      next n _ => exact passes_ite (passes_pure n) passes_fail
      next => exact passes_fail
    | _ => exact .inl rfl

lemma shows_word (hp : w → p.named ∨ 0 < p.depth) :
    Shows w p ⟨false, p.depth⟩ (Token.word v).marks [] := by
  obtain ⟨m, hm, hv⟩ := names_word v
  rw [hm]
  exact (Shows.of_safe (hv.nesting? false p.depth) hp).forget

lemma passes_literalString (hp : w → p.named ∨ 0 < p.depth) :
    Passes w U p (literalString dialect) fun _ => ⟨false, p.depth⟩ := by
  refine passes_next fun o => ?_
  cases o with
  | none => exact .inl rfl
  | some t =>
    cases t with
    | word v =>
      exact .inr ⟨_, _, rfl, shows_word v hp, passes_ite (passes_pure v.value) passes_fail⟩
    | quoted s | doubleQuoted s | unicode s => exact .inr ⟨_, _, rfl, shows_other, passes_pure s⟩
    | escaped s => exact .inr ⟨_, _, rfl, shows_other, passes_ite (passes_pure s) passes_fail⟩
    | _ => exact .inl rfl

lemma stays_literalString : Stays w U (d + 1) (literalString dialect) :=
  passes_literalString (p := ⟨false, d + 1⟩) dialect fun _ => .inr (Nat.succ_pos d)

lemma shows_inner_word : Shows w ⟨false, d + 1⟩ ⟨false, d + 1⟩ (Token.word v).marks [] :=
  shows_word (p := ⟨false, d + 1⟩) v fun _ => .inr (Nat.succ_pos d)

lemma stays_value : Stays w U (d + 1) (value dialect) := by
  refine passes_next fun o => ?_
  cases o with
  | none => exact .inl rfl
  | some t =>
    have hother (h : t.marks = [.other]) :
        Shows w ⟨false, d + 1⟩ ⟨false, d + 1⟩ t.marks [] := by
      rw [h]
      exact shows_other
    cases t with
    | word v =>
      refine .inr ⟨_, _, rfl, shows_inner_word v, ?_⟩
      exact passes_ite (passes_pure _) (passes_ite (passes_pure _) (passes_ite (passes_pure _)
        (passes_ite (passes_pure _) passes_fail)))
    | symbol s =>
      by_cases hs : (s = ":" || s = "@")
      · have hmarks : (Token.symbol s).marks = [.other] := by
          rw [or_eq_true, decide_eq_true_eq, decide_eq_true_eq] at hs
          rcases hs with rfl | rfl <;> rfl
        refine .inr ⟨_, _, rfl, hother hmarks, ?_⟩
        dsimp only
        rw [if_pos hs]
        refine passes_next fun o => ?_
        cases o with
        | none => exact .inl rfl
        | some t =>
          cases t with
          | word v => exact .inr ⟨_, _, rfl, shows_inner_word v, passes_pure _⟩
          | number n long =>
            cases long with
            | false => exact .inr ⟨_, _, rfl, shows_other, passes_pure _⟩
            | true => exact .inl rfl
          | _ => exact .inl rfl
      · exact .inl (if_neg hs)
    | operator s | gap | eof | other c => exact .inl rfl
    | _ => exact .inr ⟨_, _, rfl, hother rfl, passes_pure _⟩

lemma stays_signedNumber : Stays w U (d + 1) (signedNumber dialect) := by
  have hnumber : Stays w U (d + 1) (numberValue dialect) := by
    refine looks_peek.passes.bind fun o => ?_
    split
    · exact stays_value dialect
    · exact stays_value dialect
    · exact stays_value dialect
    · exact passes_fail
  refine (stays_symbol? (by decide)).bind fun b => ?_
  refine passes_ite (hnumber.map) ?_
  refine (stays_symbol? (by decide)).bind fun b => ?_
  exact passes_ite (hnumber.map) hnumber

end SqlOutline
