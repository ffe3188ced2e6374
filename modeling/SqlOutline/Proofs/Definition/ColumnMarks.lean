import SqlOutline.Proofs.Definition.TypeMarks

/-!
# The marks of columns

The definition of a column is a name, a type and options.

## Main definitions

* `hasTidyExprs` — the expressions among the options can be passed over.
* `Reveals` — the tokens that a reader takes show the constraints of its result.

## Main results

* `takes_columnDef` — a column is its name, and marks that show its constraints.
-/

namespace SqlOutline

open Bool List Sql Reader Grammar ColumnPart Yields

variable {α : Type} {w : Bool} {U : List Token} {p : Site} {d : Nat} {g : Grammar}

/-! ## Expressions -/

/-- Whether an expression at the front of tokens, if there is one, closes its parentheses. One that
is `silent` has no comma outside of them and shows no constraint. -/
def isTidy (g : Grammar) (silent : Bool) (ts : List Token) : Bool :=
  [false, true].all fun hierarchical =>
    match g.expr ⟨ts, hierarchical⟩ with
    | .ok (_, s) =>
      let x := ts.take (ts.length - s.rest.length)
      x ++ s.rest = ts && nesting? (!silent) 0 (marksOf x) = some 0 &&
        (!silent || isSilent (marksOf x))
    | .error _ => true

/-- Whether the expressions behind `DEFAULT` are silent, and those behind parentheses tidy. -/
def hasTidyExprs (g : Grammar) : List Token → Bool
  | [] => true
  | t :: ts =>
    (!t.isKeyword "DEFAULT" || isTidy g true ts) && (!t.isSymbol "(" || isTidy g false ts) &&
      hasTidyExprs g ts

lemma takesAt_expr {silent : Bool} {s : Input} (h : isTidy g silent s.rest) :
    TakesAt s g.expr fun _ x => nesting? (!silent) 0 (marksOf x) = some 0 ∧
      (silent → isSilent (marksOf x)) := by
  intro e s' he
  obtain ⟨ts, hierarchical⟩ := s
  have hall := all_eq_true.mp h hierarchical (by cases hierarchical <;> decide)
  dsimp only at hall he
  rw [he] at hall
  simp only [and_eq_true, decide_eq_true_eq, or_eq_true, not_eq_true'] at hall
  obtain ⟨⟨htake, hnest⟩, hsilent⟩ := hall
  refine ⟨_, htake.symm, hnest, fun hs => hsilent.resolve_left (by simp [hs])⟩

lemma isTidy_of_suffix {t : Token} {ts : List Token} (hU : hasTidyExprs g U)
    (h : t :: ts <:+ U) : (t.isKeyword "DEFAULT" → isTidy g true ts) ∧
      (t.isSymbol "(" → isTidy g false ts) := by
  induction U with
  | nil => simp at h
  | cons t' U ih =>
    rw [hasTidyExprs, and_eq_true, and_eq_true, or_eq_true, or_eq_true] at hU
    rcases suffix_cons_iff.mp h with heq | h
    · obtain ⟨rfl, rfl⟩ := cons.inj heq
      exact ⟨fun ht => hU.1.1.resolve_left (by simp [ht]),
        fun ht => hU.1.2.resolve_left (by simp [ht])⟩
    · exact ih hU.2 h

lemma stays_parens_expr (hU : hasTidyExprs g U) : Stays w U 0 (parens g.expr) := by
  intro s hs
  refine (takes_symbol "(" s hs).bind fun _ x s₁ hx ⟨t, ht, hopen⟩ => ?_
  subst ht
  have htidy := (isTidy_of_suffix hU (hx ▸ hs)).2 hopen
  refine (takesAt_expr htidy).bind fun e y s₂ hy ⟨hnest, _⟩ => ?_
  have hs₂ := suffix_of_eq_append (suffix_of_eq_append hs hx) hy
  refine (closes_paren (w := w) (d := 0) s₂ hs₂).bind fun _ z s₃ _ hz => takesAt_pure ?_
  have hinner : Shows w ⟨false, 1⟩ ⟨false, 1⟩ (marksOf y) [] := .of_nesting hnest false
  have houter : Shows w ⟨false, 0⟩ ⟨false, 1⟩ t.marks [] := by
    rw [Token.eq_of_isSymbol hopen]
    exact shows_punctuation '(' rfl
  simpa using houter.append (hinner.append hz)

lemma takes_default {l : α → List ConstraintLabel} {f : Expr → Reader α} {r : Reader α}
    (hU : hasTidyExprs g U)
    (hf : ∀ e, Takes U (f e) fun a x => Shows w ⟨false, 0⟩ ⟨false, 0⟩ (marksOf x) (l a))
    (hr : Takes U r fun a x => Shows w ⟨false, 0⟩ ⟨false, 0⟩ (marksOf x) (l a)) :
    Takes U (do if (← keyword? "DEFAULT") then f (← g.expr) else r) fun a x =>
      Shows w ⟨false, 0⟩ ⟨false, 0⟩ (marksOf x) (l a) := by
  intro s hs
  refine (takes_keyword? "DEFAULT" s hs).bind fun b x s₁ hx hkeyword => ?_
  have hs₁ := suffix_of_eq_append hs hx
  cases b with
  | false =>
    obtain rfl : x = [] := hkeyword
    exact hr s₁ hs₁
  | true =>
    obtain ⟨t, rfl, ht⟩ : ∃ t, x = [t] ∧ t.isKeyword "DEFAULT" := hkeyword
    have htidy := (isTidy_of_suffix hU (hx ▸ hs)).1 ht
    refine (takesAt_expr htidy).bind fun e y s₂ hy ⟨hnest, hsilent⟩ => ?_
    refine (hf e s₂ (suffix_of_eq_append hs₁ hy)).mono fun a z hz => ?_
    have hword : Shows w ⟨false, 0⟩ ⟨false, 0⟩ t.marks [] :=
      (shows_keyword (p := ⟨false, 0⟩) (by decide) ht).forget
    have hexpr : Shows w ⟨false, 0⟩ ⟨false, 0⟩ (marksOf y) [] :=
      .of_isSilent (p := ⟨false, 0⟩) hnest (hsilent rfl)
    simpa using hword.append (hexpr.append hz)

/-! ## Parts of options -/

lemma stays_negation {k : String} (hk : isPlainWord k)
    (hlabel : (Mark.word "NOT" none).label? (some (.word k none)) = none) :
    Stays w U d (keywords? ["NOT", k]) :=
  (takes_keywords? _).test (.refl w _) fun x hx => by
    have hshows := shows_pair (w := w) (d := d) (by decide) hk hx
    rwa [hlabel] at hshows

lemma stays_characteristicsUpTo (c : Characteristics) (n : Nat) :
    Stays w U d (characteristicsUpTo c n) := by
  induction n generalizing c with
  | zero => exact passes_pure c
  | succ n ih =>
    refine ((stays_negation (by decide) (by decide)).whenever _).bind fun _ => ?_
    refine passes_ite (ih _) ?_
    refine ((stays_keyword? (by decide)).whenever _).bind fun _ => ?_
    refine passes_ite (ih _) ?_
    refine ((stays_keyword? (by decide)).whenever _).bind fun _ => ?_
    refine passes_ite ((stays_anyKeyword (by decide)).bind fun _ => ih _) ?_
    refine ((stays_keyword? (by decide)).whenever _).bind fun _ => ?_
    refine passes_ite (ih _) ?_
    refine ((stays_negation (by decide) (by decide)).whenever _).bind fun _ => ?_
    exact passes_ite (ih _) (passes_pure c)

lemma stays_characteristics : Stays w U d characteristics :=
  (stays_characteristicsUpTo _ _).map

lemma stays_referentialAction : Stays w U d referentialAction := by
  refine (stays_keyword? (by decide)).bind fun _ => passes_ite (passes_pure _) ?_
  refine (stays_keyword? (by decide)).bind fun _ => passes_ite (passes_pure _) ?_
  refine (stays_keywords? (by decide)).bind fun _ => passes_ite (passes_pure _) ?_
  refine (stays_keywords? (by decide)).bind fun _ => passes_ite (passes_pure _) ?_
  exact (stays_keywords? (by decide)).bind fun _ => passes_ite (passes_pure _) passes_fail

lemma stays_referentialActions (r : Referral) (n : Nat) : Stays w U d (referentialActions r n) := by
  induction n generalizing r with
  | zero => exact passes_pure r
  | succ n ih =>
    refine ((stays_keywords? (by decide)).whenever _).bind fun _ => ?_
    refine passes_ite (stays_referentialAction.bind fun _ => ih _) ?_
    refine ((stays_keywords? (by decide)).whenever _).bind fun _ => ?_
    exact passes_ite (stays_referentialAction.bind fun _ => ih _) (passes_pure r)

lemma passes_referral (hp : w → p.named ∨ 0 < p.depth) (mandatory : Bool) :
    Passes w U p (referral mandatory) fun _ => ⟨false, p.depth⟩ := by
  refine (passes_objectName hp).bind fun table => ?_
  refine passes_ite (stays_columnList.bind fun _ => ?_) (stays_columnList?.bind fun _ => ?_)
  · exact stays_referentialActions _ _
  · exact stays_referentialActions _ _

variable (dialect : Dialect)

lemma stays_sequenceLimit? {word : String} (hword : isPlainWord word) :
    Stays w U (d + 1) (sequenceLimit? dialect word) := by
  have hno : ["NO", word].all isPlainWord := by simp [hword]; decide
  refine (stays_keyword? hword).bind fun _ => ?_
  refine passes_ite ((stays_signedNumber dialect).map) ?_
  exact (stays_keywords? hno).bind fun _ => passes_ite (passes_pure _) (passes_pure _)

lemma stays_sequenceStep? {word noise : String}
    (hword : isPlainWord word) (hnoise : isPlainWord noise) :
    Stays w U (d + 1) (sequenceStep? dialect word noise) := by
  refine (stays_keyword? hword).bind fun _ => passes_ite ?_ (passes_pure _)
  refine (stays_keyword? hnoise).bind fun _ => ?_
  exact (stays_signedNumber dialect).map

lemma stays_sequenceCycle? : Stays w U d sequenceCycle? := by
  refine (stays_keywords? (by decide)).bind fun _ => passes_ite (passes_pure _) ?_
  exact (stays_keyword? (by decide)).bind fun _ => passes_ite (passes_pure _) (passes_pure _)

lemma stays_sequenceOptions : Stays w U (d + 1) (sequenceOptions dialect) := by
  refine (stays_sequenceStep? dialect (by decide) (by decide)).bind fun _ => ?_
  refine (stays_sequenceLimit? dialect (by decide)).bind fun _ => ?_
  refine (stays_sequenceLimit? dialect (by decide)).bind fun _ => ?_
  refine (stays_sequenceStep? dialect (by decide) (by decide)).bind fun _ => ?_
  refine (stays_keyword? (by decide)).bind fun _ => passes_ite ?_ ?_
  · refine (stays_signedNumber dialect).bind fun _ => (passes_pure _).bind fun _ => ?_
    exact stays_sequenceCycle?.map
  · exact (passes_pure _).bind fun _ => stays_sequenceCycle?.map

lemma stays_sequenceOptions? : Stays w U d (sequenceOptions? dialect) := by
  refine (looks_peekSymbol "(").passes.bind fun _ => passes_ite ?_ (passes_pure _)
  exact (Stays.parens (stays_sequenceOptions dialect)).map

lemma stays_generated? (hU : hasTidyExprs g U) : Stays w U 0 (generated? g) := by
  have hmode (e : Expr) : Stays w U 0 (do
      return some ("GENERATED ALWAYS AS (" ++ e ++ ")" ++ (← generationMode?) : Phrase)) :=
    Passes.map (stays_anyKeyword? (by decide)).map
  unfold generated?
  refine (stays_keywords? (by decide)).bind fun _ => ?_
  refine passes_ite ((stays_sequenceOptions? _).map) ?_
  refine (stays_keywords? (by decide)).bind fun _ => ?_
  refine passes_ite ((stays_sequenceOptions? _).map) ?_
  refine (stays_keywords? (by decide)).bind fun _ => passes_ite ?_ (passes_pure _)
  refine (looks_peekSymbol "(").passes.bind fun _ => passes_ite ?_ (passes_pure _)
  refine (stays_parens_expr hU).bind fun e => (looks_peekKeyword "STORED").passes.bind fun _ => ?_
  refine passes_ite (passes_fail.bind fun _ => hmode e) ?_
  exact hmode e

/-! ## Options -/

/-- The constraints that an option of a column is. -/
def Sql.ColumnOption.labels : ColumnOption → List ConstraintLabel
  | .notNull => [.notNull]
  | .unique => [.unique]
  | .primaryKey => [.primaryKey]
  | .references _ => [.foreignKey]
  | .other => []

/-- The tokens that a reader takes outside of parentheses show the constraints that its result
is. -/
def Reveals (watched : Bool) (U : List Token) (r : Reader α) (labels : α → List ConstraintLabel) :
    Prop :=
  Takes U r fun a x => Shows watched ⟨false, 0⟩ ⟨false, 0⟩ (marksOf x) (labels a)

section Reveals

variable {labels : α → List ConstraintLabel} {r r' : Reader α}

lemma reveals_pure {a : α} (h : labels a = []) : Reveals w U (pure a) labels :=
  takes_pure (h ▸ .refl w _)

lemma reveals_ite {test : Reader Bool} (htest : Stays w U 0 test) (hr : Reveals w U r labels)
    (hr' : Reveals w U r' labels) : Reveals w U (do if (← test) then r else r') labels :=
  htest.bind_takes fun b => by
    cases b
    · exact hr'
    · exact hr

lemma reveals_test {test : Reader Bool} {R : List Token → Prop}
    (htest : Takes U test fun b x => if b then R x else x = [])
    (hr : ∀ x, R x → Takes U r fun a y =>
      Shows w ⟨false, 0⟩ ⟨false, 0⟩ (marksOf x ++ marksOf y) (labels a))
    (hr' : Reveals w U r' labels) : Reveals w U (do if (← test) then r else r') labels :=
  htest.bind_test hr' fun x hx => (hr x hx).mono fun a y hy => by rwa [marksOf_append]

end Reveals

def labelsOf (o : Option OptionClause) : List ConstraintLabel := o.elim [] (·.option.labels)

lemma takes_behind {labels : α → List ConstraintLabel} {r : Reader α} {q t : Site} {ms : List Mark}
    {l : List ConstraintLabel} (hms : Shows w p q ms l) (hr : Passes w U q r fun _ => t)
    (hl : Yields r fun a => labels a = l) :
    Takes U r fun a x => Shows w p t (ms ++ marksOf x) (labels a) := by
  intro s hs a s' h
  obtain ⟨x, hx, hshows⟩ := hr s hs a s' h
  have hlabels : labels a = l := hl s a s' h
  have hall : Shows w p t (ms ++ marksOf x) (labels a) := by simpa [hlabels] using hms.append hshows
  exact ⟨x, hx, hall⟩

lemma passes_characterSet :
    Passes w U ⟨false, d⟩ (keywords? ["CHARACTER", "SET"]) fun b => ⟨b, d⟩ :=
  (takes_keywords? _).test (.refl w _) fun x hx => by
    obtain _ | @⟨s, _, _, _, hs, _ | @⟨t, _, _, _, ht, _ | _⟩⟩ := hx
    have hfirst : Shows w ⟨false, d⟩ ⟨false, d⟩ s.marks [] :=
      (shows_keyword (p := ⟨false, d⟩) (by decide) hs).forget
    have hlast : Shows w ⟨false, d⟩ ⟨true, d⟩ t.marks [] :=
      shows_keyword (p := ⟨false, d⟩) (by decide) ht
    simpa using hfirst.append hlast

lemma reveals_laterOption? (hg : g.dialect = .postgresql) (hU : hasTidyExprs g U) :
    Reveals w U (laterOption? g) labelsOf := by
  have hmysql : g.isAny [.mysql, .plsql] = false := by simp [isAny, hg]
  have htsql : g.isAny [.tsql, .plsql] = false := by simp [isAny, hg]
  simp only [laterOption?, hg, hmysql, htsql, whenever, Bool.and_false, Bool.false_and,
    false_eq_true, if_false, reduceCtorEq, decide_false, pure_bind]
  refine (stays_keyword? (by decide)).bind_takes fun _ => ?_
  refine (stays_keyword? (by decide)).bind_takes fun _ => ?_
  refine (stays_keyword? (by decide)).bind_takes fun _ => ?_
  refine (stays_keyword? (by decide)).bind_takes fun _ => ?_
  refine (stays_keywords? (by decide)).bind_takes fun _ => ?_
  refine reveals_ite (stays_keyword? (by decide)) ?_ ?_
  · refine (stays_generated? hU).bind_takes fun o => reveals_pure ?_
    cases o <;> rfl
  · refine (looks_peekKeyword "OPTIONS").passes.bind_takes fun _ => ?_
    refine (stays_keyword? (by decide)).bind_takes fun _ => ?_
    exact (stays_keyword? (by decide)).bind_takes fun _ => reveals_pure rfl

lemma reveals_comment {f : String → Option OptionClause} (hf : ∀ s, labelsOf (f s) = []) :
    Reveals w U (do
      match (← next) with
      | some (.quoted s) => return f s
      | _ => fail) labelsOf := by
  refine takes_next.bind fun o x hx => ?_
  obtain rfl : x = o.toList := hx
  split
  next s =>
    refine takes_pure ?_
    rw [hf]
    exact shows_other
  next => exact takes_fail

/-- **An option of a column** shows the constraint that it is. -/
lemma reveals_columnOption? (hg : g.dialect = .postgresql) (hU : hasTidyExprs g U) :
    Reveals w U (columnOption? g) labelsOf := by
  simp only [columnOption?, hg, whenever, false_eq_true, if_false, reduceCtorEq, decide_false,
    pure_bind]
  refine Passes.bind_takes passes_characterSet fun b => ?_
  cases b with
  | true =>
    refine Passes.bind_takes (passes_objectName (p := ⟨true, 0⟩) fun _ => .inl rfl) fun _ => ?_
    exact reveals_pure rfl
  | false =>
  refine reveals_test (takes_keywords? _) (fun x hx => takes_pure ?_) ?_
  · rw [marksOf_nil, append_nil]
    exact shows_pair (j := "NOT") (k := "NULL") (by decide) (by decide) hx
  refine reveals_ite (stays_keyword? (by decide)) (reveals_comment fun _ => rfl) ?_
  refine reveals_ite (stays_keyword? (by decide)) (reveals_pure rfl) ?_
  refine takes_default hU (fun _ => reveals_pure rfl) ?_
  refine reveals_test (takes_keywords? _) (fun x hx => ?_) ?_
  · refine takes_behind (shows_pair (j := "PRIMARY") (k := "KEY") (by decide) (by decide) hx)
      (stays_characteristics.map) ?_
    exact bind fun _ => yields_pure rfl
  refine reveals_test (takes_keyword? _) ?_ ?_
  · rintro x ⟨t, rfl, ht⟩
    rw [marksOf_cons, marksOf_nil, append_nil]
    refine takes_behind (shows_keyword_label (k := "UNIQUE") (by decide) (fun _ => rfl) ht)
      (stays_characteristics.map) ?_
    exact bind fun _ => yields_pure rfl
  refine reveals_test (takes_keyword? _) ?_ ?_
  · rintro x ⟨t, rfl, ht⟩
    rw [marksOf_cons, marksOf_nil, append_nil]
    refine takes_behind (shows_keyword_label (k := "REFERENCES") (by decide) (fun _ => rfl) ht)
      ?_ ?_
    · refine (passes_referral (p := ⟨true, 0⟩) (fun _ => .inl rfl) false).bind fun _ => ?_
      exact stays_characteristics.map
    · exact bind fun _ => bind fun _ => yields_pure rfl
  refine reveals_ite (stays_keyword? (by decide)) ?_ (reveals_laterOption? hg hU)
  exact (stays_parens_expr hU).bind_takes fun _ => reveals_pure rfl

/-! ## Columns -/

def optionLabels (options : List (Option Ident × ColumnOption)) : List ConstraintLabel :=
  options.flatMap (·.2.labels)

lemma reveals_columnPart? (hg : g.dialect = .postgresql) (hU : hasTidyExprs g U) :
    Reveals w U (columnPart? g) fun o =>
      optionLabels (o.toList.filterMap option?) := by
  have hlater : g.isAny [.mysql, .plsql] = false := by simp [isAny, hg]
  refine (passes_introducer (by decide) (by decide)).bind_takes fun b => ?_
  cases b with
  | true =>
    refine (passes_ident (p := ⟨true, 0⟩) fun _ => .inl rfl).bind_takes fun name => ?_
    refine Takes.bind (reveals_columnOption? (w := w) hg hU) fun o x hx => ?_
    cases o with
    | none => exact takes_fail
    | some clause =>
      refine takes_pure ?_
      simpa [optionLabels, option?, labelsOf] using hx
  | false =>
    refine Takes.bind (reveals_columnOption? (w := w) hg hU) fun o x hx => ?_
    cases o with
    | none =>
      simp only [whenever, hlater, false_eq_true, if_false, pure_bind]
      refine takes_pure ?_
      simpa [optionLabels, labelsOf] using hx
    | some clause =>
      refine takes_pure ?_
      simpa [optionLabels, option?, labelsOf] using hx

/-- **A column** is its name, and marks behind it that show the constraints its options are. -/
lemma takes_columnDef (hg : g.dialect = .postgresql) (hU : hasTidyExprs g U) :
    Takes U (columnDef g) fun c x => ∃ m ms, marksOf x = m :: ms ∧ m.Names c.column.name ∧
      Shows w ⟨true, 0⟩ ⟨false, 0⟩ ms (optionLabels c.column.options) := by
  have hcollation : Stays w U 0 (after? "COLLATE" objectName) := by
    refine (passes_introducer (by decide) (by decide)).bind fun b => ?_
    cases b with
    | false => exact passes_pure none
    | true =>
      refine (passes_objectName (p := ⟨true, 0⟩) fun _ => .inl rfl).bind fun name => ?_
      exact passes_pure (some name)
  have hparts : Reveals w U (many (columnPart? g)) fun parts =>
      optionLabels (parts.filterMap option?) := by
    refine Takes.many (reveals_columnPart? hg hU) (fun _ h => h) fun part x parts y hx hy => ?_
    have hsplit : optionLabels ((part :: parts).filterMap option?) =
        optionLabels ([part].filterMap option?) ++
          optionLabels (parts.filterMap option?) := by
      rw [← singleton_append, filterMap_append, optionLabels, flatMap_append]
      rfl
    dsimp only at hx hy ⊢
    rw [marksOf_append, hsplit]
    exact hx.append hy
  refine takes_ident.bind fun name x ⟨m, hm, hname⟩ => ?_
  refine Takes.mono (Takes.and_yields (P := fun c y => Shows w ⟨true, 0⟩ ⟨false, 0⟩ (marksOf y)
    (optionLabels c.column.options)) (R := fun c => c.column.name = name) ?_ ?_) ?_
  · refine (passes_dataType hg (p := ⟨true, 0⟩) fun _ => .inl rfl).bind_takes fun type => ?_
    refine hcollation.bind_takes fun first => ?_
    refine Takes.bind hparts fun parts y hy => takes_pure ?_
    rwa [append_nil]
  · exact bind fun _ => bind fun _ => bind fun _ => yields_pure rfl
  · rintro c y ⟨rfl, hy⟩
    exact ⟨m, marksOf y, by rw [marksOf_append, hm, singleton_append], hname, hy⟩

end SqlOutline
