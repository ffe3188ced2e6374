import SqlOutline.Proofs.Definition.ColumnMarks

/-!
# The marks of tables

The columns and constraints of a table stand between commas.

## Main definitions

* `PartMarks` — a column has its name and shows its constraints; a key has its first word and names
  in the first parentheses.

## Main results

* `takes_tablePart`, `takes_tableParts` — one column or constraint, and all of them.
-/

namespace SqlOutline

open List Sql Reader Grammar Token Takes

variable {α : Type} {U : List Token} {g : Grammar}

/-! ## Keys -/

def NamesIn (ms : List Mark) (is : List Ident) : Prop :=
  (∀ m ∈ ms, m = .symbol ',' ∨ m.name?.isSome) →
    (ms.filterMap Mark.name?).map some = is.map Ident.plain?

variable {m : Mark} {i : Ident} {d : Nat}

lemma Mark.Names.namesIn (h : m.Names i) : NamesIn [m] [i] := by
  intro hm
  rcases h with rfl | ⟨hisName, hname⟩
  · simp [Mark.name?] at hm
  · rcases hm m mem_cons_self with rfl | hsome
    · cases hisName
    · obtain ⟨name, hn⟩ := Option.isSome_iff_exists.mp hsome
      rw [hn] at hname
      simp [hn, ← hname]

lemma NamesIn.cons {x y : List Mark} {is : List Ident} (hx : NamesIn x [i])
    (hy : NamesIn y is) : NamesIn (x ++ .symbol ',' :: y) (i :: is) := by
  intro h
  have hfirst := hx fun m hm => h m (mem_append_left _ hm)
  have hrest := hy fun m hm => h m (mem_append_right _ (mem_cons_of_mem _ hm))
  rw [filterMap_append, map_append, hfirst, filterMap_cons_none rfl, hrest]
  rfl

lemma takes_columnList : Takes U columnList fun is x => ∃ names,
    marksOf x = .symbol '(' :: (names ++ [.symbol ')']) ∧ nesting? true 0 names = some 0 ∧
      NamesIn names is := by
  have hlist : Takes U (commaSeparated ident) fun is x =>
      nesting? true 0 (marksOf x) = some 0 ∧ NamesIn (marksOf x) is := by
    refine takes_ident.commaSeparated ?_ ?_
    · rintro i x ⟨m, hm, hi⟩
      rw [hm, nesting?_cons, hi.nesting?]
      exact ⟨rfl, hi.namesIn⟩
    · rintro i x t is y ⟨m, hm, hi⟩ ht ⟨hnest, hnames⟩
      rw [marksOf_append, marksOf_cons, eq_of_isSymbol ht, hm]
      refine ⟨?_, hi.namesIn.cons hnames⟩
      rw [nesting?_append, nesting?_cons, hi.nesting?]
      exact hnest
  refine (takes_symbol "(").bind fun _ x ⟨t, hx, ht⟩ => hlist.bind fun is y ⟨hnest, hnames⟩ => ?_
  refine (takes_symbol ")").bind fun _ z ⟨u, hz, hu⟩ => takes_pure ⟨marksOf y, ?_, hnest, hnames⟩
  subst hx hz
  rw [eq_of_isSymbol ht, eq_of_isSymbol hu]
  simp only [marksOf_append, marksOf_cons, marksOf_nil, append_nil]
  rfl

/-- The first parentheses among marks hold names. -/
def HoldsKey (ms : List Mark) (is : List Ident) : Prop :=
  ∃ before names behind, ms = before ++ .symbol '(' :: (names ++ .symbol ')' :: behind) ∧
    (∀ m ∈ before, m ≠ .symbol '(') ∧ nesting? true 0 names = some 0 ∧ NamesIn names is

namespace HoldsKey

variable {ms x : List Mark} {is : List Ident}

lemma append_left (h : HoldsKey ms is) (hx : ∀ m ∈ x, m ≠ .symbol '(') : HoldsKey (x ++ ms) is := by
  obtain ⟨before, names, behind, rfl, hbefore, hnames⟩ := h
  refine ⟨x ++ before, names, behind, by simp, ?_, hnames⟩
  rw [forall_mem_append]
  exact ⟨hx, hbefore⟩

lemma append_right (h : HoldsKey ms is) (x : List Mark) : HoldsKey (ms ++ x) is := by
  obtain ⟨before, names, behind, rfl, hnames⟩ := h
  exact ⟨before, names, behind ++ x, by simp, hnames⟩

end HoldsKey

lemma holdsKey_of_columnList {x : List Token} {is : List Ident}
    (h : ∃ names, marksOf x = .symbol '(' :: (names ++ [.symbol ')']) ∧
      nesting? true 0 names = some 0 ∧ NamesIn names is) : HoldsKey (marksOf x) is := by
  obtain ⟨names, hx, hnames⟩ := h
  exact ⟨[], names, [], by simp [hx], by simp, hnames⟩

/-! ## Constraints -/

lemma stays_spacedIdent? : Stays false U d spacedIdent? :=
  Passes.bind (Passes.attempt (passes_ident (p := ⟨false, d⟩) (by simp))) fun _ => passes_pure _

lemma stays_indexType? {w : Bool} : Stays w U d indexType? := by
  refine Passes.bind (q := fun _ => ⟨false, d⟩) ?_ fun o => ?_
  · refine (stays_keyword? (by decide)).bind fun _ => passes_ite ?_ (passes_pure none)
    exact (stays_anyKeyword (by decide)).bind fun kind => passes_pure (some kind)
  · cases o with
    | none => exact passes_pure _
    | some kind => exact passes_pure _

variable (dialect : Dialect) (name : Option Ident)

lemma stays_indexOptions : Stays false U d (indexOptions dialect) := by
  refine Passes.bind (q := fun _ => ⟨false, d⟩) ?_ fun _ => passes_pure _
  refine many (P := fun _ x => Shows false ⟨false, d⟩ ⟨false, d⟩ (marksOf x) []) ?_
    (fun _ h => h) ?_
  · refine Passes.bind stays_indexType? fun kind => ?_
    split
    · refine Passes.bind (q := fun _ => ⟨false, d⟩) ?_ fun o => ?_
      · refine (stays_keyword? (by decide)).bind fun _ => passes_ite ?_ (passes_pure none)
        refine (passes_literalString (p := ⟨false, d⟩) dialect (by simp)).bind fun s => ?_
        exact passes_pure (some s)
      · cases o with
        | none => exact passes_pure _
        | some s => exact passes_pure _
    · exact passes_pure _
  · intro kind x kinds y hx hy
    rw [marksOf_append]
    exact hx.append hy

lemma stays_keyColumns : Stays false U 0 (keyColumns dialect) := by
  refine stays_spacedIdent?.bind fun _ => stays_indexType?.bind fun _ => ?_
  refine stays_columnList.bind fun _ => (stays_indexOptions dialect).bind fun _ => ?_
  exact stays_characteristics.map

lemma Mark.Names.ne_symbol (h : m.Names i) (c : Char) : m ≠ .symbol c := by
  rintro rfl
  rcases h with h | ⟨h, -⟩ <;> cases h

lemma takesOnly_spacedIdent? : TakesOnly (· ≠ .symbol '(') U spacedIdent? := by
  refine TakesOnly.bind ((attempt takes_ident).mono fun o x hx => ?_) fun _ =>
    takesOnly_pure _
  cases o with
  | none =>
    obtain rfl : x = [] := hx
    simp
  | some i =>
    obtain ⟨m, hm, hi⟩ : ∃ m, marksOf x = [m] ∧ m.Names i := hx
    simpa [hm] using hi.ne_symbol '('

lemma takesOnly_indexType? : TakesOnly (· ≠ .symbol '(') U indexType? := by
  refine TakesOnly.bind (TakesOnly.bind (takesOnly_keyword? (by decide) (by simp)) fun b => ?_)
    fun o => ?_
  · cases b with
    | false => exact takesOnly_pure none
    | true =>
      refine TakesOnly.bind ?_ fun kind => takesOnly_pure (some kind)
      exact takesOnly_anyKeyword (by decide) (by simp)
  · cases o with
    | none => exact takesOnly_pure _
    | some kind => exact takesOnly_pure _

lemma takes_keyColumns : Takes U (keyColumns dialect) fun r x => HoldsKey (marksOf x) r.1 := by
  refine bind takesOnly_spacedIdent? fun _ x hx => ?_
  refine bind takesOnly_indexType? fun _ y hy => ?_
  refine takes_columnList.bind fun is z hz => ?_
  refine mono (and_yields (P := fun _ _ => True) (R := fun r => r.1 = is) ?_ ?_) ?_
  · refine mono (Passes.bind (stays_indexOptions (d := 0) dialect) fun _ =>
      stays_characteristics.map) fun _ _ _ => trivial
  · exact Yields.bind fun _ => Yields.bind fun _ => yields_pure rfl
  · rintro r rest ⟨rfl, -⟩
    simp only [marksOf_append]
    exact (((holdsKey_of_columnList hz).append_right _).append_left hy).append_left hx

/-- The marks of a constraint of a table, which its first word tells apart. -/
inductive ConstraintMarks : TableConstraint → List Mark → Prop where
  | primaryKey {m : Mark} {ms : List Mark} {columns : List Ident} :
      m.isWord "PRIMARY" → HoldsKey ms columns →
        ConstraintMarks (.primaryKey columns) (m :: ms)
  | unique {m : Mark} {ms : List Mark} {columns : List Ident} :
      m.isWord "UNIQUE" → HoldsKey ms columns → ConstraintMarks (.unique columns) (m :: ms)
  | foreignKey {m : Mark} {ms : List Mark} {name : Option Ident} {columns : List Ident}
      {target : Referral} :
      m.isWord "FOREIGN" → HoldsKey ms columns → ms.any (·.isWord "REFERENCES") →
        ConstraintMarks (.foreignKey name columns target) (m :: ms)
  | check {m : Mark} {ms : List Mark} :
      m.isWord "CHECK" → ConstraintMarks .other (m :: ms)

def bodyWords : List String := ["PRIMARY", "UNIQUE", "FOREIGN", "CHECK"]

lemma constraintBody?_eq (hg : g.dialect = .postgresql) (name : Option Ident) :
    constraintBody? g name = (do
      if (← keyword? "UNIQUE") then
        let word ← anyKeyword? ["KEY", "INDEX"]
        if word.isSome then fail
        let (columns, text) ← keyColumns g.dialect
        let wordText := word.elim "" (" " ++ ·)
        return some ⟨.unique columns, ("UNIQUE" ++ wordText ++ text : String)⟩
      else if (← keyword? "PRIMARY") then
        keyword "KEY"
        let (columns, text) ← keyColumns g.dialect
        return some ⟨.primaryKey columns, ("PRIMARY KEY" ++ text : String)⟩
      else if (← keyword? "FOREIGN") then
        keyword "KEY"
        return some (← foreignKey name)
      else if (← keyword? "CHECK") then
        let e ← parens g.expr
        return some ⟨.other, "CHECK (" ++ e ++ ")"⟩
      else return none) := by
  have hany : g.isAny [.mysql, .plsql] = false := by simp [isAny, hg]
  simp only [constraintBody?, hany, Bool.not_false, Bool.and_true, Bool.false_and,
    Bool.false_eq_true, if_false, pure_bind]

lemma stays_word? {k : String} (hk : Mark.isSpelling k) : Stays false U d (keyword? k) :=
  (takes_keyword? k).test (.refl _ _) fun
    | _, ⟨t, rfl, ht⟩ => by
      obtain ⟨m, hm, hword⟩ := marks_of_isKeyword hk ht
      rw [marksOf_cons, marksOf_nil, append_nil, hm]
      exact (Shows.of_safe (p := ⟨false, d⟩) (Mark.nesting?_of_isWord hword d) (by simp)).forget

lemma stays_foreignKey : Stays false U 0 (foreignKey name) := by
  refine stays_columnList.bind fun _ => (stays_word? (by decide)).must.bind fun _ => ?_
  refine (passes_referral (p := ⟨false, 0⟩) (by simp) true).bind fun _ => ?_
  exact stays_characteristics.map

lemma takes_foreignKey : Takes U (foreignKey name) fun c x => ∃ columns target,
      c.constraint = .foreignKey name columns target ∧ HoldsKey (marksOf x) columns ∧
        (marksOf x).any (·.isWord "REFERENCES") := by
  refine takes_columnList.bind fun is x hx => ?_
  refine (takes_keyword "REFERENCES").bind fun _ y ⟨t, hy, ht⟩ => ?_
  obtain ⟨m, hm, hword⟩ := marks_of_isKeyword (by decide) ht
  have htarget : Passes false U ⟨false, 0⟩ (referral true) fun _ => ⟨false, 0⟩ :=
    passes_referral (p := ⟨false, 0⟩) (by simp) true
  refine bind htarget fun target z _ => ?_
  refine bind (stays_characteristics (w := false) (d := 0)) fun _ v _ => takes_pure ?_
  refine ⟨is, target, rfl, ?_, ?_⟩
  · rw [marksOf_append]
    exact (holdsKey_of_columnList hx).append_right _
  · subst hy
    simp [hm, hword]

lemma stays_constraintBody? (hg : g.dialect = .postgresql) (hU : hasTidyExprs g U)
    (name : Option Ident) : Stays false U 0 (constraintBody? g name) := by
  rw [constraintBody?_eq hg]
  refine (stays_word? (by decide)).bind fun _ => passes_ite ?_ ?_
  · refine (stays_anyKeyword? (by decide)).bind fun word => ?_
    refine passes_ite (Passes.bind (q := fun _ => ⟨false, 0⟩) passes_fail fun _ => ?_) ?_
    · exact (stays_keyColumns _).map
    · exact (stays_keyColumns _).map
  refine (stays_word? (by decide)).bind fun _ => passes_ite ?_ ?_
  · exact (stays_keyword (by decide)).bind fun _ => (stays_keyColumns _).map
  refine (stays_word? (by decide)).bind fun _ => passes_ite ?_ ?_
  · refine (stays_keyword (by decide)).bind fun _ => ?_
    exact (stays_foreignKey name).map
  refine (stays_word? (by decide)).bind fun _ => passes_ite ?_ (passes_pure none)
  exact (stays_parens_expr hU).map

/-- **A constraint of a table** is known by its marks. Where there is none, none of its words is
next. -/
lemma takesAt_constraintBody? {s : Input} (hg : g.dialect = .postgresql)
    (hU : hasTidyExprs g U) (hs : s.rest <:+ U) (name : Option Ident) :
    TakesAt s (constraintBody? g name) fun o x =>
      match o with
      | some c => ConstraintMarks c.constraint (marksOf x)
      | none => x = [] ∧ ∀ k ∈ bodyWords, s.rest.head?.any (·.isKeyword k) = false := by
  rw [constraintBody?_eq hg]
  refine takesAt_keyword_ite hs (fun t ht => ?_) fun hunique => ?_
  · obtain ⟨m, hm, hword⟩ := marks_of_isKeyword (by decide) ht
    refine bind (takes_anyKeyword? _) fun word x hx => ?_
    cases word with
    | some word => exact bind (P := fun _ _ => False) takes_fail fun _ _ h => h.elim
    | none =>
      obtain rfl : x = [] := hx
      refine (takes_keyColumns _).bind fun r y hy => takes_pure ?_
      rw [marksOf_cons, hm]
      exact .unique hword (by simpa using hy)
  refine takesAt_keyword_ite hs (fun t ht => ?_) fun hprimary => ?_
  · obtain ⟨m, hm, hword⟩ := marks_of_isKeyword (by decide) ht
    refine (takes_keyword "KEY").bind fun _ x ⟨u, hx, hu⟩ => ?_
    refine (takes_keyColumns _).bind fun r y hy => takes_pure ?_
    subst hx
    rw [marksOf_cons, hm]
    refine .primaryKey hword ?_
    simpa using hy.append_left (forall_mem_marks_of_isKeyword (by decide) (by simp) hu)
  refine takesAt_keyword_ite hs (fun t ht => ?_) fun hforeign => ?_
  · obtain ⟨m, hm, hword⟩ := marks_of_isKeyword (by decide) ht
    refine (takes_keyword "KEY").bind fun _ x ⟨u, hx, hu⟩ => ?_
    refine (takes_foreignKey name).bind fun c y ⟨columns, target, hc, hkey, hrefers⟩ => ?_
    refine takes_pure ?_
    subst hx
    dsimp only
    rw [marksOf_cons, hm, hc]
    refine .foreignKey hword ?_ ?_
    · simpa using hkey.append_left (forall_mem_marks_of_isKeyword (by decide) (by simp) hu)
    · simp [hrefers]
  refine takesAt_keyword_ite hs (fun t ht => ?_) fun hcheck => ?_
  · obtain ⟨m, hm, hword⟩ := marks_of_isKeyword (by decide) ht
    refine bind (stays_parens_expr (w := false) hU) fun e x _ => takes_pure ?_
    rw [marksOf_cons, hm]
    exact .check hword
  refine takesAt_pure ⟨rfl, ?_⟩
  simp [bodyWords, hunique, hprimary, hforeign, hcheck]

/-! ## Parts of tables -/

/-- A column or constraint of a table. -/
inductive TablePart where
  | column (c : ColumnDef)
  | constraint (c : TableConstraint)

def TablePart.columns : TablePart → List ColumnDef
  | .column c => [c]
  | .constraint _ => []

def TablePart.constraints : TablePart → List TableConstraint
  | .column _ => []
  | .constraint c => [c]

def startWords : List String := "CONSTRAINT" :: bodyWords

/-- The marks of a column or constraint of a table. -/
inductive PartMarks : TablePart → List Mark → Prop where
  | column {c : ColumnDef} {m : Mark} {ms : List Mark} :
      m.Names c.name → m.isAnyWord startWords = false →
        Shows true ⟨true, 0⟩ ⟨false, 0⟩ ms (optionLabels c.options) →
          PartMarks (.column c) (m :: ms)
  | constraint {c : TableConstraint} {ms : List Mark} :
      ConstraintMarks c ms → PartMarks (.constraint c) ms
  | named {c : TableConstraint} {m n : Mark} {ms : List Mark} :
      m.isWord "CONSTRAINT" → ConstraintMarks c ms → PartMarks (.constraint c) (m :: n :: ms)

lemma tableConstraint?_eq : tableConstraint? g = (do
    if (← keyword? "CONSTRAINT") then
      let name ← ident
      match (← constraintBody? g (some name)) with
      | some c => return some { c with phrase := "CONSTRAINT " ++ name.text ++ " " ++ c.phrase }
      | none => fail
    else constraintBody? g none) := by
  simp only [tableConstraint?, after?, bind_assoc]
  congr 1
  funext b
  cases b with
  | false => simp
  | true =>
    rw [if_pos rfl, if_pos rfl, bind_assoc]
    rfl

lemma takesAt_tableConstraint? {s : Input} (hg : g.dialect = .postgresql)
    (hU : hasTidyExprs g U) (hs : s.rest <:+ U) : TakesAt s (tableConstraint? g) fun o x =>
      match o with
      | some c => PartMarks (.constraint c.constraint) (marksOf x)
      | none => x = [] ∧ ∀ k ∈ startWords, s.rest.head?.any (·.isKeyword k) = false := by
  rw [tableConstraint?_eq]
  refine takesAt_keyword_ite hs (fun t ht => ?_) fun hnamed => ?_
  · obtain ⟨m, hm, hword⟩ := marks_of_isKeyword (by decide) ht
    refine takes_ident.bind fun name x ⟨n, hn, _⟩ => ?_
    have hbody : Takes U (constraintBody? g (some name)) fun o y =>
        ∀ c, o = some c → ConstraintMarks c.constraint (marksOf y) := fun s hs =>
      (takesAt_constraintBody? hg hU hs (some name)).mono fun o y hy c hc => by
        subst hc
        exact hy
    refine hbody.bind fun o y hy => ?_
    cases o with
    | none => exact takes_fail
    | some c =>
      refine takes_pure ?_
      rw [marksOf_cons, hm, marksOf_append, hn]
      exact .named hword (by simpa using hy c rfl)
  · refine (takesAt_constraintBody? hg hU hs none).mono fun o x hx => ?_
    cases o with
    | none =>
      refine ⟨hx.1, ?_⟩
      rw [startWords, forall_mem_cons]
      exact ⟨hnamed, hx.2⟩
    | some c => exact .constraint hx

lemma stays_tableConstraint? (hg : g.dialect = .postgresql) (hU : hasTidyExprs g U) :
    Stays false U 0 (tableConstraint? g) := by
  rw [tableConstraint?_eq]
  refine (stays_word? (by decide)).bind fun _ => passes_ite ?_ (stays_constraintBody? hg hU none)
  refine (passes_ident (p := ⟨false, 0⟩) (by simp)).bind fun name => ?_
  refine (stays_constraintBody? hg hU (some name)).bind fun o => ?_
  cases o with
  | none => exact passes_fail
  | some c => exact passes_pure _

lemma isAnyWord_startWords {t : Token} {ts : List Token} {ms : List Mark}
    (ht : t.isGap = false) (hm : marksOf (t :: ts) = m :: ms)
    (h : ∀ k ∈ startWords, t.isKeyword k = false) : m.isAnyWord startWords = false := by
  obtain ⟨n, ns, hn⟩ := exists_cons_of_ne_nil (marks_ne_nil ht)
  rw [marksOf_cons, hn] at hm
  obtain ⟨rfl, -⟩ := cons.inj hm
  refine any_eq_false.mpr fun k hk hword => ?_
  have hspelling : startWords.all Mark.isSpelling := by decide
  have hkeyword := (isKeyword_of_marks (all_eq_true.mp hspelling k hk) hn hword).1
  rw [h k hk] at hkeyword
  cases hkeyword

/-- **A column or constraint** is read from its marks, which close their parentheses. -/
lemma takes_tablePart (hg : g.dialect = .postgresql) (hU : hasTidyExprs g U)
    (parts : TableParts) : Takes U (tablePart g parts) fun out x => ∃ part : TablePart,
      out.columns = parts.columns ++ part.columns ∧
        out.constraints = parts.constraints ++ part.constraints ∧
          PartMarks part (marksOf x) ∧ nesting? false 0 (marksOf x) = some 0 := by
  intro s hs
  refine ((takesAt_tableConstraint? hg hU hs).and (stays_tableConstraint? hg hU s hs)).bind
    fun o x s₁ hx ⟨ho, hshows⟩ => ?_
  cases o with
  | some c =>
    refine takesAt_pure ⟨.constraint c.constraint, by simp [TablePart.columns], rfl, ?_⟩
    rw [append_nil]
    exact ⟨ho, hshows.nesting⟩
  | none =>
    obtain ⟨rfl, hwords⟩ := ho
    rw [nil_append] at hx
    refine takesAt_peek fun o ho => ?_
    split
    next v =>
      refine (takes_columnDef (w := true) hg hU s₁ (hx ▸ hs)).bind
        fun c y s₂ hy ⟨m, ms, hm, hname, hms⟩ => takesAt_pure ⟨.column c.column, rfl, ?_, ?_⟩
      · simp [TablePart.constraints]
      · rw [append_nil, nil_append, hm]
        cases y with
        | nil => cases hm
        | cons t y =>
          rw [hx, hy, cons_append] at hwords
          rw [hy, cons_append] at ho
          obtain rfl : t = .word v := Option.some.inj ho
          refine ⟨.column hname (isAnyWord_startWords rfl hm (by simpa using hwords)) hms, ?_⟩
          rw [nesting?_cons, hname.nesting?]
          exact hms.nesting
    next => exact fun a s' h => by cases h

/-- The marks of columns and constraints with commas between them. -/
inductive PartListMarks : List TablePart → List Mark → Prop where
  | last {part : TablePart} {ms : List Mark} :
      PartMarks part ms → nesting? false 0 ms = some 0 → PartListMarks [part] ms
  | cons {part : TablePart} {parts : List TablePart} {ms rest : List Mark} :
      PartMarks part ms → nesting? false 0 ms = some 0 → PartListMarks parts rest →
        PartListMarks (part :: parts) (ms ++ .symbol ',' :: rest)

lemma takes_tablePartsUpTo (hg : g.dialect = .postgresql) (hU : hasTidyExprs g U)
    (parts : TableParts) (n : Nat) : Takes U (tablePartsUpTo g parts n) fun out x => ∃ list ms,
      out.columns = parts.columns ++ list.flatMap TablePart.columns ∧
        out.constraints = parts.constraints ++ list.flatMap TablePart.constraints ∧
          PartListMarks list ms ∧ marksOf x = ms ++ [.symbol ')'] := by
  induction n generalizing parts with
  | zero => exact takes_fail
  | succ n ih =>
    refine (takes_tablePart hg hU parts).bind fun out x ⟨part, hcolumns, hconstraints, hx, hn⟩ => ?_
    refine (takes_symbol? ",").bind_test ?_ ?_
    rotate_left
    · rintro _ ⟨t, rfl, ht⟩
      refine (ih out).mono fun out' z ⟨list, ms, hcolumns', hconstraints', hlist, hz⟩ => ?_
      refine ⟨part :: list, marksOf x ++ .symbol ',' :: ms, ?_, ?_, .cons hx hn hlist, ?_⟩
      · rw [hcolumns', hcolumns, flatMap_cons, append_assoc]
      · rw [hconstraints', hconstraints, flatMap_cons, append_assoc]
      · rw [eq_of_isSymbol ht, marksOf_append, singleton_append, marksOf_cons, hz]
        rw [append_assoc]
        rfl
    · refine (takes_symbol ")").bind fun _ z ⟨t, hz, ht⟩ => takes_pure ?_
      refine ⟨[part], marksOf x, ?_, ?_, .last hx hn, ?_⟩
      · rw [hcolumns, flatMap_singleton]
      · rw [hconstraints, flatMap_singleton]
      · subst hz
        rw [eq_of_isSymbol ht, append_nil, marksOf_append]
        rfl

/-- **The columns and constraints of a table** stand between commas in parentheses. -/
lemma takes_tableParts (hg : g.dialect = .postgresql) (hU : hasTidyExprs g U) :
    Takes U (tableParts g) fun out x => out.columns ≠ [] → ∃ list ms,
      out.columns = list.flatMap TablePart.columns ∧
        out.constraints = list.flatMap TablePart.constraints ∧
          PartListMarks list ms ∧ marksOf x = .symbol '(' :: (ms ++ [.symbol ')']) := by
  refine (takes_symbol? "(").bind_test (takes_pure fun h => absurd rfl h) ?_
  rintro _ ⟨t, rfl, ht⟩
  refine (takes_symbol? ")").bind_test ?_ fun _ _ => takes_pure fun h => absurd rfl h
  refine looks_bound.takes_bind fun n => ?_
  refine (takes_tablePartsUpTo hg hU {} n).mono fun out z h _ => ?_
  obtain ⟨list, ms, hcolumns, hconstraints, hlist, hz⟩ := h
  refine ⟨list, ms, hcolumns, hconstraints, hlist, ?_⟩
  rw [eq_of_isSymbol ht, singleton_append, marksOf_cons, hz]
  rfl

end SqlOutline
