import SqlOutline.Proofs.Definition.TableMarks

/-!
# The marks of the definition of a table

The definition of a table starts with words that say so. Its name follows, and then the columns and
constraints in parentheses; whatever stands behind these does not matter.

## Main definitions

* `DefinitionMarks`, `TableMarks`, `NameMarks` — the marks of a definition and of its parts.

## Main results

* `definitionMarks_of_parse` — a text that is read as a table has the marks of one.
-/

namespace SqlOutline

open List Sql Reader Grammar Yields Token Mark

variable {α β : Type} {U : List Token} {s : Input} {g : Grammar}

/-! ## Words in front -/

/-- Whether marks start with the given words. -/
def startsWithMarks : List String → List Mark → Bool
  | [], _ => true
  | _ :: _, [] => false
  | k :: ks, m :: ms => m.isWord k && startsWithMarks ks ms

variable {ks : List String} {ts : List Token} {t : Token} {d : TableDef} {r : Reader Sql.Statement}

/-- Tokens start with keywords exactly if their marks do. -/
lemma startsWithKeywords_eq (hks : ks.all isSpelling)
    (hgaps : ∀ t ∈ ts, t.isGap = false) :
    startsWithKeywords ks ts = startsWithMarks ks (marksOf ts) := by
  induction ks generalizing ts with
  | nil => rw [startsWithKeywords, startsWithMarks]
  | cons k ks ih =>
    rw [all_cons, Bool.and_eq_true] at hks
    cases ts with
    | nil => rfl
    | cons t ts =>
      rw [forall_mem_cons] at hgaps
      obtain ⟨m, ms, hm⟩ := exists_cons_of_ne_nil (marks_ne_nil hgaps.1)
      rw [marksOf_cons, hm, cons_append, startsWithKeywords, startsWithMarks, ih hks.2 hgaps.2]
      cases hword : m.isWord k with
      | true =>
        obtain ⟨hkeyword, rfl⟩ := isKeyword_of_marks hks.1 hm hword
        rw [hkeyword, nil_append]
      | false =>
        have hkeyword : t.isKeyword k = false := by
          refine Bool.eq_false_iff.mpr fun h => ?_
          obtain ⟨m', hm', hword'⟩ := marks_of_isKeyword hks.1 h
          obtain ⟨rfl, -⟩ := cons.inj (hm.symm.trans hm')
          rw [hword] at hword'
          cases hword'
        rw [hkeyword]
        rfl

lemma startsWithWords_eq (hks : ks.all isSpelling)
    (ls : List Lexeme) : startsWithWords ks ls = startsWithMarks ks (ls.map Lexeme.mark) := by
  induction ks generalizing ls with
  | nil => rw [startsWithWords, startsWithMarks]
  | cons k ks ih =>
    rw [all_cons, Bool.and_eq_true] at hks
    cases ls with
    | nil => rfl
    | cons l ls =>
      rw [startsWithWords, map_cons, startsWithMarks, ih hks.2, l.isWord_mark hks.1]

lemma takesAt_keywords? (hks : ks.all isSpelling)
    (hgaps : ∀ t ∈ s.rest, t.isGap = false) :
    TakesAt s (keywords? ks) fun b x => b = startsWithMarks ks (marksOf s.rest) ∧
      (marksOf x).length = if b then ks.length else 0 := by
  intro b s' h
  obtain ⟨x, hx, hb⟩ := takes_keywords? ks s (suffix_refl _) b s' h
  refine ⟨x, hx, ?_, ?_⟩
  · rw [← startsWithKeywords_eq hks hgaps]
    rw [keywords?_apply] at h
    split at h
    next hstarts =>
      cases h
      exact hstarts.symm
    next hstarts =>
      cases h
      exact (Bool.eq_false_iff.mpr hstarts).symm
  · cases b with
    | false =>
      obtain rfl : x = [] := hb
      rfl
    | true =>
      replace hb : List.Forall₂ (fun t k => t.isKeyword k) x ks := hb
      clear hx h
      induction hb with
      | nil => rfl
      | cons ht _ ih =>
        rw [all_cons, Bool.and_eq_true] at hks
        obtain ⟨m, hm, -⟩ := marks_of_isKeyword hks.1 ht
        simpa [hm] using ih hks.2

/-! ## Tables -/

/-- The marks of a dotted name. -/
inductive NameMarks : ObjectName → List Mark → Prop where
  | last {i : Ident} {m : Mark} : m.Names i → NameMarks [i] [m]
  | cons {i : Ident} {n : ObjectName} {m : Mark} {ms : List Mark} :
      m.Names i → NameMarks n ms → NameMarks (i :: n) (m :: .symbol '.' :: ms)

lemma takes_objectName : Takes U objectName fun n x => NameMarks n (marksOf x) := by
  refine looks_bound.takes_bind fun bound => ?_
  induction bound with
  | zero => exact takes_fail
  | succ bound ih =>
    refine takes_ident.bind fun i x ⟨m, hm, hi⟩ =>
      (takes_symbol? ".").bind_test (takes_pure ?_) ?_
    · rw [append_nil, hm]
      exact .last hi
    · rintro _ ⟨t, rfl, ht⟩
      refine ih.bind fun n z hz => takes_pure ?_
      rw [eq_of_isSymbol ht, marksOf_append, hm, append_nil]
      exact .cons hi hz

/-- Marks that start with a word or name, if there are any. -/
def Worded (ms : List Mark) : Prop := ∀ m ∈ ms.head?, m.isName

lemma Worded.append {x y : List Mark} (hx : Worded x) (hy : Worded y) : Worded (x ++ y) := by
  cases x with
  | nil => exact hy
  | cons m x => exact hx

lemma worded_of_isKeyword {k : String} (hk : isSpelling k)
    (ht : t.isKeyword k) (ms : List Mark) : Worded (t.marks ++ ms) := by
  obtain ⟨m, hm, hword⟩ := marks_of_isKeyword hk ht
  obtain ⟨name, rfl⟩ := isWord_iff.mp hword
  rw [hm]
  rintro n ⟨⟩
  rfl

lemma takes_anyName : Takes U anyName fun _ _ => True := by
  refine looks_bound.takes_bind fun bound => ?_
  induction bound with
  | zero => exact takes_pure trivial
  | succ bound ih =>
    have hmore : Takes U (do if (← symbol? ".") then anyNameUpTo bound) fun _ _ => True := by
      refine (takes_symbol? ".").bind fun b _ _ => ?_
      cases b
      · exact takes_pure trivial
      · exact ih.mono fun _ _ _ => trivial
    refine takes_next.bind fun o _ _ => ?_
    split
    · exact hmore
    · exact hmore
    · exact hmore
    · exact takes_pure trivial

lemma takes_tableModel? : Takes U tableModel? fun _ x => Worded (marksOf x) := by
  have hcluster : Takes U onCluster? fun _ x => Worded (marksOf x) := by
    refine (takes_keywords? _).bind_test (takes_pure (by simp [Worded])) fun x hx => ?_
    obtain _ | ⟨ht, _⟩ := hx
    refine takes_ident.bind fun _ y _ => takes_pure ?_
    rw [cons_append, marksOf_cons]
    exact worded_of_isKeyword (by decide) ht _
  have hclone : Takes U (do if (← keyword? "CLONE") then anyName) fun _ x =>
      Worded (marksOf x) := by
    refine (takes_keyword? _).bind_test (takes_pure (by simp [Worded])) ?_
    rintro _ ⟨t, rfl, ht⟩
    refine takes_anyName.mono fun _ y _ => ?_
    rw [singleton_append, marksOf_cons]
    exact worded_of_isKeyword (by decide) ht _
  refine hcluster.bind fun _ x hx => (takes_anyKeyword? _).bind fun o y hy => ?_
  cases o with
  | none =>
    obtain rfl : y = [] := hy
    refine hclone.mono fun _ z hz => ?_
    rw [marksOf_append]
    exact hx.append hz
  | some k =>
    obtain ⟨hk, t, rfl, ht⟩ : k ∈ ["LIKE", "ILIKE"] ∧ ∃ t, y = [t] ∧ t.isKeyword k := hy
    have hspelling : ["LIKE", "ILIKE"].all isSpelling := by decide
    refine takes_anyName.bind fun _ z _ => hclone.mono fun _ v _ => ?_
    rw [marksOf_append, singleton_append, marksOf_cons]
    exact hx.append (worded_of_isKeyword (all_eq_true.mp hspelling k hk) ht _)

/-- The marks of a table behind the word `TABLE`. -/
def TableMarks (d : TableDef) (ms : List Mark) : Prop :=
  d.ifNotExists = startsWithMarks ["IF", "NOT", "EXISTS"] ms ∧
    ∃ words name between parts items behind,
      ms = words ++ (name ++ (between ++ .symbol '(' :: (items ++ .symbol ')' :: behind))) ∧
        words.length = (if d.ifNotExists then 3 else 0) ∧ NameMarks d.name name ∧ Worded between ∧
          PartListMarks parts items ∧ d.columns = parts.flatMap TablePart.columns ∧
            d.constraints = parts.flatMap TablePart.constraints

/-- A reader behind the word `TABLE`: if it reads a table with columns, that is known by its
marks. -/
def YieldsTable (s : Input) (r : Reader Sql.Statement) : Prop :=
  YieldsAt s r fun st => ∀ d, st.tree = .createTable d → d.columns ≠ [] →
    TableMarks d (marksOf s.rest)

/-- A reader of the parts of a table, with something in front of them that has no parenthesis. -/
lemma yieldsTable_of_model {model : Reader α} {last : Bool → ObjectName → TableParts →
      Reader Sql.Statement} (hg : g.dialect = .postgresql) (hU : hasTidyExprs g U)
    (hgaps : ∀ t ∈ U, t.isGap = false) (hs : s.rest <:+ U)
    (hmodel : Takes U model fun _ x => Worded (marksOf x))
    (hr : r = do
      let ifNotExists ← keywords? ["IF", "NOT", "EXISTS"]
      let name ← objectName
      let _ ← model
      let parts ← tableParts g
      last ifNotExists name parts)
    (hlast : ∀ ifNotExists name parts, Yields (last ifNotExists name parts) fun st =>
      st.tree = .createTable ⟨name, ifNotExists, parts.columns, parts.constraints⟩) :
    YieldsTable s r := by
  subst hr
  refine YieldsAt.bind (takesAt_keywords? (by decide) fun t ht => hgaps t (hs.subset ht))
    fun ifNotExists x₁ s₁ h₁ hwords => ?_
  have hs₁ := suffix_of_eq_append hs h₁
  refine YieldsAt.bind (takes_objectName s₁ hs₁) fun name x₂ s₂ h₂ hname => ?_
  have hs₂ := suffix_of_eq_append hs₁ h₂
  refine YieldsAt.bind (hmodel s₂ hs₂) fun _ x₃ s₃ h₃ hbetween => ?_
  have hs₃ := suffix_of_eq_append hs₂ h₃
  refine YieldsAt.bind (takes_tableParts hg hU s₃ hs₃) fun parts x₄ s₄ h₄ hparts => ?_
  refine (hlast ifNotExists name parts s₄).mono fun st htree d hd hcolumns => ?_
  obtain rfl := StatementTree.createTable.inj (hd.symm.trans htree)
  obtain ⟨list, ms, hcols, hconstraints, hlist, hx₄⟩ := hparts hcolumns
  refine ⟨hwords.1, marksOf x₁, marksOf x₂, marksOf x₃, list, ms, marksOf s₄.rest, ?_, hwords.2,
    hname, hbetween, hlist, hcols, hconstraints⟩
  simp [h₁, h₂, h₃, h₄, hx₄]

lemma yieldsTable_createTable (hg : g.dialect = .postgresql) (hU : hasTidyExprs g U)
    (hgaps : ∀ t ∈ U, t.isGap = false) (hs : s.rest <:+ U) : YieldsTable s (createTable g) :=
  yieldsTable_of_model hg hU hgaps hs takes_tableModel? rfl fun _ _ _ =>
    bind fun _ => yields_pure rfl

lemma yieldsTable_externalTable (hg : g.dialect = .postgresql) (hU : hasTidyExprs g U)
    (hgaps : ∀ t ∈ U, t.isGap = false) (hs : s.rest <:+ U) : YieldsTable s (externalTable g) := by
  apply yieldsTable_of_model hg hU hgaps hs (takes_pure (a := ()) (by simp [Worded]))
  · simp only [pure_bind]
    rfl
  · exact fun _ _ _ => bind fun _ => bind fun _ => bind fun _ => yields_pure rfl

/-! ## Definitions -/

/-- The marks of the definition of a table. -/
def DefinitionMarks (d : TableDef) (ms : List Mark) : Prop :=
  ∃ header m behind, ms = header ++ m :: behind ∧ (∀ n ∈ header, n.isWord "TABLE" = false) ∧
    m.isWord "TABLE" ∧ TableMarks d behind

lemma DefinitionMarks.append_left {ms x : List Mark} (h : DefinitionMarks d ms)
    (hx : ∀ n ∈ x, n.isWord "TABLE" = false) : DefinitionMarks d (x ++ ms) := by
  obtain ⟨header, m, behind, rfl, hheader, htable⟩ := h
  refine ⟨x ++ header, m, behind, by simp, ?_, htable⟩
  rw [forall_mem_append]
  exact ⟨hx, hheader⟩

lemma DefinitionMarks.name_ne_nil {ms : List Mark} (h : DefinitionMarks d ms) : d.name ≠ [] := by
  obtain ⟨_, _, _, _, _, _, _, _, name, _, _, _, _, _, _, hname, _⟩ := h
  rintro hnil
  rw [hnil] at hname
  cases hname

def YieldsDefinition (U : List Token) (r : Reader Sql.Statement) : Prop :=
  ∀ s, s.rest <:+ U → YieldsAt s r fun st => ∀ d, st.tree = .createTable d → d.columns ≠ [] →
    DefinitionMarks d (marksOf s.rest)

lemma YieldsDefinition.bind {r : Reader α} {f : α → Reader Sql.Statement}
    (hr : TakesOnly (·.isWord "TABLE" = false) U r) (hf : ∀ a, YieldsDefinition U (f a)) :
    YieldsDefinition U (r >>= f) := by
  intro s hs
  refine YieldsAt.bind (hr s hs) fun a x s₁ hx honly => ?_
  refine (hf a s₁ (suffix_of_eq_append hs hx)).mono fun st h d hd hcolumns => ?_
  rw [hx, marksOf_append]
  exact (h d hd hcolumns).append_left honly

lemma yieldsDefinition_ite {c : Prop} [Decidable c] {r' : Reader Sql.Statement}
    (hr : YieldsDefinition U r) (hr' : YieldsDefinition U r') :
    YieldsDefinition U (if c then r else r') := by
  split
  · exact hr
  · exact hr'

lemma yieldsAt_behind_table {s₁ : Input}
    (hr : YieldsTable s₁ r) (hs : s.rest = [t] ++ s₁.rest) (ht : t.isKeyword "TABLE") :
    YieldsAt s₁ r fun st => ∀ d, st.tree = .createTable d → d.columns ≠ [] →
      DefinitionMarks d (marksOf s.rest) := by
  obtain ⟨m, hm, hword⟩ := marks_of_isKeyword (by decide) ht
  refine hr.mono fun st h d hd hcolumns => ?_
  rw [hs, singleton_append, marksOf_cons, hm]
  exact ⟨[], m, marksOf s₁.rest, rfl, by simp, hword, h d hd hcolumns⟩

lemma yieldsDefinition_table {r' : Reader Sql.Statement}
    (hr : ∀ s, s.rest <:+ U → YieldsTable s r) (hr' : YieldsDefinition U r') :
    YieldsDefinition U (do if (← keyword? "TABLE") then r else r') := by
  intro s hs
  refine YieldsAt.bind (takes_keyword? "TABLE" s hs) fun b x s₁ hx hb => ?_
  have hs₁ := suffix_of_eq_append hs hx
  cases b with
  | false =>
    obtain rfl : x = [] := hb
    rw [nil_append] at hx
    rw [hx]
    exact hr' s₁ hs₁
  | true =>
    obtain ⟨t, rfl, ht⟩ : ∃ t, x = [t] ∧ t.isKeyword "TABLE" := hb
    exact yieldsAt_behind_table (hr s₁ hs₁) hx ht

def NoTable (st : Sql.Statement) : Prop := ∀ d, st.tree ≠ .createTable d

lemma yieldsDefinition_of_noTable (hr : Yields r NoTable) :
    YieldsDefinition U r := fun s _ => (hr s).mono fun _ h d hd _ => absurd hd (h d)

lemma yields_createView (hg : g.dialect = .postgresql) (orReplace : Bool) :
    Yields (createView g orReplace) NoTable := by
  simp only [createView, hg, whenever, reduceCtorEq, decide_false, Bool.false_eq_true, if_false,
    pure_bind]
  repeat' first
    | refine bind fun _ => ?_
    | refine yields_ite ?_ ?_
    | exact yields_pure fun _ => by simp

lemma yields_noTable (g : Grammar) (orReplace plain : Bool) :
    ∀ r ∈ [createPolicy g, createFunction g orReplace, createTrigger g, createMacro g, createSecret,
      createExtension, createIndex g false, createIndex g true, createVirtualTable, createSchema,
      createDatabase g, createRole g, createSequence g, createType g plain, createProcedure g],
      Yields r NoTable := by
  unfold createPolicy createFunction createTrigger createMacro createSecret createExtension
    createIndex createVirtualTable createSchema createDatabase createRole createSequence createType
    createProcedure
  simp only [forall_mem_cons, not_mem_nil, false_imp_iff, implies_true, and_true]
  -- Every way through a reader ends with a failure, or with the tree of another statement.
  refine ⟨?_, ?_, ?_, ?_, ?_, ?_, ?_, ?_, ?_, ?_, ?_, ?_, ?_, ?_, ?_⟩ <;>
    repeat' first
      | refine bind fun _ => ?_
      | refine yields_ite ?_ ?_
      | exact yields_pure fun _ => by simp
      | exact yields_fail

/-- **What is read behind `CREATE`**, if it is a table, is known by its marks. -/
lemma yieldsDefinition_create (hg : g.dialect = .postgresql) (hU : hasTidyExprs g U)
    (hgaps : ∀ t ∈ U, t.isGap = false) : YieldsDefinition U (create g) := by
  refine .bind (looks_peekKeyword _).takesOnly fun plain => ?_
  refine .bind (takesOnly_keywords? (by decide) (by simp [Mark.isWord])) fun orReplace => ?_
  refine .bind (takesOnly_keywords? (by decide) (by simp [Mark.isWord])) fun _ => ?_
  refine .bind (takesOnly_keyword? (by decide) fun _ => rfl) fun _ => ?_
  refine .bind (takesOnly_keyword? (by decide) fun _ => rfl) fun _ => ?_
  refine .bind (takesOnly_keyword? (by decide) fun _ => rfl) fun _ => ?_
  refine .bind (takesOnly_anyKeyword? (by decide) (by simp [Mark.isWord])) fun _ => ?_
  refine yieldsDefinition_table (fun s hs => yieldsTable_createTable hg hU hgaps hs) ?_
  have hother := yields_noTable g orReplace plain
  refine .bind (looks_peekAny _).takesOnly fun _ => yieldsDefinition_ite ?_ ?_
  · exact yieldsDefinition_of_noTable (yields_createView hg orReplace)
  refine .bind (takesOnly_keyword? (by decide) fun _ => rfl) fun _ => yieldsDefinition_ite ?_ ?_
  · exact yieldsDefinition_of_noTable (hother _ (by simp))
  refine .bind (takesOnly_keyword? (by decide) fun _ => rfl) fun _ => yieldsDefinition_ite ?_ ?_
  · intro s hs
    refine YieldsAt.bind (takes_keyword "TABLE" s hs) fun _ x s₁ hx hword => ?_
    obtain ⟨t, ht, htable⟩ := hword
    have hexternal := yieldsTable_externalTable hg hU hgaps (suffix_of_eq_append hs hx)
    exact yieldsAt_behind_table hexternal (ht ▸ hx) htable
  refine yieldsDefinition_of_noTable ?_
  repeat' first
    | refine bind fun _ => yields_ite (hother _ (by simp)) ?_
    | refine yields_ite yields_fail ?_
    | exact yields_fail

/-! ## Texts -/

lemma yieldsAt_statements {P : Sql.Statement → Prop}
    (hs : s.rest = t :: ts) (ht : t.isSymbol ";" = false) (h : YieldsAt s g.statement P) :
    YieldsAt s g.statements fun sts => ∀ st ∈ sts.head?, P st := by
  have hdrop : s.rest.dropWhile (·.isSymbol ";") = s.rest := by
    rw [hs, dropWhile_cons_of_neg (by simp [ht])]
  intro sts s' hok
  obtain ⟨_, _, hbound, hok⟩ := bind_eq_ok.mp hok
  cases hbound
  rw [statementsUpTo] at hok
  obtain ⟨_, _, hrest, hok⟩ := bind_eq_ok.mp hok
  cases hrest
  obtain ⟨_, s₁, hset, hok⟩ := bind_eq_ok.mp hok
  obtain rfl : s = s₁ := by
    rw [hdrop] at hset
    cases hset
    rfl
  obtain ⟨_, _, hpeek, hok⟩ := bind_eq_ok.mp hok
  cases hpeek
  rw [if_neg (by simp [hs])] at hok
  obtain ⟨st, s₂, hst, hok⟩ := bind_eq_ok.mp hok
  have hhead : sts.head? = some st := by
    refine (?_ : Yields _ fun sts => sts.head? = some st) s₂ sts s' hok
    refine bind fun _ => bind fun _ => yields_ite (yields_pure rfl) ?_
    refine bind fun _ => yields_ite ?_ ?_
    · exact bind fun _ => bind fun _ => yields_pure rfl
    · exact bind fun _ => yields_pure rfl
  rw [hhead]
  rintro _ ⟨⟩
  exact h st s₂ hst

lemma marksOf_filter (ts : List Token) : marksOf (ts.filter (!·.isGap)) = marksOf ts := by
  induction ts with
  | nil => rfl
  | cons t ts ih =>
    cases ht : t.isGap with
    | false => rw [filter_cons_of_pos (by simp [ht]), marksOf_cons, marksOf_cons, ih]
    | true =>
      rw [filter_cons_of_neg (by simp [ht]), ih, marksOf_cons]
      cases t with
      | gap => rfl
      | _ => cases ht

lemma yieldsAt_statementWith {P : Sql.Statement → Prop}
    (hs : s.rest = t :: ts) (ht : t.isKeyword "CREATE")
    (h : YieldsAt { s with rest := ts } (create g) P) : YieldsAt s (statementWith g) P := by
  obtain ⟨rest, hierarchical⟩ := s
  obtain rfl : rest = t :: ts := hs
  intro st s' hok
  obtain ⟨_, _, hpeek, hok⟩ := bind_eq_ok.mp hok
  cases hpeek
  cases t with
  | word v =>
    have hv : v.keyword = "CREATE" := by simpa [isKeyword] using ht
    dsimp only [head?_cons] at hok
    rw [hv, if_neg (by decide)] at hok
    obtain ⟨_, _, hskip, hok⟩ := bind_eq_ok.mp hok
    cases hskip
    exact h st s' hok
  | _ => cases ht

/-- The grammar that reads what stands inside a statement. -/
def innerGrammar : Grammar := level .postgresql (depthLimit - 1)

/-- **A text that is read as a table** with columns has the marks of one. -/
lemma definitionMarks_of_parse {st : Sql.Statement}
    (hparse : parse .postgresql ts = some [st]) (htree : st.tree = .createTable d)
    (hcolumns : d.columns ≠ []) (htidy : hasTidyExprs innerGrammar (ts.filter (!·.isGap)) = true)
    (hcreate : (marksOf ts).head?.any (·.isWord "CREATE")) :
    DefinitionMarks d (marksOf ts) := by
  rw [← marksOf_filter] at hcreate ⊢
  have hgaps : ∀ t ∈ ts.filter (!·.isGap), t.isGap = false := fun t ht => by
    simpa using of_mem_filter ht
  have hstatements : ∃ s', (level .postgresql depthLimit).statements
      { rest := ts.filter (!·.isGap) } = .ok ([st], s') := by
    unfold parse at hparse
    dsimp only at hparse
    split at hparse
    next sts s' hok => exact ⟨s', by rw [hok, Option.some.inj hparse]⟩
    next => cases hparse
  obtain ⟨s', hok⟩ := hstatements
  generalize ts.filter (!·.isGap) = U at *
  cases U with
  | nil => cases hcreate
  | cons t U =>
    rw [forall_mem_cons] at hgaps
    obtain ⟨m, ms, hm⟩ := exists_cons_of_ne_nil (marks_ne_nil hgaps.1)
    have hword : m.isWord "CREATE" := by simpa [hm] using hcreate
    have ht := (isKeyword_of_marks (by decide) hm hword).1
    have hsemicolon : t.isSymbol ";" = false := by
      cases t with
      | word v => rfl
      | _ => cases ht
    have hdefinition : YieldsAt ⟨U, false⟩ (create innerGrammar) fun st =>
        ∀ d, st.tree = .createTable d → d.columns ≠ [] → DefinitionMarks d (marksOf U) :=
      yieldsDefinition_create rfl htidy (forall_mem_cons.mpr hgaps) _ (suffix_cons t U)
    have hfirst := yieldsAt_statements (g := level .postgresql depthLimit) (s := ⟨t :: U, false⟩)
      rfl hsemicolon (yieldsAt_statementWith rfl ht hdefinition) [st] s' hok st rfl d htree hcolumns
    exact hfirst.append_left (forall_mem_marks_of_isKeyword (by decide) (fun _ => rfl) ht)

end SqlOutline
