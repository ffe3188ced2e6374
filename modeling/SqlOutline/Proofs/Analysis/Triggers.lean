import SqlOutline.Proofs.Analysis.Append
import SqlOutline.Proofs.Definition.Table

/-!
# The triggers of a report

Triggers are found by the shape of their headers, and from the lexemes of a statement that creates
one and in which no header starts. A header need not give a trigger, and it may stand in a comment
of the statement; such a trigger statement is not told of.

## Main definitions

* `Gives` — a header in a text gives a trigger.
* `Statement.IsTrigger`, `Statement.HasHeader` — trigger statements, and those with a header.

## Main results

* `analyzeFile?_triggers` — which triggers are reported, and which statements are diagnosed.
* `analyzeFile?_triggers_lost` — trigger statements that are lost.
-/

namespace SqlOutline

open Option Bool List Text

/-! ## Headers -/

variable {source : Text} {scan : TriggerScan}

namespace TriggerScan

/-- A header in a text gives a trigger: it has the shape of PostgreSQL, or that of MySQL and no
header of PostgreSQL starts at the same place. -/
inductive Gives (source : Text) (m : Pattern.Found) (t : Trigger) : Prop
  | postgres (hm : m ∈ postgresHeader.findAll source) (ht : postgresTrigger? m = some t)
  | mysql (tail : Text) (hm : m ∈ mysqlHeader.findAll source)
      (hfree : m.start.offset ∉ (postgresHeader.findAll source).map (·.start.offset))
      (htail : tail? (byteLength source) ((anyHeader.findAll source).map (·.start.offset)) m =
        some tail)
      (ht : mysqlTrigger? m tail = some t)

lemma mem_zipWith_of_mapM {α β γ : Type} {f : α → Option β} {g : α → β → Option γ} {xs : List α}
    {ys : List β} (h : xs.mapM f = some ys) (c : γ) :
    c ∈ (zipWith g xs ys).filterMap id ↔ ∃ x ∈ xs, ∃ y, f x = some y ∧ g x y = some c := by
  induction xs generalizing ys with
  | nil =>
    obtain rfl : [] = ys := by simpa using h
    simp
  | cons x xs ih =>
    rw [mapM_cons] at h
    obtain ⟨y, hy, h⟩ := bind_eq_some_iff.mp h
    obtain ⟨ys, hys, h⟩ := bind_eq_some_iff.mp h
    obtain rfl := some.inj h
    rw [zipWith_cons_cons, mem_filterMap]
    simp only [mem_cons, exists_eq_or_imp, id_eq, hy, some.injEq, exists_eq_left']
    rw [← ih hys, mem_filterMap]
    rfl

/-- **The triggers of a scan** are those that headers give. -/
lemma mem_triggers_iff (h : scanTriggers? source = some scan)
    (t : Trigger) : t ∈ scan.triggers ↔ ∃ m, Gives source m t := by
  unfold scanTriggers? at h
  obtain ⟨tails, htails, hresult⟩ := bind_eq_some_iff.mp h
  obtain rfl := some.inj hresult
  rw [mem_append, mem_zipWith_of_mapM htails, mem_filterMap]
  constructor
  · rintro (⟨m, hm, ht⟩ | ⟨m, hm, tail, htail, ht⟩)
    · exact ⟨m, .postgres hm ht⟩
    · obtain ⟨hm, hfree⟩ := mem_filter.mp hm
      exact ⟨m, .mysql tail hm (by simpa using hfree) htail ht⟩
  · rintro ⟨m, ⟨hm, ht⟩ | ⟨tail, hm, hfree, htail, ht⟩⟩
    · exact .inl ⟨m, hm, ht⟩
    · exact .inr ⟨m, mem_filter.mpr ⟨hm, by simpa using hfree⟩, tail, htail, ht⟩

lemma covers_iff (h : scanTriggers? source = some scan) (start stop : Nat) :
    scan.covers start stop ↔
      ∃ m, (m ∈ postgresHeader.findAll source ∨ m ∈ mysqlHeader.findAll source) ∧
        start ≤ m.start.offset ∧ m.start.offset < stop := by
  unfold scanTriggers? at h
  obtain ⟨tails, -, hresult⟩ := bind_eq_some_iff.mp h
  obtain rfl := Option.some.inj hresult
  simp only [covers, any_append, List.any_map, or_eq_true, List.any_eq_true,
    Function.comp_apply, and_eq_true, decide_eq_true_eq]
  constructor
  · rintro (⟨m, hm, hin⟩ | ⟨m, hm, hin⟩)
    · exact ⟨m, .inl hm, hin⟩
    · exact ⟨m, .inr (mem_filter.mp hm).1, hin⟩
  · rintro ⟨m, hm | hm, hin⟩
    · exact .inl ⟨m, hm, hin⟩
    · by_cases hfree : m.start.offset ∈ (postgresHeader.findAll source).map (·.start.offset)
      · -- a header of PostgreSQL at the same place
        obtain ⟨p, hp, heq⟩ := List.mem_map.mp hfree
        exact .inl ⟨p, hp, by rwa [heq]⟩
      · exact .inr ⟨m, mem_filter.mpr ⟨hm, by simpa using hfree⟩, hin⟩

end TriggerScan

open TriggerScan

/-! ## One statement -/

/-- A statement that creates a trigger. -/
def Statement.IsTrigger (s : Statement) : Prop := classify (tokenize s.text) = .trigger

/-- A header of a trigger starts in a statement. -/
def Statement.HasHeader (source : Text) (s : Statement) : Prop :=
  ∃ m, (m ∈ postgresHeader.findAll source ∨ m ∈ mysqlHeader.findAll source) ∧
    s.offset ≤ m.start.offset ∧ m.start.offset < s.stop

/-- The problem of a trigger statement that cannot be read. -/
def Problem.unknownTrigger : Problem := ⟨.triggerPatternMiss, "trigger matches no known shape"⟩

variable {ops : List Operation} {file : Option Dialect}

namespace Findings

/-- Findings that are not about a trigger. -/
structure NoTrigger (f : Findings) : Prop where
  operations : ∀ t, .createTrigger t ∉ f.operations
  problem : ∀ p ∈ f.problem, p.kind ≠ .triggerPatternMiss

lemma noTrigger_ofProblem {kind : DiagnosticKind} (h : kind ≠ .triggerPatternMiss)
    (message : String) : NoTrigger (ofProblem kind message) :=
  ⟨fun _ => not_mem_nil, fun p hp => by
    obtain rfl : ⟨kind, message⟩ = p := by simpa [ofProblem] using hp
    exact h⟩

lemma noTrigger_topLevel (usage : Usage) : NoTrigger { topLevel := usage } :=
  ⟨fun _ => not_mem_nil, fun p hp => by cases hp⟩

lemma createTrigger_not_mem_convertStatement (s : Sql.Statement) (source : Text) (t : Trigger) :
    .createTrigger t ∉ convertStatement s source := by
  intro h
  obtain ⟨o, ho, heq⟩ := mem_map.mp h
  have htree : .createTrigger t ∈ convertTree s.tree := by
    cases o <;> simp only [Operation.respell, reduceCtorEq] at heq
    rwa [← heq]
  cases hs : s.tree <;> simp [convertTree, convertDrop, hs] at htree
  split at htree <;> simp at htree

lemma createTrigger_not_mem_readDefinition? (h : readDefinition? source file = some ops)
    (t : Trigger) : .createTrigger t ∉ ops := by
  have hne := readDefinition?_cases (P := (· ≠ .createTrigger t)) h
  exact fun ht => hne (by simp) (by simp) (by simp) (by simp) (by simp) _ ht rfl

lemma noTrigger_ofDefinition (t : Text) (file : Option Dialect) :
    NoTrigger (ofDefinition t file) := by
  unfold ofDefinition
  split
  · refine ⟨fun trigger h => ?_, fun p hp => by cases hp⟩
    obtain ⟨s, -, hs⟩ := mem_flatMap.mp h
    exact createTrigger_not_mem_convertStatement s t trigger hs
  · split
    case h_1 operations hread =>
      exact ⟨createTrigger_not_mem_readDefinition? hread, fun p hp => by cases hp⟩
    case h_2 => exact noTrigger_ofProblem (by decide) _

lemma noTrigger_ofRoutine (t : Text) (file : Option Dialect) : NoTrigger (ofRoutine t file) := by
  unfold ofRoutine
  cases extractRoutine t file with
  | extracted r => exact ⟨by simp, fun p hp => by cases hp⟩
  | headerOnly r reason =>
    refine ⟨by simp, fun p hp => ?_⟩
    obtain rfl : ⟨.routineBodyParseFailure, reason⟩ = p := by simpa using hp
    simp
  | unsupported reason => exact noTrigger_ofProblem (by decide) _
  | notARoutine => exact noTrigger_ofProblem (by decide) _

lemma noTrigger_ofPackage (t : Text) : NoTrigger (ofPackage t) := by
  unfold ofPackage
  cases extractPackage? t with
  | none => exact noTrigger_ofProblem (by decide) _
  | some routines => exact ⟨by simp, fun p hp => by cases hp⟩

lemma noTrigger_ofStandalone (t : Text) (file : Option Dialect) :
    NoTrigger (ofStandalone t file) := by
  unfold ofStandalone
  split <;> exact noTrigger_topLevel _

end Findings

open Findings

lemma noTrigger_statementFindings {t : Text} (h : classify (tokenize t) ≠ .trigger)
    (file : Option Dialect) (covered : Bool) : NoTrigger (statementFindings t file covered) := by
  unfold statementFindings
  cases hkind : classify (tokenize t) with
  | createTable | alterTable | createView | alterView | createIndex | drop =>
    exact noTrigger_ofDefinition t file
  | routine => exact noTrigger_ofRoutine t file
  | packageBody => exact noTrigger_ofPackage t
  | packageSpec | unsupported => exact noTrigger_ofProblem (by decide) _
  | trigger => exact absurd hkind h
  | dml => exact noTrigger_ofStandalone t file
  | anonymousBlock | other => exact noTrigger_topLevel _

lemma statementFindings_of_trigger {t : Text} (h : classify (tokenize t) = .trigger)
    (file : Option Dialect)
    (covered : Bool) : statementFindings t file covered = ofTrigger t covered := by
  rw [statementFindings, h]

/-- **The triggers in the findings of a statement.** -/
lemma createTrigger_mem_statementFindings_iff (t : Text) (file : Option Dialect) (covered : Bool)
    (trigger : Trigger) : .createTrigger trigger ∈ (statementFindings t file covered).operations ↔
      classify (tokenize t) = .trigger ∧ covered = false ∧ readTrigger? t = some trigger := by
  by_cases hkind : classify (tokenize t) = .trigger
  · rw [statementFindings_of_trigger hkind, ofTrigger]
    cases covered with
    | true => simp
    | false => cases readTrigger? t <;> simp [hkind, ofProblem, eq_comm]
  · have hno := (noTrigger_statementFindings hkind file covered).operations trigger
    simp [hkind, hno]

variable {p : Problem}

/-- **The problem of a trigger statement** that cannot be read. -/
lemma problem_statementFindings_iff (t : Text) (file : Option Dialect) (covered : Bool)
    (hp : p.kind = .triggerPatternMiss) : (statementFindings t file covered).problem = some p ↔
      classify (tokenize t) = .trigger ∧ covered = false ∧ readTrigger? t = none ∧
        p = .unknownTrigger := by
  by_cases hkind : classify (tokenize t) = .trigger
  · rw [statementFindings_of_trigger hkind, ofTrigger]
    cases covered with
    | true => simp
    | false => cases readTrigger? t <;> simp [hkind, ofProblem, Problem.unknownTrigger, eq_comm]
  · have hno := (noTrigger_statementFindings hkind file covered).problem p
    refine ⟨fun h => absurd hp (hno h), fun h => absurd h.1 hkind⟩

/-! ## Scripts -/

section Script

variable {source : Text} {scan : TriggerScan} (hscan : scanTriggers? source = some scan)
include hscan

lemma covers_eq_false_iff (s : Statement) :
    scan.covers s.offset (s.offset + byteLength s.text) = false ↔ ¬ s.HasHeader source := by
  rw [← not_eq_true, covers_iff hscan]
  rfl

/-- **The triggers in the findings of a script.** -/
lemma createTrigger_mem_scriptFindings_iff (file : Option Dialect) (t : Trigger) :
    .createTrigger t ∈ (scriptFindings source file scan).flatMap (·.2.operations) ↔
      ∃ s ∈ splitStatements source,
        s.IsTrigger ∧ ¬ s.HasHeader source ∧ readTrigger? s.text = some t := by
  simp only [scriptFindings, flatMap_map, mem_flatMap,
    createTrigger_mem_statementFindings_iff, covers_eq_false_iff hscan, Statement.IsTrigger]

end Script

lemma createTrigger_mem_hideColumns_iff (a : FileAnalysis) (t : Trigger) :
    .createTrigger t ∈ a.hideColumns.operations ↔ .createTrigger t ∈ a.operations := by
  simp only [FileAnalysis.hideColumns, List.mem_map]
  constructor
  · rintro ⟨o, ho, heq⟩
    cases o <;> simp only [Operation.hideColumns, reduceCtorEq] at heq
    rwa [← heq]
  · exact fun h => ⟨_, h, rfl⟩

/-! ## Diagnostics -/

section Diagnostics

variable {source : Text} {s r : Statement}

lemma pairwise_offset_splitStatements (source : Text) :
    (splitStatements source).Pairwise fun s r => s.offset < r.offset := by
  have hsplit := (grouping_scanScript source).splitsExactly (Scan.lossless_scanFrom true {} source)
  rw [splitStatements_eq_groups]
  refine hsplit.ordered.imp_of_mem fun {s r} hs _ hle => ?_
  exact Nat.lt_of_lt_of_le (hsplit.offset_lt_stop s hs) hle

lemma eq_of_offset_eq (hs : s ∈ splitStatements source) (hr : r ∈ splitStatements source)
    (h : s.offset = r.offset) : s = r := by
  have hnodup := (pairwise_map.mpr (pairwise_offset_splitStatements source)).imp Nat.ne_of_lt
  exact inj_on_of_nodup_map hnodup hs hr h

lemma offset_le_of_mem_splitStatements (hs : s ∈ splitStatements source) :
    s.offset ≤ byteLength source := by
  rw [splitStatements_eq_groups] at hs
  have hlossless := Scan.lossless_scanFrom true {} source
  have hsplit := (grouping_scanScript source).splitsExactly hlossless
  obtain ⟨l, hl, hstart⟩ := (hsplit.lexemes_at_ends s hs).1
  have hlt := hlossless.start_lt_stop l hl
  have hle := hlossless.stop_le l hl
  omega

lemma eq_of_diagnosticAt_eq {q : Problem} (hs : s ∈ splitStatements source)
    (hr : r ∈ splitStatements source) (h : diagnosticAt source s p = diagnosticAt source r q) :
    s = r ∧ p = q := by
  have hspan := some.inj (congrArg Diagnostic.span h)
  have hoffset := congrArg Span.offset hspan
  simp only [Span.locate, Nat.min_eq_left (offset_le_of_mem_splitStatements hs),
    Nat.min_eq_left (offset_le_of_mem_splitStatements hr)] at hoffset
  refine ⟨eq_of_offset_eq hs hr hoffset, ?_⟩
  cases p
  cases q
  exact congrArg₂ Problem.mk (congrArg Diagnostic.kind h) (congrArg Diagnostic.message h)

lemma mem_scriptDiagnostics_iff {d : Diagnostic} : d ∈ scriptDiagnostics source file scan ↔
      ∃ s ∈ splitStatements source, ∃ p, (statementFindings s.text file
        (scan.covers s.offset s.stop)).problem = some p ∧ diagnosticAt source s p = d := by
  simp only [scriptDiagnostics, scriptFindings, filterMap_map, mem_filterMap,
    Function.comp_apply, map_eq_some_iff, Statement.stop]

lemma diagnosticAt_mem_scriptDiagnostics_iff (hs : s ∈ splitStatements source)
    (file : Option Dialect) (scan : TriggerScan) (p : Problem) :
    diagnosticAt source s p ∈ scriptDiagnostics source file scan ↔
      (statementFindings s.text file
        (scan.covers s.offset (s.offset + byteLength s.text))).problem = some p := by
  rw [mem_scriptDiagnostics_iff]
  constructor
  · rintro ⟨r, hr, q, hq, heq⟩
    obtain ⟨rfl, rfl⟩ := eq_of_diagnosticAt_eq hr hs heq
    exact hq
  · exact fun h => ⟨s, hs, p, h, rfl⟩

end Diagnostics

/-! ## Files -/

/-- **The triggers of a report.** The triggers in the report on a file are those that are read from
its trigger statements in which no header starts, and those that headers give. A trigger statement
is reported as having no known shape if and only if no header starts in it and it cannot be read. So
of the trigger statements in which no header starts, none is lost: the report has its trigger or the
diagnostics have the statement.

**Proof sketch.** The scan covers a statement exactly if a header of either shape starts in it, and
then nothing is read from the statement. No other statement has a trigger among its operations or is
diagnosed in this way, and diagnostics of different statements have different places. -/
theorem analyzeFile?_triggers {path : String} {source : Text} {hide : Bool} {a : FileAnalysis}
    {ds : List Diagnostic} (h : analyzeFile? path source hide = some (a, ds)) :
    (∀ t, .createTrigger t ∈ a.operations ↔
      (∃ s ∈ splitStatements source,
        s.IsTrigger ∧ ¬ s.HasHeader source ∧ readTrigger? s.text = some t) ∨
      ∃ m, Gives source m t) ∧
    (∀ s ∈ splitStatements source, s.IsTrigger →
      (diagnosticAt source s .unknownTrigger ∈ ds ↔
        ¬ s.HasHeader source ∧ readTrigger? s.text = none)) ∧
    ∀ s ∈ splitStatements source, s.IsTrigger → ¬ s.HasHeader source →
      (∃ t, readTrigger? s.text = some t ∧ .createTrigger t ∈ a.operations) ∨
        diagnosticAt source s .unknownTrigger ∈ ds := by
  unfold analyzeFile? at h
  obtain ⟨scan, hscan, hresult⟩ := bind_eq_some_iff.mp h
  obtain ⟨ha, rfl⟩ := Prod.mk.inj (some.inj hresult)
  have htriggers : ∀ t, .createTrigger t ∈ a.operations ↔
      (∃ s ∈ splitStatements source,
        s.IsTrigger ∧ ¬ s.HasHeader source ∧ readTrigger? s.text = some t) ∨
      ∃ m, Gives source m t := by
    intro t
    have hshown : .createTrigger t ∈ a.operations ↔ .createTrigger t ∈
        ((FileAnalysis.addScript { path } source (detectDialect source) scan).addTriggers
          scan.triggers).operations := by
      rw [← ha]
      split_ifs
      · exact createTrigger_mem_hideColumns_iff _ t
      · rfl
    rw [hshown, FileAnalysis.addTriggers, FileAnalysis.push, FileAnalysis.addScript_eq,
      nil_append, mem_append, createTrigger_mem_scriptFindings_iff hscan,
      ← mem_triggers_iff hscan]
    simp
  have hmiss : ∀ s ∈ splitStatements source, s.IsTrigger →
      (diagnosticAt source s .unknownTrigger ∈
          scriptDiagnostics source (detectDialect source) scan ↔
        ¬ s.HasHeader source ∧ readTrigger? s.text = none) := by
    intro s hs hkind
    rw [diagnosticAt_mem_scriptDiagnostics_iff hs, problem_statementFindings_iff _ _ _ rfl,
      covers_eq_false_iff hscan]
    have hkind : classify (tokenize s.text) = .trigger := hkind
    simp [hkind]
  refine ⟨htriggers, hmiss, fun s hs hkind hheader => ?_⟩
  cases hread : readTrigger? s.text with
  | none => exact .inr ((hmiss s hs hkind).mpr ⟨hheader, hread⟩)
  | some t => exact .inl ⟨t, rfl, (htriggers t).mpr (.inl ⟨s, hs, hkind, hheader, hread⟩)⟩

/-- A trigger of T-SQL, whose header has neither shape. -/
theorem analyzeFile?_triggers_tsql :
    let source := "CREATE TRIGGER tr ON t AFTER INSERT AS DELETE u".toList
    let s : Statement := ⟨0, source⟩
    ∃ a ds, analyzeFile? "t.sql" source false = some (a, ds) ∧
      s ∈ splitStatements source ∧ s.IsTrigger ∧ ¬ s.HasHeader source ∧
      ((∃ t, readTrigger? s.text = some t ∧ .createTrigger t ∈ a.operations) ∨
        diagnosticAt source s .unknownTrigger ∈ ds) := by
  intro source s
  have hsome : (analyzeFile? "t.sql" source false).isSome = true := by decide +kernel
  obtain ⟨⟨a, ds⟩, h⟩ := isSome_iff_exists.mp hsome
  have hs : s ∈ splitStatements source := by decide +kernel
  have hkind : s.IsTrigger := by
    unfold Statement.IsTrigger
    decide +kernel
  have hheader : ¬ s.HasHeader source := by
    have hpostgres : postgresHeader.findAll source = [] := by
      rw [← length_eq_zero_iff]
      decide +kernel
    have hmysql : mysqlHeader.findAll source = [] := by
      rw [← length_eq_zero_iff]
      decide +kernel
    simp [Statement.HasHeader, hpostgres, hmysql]
  exact ⟨a, ds, h, hs, hkind, hheader, (analyzeFile?_triggers h).2.2 s hs hkind hheader⟩

/-- **Trigger statements that are lost.** A header in a comment keeps the trigger `tr` from being
read, and the report has the trigger of the comment instead. A header with a blank name gives no
trigger, and the statement is not diagnosed. -/
theorem analyzeFile?_triggers_lost :
    (let source := "CREATE TRIGGER tr ON orders AFTER INSERT AS\n".toList ++
        "-- was: CREATE TRIGGER old AFTER INSERT ON orders\nUPDATE totals SET n = n + 1;".toList
      let s : Statement := ⟨0, source⟩
      let old : Trigger :=
        { name := "old", table := ⟨none, "orders"⟩, timing := .after, events := ["INSERT"] }
      s ∈ splitStatements source ∧ classify (tokenize s.text) = .trigger ∧
      (readTrigger? s.text).map (·.name) = some "tr" ∧
      analyzeFile? "t.sql" source false =
        some ({ path := "t.sql", operations := [.createTrigger old] }, [])) ∧
    (let s : Statement :=
        ⟨0, "CREATE TRIGGER \" \" BEFORE INSERT ON t FOR EACH ROW SET x = 1".toList⟩
      let source := s.text ++ [';']
      s ∈ splitStatements source ∧ classify (tokenize s.text) = .trigger ∧
      readTrigger? s.text = none ∧
      analyzeFile? "t.sql" source false = some ({ path := "t.sql" }, [])) := by
  decide +kernel

end SqlOutline
