import SqlOutline.Analysis
import SqlOutline.Proofs.Diagnostic.Shift
import SqlOutline.Proofs.Pattern.Search
import SqlOutline.Proofs.Statement.Append
import SqlOutline.Proofs.Usage.Union

/-!
# Analyses of scripts that are put together

A statement in front of a script, in which no trigger is found by its header, adds its operations,
diagnostics and names to the report.

## Main definitions

* `FileAnalysis.IsConcat` — a report is that of one script and then of another.

## Main results

* `scriptDiagnostics_append` — the diagnostics of a statement in front of a script.
* `addScript_append` — analyses are compositional over statements.
-/

namespace SqlOutline

open List Text FileAnalysis

/-! ## Headers of triggers -/

namespace TriggerScan

lemma findAll_eq_nil_of_scanTriggers? {t : Text} {scan : TriggerScan}
    (hscan : scanTriggers? t = some scan) (hpg : scan.postgresOffsets = [])
    (hmy : scan.mysqlOffsets = []) :
    postgresHeader.findAll t = [] ∧ mysqlHeader.findAll t = [] := by
  unfold scanTriggers? at hscan
  obtain ⟨tails, -, hresult⟩ := Option.bind_eq_some_iff.mp hscan
  obtain rfl := Option.some.inj hresult
  have hpostgres : postgresHeader.findAll t = [] := map_eq_nil_iff.mp hpg
  refine ⟨hpostgres, ?_⟩
  rw [map_eq_nil_iff, hpostgres] at hmy
  simpa using hmy

lemma scanTriggers?_eq_empty_iff (t : Text) : scanTriggers? t = some {} ↔
      postgresHeader.findAll t = [] ∧ mysqlHeader.findAll t = [] := by
  refine ⟨fun h => findAll_eq_nil_of_scanTriggers? h rfl rfl, fun ⟨hpostgres, hmysql⟩ => ?_⟩
  unfold scanTriggers?
  rw [hpostgres, hmysql]
  rfl

lemma eq_empty_of_scanTriggers? {t : Text} {scan : TriggerScan}
    (hscan : scanTriggers? t = some scan) (hpg : scan.postgresOffsets = [])
    (hmy : scan.mysqlOffsets = []) : scan = {} := by
  have hempty := (scanTriggers?_eq_empty_iff t).mpr (findAll_eq_nil_of_scanTriggers? hscan hpg hmy)
  exact Option.some.inj (hscan.symm.trans hempty)

/-- **Headers in the parts of a text**: where none is found in a text, none is found in a part that
does not cut through a word. -/
lemma scanTriggers?_eq_empty_of_append {x u y : Text} (hx : x.getLast?.any isWordChar = false)
    (hy : y.head?.any isWordChar = false) (h : scanTriggers? (x ++ (u ++ y)) = some {}) :
    scanTriggers? u = some {} := by
  rw [scanTriggers?_eq_empty_iff] at h ⊢
  exact ⟨Pattern.findAll_eq_nil_of_append (by decide) hx hy h.1,
    Pattern.findAll_eq_nil_of_append (by decide) hx hy h.2⟩

end TriggerScan

/-! ## Reports -/

namespace FileAnalysis

lemma foldl_addFindings (r : FileAnalysis) (fs : List Findings) : fs.foldl addFindings r =
      { r with
        operations := r.operations ++ fs.flatMap (·.operations)
        topLevel := (fs.map (·.topLevel)).foldl Usage.merge r.topLevel } := by
  induction fs generalizing r with
  | nil => simp
  | cons f fs ih =>
    rw [foldl_cons, ih]
    simp [addFindings, push, addTopLevel]

/-- **A report with a script**, by the findings of its statements. -/
lemma addScript_eq (r : FileAnalysis) (source : Text) (file : Option Dialect) (scan : TriggerScan) :
    r.addScript source file scan =
      { r with
        operations := r.operations ++
          (scriptFindings source file scan).flatMap (·.2.operations)
        topLevel := ((scriptFindings source file scan).map (·.2.topLevel)).foldl Usage.merge
          r.topLevel } := by
  rw [addScript, foldl_addFindings, flatMap_map, map_map]
  rfl

end FileAnalysis

lemma diagnosticAt_zero (source t : Text) (p : Problem) : diagnosticAt source ⟨0, t⟩ p =
      { kind := p.kind, message := p.message, span := some ⟨0, byteLength t, 1, 1⟩ } := by
  rw [diagnosticAt, Span.locate_zero]

/-! ## A statement in front of a script -/

section Append

variable {a : Text} (ha : IsStatement a) (b : Text) (file : Option Dialect)
include ha

lemma scriptFindings_statement :
    scriptFindings (a ++ [';']) file {} = [(⟨0, a⟩, statementFindings a file false)] := by
  rw [IsStatement] at ha
  rw [scriptFindings, ha]
  rfl

lemma scriptFindings_append : scriptFindings (a ++ ';' :: '\n' :: b) file {} =
      scriptFindings (a ++ [';']) file {} ++
        (scriptFindings b file {}).map fun f => (f.1.shift (byteLength a + 2), f.2) := by
  rw [scriptFindings_statement ha, scriptFindings, splitStatements_append ha, map_cons,
    map_map, scriptFindings, map_map]
  rfl

/-- **Diagnostics of a statement in front of a script**: those of the script are about places behind
the lines of the statement. -/
lemma scriptDiagnostics_append : scriptDiagnostics (a ++ ';' :: '\n' :: b) file {} =
      scriptDiagnostics (a ++ [';']) file {} ++
        (scriptDiagnostics b file {}).map
          (Diagnostic.shift (byteLength a + 2) (a.count '\n' + 1)) := by
  have hlocate : ∀ offset length,
      Span.locate (a ++ ';' :: '\n' :: b) (byteLength a + 2 + offset) length =
        (Span.locate b offset length).shift (byteLength a + 2) (a.count '\n' + 1) := by
    intro offset length
    have hlines := Span.locate_append (a ++ [';']) b offset length
    rw [append_assoc, byteLength_append, count_append] at hlines
    exact hlines
  unfold scriptDiagnostics
  rw [scriptFindings_append ha, scriptFindings_statement ha, filterMap_append,
    filterMap_map, map_filterMap]
  congr 1
  · refine filterMap_congr fun f hf => ?_
    rw [mem_singleton.mp hf]
    exact congrArg (Option.map · _) (funext fun p => by rw [diagnosticAt_zero, diagnosticAt_zero])
  · refine filterMap_congr fun f _ => ?_
    rw [Function.comp_apply, Option.map_map]
    refine congrArg (Option.map · f.2.problem) (funext fun p => ?_)
    simp only [diagnosticAt, Statement.shift, hlocate, Diagnostic.shift, Function.comp_apply,
      Option.map_some]

end Append

/-- A report is that of one script and then of another: each of its lists of operations is that of
the first and then that of the second, and what standalone statements use is the union. -/
structure FileAnalysis.IsConcat (whole first second : FileAnalysis) : Prop where
  ofCategory : ∀ c, whole.ofCategory c = first.ofCategory c ++ second.ofCategory c
  topLevel : whole.topLevel.IsUnion first.topLevel second.topLevel

lemma isConcat_addScript {a : Text} (ha : IsStatement a) (b : Text) (file : Option Dialect)
    (path : String) : FileAnalysis.IsConcat (addScript { path } (a ++ ';' :: '\n' :: b) file {})
      (addScript { path } (a ++ [';']) file {})
      (addScript { path } b file {}) := by
  rw [addScript_eq, addScript_eq, addScript_eq, scriptFindings_append ha]
  constructor
  case ofCategory =>
    intro c
    simp only [ofCategory, nil_append, flatMap_append, flatMap_map, filter_append]
  case topLevel =>
    dsimp only
    rw [map_append, map_map, foldl_append, Usage.foldl_merge]
    exact Usage.isUnion_merge (Usage.nodup_empty.foldl_merge _) (Usage.nodup_empty.foldl_merge _)

/-- **Analyses are compositional over statements**: if no trigger is found by its header in a
statement in front of a script, none is found in either alone, the report on both is that of the
statement and then that of the script, and so are the diagnostics, of which those of the script are
about places behind the lines of the statement.

**Proof sketch.** A header in the statement or in the script would be one in both together, because
the separators are no word characters. So no statement counts as having a trigger that is found by
its header, and its findings depend only on its text and the dialect of the file. The statements of
both are those of each (`splitStatements_append`). -/
theorem addScript_append {a : Text} (ha : IsStatement a) (b : Text) (file : Option Dialect)
    (path : String) {scan : TriggerScan}
    (hscan : scanTriggers? (a ++ ';' :: '\n' :: b) = some scan)
    (hpg : scan.postgresOffsets = []) (hmy : scan.mysqlOffsets = []) :
    ∃ scanA scanB, scanTriggers? (a ++ [';']) = some scanA ∧ scanTriggers? b = some scanB ∧
      FileAnalysis.IsConcat (FileAnalysis.addScript { path } (a ++ ';' :: '\n' :: b) file scan)
        (FileAnalysis.addScript { path } (a ++ [';']) file scanA)
        (FileAnalysis.addScript { path } b file scanB) ∧
      scriptDiagnostics (a ++ ';' :: '\n' :: b) file scan =
        scriptDiagnostics (a ++ [';']) file scanA ++
          (scriptDiagnostics b file scanB).map
            (Diagnostic.shift (byteLength a + 2) (a.count '\n' + 1)) := by
  have hfirst : a ++ ';' :: '\n' :: b = [] ++ ((a ++ [';']) ++ '\n' :: b) := by simp
  have hsecond : a ++ ';' :: '\n' :: b = (a ++ [';', '\n']) ++ (b ++ []) := by simp
  obtain rfl := TriggerScan.eq_empty_of_scanTriggers? hscan hpg hmy
  refine ⟨{}, {}, ?_, ?_, isConcat_addScript ha b file path, scriptDiagnostics_append ha b file⟩
  · rw [hfirst] at hscan
    exact TriggerScan.scanTriggers?_eq_empty_of_append rfl rfl hscan
  · rw [hsecond] at hscan
    refine TriggerScan.scanTriggers?_eq_empty_of_append ?_ rfl hscan
    rw [getLast?_append]
    rfl

/-- A table in front of a script with a statement that cannot be read. -/
theorem addScript_table_append :
    let a := "CREATE TABLE t\n(x int)".toList
    let b := "DROP;f(1)".toList
    IsStatement a ∧ scanTriggers? (a ++ ';' :: '\n' :: b) = some {} ∧
      ∃ scanA scanB, scanTriggers? (a ++ [';']) = some scanA ∧ scanTriggers? b = some scanB ∧
        FileAnalysis.IsConcat
          (FileAnalysis.addScript { path := "t.sql" } (a ++ ';' :: '\n' :: b) none {})
          (FileAnalysis.addScript { path := "t.sql" } (a ++ [';']) none scanA)
          (FileAnalysis.addScript { path := "t.sql" } b none scanB) ∧
        scriptDiagnostics (a ++ ';' :: '\n' :: b) none {} =
          scriptDiagnostics (a ++ [';']) none scanA ++
            (scriptDiagnostics b none scanB).map (Diagnostic.shift 24 2) := by
  intro a b
  have ha : IsStatement a := by decide +kernel
  have hscan : scanTriggers? (a ++ ';' :: '\n' :: b) = some {} := by decide +kernel
  exact ⟨ha, hscan, addScript_append ha b none "t.sql" hscan rfl rfl⟩

end SqlOutline
