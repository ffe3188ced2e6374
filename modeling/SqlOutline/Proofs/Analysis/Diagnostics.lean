import SqlOutline.Proofs.Analysis.Triggers
import SqlOutline.Proofs.Diagnostic.Place

/-!
# Diagnostics point at statements

The diagnostics of a script come in the order of its statements, at most one for each, and tell of
exactly those that have a problem.

## Main definitions

* `Diagnostic.PointsAt` — a diagnostic has the offset, size, line and column of a statement.

## Main results

* `analyzeFile?_diagnostics` — diagnostics point at the statements with a problem.
-/

namespace SqlOutline

open Option List Text

/-! ## Places of statements -/

/-- A diagnostic has the place of a statement in a source: the source is the text of the statement
with as many bytes before it as the offset says, and the line and column are those one counts in
what stands before it. -/
def Diagnostic.PointsAt (source : Text) (d : Diagnostic) (s : Statement) : Prop :=
  ∃ before behind, source = before ++ (s.text ++ behind) ∧ byteLength before = s.offset ∧
    d.span = some ⟨s.offset, byteLength s.text, 1 + before.count '\n', 1 + columnBehind before⟩

section Statements

variable {source : Text} {s r : Statement}

lemma exists_split_of_mem_splitStatements (hs : s ∈ splitStatements source) :
    ∃ before behind, source = before ++ (s.text ++ behind) ∧ byteLength before = s.offset := by
  rw [splitStatements_eq_groups] at hs
  have hlossless := Scan.lossless_scanFrom true {} source
  have hsplit := (grouping_scanScript source).splitsExactly hlossless
  obtain ⟨⟨l, hl, hstart⟩, m, hm, hstop⟩ := hsplit.lexemes_at_ends s hs
  obtain ⟨before, text, behind, hsource, hoffset, hend⟩ := exists_split_of_isBoundary
    (hlossless.isBoundary l hl).1 (hlossless.isBoundary m hm).2 (i := l.start) (j := m.stop)
    (by rw [hstart, hstop]; exact Nat.le_of_lt (hsplit.offset_lt_stop s hs))
  have htext : s.text = text := by
    rw [← hsplit.slice_eq s hs, ← hstart, ← hstop, hoffset, hend, hsource, slice_append]
  exact ⟨before, behind, htext ▸ hsource, by rw [← hoffset, hstart]⟩

lemma pointsAt_diagnosticAt (hs : s ∈ splitStatements source) (p : Problem) :
    (diagnosticAt source s p).PointsAt source s := by
  obtain ⟨before, behind, hsource, hoffset⟩ := exists_split_of_mem_splitStatements hs
  refine ⟨before, behind, hsource, hoffset, ?_⟩
  have hlocate := Span.locate_byteLength before (s.text ++ behind) (byteLength s.text)
  rw [← hsource, hoffset] at hlocate
  exact congrArg some hlocate

lemma Diagnostic.PointsAt.offset_eq {d : Diagnostic} (h : d.PointsAt source s) :
    ∃ x ∈ d.span, x.offset = s.offset := by
  obtain ⟨_, _, _, _, hspan⟩ := h
  exact ⟨_, hspan, rfl⟩

lemma Diagnostic.PointsAt.eq {d : Diagnostic} (hs : s ∈ splitStatements source)
    (hr : r ∈ splitStatements source) (h : d.PointsAt source s) (h' : d.PointsAt source r) :
    s = r := by
  obtain ⟨x, hx, hxs⟩ := h.offset_eq
  obtain ⟨y, hy, hyr⟩ := h'.offset_eq
  obtain rfl := mem_unique hx hy
  exact eq_of_offset_eq hs hr (hxs.symm.trans hyr)

lemma pairwise_scriptDiagnostics (source : Text) (file : Option Dialect) (scan : TriggerScan) :
    (scriptDiagnostics source file scan).Pairwise fun d e =>
      ∃ x ∈ d.span, ∃ y ∈ e.span, x.offset < y.offset := by
  rw [scriptDiagnostics, scriptFindings, filterMap_map, pairwise_filterMap]
  refine (pairwise_offset_splitStatements source).imp_of_mem fun {s r} hs hr hlt d hd e he => ?_
  obtain ⟨p, -, rfl⟩ := map_eq_some_iff.mp hd
  obtain ⟨q, -, rfl⟩ := map_eq_some_iff.mp he
  obtain ⟨x, hx, hxs⟩ := (pointsAt_diagnosticAt hs p).offset_eq
  obtain ⟨y, hy, hyr⟩ := (pointsAt_diagnosticAt hr q).offset_eq
  exact ⟨x, hx, y, hy, by rwa [hxs, hyr]⟩

end Statements

/-! ## Files -/

/-- **Diagnostics point at the statements with a problem.** Each diagnostic of a file has the place
of one of its statements: where it starts, how long it is, and the line and column counted in the
source. Along the list the places move forward, so there is at most one diagnostic for a statement.
And a statement is pointed at exactly if something could not be read in it. -/
theorem analyzeFile?_diagnostics {path : String} {source : Text} {hide : Bool} {a : FileAnalysis}
    {ds : List Diagnostic} (h : analyzeFile? path source hide = some (a, ds)) :
    (∀ d ∈ ds, ∃ s ∈ splitStatements source, d.PointsAt source s) ∧
    (ds.Pairwise fun d e => ∃ x ∈ d.span, ∃ y ∈ e.span, x.offset < y.offset) ∧
    ∃ scan, scanTriggers? source = some scan ∧
      ∀ s ∈ splitStatements source, (∃ d ∈ ds, d.PointsAt source s) ↔
        (statementFindings s.text (detectDialect source)
          (scan.covers s.offset s.stop)).problem.isSome = true := by
  unfold analyzeFile? at h
  obtain ⟨scan, hscan, hresult⟩ := bind_eq_some_iff.mp h
  obtain ⟨-, rfl⟩ := Prod.mk.inj (some.inj hresult)
  refine ⟨fun d hd => ?_, pairwise_scriptDiagnostics _ _ _, scan, hscan, fun s hs => ?_⟩
  · obtain ⟨s, hs, p, -, rfl⟩ := mem_scriptDiagnostics_iff.mp hd
    exact ⟨s, hs, pointsAt_diagnosticAt hs p⟩
  · rw [isSome_iff_exists]
    constructor
    · rintro ⟨d, hd, hpoints⟩
      obtain ⟨r, hr, p, hp, rfl⟩ := mem_scriptDiagnostics_iff.mp hd
      obtain rfl := hpoints.eq hs hr (pointsAt_diagnosticAt hr p)
      exact ⟨p, hp⟩
    · rintro ⟨p, hp⟩
      exact ⟨_, mem_scriptDiagnostics_iff.mpr ⟨s, hs, p, hp, rfl⟩, pointsAt_diagnosticAt hs p⟩

/-- A package specification on the second line of a file, behind a character of two bytes. -/
theorem analyzeFile?_diagnostics_package :
    let source := "SELECT 1;\n/*ä*/CREATE PACKAGE p".toList
    ∃ a ds, analyzeFile? "p.sql" source true = some (a, ds) ∧
      ∃ d ∈ ds, d.span = some ⟨16, 16, 2, 6⟩ ∧
        ∃ s ∈ splitStatements source, d.PointsAt source s := by
  intro source
  have hsome : (analyzeFile? "p.sql" source true).isSome = true := by decide +kernel
  obtain ⟨⟨a, ds⟩, h⟩ := isSome_iff_exists.mp hsome
  have hspans : (analyzeFile? "p.sql" source true).map (fun r => r.2.map (·.span)) =
      some [some ⟨16, 16, 2, 6⟩] := by decide +kernel
  rw [h] at hspans
  have hds : ds.map (·.span) = [some ⟨16, 16, 2, 6⟩] := some.inj hspans
  obtain ⟨d, hd, hspan⟩ : ∃ d ∈ ds, d.span = some ⟨16, 16, 2, 6⟩ :=
    mem_map.mp (hds ▸ mem_singleton_self _)
  exact ⟨a, ds, h, d, hd, hspan, (analyzeFile?_diagnostics h).1 d hd⟩

end SqlOutline
