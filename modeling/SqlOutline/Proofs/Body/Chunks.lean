import SqlOutline.Proofs.Body.Union
import SqlOutline.Proofs.Lexeme.TopLevel

/-!
# No token of a body is lost

The chunks of a body hold all of its tokens but the semicolons between them and the runs of blanks
that make no chunk.

## Main results

* `chunks_partition` — chunks are the stretches between the semicolons outside parentheses.
-/

namespace SqlOutline.Body

open List Sql

lemma cuts_piecesFrom : Cuts depthAfter (·.isSymbol ";") piecesFrom where
  nil _ := rfl
  cut _ h := by simp [piecesFrom, h, depthAfter_semicolon h]
  keep h hp := by
    rw [piecesFrom, if_neg (by simpa using h), hp]
    rfl

lemma statement_ne_nil {chunk : List Token} (h : chunk ≠ []) : (parts chunk).2 ≠ [] := by
  rw [parts, statementStart?]
  cases hstart : startFrom? 0 chunk with
  | none => exact h
  | some n =>
    obtain ⟨t, rest, hdrop, -⟩ := exists_drop_of_startFrom? hstart
    simp [hdrop]

/-- **Chunks** are the stretches between the semicolons outside parentheses that hold more than
blanks. Each has a statement, and what stands before it is kept. -/
theorem chunks_partition (ts : List Token) : ∃ rs,
    Stretches (CutAt depthAfter (·.isSymbol ";") 0 ts) ts.length rs ∧
    chunks ts = (rs.map (stretch ts)).filter (·.any (!·.isBlank)) ∧
    (chunks ts).flatMap (fun chunk => (parts chunk).1 ++ (parts chunk).2) =
      ((rs.map (stretch ts)).filter (·.any (!·.isBlank))).flatten ∧
    (∀ chunk ∈ chunks ts, chunk.any (!·.isBlank) = true ∧ (parts chunk).2 ≠ []) ∧
    ∀ r ∈ rs, ClosesParens (ts.take r.1) →
      ∀ i, ¬ CutAt depthAfter (·.isSymbol ";") 0 (stretch ts r) i := by
  obtain ⟨m, rs, h, hpieces⟩ := cuts_piecesFrom.exists_stretches 0 ts
  have hchunks : chunks ts = (((0, m) :: rs).map (stretch ts)).filter (·.any (!·.isBlank)) :=
    congrArg (filter _) hpieces
  have hparts (chunk : List Token) : (parts chunk).1 ++ (parts chunk).2 = chunk :=
    take_append_drop _ chunk
  refine ⟨_, h, hchunks, ?_, fun chunk hchunk => ?_, fun r hr hd i => h.not_cutAt hr hd⟩
  · simp only [hparts, flatMap_id', hchunks]
  · have hany := (mem_filter.mp hchunk).2
    refine ⟨hany, statement_ne_nil ?_⟩
    rintro rfl
    cases hany

/-- A semicolon in parentheses does not cut, and a run of blanks makes no chunk. -/
theorem chunks_partition_blank :
    let ts : List Token := [.word ⟨"IF", none⟩, .symbol "(", .symbol ";", .symbol ")",
      .word ⟨"DELETE", none⟩, .symbol ";", .gap, .eof, .symbol ";", .word ⟨"CALL", none⟩]
    (chunks ts).map parts =
      [(ts.take 4, [.word ⟨"DELETE", none⟩]), ([], [.word ⟨"CALL", none⟩])] ∧
    ClosesParens (ts.take 6) ∧ ∃ rs, Stretches (CutAt depthAfter (·.isSymbol ";") 0 ts) 10 rs ∧
      ∀ r ∈ rs, ClosesParens (ts.take r.1) →
        ∀ i, ¬ CutAt depthAfter (·.isSymbol ";") 0 (stretch ts r) i :=
  have ⟨rs, hrs, _, _, _, hcut⟩ := chunks_partition _
  ⟨by decide, by decide, rs, hrs, hcut⟩

end SqlOutline.Body
