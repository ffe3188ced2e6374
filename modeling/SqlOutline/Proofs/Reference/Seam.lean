import SqlOutline.Proofs.Reference.Sealed

/-!
# Harvesting a chunk in two parts

To harvest what stands before the statement of a chunk, and then the statement, is to harvest the
chunk with two semicolons between them: `TOP` at the end of the first part reads over one. The chunk
itself gives the same if nothing is read over the seam. From the left, names and lists of tables may
go on behind it; from the right, `ON DELETE` or `FOR UPDATE` are no statements.

## Main definitions

* `Harvest.CleanSeam` — nothing is read over the seam between two parts.

## Main results

* `Harvest.CleanSeam.harvest_append` — two parts with a clean seam give what the whole gives.
* `harvest_parts` — what a chunk gives that is harvested in two parts.
-/

namespace SqlOutline

open List Sql Body Token

namespace Harvest

variable {flags : List Bool} {before : Option Token} {x p q ts y : List Token} {t : Token}
  {w : Word} {rules : Rules} {st : State}

/-! ## The seam -/

lemma inMerge_step {plain : Bool} (hst : st.inMerge = false) (ht : isAny ["MERGE"] t = false) :
    (step rules st before plain t ts).1.inMerge = false := by
  unfold step
  dsimp only
  by_cases hsemicolon : t.isSymbol ";"
  · rw [if_pos hsemicolon]
  rw [if_neg hsemicolon]
  by_cases hcomma : t.isSymbol ","
  · rw [if_pos hcomma]
    exact hst
  rw [if_neg hcomma]
  cases hplain : t.plainWord? with
  | none => exact hst
  | some w =>
    have hmerge : (w.upper == "MERGE") = false := by
      simpa [isAny, hplain, Word.isAny] using ht
    dsimp only
    split
    -- `FROM` and `JOIN`
    case h_1 =>
      split_ifs
      · exact hst
      · exact hst
    case h_2 => exact hst
    -- `CALL`
    case h_8 =>
      split
      · exact hst
      · exact hst
    -- `EXEC`, `EXECUTE` and `WITH`
    case h_9 | h_10 | h_11 => exact hst
    -- words that are no verbs
    case h_12 =>
      split_ifs
      · exact hst
      · exact hst
      · exact hst
    -- verbs that change data, of which only `MERGE` would be noted
    all_goals
      split_ifs
      · exact hst
      · simp [hst, hmerge]

lemma inMerge_run (hst : st.inMerge = false) (hts : ∀ t ∈ ts, isAny ["MERGE"] t = false) :
    (run rules st before flags ts).inMerge = false := by
  induction hn : ts.length using Nat.strongRecOn generalizing st before flags ts with
  | ind n ih =>
    cases ts with
    | nil => rwa [run_nil]
    | cons t ts =>
      rw [run]
      refine ih _ ?_ (inMerge_step hst (hts t mem_cons_self)) ?_ rfl
      · rw [← hn, length_drop, length_cons]
        omega
      · exact fun u hu => hts u (mem_cons_of_mem _ (mem_of_mem_drop hu))

/-- Nothing is read over the seam between the tokens `p` and the statement `q`. -/
structure CleanSeam (rules : Rules) (p q : List Token) : Prop where
  isSealed : Sealed rules p
  /-- A `MERGE` in parentheses would go on behind the seam. -/
  merge : ∀ t ∈ p, isAny ["MERGE"] t = false
  /-- As in `ON DELETE` and `FOR UPDATE`, the verb may belong to what stands before it. -/
  verb : startsWith changeVerbs q → ∀ t ∈ p.getLast?, isAny verbBlockers t = false
  /-- Where no statement may start, the keyword is not taken for the name of a routine. -/
  query : startsWith ["SELECT", "PERFORM"] q → startsBehind p.getLast? ∨
    startsWithMark "." (q.drop 1) = false ∧ startsWithMark "@" (q.drop 1) = false ∧
      endsStatement (q.drop 1) = false

lemma callsProcedure_of_query
    (hw : isAny ["SELECT", "PERFORM"] (.word w)) (hy : endsStatement y = false) :
    callsProcedure rules w y = false := by
  have hconstruct : isAny constructs (.word w) := isAny_of_subset hw (by decide)
  obtain ⟨w', hw', -, hupper⟩ := isAny_eq_true_iff.mp hw
  cases hw'
  have hdot := contains_dot_eq_false hupper (by decide)
  unfold callsProcedure
  rw [hconstruct, hdot, hy]
  simp

lemma CleanSeam.step_eq {k : Token} {r : List Token}
    (h : CleanSeam rules p (k :: r)) (hk : isAny statementWords k) (st : State)
    (plain : Bool) : step rules st p.getLast? plain k r = step rules st none plain k r := by
  refine step_congr_before (fun hfrom => ?_) (fun hverb => ?_) (fun hcall c => ?_) st plain
  · rw [isAny_eq_false_of_disjoint hk (by decide)] at hfrom
    cases hfrom
  · cases hlast : p.getLast? with
    | none => rfl
    | some u =>
      rw [Option.any_some, h.verb hverb u hlast, (h.isSealed.not_open u hlast).2]
      rfl
  · obtain ⟨w, rfl, hquote, hupper⟩ := isAny_eq_true_iff.mp hk
    have hquery : isAny ["SELECT", "PERFORM"] (.word w) := by
      refine isAny_eq_true_iff.mpr ⟨w, rfl, hquote, ?_⟩
      have hwords : ∀ v ∈ statementWords, v ∈ changeVerbs ++ ["CALL", "WITH"] ∨
          v ∈ ["SELECT", "PERFORM"] := by decide
      refine (hwords _ hupper).resolve_left fun hother => ?_
      rw [isAny_eq_true_iff.mpr ⟨w, rfl, hquote, hother⟩] at hcall
      cases hcall
    rcases h.query hquery with hbehind | ⟨hdot, hat, hends⟩
    · exact call_congr_before hbehind c _ r
    · rw [drop_one, tail_cons] at hdot hat hends
      rw [call_word hdot hat, call_word hdot hat, callsProcedure_of_query hquery hends,
        Bool.and_false, Bool.and_false]

/-- **Two parts with a clean seam** give what the whole gives. -/
lemma CleanSeam.harvest_append (h : CleanSeam rules (bare p) (bare q)) (hp : ClosesParens p)
    (hq : startsWith statementWords (bare q)) (c : Collector) :
    harvest rules (harvest rules c p) q = harvest rules c (p ++ q) := by
  have hdepth : ClosesParens (bare p) := (foldl_depthAfter_bare 0 p).trans hp
  have hmerge : (run rules ⟨c, false⟩ none (plainFlags (bare p)) (bare p)).inMerge = false :=
    inMerge_run rfl h.merge
  rw [harvest_eq, harvest_eq, harvest_eq, bare_append,
    run_plainFlags_append hdepth (h.isSealed.blind hdepth hq)
      (fun t ht => (h.isSealed.not_open t ht).1)]
  generalize run rules ⟨c, false⟩ none (plainFlags (bare p)) (bare p) = st at hmerge ⊢
  obtain ⟨collector, inMerge⟩ := st
  obtain rfl : inMerge = false := hmerge
  refine congrArg State.collector (run_congr_before fun k r plain hkr => ?_)
  rw [hkr] at h hq
  exact (h.step_eq hq _ plain).symm

end Harvest

namespace Body

lemma of_startFrom?_eq_some {depth n : Nat} {ts : List Token} (h : startFrom? depth ts = some n) :
    (ts.take n).foldl depthAfter depth = 0 ∧
      Harvest.startsWith statementWords (bare (ts.drop n)) := by
  induction ts generalizing depth n with
  | nil => cases h
  | cons t ts ih =>
    rw [startFrom?] at h
    split_ifs at h with hstart
    · obtain rfl : 0 = n := by simpa using h
      obtain ⟨rfl, hword⟩ : depth = 0 ∧ t.plainWord?.any (·.isAny statementWords) := by
        simpa using hstart
      obtain ⟨w, rfl, -, -⟩ := Harvest.isAny_eq_true_iff.mp hword
      exact ⟨rfl, hword⟩
    · obtain ⟨m, hm, rfl⟩ := Option.map_eq_some_iff.mp h
      rw [take_succ_cons, foldl_cons, drop_succ_cons]
      exact ih hm

lemma closesParens_parts (chunk : List Token) : ClosesParens (parts chunk).1 := by
  unfold parts statementStart?
  cases hstart : startFrom? 0 chunk with
  | none => rfl
  | some n => exact (of_startFrom?_eq_some hstart).1

lemma parts_eq (chunk : List Token) : (parts chunk).1 = [] ∧ (parts chunk).2 = chunk ∨
    Harvest.startsWith statementWords (bare (parts chunk).2) := by
  unfold parts statementStart?
  cases hstart : startFrom? 0 chunk with
  | none => exact .inl ⟨rfl, rfl⟩
  | some n => exact .inr (of_startFrom?_eq_some hstart).2

lemma parts_append (chunk : List Token) : (parts chunk).1 ++ (parts chunk).2 = chunk :=
  take_append_drop ..

end Body

/-- **The two parts of a chunk.** To harvest what stands before the statement of a chunk and then
the statement is to harvest the chunk with semicolons between them. If nothing is read over the
seam, it is to harvest the chunk itself. -/
theorem harvest_parts (rules : Harvest.Rules) (c : Collector) (chunk : List Token) :
    harvest rules (harvest rules c (parts chunk).1) (parts chunk).2 =
        harvest rules c ((parts chunk).1 ++ .symbol ";" :: .symbol ";" :: (parts chunk).2) ∧
      (Harvest.CleanSeam rules (bare (parts chunk).1) (bare (parts chunk).2) →
        harvest rules (harvest rules c (parts chunk).1) (parts chunk).2 =
          harvest rules c chunk) := by
  refine ⟨Harvest.harvest_semicolons (closesParens_parts chunk) rules c _, fun hseam => ?_⟩
  rcases parts_eq chunk with ⟨hfirst, hsecond⟩ | hstatement
  · rw [hfirst, hsecond]
    simp [harvest]
  · rw [hseam.harvest_append (closesParens_parts chunk) hstatement, parts_append]

/-- A word without quotes. -/
private def plainToken (s : String) : Token := .word ⟨s, none⟩

namespace GuardedInsert

def chunk : List Token :=
  [plainToken "IF", .gap, plainToken "NOT", .gap, plainToken "EXISTS", .gap, .symbol "(",
    plainToken "SELECT", .gap, plainToken "f", .symbol "(", plainToken "x", .symbol ")", .gap,
    plainToken "FROM", .gap, plainToken "a", .symbol ")", .gap, plainToken "INSERT", .gap,
    plainToken "INTO", .gap, plainToken "b", .gap, plainToken "SELECT", .gap, plainToken "g",
    .symbol "(", plainToken "y", .symbol ")", .gap, plainToken "FROM", .gap, plainToken "c"]

lemma cleanSeam : Harvest.CleanSeam ⟨true⟩ (bare (parts chunk).1) (bare (parts chunk).2) := by
  have hparts : bare (parts chunk).1 = [plainToken "IF", plainToken "NOT"] ++
      plainToken "EXISTS" :: .symbol "(" :: ([plainToken "SELECT", plainToken "f", .symbol "(",
        plainToken "x", .symbol ")", plainToken "FROM", plainToken "a"] ++ [.symbol ")"]) := by
    decide
  refine ⟨?_, by decide, by decide, fun hquery => ?_⟩
  · rw [hparts]
    refine .group (.stop (.control (by decide) ?_ ?_)) ⟨?_, ?_⟩ ?_ ?_ ?_ <;> decide
  · revert hquery
    decide

end GuardedInsert

/-- An insertion under a condition with a query in it. -/
theorem harvest_parts_guarded_insert :
    Harvest.CleanSeam ⟨true⟩ (bare (parts GuardedInsert.chunk).1)
      (bare (parts GuardedInsert.chunk).2) ∧
      harvest ⟨true⟩ (harvest ⟨true⟩ {} (parts GuardedInsert.chunk).1)
          (parts GuardedInsert.chunk).2 =
        harvest ⟨true⟩ {} GuardedInsert.chunk ∧
      (harvest ⟨true⟩ {} GuardedInsert.chunk).finish =
        ⟨⟨["a", "b", "c"]⟩, ⟨["f", "g"]⟩, ⟨[]⟩⟩ :=
  ⟨GuardedInsert.cleanSeam, (harvest_parts ⟨true⟩ {} GuardedInsert.chunk).2 GuardedInsert.cleanSeam,
    by decide +kernel⟩

namespace ForeignKey

def text : Text := "ALTER TABLE t ADD FOREIGN KEY (a) REFERENCES b ON DELETE CASCADE".toList

def chunk : List Token :=
  [plainToken "ALTER", .gap, plainToken "TABLE", .gap, plainToken "t", .gap, plainToken "ADD", .gap,
    plainToken "FOREIGN", .gap, plainToken "KEY", .gap, .symbol "(", plainToken "a", .symbol ")",
    .gap, plainToken "REFERENCES", .gap, plainToken "b", .gap, plainToken "ON", .gap,
    plainToken "DELETE", .gap, plainToken "CASCADE"]

lemma tokens?_text : tokens? .postgresql text = some chunk := by decide +kernel

end ForeignKey

/-- `ON DELETE` is no statement in the chunk, but it is one when the chunk is cut between the two
words. -/
theorem harvest_parts_on_delete :
    (harvest ⟨false⟩ {} ForeignKey.chunk).finish.relations = {} ∧
      (harvest ⟨false⟩ (harvest ⟨false⟩ {} (parts ForeignKey.chunk).1)
        (parts ForeignKey.chunk).2).finish.relations = ⟨["CASCADE"]⟩ ∧
      (bodyUsage .postgresql ForeignKey.text).relations = ⟨["CASCADE"]⟩ := by
  refine ⟨by decide +kernel, by decide +kernel, ?_⟩
  have htokens : tokens? (BodyReader.ofDialect .postgresql).grammar ForeignKey.text =
      some ForeignKey.chunk := ForeignKey.tokens?_text
  rw [bodyUsage, BodyReader.read?, htokens]
  decide +kernel

end SqlOutline
