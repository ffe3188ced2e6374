import SqlOutline.Body.Analyze
import SqlOutline.Proofs.Reference.Merge

/-!
# Bodies joined by a semicolon

Each chunk of a body adds to the collector what it adds alone. But all chunks share one list of the
names that are left out in the end: a common table expression of one body hides a table of another.

## Main definitions

* `BodyReader.defines` — whether a body has a common table expression of a given name.

## Main results

* `piecesFrom_append`, `chunks_append` — pieces and chunks of joined lists.
* `read?_append` — the usage of joined bodies.
-/

namespace SqlOutline

open Option List Sql

namespace Body

variable {depth : Nat} {xs ts : List Token} (chunk : List Token)

/-- The tokens of a list that are no gaps. -/
def bare (ts : List Token) : List Token := ts.filter (!·.isGap)

/-- Every parenthesis that is opened is closed. -/
def ClosesParens (ts : List Token) : Prop := ts.foldl depthAfter 0 = 0

instance (ts : List Token) : Decidable (ClosesParens ts) := inferInstanceAs (Decidable (_ = _))

/-! ## Gaps -/

@[simp]
lemma bare_nil : bare [] = [] := rfl

@[simp]
lemma bare_gap (ts : List Token) : bare (.gap :: ts) = bare ts := rfl

lemma bare_cons_of_not_isGap {t : Token} (h : t.isGap = false) (ts : List Token) :
    bare (t :: ts) = t :: bare ts :=
  filter_cons_of_pos (by rw [h]; rfl)

lemma bare_append (ts us : List Token) : bare (ts ++ us) = bare ts ++ bare us :=
  filter_append ..

lemma filter_bare (ts : List Token) : (bare ts).filter (!·.isGap) = ts.filter (!·.isGap) := by
  simp only [bare, List.filter_filter, Bool.and_self]

lemma eq_gap_of_isGap {t : Token} (h : t.isGap) : t = .gap := by
  cases t <;> first | rfl | exact absurd h Bool.false_ne_true

@[simp]
lemma depthAfter_gap (depth : Nat) : depthAfter depth .gap = depth := rfl

lemma foldl_depthAfter_bare (depth : Nat) (ts : List Token) :
    (bare ts).foldl depthAfter depth = ts.foldl depthAfter depth := by
  induction ts generalizing depth with
  | nil => rfl
  | cons t ts ih =>
    by_cases ht : t.isGap
    · rw [eq_gap_of_isGap ht, bare_gap, foldl_cons, depthAfter_gap, ih]
    · rw [bare_cons_of_not_isGap (by simpa using ht), foldl_cons, foldl_cons, ih]

/-! ## Pieces and chunks -/

lemma piecesFrom_ne_nil (depth : Nat) (ts : List Token) : piecesFrom depth ts ≠ [] := by
  cases ts with
  | nil => exact cons_ne_nil _ _
  | cons t ts =>
    unfold piecesFrom
    split_ifs
    · exact cons_ne_nil _ _
    · cases piecesFrom (depthAfter depth t) ts <;> exact cons_ne_nil _ _

lemma consPiece_append (t : Token) {ps : List (List Token)} (h : ps ≠ []) (qs : List (List Token)) :
    consPiece t (ps ++ qs) = consPiece t ps ++ qs := by
  cases ps with
  | nil => exact absurd rfl h
  | cons p ps => rfl

lemma depthAfter_semicolon {t : Token} (h : t.isSymbol ";") (depth : Nat) :
    depthAfter depth t = depth := by
  cases t with
  | symbol s =>
    obtain rfl : s = ";" := by simpa [Token.isSymbol] using h
    rfl
  | _ => cases h

/-- **Pieces of joined lists.** A semicolon behind balanced parentheses ends a piece. -/
lemma piecesFrom_append (h : xs.foldl depthAfter depth = 0) (ys : List Token) :
    piecesFrom depth (xs ++ .symbol ";" :: ys) = piecesFrom depth xs ++ piecesFrom 0 ys := by
  induction xs generalizing depth with
  | nil =>
    have hdepth : depth = 0 := h
    subst hdepth
    rfl
  | cons t xs ih =>
    rw [foldl_cons] at h
    rw [cons_append, piecesFrom, piecesFrom]
    split_ifs with hend
    · obtain ⟨rfl, hsymbol⟩ : depth = 0 ∧ t.isSymbol ";" := by simpa using hend
      rw [depthAfter_semicolon hsymbol] at h
      rw [ih h, cons_append]
    · rw [ih h, consPiece_append t (piecesFrom_ne_nil _ xs)]

lemma map_bare_piecesFrom (depth : Nat) (ts : List Token) :
    (piecesFrom depth ts).map bare = piecesFrom depth (bare ts) := by
  induction ts generalizing depth with
  | nil => rfl
  | cons t ts ih =>
    by_cases ht : t.isGap
    · obtain rfl := eq_gap_of_isGap ht
      have hgap : piecesFrom depth (.gap :: ts) = consPiece .gap (piecesFrom depth ts) := by
        rw [piecesFrom, if_neg (by simp [Token.isSymbol]), depthAfter_gap]
      rw [hgap, bare_gap, ← ih]
      cases hp : piecesFrom depth ts with
      | nil => exact absurd hp (piecesFrom_ne_nil depth ts)
      | cons p ps => rfl
    · have ht : t.isGap = false := by simpa using ht
      rw [bare_cons_of_not_isGap ht, piecesFrom, piecesFrom]
      split_ifs
      · rw [map_cons, ih, bare_nil]
      · rw [← ih]
        cases piecesFrom (depthAfter depth t) ts with
        | nil => exact congrArg (· :: []) (bare_cons_of_not_isGap ht [])
        | cons p ps => exact congrArg (· :: _) (bare_cons_of_not_isGap ht p)

lemma chunks_bare (ts : List Token) : chunks (bare ts) = (chunks ts).map bare := by
  have hany : ∀ piece : List Token, (bare piece).any (!·.isBlank) = piece.any (!·.isBlank) := by
    intro piece
    simp [bare, List.any_filter, Token.isBlank]
  simp only [chunks, pieces, ← map_bare_piecesFrom, List.filter_map, Function.comp_def, hany]

/-- **Chunks of joined lists.** -/
lemma chunks_append (h : ClosesParens xs) (ys : List Token) :
    chunks (xs ++ .symbol ";" :: ys) = chunks xs ++ chunks ys := by
  simp only [chunks, pieces, piecesFrom_append h, filter_append]

/-! ## The statement of a chunk -/

lemma startFrom?_bare (depth : Nat) (ts : List Token) : startFrom? depth (bare ts) =
      (startFrom? depth ts).map fun n => (bare (ts.take n)).length := by
  induction ts generalizing depth with
  | nil => rfl
  | cons t ts ih =>
    by_cases ht : t.isGap
    · obtain rfl := eq_gap_of_isGap ht
      have hgap : startFrom? depth (.gap :: ts) = (startFrom? depth ts).map (· + 1) := by
        rw [startFrom?, if_neg (by simp [Token.plainWord?]), depthAfter_gap]
      rw [hgap, bare_gap, ih, Option.map_map]
      rfl
    · have ht : t.isGap = false := by simpa using ht
      rw [bare_cons_of_not_isGap ht, startFrom?, startFrom?]
      split_ifs
      · rfl
      · rw [ih, Option.map_map, Option.map_map]
        congr 1
        funext n
        simp only [Function.comp_apply, take_succ_cons, bare_cons_of_not_isGap ht, length_cons]

lemma exists_drop_of_startFrom? {n : Nat}
    (h : startFrom? depth ts = some n) : ∃ t rest, ts.drop n = t :: rest ∧ t.isGap = false := by
  induction ts generalizing depth n with
  | nil => cases h
  | cons t ts ih =>
    unfold startFrom? at h
    split_ifs at h with hword
    · obtain rfl : 0 = n := by simpa using h
      refine ⟨t, ts, rfl, ?_⟩
      cases t with
      | gap => simp [Token.plainWord?] at hword
      | _ => rfl
    · obtain ⟨m, hm, rfl⟩ := map_eq_some_iff.mp h
      exact ih hm

lemma parts_bare : parts (bare chunk) = (bare (parts chunk).1, bare (parts chunk).2) := by
  simp only [parts, statementStart?, startFrom?_bare]
  cases startFrom? 0 chunk with
  | none => rfl
  | some n =>
    have hsplit : bare chunk = bare (chunk.take n) ++ bare (chunk.drop n) := by
      rw [← bare_append, take_append_drop]
    simp only [map_some, getD_some, hsplit, take_left, drop_left]

lemma asQuery_of_startFrom?_eq_none (h : startFrom? 0 ts = none) : asQuery ts = ts := by
  cases ts with
  | nil => rfl
  | cons t ts =>
    refine if_neg fun hperform => ?_
    have hword : t.plainWord?.any (·.isAny statementWords) := by
      cases hw : t.plainWord? with
      | none => simp [hw] at hperform
      | some w =>
        have hupper : w.upper = "PERFORM" := by simpa [hw, Word.isAny] using hperform
        simp [Word.isAny, hupper, statementWords]
    simp [startFrom?, hword] at h

lemma asQuery_parts_bare : asQuery (parts (bare chunk)).2 = bare (asQuery (parts chunk).2) := by
  cases hstart : startFrom? 0 chunk with
  | none =>
    have hbare : startFrom? 0 (bare chunk) = none := by rw [startFrom?_bare, hstart]; rfl
    simp only [parts, statementStart?, hstart, hbare, getD_none, drop_zero,
      asQuery_of_startFrom?_eq_none hstart, asQuery_of_startFrom?_eq_none hbare]
  | some n =>
    obtain ⟨t, rest, hdrop, ht⟩ := exists_drop_of_startFrom? hstart
    have hparts : (parts chunk).2 = t :: rest := by
      simp only [parts, statementStart?, hstart, getD_some, hdrop]
    rw [parts_bare, hparts, bare_cons_of_not_isGap ht]
    simp only [asQuery]
    split_ifs
    · rfl
    · exact (bare_cons_of_not_isGap ht rest).symm

end Body

open Body

namespace BodyReader

variable {r : BodyReader} {xs ts : List Token} (chunk : List Token)

/-! ## What is met in a body -/

/-- What is met in the tokens of a body. -/
def collect (r : BodyReader) (ts : List Token) : Collector := (chunks ts).foldl r.addChunk r.start

/-- Whether a body has a common table expression, or a function in place of a table, of a given
name. In this body the name is no relation. -/
def defines (r : BodyReader) (ts : List Token) (name : String) : Bool := (r.collect ts).hides name

lemma blank_start (r : BodyReader) : r.start.blank = r.start := by
  unfold start
  split_ifs <;> rfl

/-- **A chunk** makes the same entries in every collector. -/
lemma enters_addChunk (r : BodyReader) (chunk : List Token) :
    Collector.Enters (r.addChunk · chunk) := by
  unfold addChunk
  dsimp only
  cases parse r.grammar (asQuery (parts chunk).2) with
  | none => exact (enters_harvest r.rules _).comp (enters_harvest r.rules _)
  | some statements =>
    exact (Collector.enters_addStatements statements).comp (enters_harvest r.rules _)

lemma addChunk_bare (r : BodyReader) (c : Collector) (chunk : List Token) :
    r.addChunk c (bare chunk) = r.addChunk c chunk := by
  have hharvest : ∀ (c : Collector) (ts : List Token),
      harvest r.rules c (bare ts) = harvest r.rules c ts := by
    intro c ts
    simp only [harvest, filter_bare]
  have hparse : ∀ ts : List Token, parse r.grammar (bare ts) = parse r.grammar ts := by
    intro ts
    simp only [parse, filter_bare]
  unfold addChunk
  dsimp only
  rw [asQuery_parts_bare, hparse, parts_bare]
  simp only [hharvest]

/-- **Gaps in a body do not matter.** -/
lemma collect_bare (r : BodyReader) (ts : List Token) : r.collect (bare ts) = r.collect ts := by
  simp only [collect, chunks_bare, foldl_map, addChunk_bare]

/-- **What is met in two bodies** is what is met in one and the other. -/
lemma collect_append (h : ClosesParens xs) (ys : List Token) :
    r.collect (xs ++ .symbol ";" :: ys) = (r.collect xs).merge (r.collect ys) := by
  have hadds : ∀ cs : List (List Token), Collector.Adds fun c => cs.foldl r.addChunk c :=
    fun cs => (Collector.Enters.foldl r.enters_addChunk cs).adds
  have happly := (hadds (chunks xs)).apply_eq (hadds (chunks ys)) r.start
  rw [blank_start] at happly
  rw [collect, chunks_append h, foldl_append]
  exact happly

lemma collect_append_gaps {ys : List Token} (h : ClosesParens xs) :
    r.collect (xs ++ [.gap, .symbol ";", .gap] ++ ys) = (r.collect xs).merge (r.collect ys) := by
  have hbalanced : ClosesParens (bare xs) := by rwa [ClosesParens, foldl_depthAfter_bare]
  have hbare : bare (xs ++ [.gap, .symbol ";", .gap] ++ ys) =
      bare xs ++ .symbol ";" :: bare ys := by
    rw [bare_append, bare_append, append_assoc]
    rfl
  rw [← collect_bare, hbare, collect_append hbalanced, collect_bare, collect_bare]

lemma nodup_collect (r : BodyReader) (ts : List Token) : (r.collect ts).Nodup := by
  have hnodup := (Collector.Enters.foldl r.enters_addChunk (chunks ts)).adds.nodup r.start
  rwa [blank_start] at hnodup

/-! ## The usage of two bodies -/

/-- **The usage of joined bodies.** Let two bodies be joined by a semicolon between line breaks, so
that the tokens of the joined body are those of the two with the semicolon between them. All three
can be read. The functions and the procedures of the joined body are the union of those of the two.
Its relations are the union of those of either that the other does not define for its own queries;
so they are the union of the relations of the two if and only if neither body defines a name that is
a relation of the other.

**Proof sketch.** Gaps do not matter, so the chunks of the joined body are those of the two. Each
adds the same to every collector, and the collectors of the two are put together. -/
theorem read?_append {a b : Text} {ta tb : List Token} (ha : tokens? r.grammar a = some ta)
    (hb : tokens? r.grammar b = some tb)
    (hab : tokens? r.grammar (a ++ "\n;\n".toList ++ b) =
      some (ta ++ [.gap, .symbol ";", .gap] ++ tb))
    (hbalanced : ClosesParens ta) :
    ∃ u v w, r.read? a = some u ∧ r.read? b = some v ∧
      r.read? (a ++ "\n;\n".toList ++ b) = some w ∧
      w.functions.IsUnion u.functions v.functions ∧
      w.procedures.IsUnion u.procedures v.procedures ∧
      w.relations.IsUnion (u.relations.filter (!r.defines tb ·))
        (v.relations.filter (!r.defines ta ·)) ∧
      (w.relations.IsUnion u.relations v.relations ↔
        (∀ n ∈ u.relations.names, r.defines tb n = false) ∧
          ∀ n ∈ v.relations.names, r.defines ta n = false) := by
  have hread : ∀ {t : Text} {ts : List Token}, tokens? r.grammar t = some ts →
      r.read? t = some (r.collect ts).finish := by
    intro t ts h
    rw [read?, h]
    rfl
  have hna := r.nodup_collect ta
  have hnb := r.nodup_collect tb
  refine ⟨_, _, _, hread ha, hread hb, hread hab, ?_⟩
  rw [collect_append_gaps hbalanced]
  exact ⟨NameSet.isUnion_insertAll hna.functions hnb.functions,
    NameSet.isUnion_insertAll hna.procedures hnb.procedures,
    Collector.relations_finish_merge hna hnb, Collector.relations_finish_merge_iff hna hnb⟩

/-- A query and a call behind it: the function that both use is met once. -/
theorem read?_append_query_call :
    let r := ofDialect .mysql
    let ta : List Token := [.word ⟨"SELECT", none⟩, .gap, .word ⟨"f", none⟩, .symbol "(",
      .word ⟨"n", none⟩, .symbol ")", .gap, .word ⟨"FROM", none⟩, .gap, .word ⟨"t", none⟩]
    let tb : List Token := [.word ⟨"CALL", none⟩, .gap, .word ⟨"p", none⟩, .symbol "(",
      .word ⟨"f", none⟩, .symbol "(", .number "1" false, .symbol ")", .symbol ")"]
    tokens? r.grammar "SELECT f(n) FROM t".toList = some ta ∧
      tokens? r.grammar "CALL p(f(1))".toList = some tb ∧ ClosesParens ta ∧
      ∃ u v w, r.read? "SELECT f(n) FROM t".toList = some u ∧
        r.read? "CALL p(f(1))".toList = some v ∧
        r.read? ("SELECT f(n) FROM t".toList ++ "\n;\n".toList ++ "CALL p(f(1))".toList) = some w ∧
        w.functions.IsUnion u.functions v.functions ∧
        w.procedures.IsUnion u.procedures v.procedures ∧
        w.relations.IsUnion (u.relations.filter (!r.defines tb ·))
          (v.relations.filter (!r.defines ta ·)) ∧
        (w.relations.IsUnion u.relations v.relations ↔
          (∀ n ∈ u.relations.names, r.defines tb n = false) ∧
            ∀ n ∈ v.relations.names, r.defines ta n = false) := by
  intro r ta tb
  have ha : tokens? r.grammar "SELECT f(n) FROM t".toList = some ta := by decide +kernel
  have hb : tokens? r.grammar "CALL p(f(1))".toList = some tb := by decide +kernel
  have hbalanced : ClosesParens ta := by decide
  exact ⟨ha, hb, hbalanced, read?_append ha hb (by decide +kernel) hbalanced⟩

/-- **A table that a neighbour hides.** The first statement is broken and harvested token by token;
it has a common table expression of the name `x`. The table `x` of the second statement is found
when the statement is read alone and left out behind the first. -/
theorem read?_append_common_table :
    let r := ofDialect .postgresql
    let a := "WITH x AS (SELECT 1) SELECT FROM FROM y".toList
    let b := "SELECT * FROM x".toList
    (∃ ta tb, tokens? r.grammar a = some ta ∧ tokens? r.grammar b = some tb ∧
        ClosesParens ta ∧ ClosesParens tb ∧
        tokens? r.grammar (a ++ "\n;\n".toList ++ b) =
          some (ta ++ [.gap, .symbol ";", .gap] ++ tb)) ∧
      r.read? a = some { relations := ⟨["y"]⟩ } ∧ r.read? b = some { relations := ⟨["x"]⟩ } ∧
      r.read? (a ++ "\n;\n".toList ++ b) = some { relations := ⟨["y"]⟩ } := by
  intro r a b
  refine ⟨⟨(tokens? r.grammar a).getD [], (tokens? r.grammar b).getD [], ?_⟩, ?_⟩
  · decide +kernel
  · decide +kernel

end BodyReader

end SqlOutline
