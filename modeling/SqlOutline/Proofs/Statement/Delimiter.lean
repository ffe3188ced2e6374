import SqlOutline.Proofs.Statement.Batch

/-!
# The delimiter as scanner and splitter know it

The scanner looks for the delimiter in force, and the splitter only reads the texts of directives.

## Main results

* `exists_splitFrom_append` — the splitter behind some lexemes.
* `custom_eq_delimiter` — scanner and splitter hold the same delimiter.
-/

namespace SqlOutline

open List Text

namespace Progress

lemma custom_run {p : Progress} {mark : Option Text} (hp : p.custom = mark.isSome)
    (after : Option Lexeme) (ls : List Lexeme) :
    (p.run after ls).custom = (ls.foldl Scan.delimiterBehind mark).isSome := by
  induction ls generalizing p mark with
  | nil => exact hp
  | cons l ls ih => exact ih (custom_step hp l _)

/-- **The splitter behind some lexemes** has given some statements and goes on with what it knows.
-/
lemma exists_splitFrom_append (source : Text) (p : Progress) (ls ms : List Lexeme) :
    ∃ ss, splitFrom source p.splitter p.custom p.before (ls ++ ms) =
      ss ++ splitFrom source (p.run ms.head? ls).splitter (p.run ms.head? ls).custom
        (p.run ms.head? ls).before ms := by
  induction ls generalizing p with
  | nil => exact ⟨[], rfl⟩
  | cons l ls ih =>
    obtain ⟨ss, hss⟩ := ih (p.step l (ls ++ ms).head?)
    rw [cons_append, splitFrom_cons, hss, head?_append, ← append_assoc]
    exact ⟨_, rfl⟩

end Progress

/-- **Scanner and splitter hold the same delimiter state.** When the splitter comes to a lexeme of a
script, with `p` known, it takes a delimiter other than the semicolon to be in force if and only if
the scanner has set one, in every state in which it may be behind the lexemes before. One of these
is the state in which it finds the lexeme; behind the lexeme they agree as well. So a semicolon
joins the statement being read where the scanner has set a delimiter, and otherwise ends it if and
only if no block and no parenthesis is open and no body is to come.

**Proof sketch.** Both states can be read off the directives among the lexemes before
(`Scan.Run.delimiter_eq_foldl`, `Progress.custom_run`). -/
theorem custom_eq_delimiter (t : Text) (i : Fin (scanScript t).length) :
    let l := (scanScript t).get i
    let ms := (scanScript t).drop (i + 1)
    let p := Progress.run {} (some l) ((scanScript t).take i)
    (∃ ss, splitStatements t = ss ++ splitFrom t p.splitter p.custom p.before (l :: ms)) ∧
    (∀ st j u, Scan.Run true {} 0 t ((scanScript t).take i) st j u →
      p.custom = st.delimiter.isSome) ∧
    ∃ st c u, Scan.Run true {} 0 t ((scanScript t).take i) st l.start (c :: u) ∧
      (Scan.piece true st c u).kind = some l.kind ∧
      l.text = c :: u.take (Scan.piece true st c u).more ∧
      p.customBehind l = (Scan.piece true st c u).state.delimiter.isSome ∧
      (l.isSymbol ';' = true → splitFrom t p.splitter p.custom p.before (l :: ms) =
        if st.delimiter = none ∧ p.splitter.depth = 0 ∧ p.splitter.parens = 0 ∧
            p.splitter.awaitingBody = false then
          p.splitter.flush t ++ splitFrom t {} p.custom (some l) ms
        else splitFrom t (p.splitter.observe p.before l ms.head?) p.custom (some l) ms) := by
  intro l ms p
  have hscan : scanScript t = (scanScript t).take i ++ l :: ms := by
    have hdrop := drop_eq_getElem_cons i.isLt
    exact (hdrop ▸ take_append_drop i (scanScript t)).symm
  have hcustom : ∀ st j u, Scan.Run true {} 0 t ((scanScript t).take i) st j u →
      p.custom = st.delimiter.isSome := by
    intro st j u hrun
    rw [hrun.delimiter_eq_foldl]
    exact Progress.custom_run rfl _ _
  refine ⟨?_, hcustom, ?_⟩
  · obtain ⟨ss, hss⟩ := Progress.exists_splitFrom_append t {} ((scanScript t).take i) (l :: ms)
    rw [← hscan] at hss
    exact ⟨ss, hss⟩
  obtain ⟨st, c, u, hrun, hk, htext⟩ := Scan.exists_run_to hscan
  have hforce : p.custom = st.delimiter.isSome := hcustom st _ _ hrun
  refine ⟨st, c, u, hrun, hk, htext, ?_, fun hsemi => ?_⟩
  · have hpiece := (Scan.Run.lexeme (i := l.start) hk (.refl _ _ _)).delimiter_eq_foldl
    rw [Progress.customBehind_eq hforce, hpiece, ← htext]
    rfl
  · have hkind : l.kind = .symbol := (by simpa [Lexeme.isSymbol] using hsemi : _ ∧ _).1
    rw [splitFrom, hkind]
    refine if_congr ?_ rfl rfl
    simp [hsemi, hforce, Splitter.canSplit, and_assoc]

end SqlOutline
