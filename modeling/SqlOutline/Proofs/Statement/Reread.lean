import SqlOutline.Proofs.Lexeme.Cut
import SqlOutline.Proofs.Statement.Coverage

/-!
# Statements that are read by themselves

The text of a statement is scanned once more. What is in force in the script does not matter for a
statement that a semicolon ends. But a number sign at its end is a word in the script and a comment
at the end of a text.

## Main results

* `exists_run_group` — the lexemes of a group are read by one run.
* `tokenize_text_of_mem_splitStatements` — both scans agree.
-/

namespace SqlOutline

open List Text Scan Statement

instance (l : Lexeme) (s : Statement) : Decidable (l.Inside s) :=
  inferInstanceAs (Decidable (_ ∧ _))

/-! ## The lexemes of a group -/

lemma Grouping.exists_append {ls g : List Lexeme} {gs : List (List Lexeme)} (h : Grouping ls gs)
    (hg : g ∈ gs) : ∃ ks ms, ls = ks ++ (g ++ ms) := by
  induction h with
  | nil => cases hg
  | @separator l ls gs hl h ih =>
    obtain ⟨ks, ms, rfl⟩ := ih hg
    exact ⟨l :: ks, ms, rfl⟩
  | @group f ls gs hne hf h ih =>
    rcases mem_cons.mp hg with rfl | hg
    · exact ⟨[], ls, rfl⟩
    · obtain ⟨ks, ms, rfl⟩ := ih hg
      exact ⟨f ++ ks, ms, by rw [append_assoc]⟩

section Filter

variable {source : Text} {ks g ms : List Lexeme}

lemma filter_stop_le_groupStart (h : Lossless source (ks ++ (g ++ ms))) (hne : g ≠ []) :
    (ks ++ (g ++ ms)).filter (·.stop ≤ groupStart g) = ks := by
  obtain ⟨-, hgm, hbefore⟩ := pairwise_append.mp h.ordered
  obtain ⟨hg, -, hbehind⟩ := pairwise_append.mp hgm
  have hlt : ∀ l ∈ g ++ ms, l.start < l.stop := fun l hl =>
    h.start_lt_stop l (mem_append_right ks hl)
  obtain ⟨f, hf, hstart⟩ := exists_start_eq hne
  have hks : ks.filter (·.stop ≤ groupStart g) = ks := by
    refine filter_eq_self.mpr fun l hl => ?_
    rw [← hstart, decide_eq_true_eq]
    exact hbefore l hl f (mem_append_left ms hf)
  have hrest : (g ++ ms).filter (·.stop ≤ groupStart g) = [] := by
    refine filter_eq_nil_iff.mpr fun l hl => ?_
    have hl' := hlt l hl
    rw [decide_eq_true_eq]
    rcases mem_append.mp hl with hl | hl
    · have := groupStart_le (fun m hm => hlt m (mem_append_left ms hm)) hg hl
      omega
    · have := hbehind f hf l hl
      have := hlt f (mem_append_left ms hf)
      omega
  rw [filter_append, hks, hrest, append_nil]

lemma filter_inside_ofGroup (h : Lossless source (ks ++ (g ++ ms))) (hne : g ≠ []) :
    (ks ++ (g ++ ms)).filter (·.Inside (ofGroup source g)) = g := by
  have hsub : g.Sublist (ks ++ (g ++ ms)) :=
    (sublist_append_left g ms).trans (sublist_append_right ks _)
  obtain ⟨-, hgm, hbefore⟩ := pairwise_append.mp h.ordered
  obtain ⟨-, -, hbehind⟩ := pairwise_append.mp hgm
  have hout : ∀ l ∈ ks ++ (g ++ ms), Precede [l] g ∨ Precede g [l] →
      ¬ decide (l.Inside (ofGroup source g)) = true := by
    intro l hl hapart
    rw [decide_eq_true_eq]
    exact fun hin => hin.not_apart (h.start_lt_stop l hl) (apart_ofGroup h hsub hne hapart)
  have hks : ks.filter (·.Inside (ofGroup source g)) = [] := by
    refine filter_eq_nil_iff.mpr fun l hl => hout l (mem_append_left _ hl) (Or.inl ?_)
    intro m hm n hn
    rw [mem_singleton.mp hm]
    exact hbefore l hl n (mem_append_left ms hn)
  have hms : ms.filter (·.Inside (ofGroup source g)) = [] := by
    refine filter_eq_nil_iff.mpr fun l hl => ?_
    refine hout l (mem_append_right _ (mem_append_right _ hl)) (Or.inr ?_)
    intro m hm n hn
    rw [mem_singleton.mp hn]
    exact hbehind m hm l hl
  have hg : g.filter (·.Inside (ofGroup source g)) = g :=
    filter_eq_self.mpr fun l hl => decide_eq_true (inside_ofGroup h hsub hl)
  rw [filter_append, filter_append, hks, hms, hg, append_nil, nil_append]

end Filter

/-- **The lexemes of a group are read by one run**, from the start of the first to the end of the
last. -/
lemma exists_run_group {script : Bool} {st : State} {i : Nat} {t : Text} {ks g ms : List Lexeme}
    (h : scanFrom script st i t = ks ++ (g ++ ms)) (hne : g ≠ [])
    (hg : ∀ l ∈ g, l.kind ≠ .directive) :
    ∃ st₁ st₂ x v, Run script st i t ks st₁ (groupStart g) (x ++ v) ∧
      Run script st₁ (groupStart g) (x ++ v) g st₂ (groupStop g) v := by
  obtain ⟨l, f, rfl⟩ := exists_cons_of_ne_nil hne
  obtain ⟨st₁, c, u, hfirst, -, -⟩ := exists_run_to h
  have hscan : scanFrom script st₁ l.start (c :: u) = (l :: f) ++ ms := by
    rw [hfirst.scanFrom_eq] at h
    exact append_cancel_left h
  obtain ⟨e, z, hez⟩ := (eq_nil_or_concat' (l :: f)).resolve_left hne
  rw [hez, append_assoc, singleton_append] at hscan
  obtain ⟨st₂, d, w, hmiddle, hk, htext⟩ := exists_run_to hscan
  -- the last lexeme, with nothing dropped behind it
  have hskip : (piece script st₂ d w).skip = 0 := by
    cases script with
    | false => exact skip_piece _ _ _
    | true =>
      rw [← piece_eq_of_not_directive, skip_piece]
      rw [hk]
      exact fun hdir => hg z (hez ▸ by simp) (Option.some.inj hdir)
  have hend : Run script st₂ z.start (d :: w) [z] (piece script st₂ d w).state z.stop
      (w.drop (piece script st₂ d w).more) := by
    have hrun : Run script st₂ z.start (d :: w) _ _ _ _ := .lexeme hk (.refl _ _ _)
    rw [hskip, take_zero, byteLength_nil, ← htext] at hrun
    exact hrun
  have hgroup := hmiddle.trans hend
  rw [← hez] at hgroup
  have hstop : groupStop (l :: f) = z.stop := by
    rw [hez, groupStop, getLast?_concat]
    rfl
  obtain ⟨x, hx, -⟩ := hgroup.exists_append
  rw [hx] at hfirst hgroup
  rw [hstop]
  exact ⟨st₁, _, x, _, hfirst, hgroup⟩

/-! ## The lexemes of a statement -/

/-- **The lexemes of a statement's text** are those of the script that lie in the statement, moved
to the start of the text and without a number sign at the end. This holds of every statement of a
script before which no delimiter other than the semicolon is in force.

**Proof sketch.** The lexemes of the statement are read by one run (`exists_run_group`), which is
one of the statement's text with the rest of the script behind it. The run reads no directive and
no delimiter is in force, so it is a run of a single statement too. Cutting off the rest changes
nothing but the number sign (`Run.scanFrom_cut`). -/
theorem tokenize_text_of_mem_splitStatements {source : Text} {s : Statement}
    (hs : s ∈ splitStatements source)
    (hd : delimiterInForce ((scanScript source).filter (·.stop ≤ s.offset)) = none) :
    (tokenize s.text).map (Lexeme.shift s.offset) =
      withoutFinalSharp ((scanScript source).filter (·.Inside s)) := by
  rw [splitStatements_eq_groups] at hs
  obtain ⟨g, hg, rfl⟩ := mem_map.mp hs
  obtain ⟨hne, -, hb⟩ := (grouping_scanScript source).of_mem hg
  obtain ⟨ks, ms, hsplit⟩ := (grouping_scanScript source).exists_append hg
  have hlossless : Lossless source (ks ++ (g ++ ms)) :=
    hsplit ▸ lossless_scanFrom true {} source
  rw [hsplit] at hd ⊢
  rw [filter_inside_ofGroup hlossless hne]
  change delimiterInForce ((ks ++ (g ++ ms)).filter (·.stop ≤ groupStart g)) = none at hd
  rw [filter_stop_le_groupStart hlossless hne] at hd
  have hdir : ∀ l ∈ g, l.kind ≠ .directive := by
    intro l hl hk
    have := hb l hl
    rw [Lexeme.isBoundary, hk] at this
    cases this
  obtain ⟨st₁, st₂, x, v, hbefore, hgroup⟩ := exists_run_group hsplit hne hdir
  -- the text of the statement is what the run covers
  obtain ⟨y, hy, hstart⟩ := hbefore.exists_append
  obtain ⟨x', hx', hstop⟩ := hgroup.exists_append
  obtain rfl : x = x' := append_cancel_right hx'
  rw [Nat.zero_add] at hstart
  have htext : (ofGroup source g).text = x := by
    change slice (groupStart g) (groupStop g) source = x
    rw [hstop, hstart, hy, slice_append]
  have hst : st₁.delimiter = none := hbefore.delimiter_eq_foldl.trans hd
  have hlast : ∀ l ∈ g.getLast?, l.stop = groupStop g := by
    intro l hl
    rw [groupStop, Option.mem_def.mp hl]
    rfl
  have hcut := (hgroup.of_script hdir).scanFrom_cut hst (fun h => absurd h hne) hlast
  rw [htext, ← hcut, tokenize, ← scanFrom_add]
  exact scanFrom_congr rfl hst _ _

/-- A statement with a comment, a dollar body, a word that ends in a dollar sign, a bracket that is
not closed and a number sign at its end. -/
theorem tokenize_text_sharp :
    (⟨8, "SELECT [ a$, $t$;$t$ -- ;\n FROM #".toList⟩ : Statement) ∈
        splitStatements "/* ; */ SELECT [ a$, $t$;$t$ -- ;\n FROM #; SELECT 2]".toList ∧
      (tokenize "SELECT [ a$, $t$;$t$ -- ;\n FROM #".toList).map (Lexeme.shift 8) =
        withoutFinalSharp ((scanScript
          "/* ; */ SELECT [ a$, $t$;$t$ -- ;\n FROM #; SELECT 2]".toList).filter
            (·.Inside ⟨8, "SELECT [ a$, $t$;$t$ -- ;\n FROM #".toList⟩)) :=
  have hs : (⟨8, "SELECT [ a$, $t$;$t$ -- ;\n FROM #".toList⟩ : Statement) ∈
      splitStatements "/* ; */ SELECT [ a$, $t$;$t$ -- ;\n FROM #; SELECT 2]".toList := by
    decide +kernel
  ⟨hs, tokenize_text_of_mem_splitStatements hs (by decide +kernel)⟩

end SqlOutline
