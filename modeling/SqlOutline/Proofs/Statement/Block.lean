import SqlOutline.Proofs.Lexeme.Ending
import SqlOutline.Proofs.Statement.Package

/-!
# Statements with a block

A statement that ends with a block is kept whole however many semicolons stand in the block, and the
semicolon behind the block ends it. But a short definition, in whose block the words of a package
stand, is taken for one, which is one more open block.

## Main definitions

* `Matched`, `IsBlock` — lexemes in which every end has a start, and texts that end with a block.

## Main results

* `depth_read` — the open blocks behind such lexemes.
* `IsBlock.canSplit_read` — when a semicolon behind the block ends the statement.
-/

namespace SqlOutline

open List Text Lexeme Progress Splitter

/-! ## A semicolon behind a word -/

namespace Scan

variable {t : Text} {l : Lexeme}

/-- **The run to a semicolon** behind a text that ends with a lexeme and leaves no literal open: it
reads the lexemes of the text, and no other delimiter is in force behind them. -/
lemma exists_run_semicolon (hclosed : LiteralsClosed t) (hl : l ∈ scanScript t)
    (hstop : l.stop = byteLength t) (hdir : ∀ m ∈ scanScript t, m.kind ≠ .directive)
    (hlast : ∀ c ∈ t.getLast?, isBlank c = false) :
    ∃ st, Run true {} 0 (t ++ [';']) (scanScript t) st (byteLength t) [';'] ∧
      st.delimiter = none := by
  have hsep : Separates [';'] :=
    { head := by decide
      dollar := by decide
      bracket := by decide
      exists_line := ⟨[';'], [], rfl, by decide, by simp [BreaksLine], by decide⟩ }
  have hjoins : Joins none t [';'] [] :=
    { last := hlast
      dollar := by simp
      mark_eq := by simp }
  rw [LiteralsClosed, scanScript, scanScript] at hclosed
  rw [scanScript, ← hclosed] at hl
  rw [scanScript, ← hclosed] at hdir
  obtain ⟨ls, rest, st, hscan, hmem, hrun⟩ :=
    exists_run_append_of_separates hsep hl hstop hjoins hdir
  -- nothing stands behind the last lexeme
  rw [hclosed] at hscan
  have hlossless := lossless_scanFrom true {} t
  have hrest : rest = [] := by
    rw [hscan] at hlossless
    rw [eq_nil_iff_forall_not_mem]
    intro m hm
    have h₁ := (pairwise_append.mp hlossless.ordered).2.2 l hmem m hm
    have h₂ := hlossless.start_lt_stop m (mem_append_right ls hm)
    have h₃ := hlossless.stop_le m (mem_append_right ls hm)
    omega
  rw [hrest, append_nil] at hscan
  have hst : st.delimiter = none := hrun.delimiter_eq fun m hm => hdir m (by
    rw [hclosed, hscan]
    exact hm)
  refine ⟨st, ?_, hst⟩
  rw [scanScript, hscan]
  exact hrun

/-- **A semicolon behind a word** at the end of a text is a lexeme of its own. -/
lemma scanScript_append_semicolon (hl : l ∈ scanScript t) (hstop : l.stop = byteLength t)
    (hword : l.kind = .word) (hdir : ∀ m ∈ scanScript t, m.kind ≠ .directive)
    (hlast : ∀ c ∈ t.getLast?, isBlank c = false) :
    scanScript (t ++ [';']) = scanScript t ++ [semicolonBehind t] := by
  have hclosed := literalsClosed_of_word hl hstop hword hdir
  obtain ⟨st, hrun, hst⟩ := exists_run_semicolon hclosed hl hstop hdir hlast
  exact (scanScript_append hrun hst).1

end Scan

/-! ## Open blocks -/

/-- Lexemes in which every end of a block has a start. -/
def Matched (before : Option Lexeme) (ls : List Lexeme) (after : Option Lexeme) : Prop :=
  ∀ ks l ms, ls = ks ++ l :: ms →
    blockMark (ks.getLast?.or before) l (ms.head?.or after) = .closes →
      1 ≤ blockDepth before ks (some l)

variable {after : Option Lexeme} {ls ms : List Lexeme}

lemma Matched.of_append {before : Option Lexeme}
    (h : Matched before (ls ++ ms) after) : Matched before ls (ms.head?.or after) := by
  rintro ks l rest rfl hl
  refine h ks l (rest ++ ms) (by simp) ?_
  rwa [head?_append, Option.or_assoc]

/-- **The open blocks** behind lexemes in which every end has a start: those that block marks leave
open, and the package.

**Proof sketch.** Induction on the lexemes, from the last one on. A block mark does the same to one
more open block, because no end comes where none is open, and a package is opened once. -/
lemma depth_read (h : Matched none ls after) : (read {} none ls after).depth =
      blockDepth none ls after + (read {} none ls after).packageOpened.toNat := by
  induction ls using reverseRecOn generalizing after with
  | nil => rfl
  | append_singleton ls l ih =>
    have hmatched : Matched none ls (some l) := h.of_append
    have hls := ih hmatched
    have hclose := h ls l [] rfl
    rw [read_concat, depth_observe, packageOpened_observe, blockDepth_concat]
    set s := read {} none ls (some l)
    have hopened : (s.packageOpened || s.opensPackage (ls.getLast?.or none) l after).toNat =
        s.packageOpened.toNat + (s.opensPackage (ls.getLast?.or none) l after).toNat := by
      rw [opensPackage]
      cases s.packageOpened <;> simp
    have hmark : (blockMark (ls.getLast?.or none) l after).depthBehind s.depth =
        (blockMark (ls.getLast?.or none) l after).depthBehind (blockDepth none ls (some l)) +
          s.packageOpened.toNat := by
      rw [hls]
      cases hm : blockMark (ls.getLast?.or none) l after with
      | opens => simp only [BlockMark.depthBehind]; omega
      | closes =>
        have := hclose hm
        simp only [BlockMark.depthBehind]
        omega
      | none => rfl
    rw [hmark, hopened, Nat.add_assoc]

/-! ## Blocks -/

/-- A text that ends with a block: its lexemes are `head`, the `BEGIN` of the block, its `body`, its
`END` and perhaps a word behind it. From the `BEGIN` on a block is open, up to the `END`. -/
structure IsBlock (source : Text) (head : List Lexeme) (first : Lexeme) (body : List Lexeme)
    (last : Lexeme) (rest : List Lexeme) : Prop where
  scan : scanScript source = head ++ first :: (body ++ last :: rest)
  starts : ∀ l ∈ (scanScript source).head?, l.start = 0
  stops : ∀ l ∈ (scanScript source).getLast?, l.stop = byteLength source
  trimmed : ∀ c ∈ source.getLast?, isBlank c = false
  plain : ∀ l ∈ scanScript source, l.isBoundary = false
  head_plain : ∀ l ∈ head, l.isSymbol ';' = false ∧
    l.isAnyWord ["BEGIN", "CASE", "END", "PACKAGE", "TYPE"] = false
  head_parens : parenDepth head = 0
  is_first : first.isWord "BEGIN"
  body_parens : parenDepth body = 0
  is_open : ∀ k ≤ body.length, 1 ≤ blockDepth none (first :: body.take k) (body ++ [last])[k]?
  is_last : last.isWord "END"
  is_closed : blockDepth none (first :: (body ++ [last])) rest.head? = 0
  is_rest : ∀ l ∈ rest, rest = [l] ∧ l.kind = .word ∧ l.isAnyWord uncountedEndWords = false

/-- Nothing is open behind a block but the package. -/
structure Splitter.OnlyPackage (s : Splitter) : Prop where
  depth : s.depth = s.packageOpened.toNat
  parens : s.parens = 0
  not_awaiting : s.packageOpened = false → s.awaitingBody = false

/-- In front of a semicolon, no word announces a body. -/
lemma Splitter.announces_of_semicolon (s : Splitter) {n : Lexeme} (hn : n.isSymbol ';')
    (before : Option Lexeme) (l : Lexeme) : bodyFollows before l (some n) = false ∧
      declarationsFollow l (some n) = false ∧ s.opensPackage before l (some n) = false := by
  obtain ⟨hk, -⟩ := isSymbol_iff.mp hn
  simp [opensPackage, bodyFollows, declarationsFollow, hk]

namespace Splitter.OnlyPackage

variable {s : Splitter} (h : s.OnlyPackage) {l m n : Lexeme}

include h

lemma canSplit_iff : s.canSplit ↔ s.packageOpened = false := by
  rw [canSplit, h.depth, h.parens]
  cases hp : s.packageOpened with
  | true => simp
  | false => simp [h.not_awaiting hp]

lemma canSplit_observe_end (hl : l.isWord "END") (hn : n.isSymbol ';')
    (before : Option Lexeme) : (s.observe before l (some n)).canSplit := by
  obtain ⟨hk, hu⟩ := isWord_iff.mp hl
  obtain ⟨hnk, -⟩ := isSymbol_iff.mp hn
  obtain ⟨hbody, hdeclare, hopens⟩ := s.announces_of_semicolon hn before l
  have hmark : blockMark before l (some n) = .closes := by
    simp [blockMark, isWord, isAnyWord, hk, hu, hnk]
  have hparens : depthBehind s.parens l = 0 := by simp [depthBehind, isSymbol, hk, h.parens]
  rw [canSplit, parens_observe, hparens, awaitingBody_observe, depth_observe, hmark, hbody,
    hdeclare, hopens, h.depth]
  cases hp : s.packageOpened with
  | true => simp [BlockMark.depthBehind]
  | false => simp [BlockMark.depthBehind, h.not_awaiting hp]

lemma observe_word (hk : l.kind = .word) (hl : l.isWord "END" = false) (hm : m.isWord "END")
    (hn : n.isSymbol ';') : (s.observe (some m) l (some n)).OnlyPackage := by
  have hmark : blockMark (some m) l (some n) = .none := by simp [blockMark, hl, hm, hn]
  obtain ⟨hbody, hdeclare, hopens⟩ := s.announces_of_semicolon hn (some m) l
  constructor
  · rw [depth_observe, packageOpened_observe, hmark, hopens, Bool.or_false]
    exact h.depth
  · simp [depthBehind, isSymbol, hk, h.parens]
  · rw [packageOpened_observe, hopens, Bool.or_false]
    intro hp
    simp [awaitingBody_observe, hbody, hdeclare, h.not_awaiting hp]

end Splitter.OnlyPackage

variable {ks : List Lexeme} {l : Lexeme}

namespace IsBlock

variable {source : Text} {head : List Lexeme} {first : Lexeme} {body : List Lexeme}
  {last : Lexeme} {rest : List Lexeme} (h : IsBlock source head first body last rest)

include h

lemma one_le_blockDepth (hks : body ++ [last] = ks ++ l :: ms) :
    1 ≤ blockDepth none (first :: ks) (some l) := by
  have hlen : ks.length ≤ body.length := by
    have := congrArg length hks
    simp only [length_append, length_cons, length_nil] at this
    omega
  have htake : body.take ks.length = ks := by
    rw [← take_append_of_le_length hlen, hks, take_left]
  have hopen := h.is_open ks.length hlen
  rwa [htake, hks, getElem?_append_right le_rfl, Nat.sub_self, getElem?_cons_zero] at hopen

lemma blockMark_head (hl : l ∈ head) (before after : Option Lexeme) :
    blockMark before l after = .none := by
  have hwords := (h.head_plain l hl).2
  simp only [isAnyWord, contains_cons, contains_nil, Bool.and_eq_false_iff,
    Bool.or_eq_false_iff] at hwords
  have hnot : l.isWord "BEGIN" = false ∧ l.isWord "CASE" = false ∧ l.isWord "END" = false := by
    simp only [isWord, Bool.and_eq_false_iff]
    tauto
  simp [blockMark, hnot]

lemma blockDepth_eq (ms : List Lexeme) (after : Option Lexeme) :
    blockDepth none (head ++ first :: ms) after = blockDepth none (first :: ms) after := by
  have hmarks : ∀ ls before after, (∀ l ∈ ls, l ∈ head) →
      BlockMark.opens ∉ blockMarks before ls after := by
    intro ls before after hls
    induction ls generalizing before with
    | nil => exact not_mem_nil
    | cons l ls ih =>
      obtain ⟨hl, hls⟩ := forall_mem_cons.mp hls
      rw [blockMarks, h.blockMark_head hl, mem_cons, not_or]
      exact ⟨by decide, ih (some l) hls⟩
  have hfirst : ∀ before after, blockMark before first after = blockMark none first after := by
    intro before after
    unfold blockMark
    rw [if_pos h.is_first, if_pos h.is_first]
  rw [blockDepth, blockMarks_append, foldl_append,
    foldl_depthBehind_of_not_opens (hmarks head _ _ fun _ => id), blockMarks, hfirst]
  rfl

lemma matched (after : Option Lexeme) : Matched none (head ++ first :: (body ++ [last])) after := by
  intro ks l ms hks hclose
  rcases split_append_cons hks with ⟨ns, rfl, -⟩ | ⟨rfl, rfl, -⟩ | ⟨ns, rfl, hns⟩
  · rw [h.blockMark_head (by simp)] at hclose
    cases hclose
  · unfold blockMark at hclose
    rw [if_pos h.is_first] at hclose
    split at hclose
    · split_ifs at hclose
    · cases hclose
  · rw [h.blockDepth_eq]
    exact h.one_le_blockDepth hns

lemma blockMark_last (before : Option Lexeme)
    (hafter : after.any (·.isAnyWord uncountedEndWords) = false) :
    blockMark before last after = .closes := by
  obtain ⟨hk, hu⟩ := isWord_iff.mp h.is_last
  simp [blockMark, isWord, hk, hu, hafter]

lemma rest_cases : rest = [] ∨
    ∃ l, rest = [l] ∧ l.kind = .word ∧ l.isAnyWord uncountedEndWords = false := by
  rcases eq_nil_or_concat' rest with hnil | ⟨ls, l, hrest⟩
  · exact Or.inl hnil
  · exact Or.inr ⟨l, h.is_rest l (by simp [hrest])⟩

lemma not_uncounted (after : Option Lexeme)
    (hafter : after.any (·.isAnyWord uncountedEndWords) = false) :
    (rest.head?.or after).any (·.isAnyWord uncountedEndWords) = false := by
  obtain rfl | ⟨l, rfl, -, hl⟩ := h.rest_cases
  · exact hafter
  · exact hl

lemma blockDepth_body : blockDepth none (first :: body) (some last) = 1 := by
  have hopen : 1 ≤ blockDepth none (first :: body) (some last) := h.one_le_blockDepth rfl
  have hclosed := h.is_closed
  have hafter := h.not_uncounted none rfl
  rw [Option.or_none] at hafter
  rw [← cons_append, blockDepth_concat, h.blockMark_last _ hafter] at hclosed
  change _ - 1 = 0 at hclosed
  omega

/-- **Behind the block** nothing is open but the package. -/
lemma onlyPackage_last (hafter : after.any (·.isAnyWord uncountedEndWords) = false) :
    (read {} none (head ++ first :: (body ++ [last])) after).OnlyPackage := by
  obtain ⟨hk, hu⟩ := isWord_iff.mp h.is_last
  obtain ⟨hfirst, -⟩ := isWord_iff.mp h.is_first
  have hmatched := h.matched after
  constructor
  · rw [depth_read hmatched, h.blockDepth_eq, ← cons_append, blockDepth_concat,
      h.blockMark_last _ hafter, h.blockDepth_body]
    exact Nat.zero_add _
  · have hword : ∀ n (l : Lexeme), l.kind = .word → depthBehind n l = n := by
      intro n l hl
      simp [depthBehind, isSymbol, hl]
    have hhead : head.foldl depthBehind ({} : Splitter).parens = 0 := h.head_parens
    have hbody : body.foldl depthBehind 0 = 0 := h.body_parens
    rw [parens_read, foldl_append, foldl_cons, foldl_append, hhead,
      hword _ _ hfirst, hbody, foldl_cons, foldl_nil, hword _ _ hk]
  · rw [← cons_append, ← append_assoc] at hmatched ⊢
    have hbody : Matched none (head ++ first :: body) (some last) := hmatched.of_append
    have hdepth := depth_read hbody
    rw [h.blockDepth_eq, h.blockDepth_body] at hdepth
    rw [read_concat, packageOpened_observe, awaitingBody_observe,
      h.blockMark_last _ hafter, hdepth, Bool.or_eq_false_iff]
    rintro ⟨hp, -⟩
    simp [hp, bodyFollows, declarationsFollow, isAnyWord, isWord, hu]

/-- **Semicolons stand in blocks**: a block is open in front of each of them. -/
lemma depth_pos (hks : scanScript source = ks ++ l :: ms)
    (hl : l.isSymbol ';') : 1 ≤ (read {} none ks (some l)).depth := by
  obtain ⟨hsymbol, -⟩ := isSymbol_iff.mp hl
  have hword : ∀ w, l.isWord w = false := fun w => by simp [isWord, hsymbol]
  rw [h.scan] at hks
  rcases split_append_cons hks with ⟨ns, rfl, -⟩ | ⟨rfl, rfl, -⟩ | ⟨ns, rfl, hns⟩
  · -- in front of the block
    rw [(h.head_plain l (by simp)).1] at hl
    cases hl
  · have := h.is_first
    rw [hword] at this
    cases this
  rcases split_append_cons hns with ⟨ns', rfl, -⟩ | ⟨rfl, rfl, -⟩ | ⟨ns', rfl, rfl⟩
  · -- in the block
    have hmatched := h.matched none
    rw [append_assoc, cons_append, ← cons_append, ← append_assoc] at hmatched
    have hns : Matched none (head ++ first :: ns) (some l) := hmatched.of_append
    rw [depth_read hns, h.blockDepth_eq]
    have hopen := h.one_le_blockDepth (append_assoc ns (l :: ns') [last])
    exact hopen.trans (Nat.le_add_right _ _)
  · have := h.is_last
    rw [hword] at this
    cases this
  · -- behind the block
    have := (h.is_rest l (by simp)).2.1
    rw [hsymbol] at this
    cases this

/-- **When a semicolon behind the block ends the statement**: if no package is open, or a second
`END` closes it. -/
lemma canSplit_read {n : Lexeme} (hn : n.isSymbol ';') :
    (read {} none (scanScript source) (some n)).canSplit ↔
      (OpensPackage (scanScript source) none → ∃ l ∈ rest, l.isWord "END") := by
  obtain ⟨hk, -⟩ := isSymbol_iff.mp hn
  have hafter : (some n).any (·.isAnyWord uncountedEndWords) = false := by
    simp [isAnyWord, hk]
  have hlast := h.onlyPackage_last (h.not_uncounted _ hafter)
  have hscan : scanScript source = (head ++ first :: (body ++ [last])) ++ rest := by
    rw [h.scan]
    simp
  have hread : read {} none (scanScript source) (some n) =
      (read {} none (head ++ first :: (body ++ [last])) (rest.head?.or (some n))).read
        (some last) rest (some n) := by
    rw [hscan, read_append, ← cons_append, ← append_assoc, getLast?_concat]
    rfl
  have hword : (some n).any (·.kind == .word) = false := by simp [hk]
  rw [← opensPackage_iff_of_not_word hword, ← packageOpened_read, hread]
  set s := Splitter.read {} none (head ++ first :: (body ++ [last])) (rest.head?.or (some n))
  obtain rfl | ⟨l, rfl, hkind, -⟩ := h.rest_cases
  · rw [Splitter.read, hlast.canSplit_iff]
    simp
  · rw [Splitter.read, Splitter.read]
    cases hend : l.isWord "END" with
    | true =>
      refine iff_of_true (hlast.canSplit_observe_end hend hn _) fun _ => ?_
      exact ⟨l, mem_singleton_self l, hend⟩
    | false =>
      have hobserve := hlast.observe_word hkind hend h.is_last hn
      rw [head?_nil, Option.none_or, hobserve.canSplit_iff]
      simp [hend]

/-- **The groups of a block** and a semicolon behind it. -/
lemma groups_append {n : Lexeme} (hn : n.isSymbol ';') :
    groups {} (scanScript source ++ [n]) =
      if (read {} none (scanScript source) (some n)).canSplit then [scanScript source]
      else [scanScript source ++ [n]] := by
  obtain ⟨hk, -⟩ := isSymbol_iff.mp hn
  have hne : scanScript source ≠ [] := by
    rw [h.scan]
    simp
  rw [groups_of_not_ends [n]]
  · -- the semicolon behind the block
    set p := behind {} (scanScript source) (some n) with hp
    have hends : p.ends n = p.splitter.canSplit := by
      rw [ends, hn, Lexeme.isBoundary, hk]
      rfl
    change p.groups [n] = if p.splitter.canSplit then [p.current] else [p.current ++ [n]]
    have hcurrent : p.current ≠ [] := hne
    rw [groups, groups, closed, step, hends]
    cases p.splitter.canSplit with
    | true => simp [finished, hcurrent]
    | false => simp [finished]
  · -- the semicolons in the block
    intro ks l ms hks
    rw [ends, h.plain l (by rw [hks]; simp), Bool.false_or]
    cases hl : l.isSymbol ';' with
    | false => rfl
    | true =>
      have hpos := h.depth_pos hks hl
      have hdepth : ((behind {} ks (some l)).splitter.depth == 0) = false :=
        beq_eq_false_iff_ne.mpr (Nat.ne_of_gt hpos)
      rw [canSplit, hdepth]
      simp

lemma exists_getLast : ∃ l, (scanScript source).getLast? = some l ∧ l.kind = .word := by
  rw [h.scan, ← cons_append, ← append_assoc]
  obtain rfl | ⟨l, rfl, hword, -⟩ := h.rest_cases
  · rw [getLast?_concat]
    exact ⟨last, rfl, (isWord_iff.mp h.is_last).1⟩
  · rw [append_cons, getLast?_concat]
    exact ⟨l, rfl, hword⟩

lemma scanScript_append :
    scanScript (source ++ [';']) = scanScript source ++ [semicolonBehind source] := by
  obtain ⟨l, hl, hword⟩ := h.exists_getLast
  refine Scan.scanScript_append_semicolon (mem_of_getLast? hl) (h.stops l hl) hword
    (fun m hm hk => ?_) h.trimmed
  have := h.plain m hm
  rw [Lexeme.isBoundary, hk] at this
  cases this

lemma groupStart_append (ms : List Lexeme) : groupStart (scanScript source ++ ms) = 0 := by
  obtain ⟨l, ls, hscan⟩ : ∃ l ls, scanScript source = l :: ls := by
    rw [← ne_nil_iff_exists_cons, h.scan]
    simp
  have hstart := h.starts l (by rw [hscan]; rfl)
  rw [hscan]
  exact hstart

lemma groupStop_eq : groupStop (scanScript source) = byteLength source := by
  obtain ⟨l, hl, -⟩ := h.exists_getLast
  rw [groupStop, hl]
  exact h.stops l hl

end IsBlock

/-- **When the semicolon behind a block ends the statement**: the semicolons in the block never do,
and the one behind it does unless the lexemes are taken for the definition of a package; then a
second `END` has to close the package. -/
theorem splitStatements_block {source : Text} {head : List Lexeme} {first : Lexeme}
    {body : List Lexeme} {last : Lexeme} {rest : List Lexeme}
    (h : IsBlock source head first body last rest) :
    ((OpensPackage (scanScript source) none → ∃ l ∈ rest, l.isWord "END" = true) →
      splitStatements (source ++ [';']) = [⟨0, source⟩]) ∧
    (OpensPackage (scanScript source) none → (∀ l ∈ rest, l.isWord "END" = false) →
      splitStatements (source ++ [';']) = [⟨0, source ++ [';']⟩]) := by
  have hsemi : (semicolonBehind source).isSymbol ';' = true := rfl
  rw [splitStatements_eq_groups, h.scanScript_append, h.groups_append hsemi]
  refine ⟨fun hopens => ?_, fun hopens hend => ?_⟩
  · have hslice := slice_append [] source [';']
    rw [byteLength_nil, Nat.zero_add, nil_append] at hslice
    have hstart := h.groupStart_append []
    rw [append_nil] at hstart
    rw [if_pos ((h.canSplit_read hsemi).mpr hopens), map_singleton, Statement.ofGroup, hstart,
      h.groupStop_eq, hslice]
  · have hslice := slice_append [] (source ++ [';']) []
    rw [byteLength_nil, Nat.zero_add, nil_append, append_nil] at hslice
    have hno : ¬ (read {} none (scanScript source)
        (some (semicolonBehind source))).canSplit = true := by
      rw [h.canSplit_read hsemi]
      intro hclosed
      obtain ⟨l, hl, hword⟩ := hclosed hopens
      rw [hend l hl] at hword
      cases hword
    have hstop : groupStop (scanScript source ++ [semicolonBehind source]) =
        byteLength (source ++ [';']) := by
      rw [groupStop, getLast?_concat, byteLength_append]
      rfl
    rw [if_neg hno, map_singleton, Statement.ofGroup, h.groupStart_append, hstop, hslice]

/-- A block in a block, with a name behind. -/
theorem splitStatements_block_nested :
    IsBlock "CREATE EVENT e DO BEGIN f; BEGIN g; END; END e".toList
        [⟨.word, "CREATE".toList, 0⟩, ⟨.word, "EVENT".toList, 7⟩, ⟨.word, ['e'], 13⟩,
          ⟨.word, "DO".toList, 15⟩]
        ⟨.word, "BEGIN".toList, 18⟩
        [⟨.word, ['f'], 24⟩, ⟨.symbol, [';'], 25⟩, ⟨.word, "BEGIN".toList, 27⟩, ⟨.word, ['g'], 33⟩,
          ⟨.symbol, [';'], 34⟩, ⟨.word, "END".toList, 36⟩, ⟨.symbol, [';'], 39⟩]
        ⟨.word, "END".toList, 41⟩ [⟨.word, ['e'], 45⟩] ∧
      splitStatements ("CREATE EVENT e DO BEGIN f; BEGIN g; END; END e".toList ++ [';']) =
        [⟨0, "CREATE EVENT e DO BEGIN f; BEGIN g; END; END e".toList⟩] :=
  have h := IsBlock.mk (by decide +kernel) (by decide +kernel) (by decide +kernel) (by decide)
    (by decide +kernel) (by decide) rfl rfl rfl (by decide) rfl rfl (by decide)
  ⟨h, (splitStatements_block h).1 (by decide +kernel)⟩

/-- A block in which `package` and an alias stand among the first lexemes: the semicolon behind it
does not end the statement. -/
theorem splitStatements_block_package :
    IsBlock "CREATE EVENT e DO BEGIN SELECT package AS p FROM t; END".toList
        [⟨.word, "CREATE".toList, 0⟩, ⟨.word, "EVENT".toList, 7⟩, ⟨.word, ['e'], 13⟩,
          ⟨.word, "DO".toList, 15⟩]
        ⟨.word, "BEGIN".toList, 18⟩
        [⟨.word, "SELECT".toList, 24⟩, ⟨.word, "package".toList, 31⟩, ⟨.word, "AS".toList, 39⟩,
          ⟨.word, ['p'], 42⟩, ⟨.word, "FROM".toList, 44⟩, ⟨.word, ['t'], 49⟩, ⟨.symbol, [';'], 50⟩]
        ⟨.word, "END".toList, 52⟩ [] ∧
      splitStatements ("CREATE EVENT e DO BEGIN SELECT package AS p FROM t; END".toList ++ [';']) =
        [⟨0, "CREATE EVENT e DO BEGIN SELECT package AS p FROM t; END;".toList⟩] :=
  ⟨IsBlock.mk (by decide +kernel) (by decide +kernel) (by decide +kernel) (by decide)
    (by decide +kernel) (by decide) rfl rfl rfl (by decide) rfl rfl (by decide), by decide +kernel⟩

end SqlOutline
