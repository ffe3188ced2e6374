import Mathlib.Data.List.Forall2
import SqlOutline.Proofs.Statement.Batch
import SqlOutline.Proofs.Statement.Nesting

/-!
# Bodies of procedures

While the body of a procedure is awaited, no semicolon ends the statement; but the wait ends with
the first outermost block that is closed, be it a `CASE` expression in a declaration.

## Main definitions

* `Waiting`, `Exposed` — a body is awaited, and a semicolon outside of all that keeps it.
* `IsProcedure` — a script that defines a procedure.

## Main results

* `canSplit_read_iff` — a semicolon ends a routine exactly where it is exposed.
* `splitStatements_procedure` — when a procedure is kept whole.
-/

namespace SqlOutline

open List Text Lexeme Progress Splitter BlockMark

/-! ## One statement -/

variable {p : Progress} {ls : List Lexeme}

namespace Progress

lemma exists_groups_eq_cons (hp : p.current ≠ []) (ls : List Lexeme) :
    ∃ ms gs, p.groups ls = (p.current ++ ms) :: gs := by
  induction ls generalizing p with
  | nil => exact ⟨[], [], by simp [groups, finished, hp]⟩
  | cons l ls ih =>
    rw [groups, closed]
    by_cases h : p.ends l
    · refine ⟨[], (p.step l ls.head?).groups ls, ?_⟩
      rw [if_pos h, finished, if_neg hp, append_nil]
      rfl
    · rw [if_neg h, nil_append]
      have hcurrent : (p.step l ls.head?).current = p.current ++ [l] := by rw [step, if_neg h]
      obtain ⟨ms, gs, hgroups⟩ := ih (p := p.step l ls.head?) (by simp [hcurrent])
      refine ⟨l :: ms, gs, ?_⟩
      rw [hgroups, hcurrent, append_assoc]
      rfl

lemma groups_eq_nil_iff (before : Option Lexeme) (hls : ∀ l ∈ ls, l.isBoundary = false) :
    groups { before } ls = [] ↔ ∀ l ∈ ls, l.isSymbol ';' := by
  induction ls generalizing before with
  | nil => exact iff_of_true rfl nofun
  | cons l ls ih =>
    obtain ⟨hl, hls⟩ := forall_mem_cons.mp hls
    rw [forall_mem_cons, ← ih (some l) hls]
    by_cases hsemi : l.isSymbol ';'
    · have hends : ends { before } l := by
        simp [ends, hsemi, canSplit]
      rw [groups, closed, if_pos hends, step, if_pos hends, customBehind_of_ends hends hl]
      simp [finished, hsemi]
    · have hends : ¬ ends { before } l := by simp [ends, hl, hsemi]
      refine iff_of_false ?_ fun h => hsemi h.1
      rw [groups, closed, if_neg hends, nil_append]
      obtain ⟨ms, gs, hgroups⟩ := exists_groups_eq_cons (p := step { before } l ls.head?)
        (by simp [step, hends]) ls
      rw [hgroups]
      exact cons_ne_nil _ _

/-- **When lexemes are one statement**: each of them that ends the statement, in which all before it
were read, has only semicolons behind it.

**Proof sketch.** Induction on the lexemes. One that ends the statement leaves the rest to be split
from the start, which gives no group only if it is made of semicolons; one that does not is read
into the statement. -/
lemma length_groups_eq_one_iff (hcurrent : p.current ≠ []) (hls : ∀ l ∈ ls, l.isBoundary = false) :
    (p.groups ls).length = 1 ↔ ∀ ks l rest, ls = ks ++ l :: rest →
      (p.behind ks (some l)).ends l → ∀ m ∈ rest, m.isSymbol ';' := by
  induction ls generalizing p with
  | nil => simp [groups, finished, hcurrent]
  | cons l ls ih =>
    obtain ⟨hl, hls⟩ := forall_mem_cons.mp hls
    cases hends : p.ends l with
    | true =>
      have hgroups : p.groups (l :: ls) = p.current :: groups { before := some l } ls := by
        rw [groups, closed, if_pos hends, step, if_pos hends, customBehind_of_ends hends hl,
          finished, if_neg hcurrent]
        rfl
      rw [hgroups, length_cons, Nat.add_eq_right, length_eq_zero_iff, groups_eq_nil_iff _ hls]
      constructor
      · intro h ks m rest hks _ n hn
        cases ks with
        | nil =>
          obtain ⟨rfl, rfl⟩ := cons.inj hks
          exact h n hn
        | cons k ks =>
          obtain ⟨rfl, rfl⟩ := cons.inj hks
          exact h n (mem_append_right ks (mem_cons_of_mem m hn))
      · intro h
        refine h [] l ls rfl ?_
        rwa [behind_nil]
    | false =>
      have hgroups : p.groups (l :: ls) = (p.behind [l] ls.head?).groups ls := by
        rw [groups, closed, if_neg (by simp [hends]), nil_append, step_of_not_ends hends]
      have hbehind : ∀ ks m rest, ls = ks ++ m :: rest →
          (p.behind [l] ls.head?).behind ks (some m) = p.behind (l :: ks) (some m) := by
        rintro ks m rest rfl
        rw [head?_append, head?_cons, behind_behind]
        rfl
      rw [hgroups, ih (by simp [behind]) hls]
      constructor
      · intro h ks m rest hks hm
        cases ks with
        | nil =>
          obtain ⟨rfl, rfl⟩ := cons.inj hks
          rw [behind_nil, hends] at hm
          cases hm
        | cons k ks =>
          obtain ⟨rfl, htail⟩ := cons.inj hks
          exact h ks m rest htail (by rwa [hbehind ks m rest htail])
      · intro h ks m rest hks hm
        rw [hbehind ks m rest hks] at hm
        exact h (l :: ks) m rest (by rw [hks, cons_append]) hm

end Progress

/-! ## Bodies that are awaited -/

def announces (parens : Nat) (before : Option Lexeme) (l : Lexeme) (after : Option Lexeme) : Bool :=
  parens == 0 && bodyFollows before l after || declarationsFollow l after

/-- A body is awaited behind lexemes of a routine that leave no block open: outside of blocks one of
them announces it, and none behind that one opens a block. -/
def Waiting (before : Option Lexeme) (ls : List Lexeme) (after : Option Lexeme) : Prop :=
  ∃ ks l rest, ls = ks ++ l :: rest ∧
    announces (parenDepth ks) (ks.getLast?.or before) l (rest.head?.or after) ∧
    blockDepth before ks (some l) = 0 ∧ opens ∉ blockMarks (some l) rest after

/-- A semicolon behind lexemes of a routine is exposed: no parenthesis and no block is open, and no
body is awaited. -/
structure Exposed (before : Option Lexeme) (ls : List Lexeme) (after : Option Lexeme) : Prop where
  parens : parenDepth ls = 0
  blocks : blockDepth before ls after = 0
  not_waiting : ¬ Waiting before ls after

lemma blockMark_of_announces {n : Nat} {before l after} (h : announces n before l after)
    (before' after' : Option Lexeme) : blockMark before' l after' = .none := by
  have hword : l.kind = .word ∧ (l.upper = "IS" ∨ l.upper = "AS" ∨ l.upper = "DECLARE") := by
    simp only [announces, bodyFollows, declarationsFollow, isAnyWord, isWord,
      Bool.or_eq_true, Bool.and_eq_true, beq_iff_eq, contains_cons, contains_nil,
      Bool.or_false] at h
    tauto
  obtain ⟨hk, hu⟩ := hword
  rcases hu with hu | hu | hu <;> simp [blockMark, isWord, hk, hu]

section Waiting

variable {before after : Option Lexeme} {ls : List Lexeme} {l : Lexeme}

lemma Waiting.blockDepth_eq_zero (h : Waiting before ls after) :
    blockDepth before ls after = 0 := by
  obtain ⟨ks, l, rest, rfl, hl, hks, hrest⟩ := h
  rw [blockDepth, blockMarks_append, blockMarks, blockMark_of_announces hl, foldl_append]
  change foldl _ (foldl _ 0 (blockMarks before ks (some l))) _ = 0
  rw [← blockDepth, hks, foldl_cons]
  exact foldl_depthBehind_of_not_opens hrest

/-- **One more lexeme**: a body is awaited behind it if it was before and the lexeme opens no block,
or if the lexeme announces it. -/
lemma waiting_concat : Waiting before (ls ++ [l]) after ↔
    Waiting before ls (some l) ∧ blockMark (ls.getLast?.or before) l after ≠ .opens ∨
      announces (parenDepth ls) (ls.getLast?.or before) l after ∧
        blockDepth before ls (some l) = 0 := by
  have hmarks : ∀ (ks : List Lexeme) (m : Lexeme) (rest : List Lexeme), ls = ks ++ m :: rest →
      blockMarks (some m) (rest ++ [l]) after =
        blockMarks (some m) rest (some l) ++ [blockMark (ls.getLast?.or before) l after] := by
    rintro ks m rest rfl
    rw [blockMarks_append, getLast?_append, Option.or_assoc,
      getLast?_or_some rest m (ks.getLast?.or before)]
    rfl
  unfold Waiting
  rw [exists_split_concat]
  refine or_congr ⟨?_, ?_⟩ ?_
  · rintro ⟨ks, m, rest, hls, hm, hks, hrest⟩
    rw [hmarks ks m rest hls, mem_append, not_or, mem_singleton] at hrest
    rw [head?_append, Option.or_assoc] at hm
    exact ⟨⟨ks, m, rest, hls, hm, hks, hrest.1⟩, fun h => hrest.2 h.symm⟩
  · rintro ⟨⟨ks, m, rest, hls, hm, hks, hrest⟩, hl⟩
    refine ⟨ks, m, rest, hls, ?_, hks, ?_⟩
    · rw [head?_append, Option.or_assoc]
      exact hm
    · rw [hmarks ks m rest hls, mem_append, not_or, mem_singleton]
      exact ⟨hrest, fun h => hl h.symm⟩
  · exact ⟨fun h => ⟨h.1, h.2.1⟩, fun h => ⟨h.1, h.2, not_mem_nil⟩⟩

end Waiting

/-! ## What the splitter knows in a routine -/

/-- The header of a routine has been read. -/
structure Splitter.InRoutine (s : Splitter) : Prop where
  routine : s.routine
  headerDone : s.headerDone
  not_package : s.package = false

namespace Splitter.InRoutine

variable {s : Splitter} (h : s.InRoutine) (before : Option Lexeme) (l : Lexeme)
  (after : Option Lexeme)

include h

lemma observeHead_eq : s.observeHead l after = s := by
  rw [observeHead, h.headerDone, Bool.not_true, Bool.and_false]
  rfl

lemma opensPackage_eq : s.opensPackage before l after = false := by
  rw [opensPackage, h.not_package, Bool.and_false, Bool.false_and]

lemma observe : (s.observe before l after).InRoutine where
  routine := by rw [routine_observe, h.observeHead_eq, h.routine]
  headerDone := by rw [headerDone_observe, h.observeHead_eq, h.headerDone]
  not_package := by rw [package_observe, h.observeHead_eq, h.not_package]

lemma depth_observe : (s.observe before l after).depth =
    (blockMark before l after).depthBehind s.depth := by
  rw [Splitter.depth_observe, h.opensPackage_eq, Bool.toNat_false, Nat.add_zero]

lemma awaitingBody_observe : (s.observe before l after).awaitingBody =
    (s.awaitingBody && !(decide (blockMark before l after = .closes) && s.depth == 1) ||
      announces s.parens before l after &&
        (blockMark before l after).depthBehind s.depth == 0) := by
  rw [Splitter.awaitingBody_observe, h.depth_observe, h.opensPackage_eq, h.observeHead_eq,
    h.routine, announces]
  simp

variable (ls : List Lexeme)

lemma read : (s.read before ls after).InRoutine := by
  induction ls generalizing s before with
  | nil => exact h
  | cons l ls ih => exact ih (h.observe before l _) (some l)

lemma depth_read : (s.read before ls after).depth =
    (blockMarks before ls after).foldl BlockMark.depthBehind s.depth := by
  induction ls generalizing s before with
  | nil => rfl
  | cons l ls ih =>
    rw [Splitter.read, ih (h.observe before l _), h.depth_observe]
    rfl

/-- **When the splitter waits for a body** in a routine: outside of blocks it does exactly if one is
awaited.

**Proof sketch.** Induction on the lexemes, from the last one on. A block that is opened makes the
depth positive, and when the outermost block is closed the splitter waits no more; a body cannot be
awaited there, because a block was open. -/
lemma awaitingBody_read (hparens : s.parens = 0) (hdepth : s.depth = 0)
    (hwait : s.awaitingBody = false) (hout : (s.read before ls after).depth = 0) :
    (s.read before ls after).awaitingBody ↔ Waiting before ls after := by
  induction ls using reverseRecOn generalizing after with
  | nil =>
    refine iff_of_false (by simp [Splitter.read, hwait]) ?_
    rintro ⟨ks, l, rest, hnil, -⟩
    simp at hnil
  | append_singleton ls l ih =>
    have hroutine := h.read before (some l) ls
    have hp : (s.read before ls (some l)).parens = parenDepth ls := by
      rw [parens_read, hparens, parenDepth]
    have hd : (s.read before ls (some l)).depth = blockDepth before ls (some l) := by
      rw [h.depth_read, hdepth, blockDepth]
    rw [read_concat, hroutine.depth_observe] at hout
    rw [read_concat, hroutine.awaitingBody_observe, waiting_concat, hout, hp, ← hd]
    cases hmark : blockMark (ls.getLast?.or before) l after with
    | opens =>
      rw [hmark] at hout
      cases hout
    | none =>
      -- nothing is opened or closed
      rw [hmark] at hout
      have hzero : (s.read before ls (some l)).depth = 0 := hout
      simp [ih (some l) hzero, hzero]
    | closes =>
      -- the lexeme announces nothing
      have hquiet : announces (parenDepth ls) (ls.getLast?.or before) l after = false := by
        by_contra hann
        rw [blockMark_of_announces (Bool.not_eq_false _ ▸ hann)] at hmark
        cases hmark
      rw [hmark] at hout
      rcases Nat.eq_zero_or_pos (s.read before ls (some l)).depth with hzero | hpos
      · simp [ih (some l) hzero, hzero, hquiet]
      · have hone : (s.read before ls (some l)).depth = 1 := by
          change _ - 1 = 0 at hout
          omega
        have hnot : ¬ Waiting before ls (some l) := fun hw => by
          rw [← hw.blockDepth_eq_zero, hd] at hpos
          exact Nat.lt_irrefl _ hpos
        simp [hone, hquiet, hnot]

/-- **Where a semicolon ends a routine**: exactly where it is exposed. -/
lemma canSplit_read_iff (hparens : s.parens = 0) (hdepth : s.depth = 0)
    (hwait : s.awaitingBody = false) :
    (s.read before ls after).canSplit ↔ Exposed before ls after := by
  have hp : (s.read before ls after).parens = parenDepth ls := by
    rw [parens_read, hparens, parenDepth]
  have hd : (s.read before ls after).depth = blockDepth before ls after := by
    rw [h.depth_read, hdepth, blockDepth]
  have hiff := h.awaitingBody_read before after ls hparens hdepth hwait
  rw [hd] at hiff
  simp only [canSplit, Bool.and_eq_true, beq_iff_eq, Bool.not_eq_true', hp, hd]
  constructor
  · rintro ⟨⟨hblocks, hparen⟩, hno⟩
    refine ⟨hparen, hblocks, fun hw => ?_⟩
    rw [(hiff hblocks).mpr hw] at hno
    cases hno
  · rintro ⟨hparen, hblocks, hw⟩
    exact ⟨⟨hblocks, hparen⟩, Bool.eq_false_iff.mpr fun hyes => hw ((hiff hblocks).mp hyes)⟩

end Splitter.InRoutine

/-! ## The header of a procedure -/

/-- The words that start the definition of a procedure. -/
def procedureHeads : List (List String) :=
  [["CREATE", "PROCEDURE"], ["CREATE", "OR", "REPLACE", "PROCEDURE"],
    ["CREATE", "OR", "ALTER", "PROCEDURE"]]

/-- Lexemes that are the given words. -/
def Spells (ls : List Lexeme) (ws : List String) : Prop :=
  List.Forall₂ (fun l w => l.isWord w) ls ws

instance (ls : List Lexeme) (ws : List String) : Decidable (Spells ls ws) :=
  decidable_of_iff (ls.length = ws.length ∧ ∀ p ∈ ls.zip ws, p.1.isWord p.2) (by
    rw [Spells, forall₂_iff_zip]
    exact and_congr_right fun _ => ⟨fun h _ _ hp => h _ hp, fun h p hp => h hp⟩)

/-- No parenthesis or block is open, and no body is awaited. -/
structure Splitter.Unnested (s : Splitter) : Prop where
  parens : s.parens = 0
  depth : s.depth = 0
  not_awaiting : s.awaitingBody = false

variable {l : Lexeme}

lemma Splitter.Unnested.observe {s : Splitter} (h : s.Unnested) {w : String}
    (hl : l.isWord w) (hw : w ∉ ["BEGIN", "CASE", "END", "IS", "AS", "DECLARE"])
    (before after : Option Lexeme) : (s.observe before l after).Unnested := by
  obtain ⟨hk, rfl⟩ := isWord_iff.mp hl
  simp only [mem_cons, not_mem_nil, or_false, not_or] at hw
  have hmark : blockMark before l after = .none := by simp [blockMark, isWord, hw]
  have hbody : bodyFollows before l after = false := by simp [bodyFollows, isAnyWord, hw]
  have hdeclare : declarationsFollow l after = false := by
    simp [declarationsFollow, isWord, hw]
  constructor
  · simp [depthBehind, isSymbol, hk, h.parens]
  · simp [depth_observe, hmark, BlockMark.depthBehind, opensPackage, hbody, h.depth]
  · simp [awaitingBody_observe, hmark, hbody, hdeclare, h.not_awaiting]

namespace Splitter

/-- The words that tell what a statement defines are still being read; `n` lexemes have been. -/
structure InHeader (n : Nat) (s : Splitter) : Prop where
  count : s.count = n
  not_done : s.headerDone = false
  not_package : s.package = false

variable {s : Splitter} {n : Nat} {l : Lexeme} {w : String}

lemma inHeader_create (hl : l.isWord "CREATE") (before after : Option Lexeme) :
    ((({} : Splitter).observe before l after)).InHeader 1 := by
  obtain ⟨hk, hu⟩ := isWord_iff.mp hl
  have hhead : ({} : Splitter).observeHead l after = {} := by
    simp [observeHead, headerWindow, observeHeader, isAnyWord, hk, hu]
  constructor
  · rw [count_observe]
  · rw [headerDone_observe, hhead]
  · rw [package_observe, hhead]

lemma InHeader.observe (h : s.InHeader (n + 1)) (hl : l.isWord w)
    (hw : w ∉ plainObjectWords ++ routineWords ++ ["PACKAGE", "TYPE"])
    (before after : Option Lexeme) : (s.observe before l after).InHeader (n + 2) := by
  obtain ⟨hk, rfl⟩ := isWord_iff.mp hl
  simp only [mem_append, mem_cons, not_mem_nil, or_false, not_or] at hw
  have hhead : s.observeHead l after = s := by
    have hheader : s.observeHeader s.count l after = s := by
      simp [observeHeader, h.count, isSymbol, isAnyWord, isWord, hk, hw]
    rw [observeHead, hheader, ite_self]
  constructor
  · rw [count_observe, h.count]
  · rw [headerDone_observe, hhead, h.not_done]
  · rw [package_observe, hhead, h.not_package]

lemma InHeader.inRoutine (h : s.InHeader (n + 1)) (hn : n + 1 < headerWindow)
    (hl : l.isWord "PROCEDURE") (before after : Option Lexeme) :
    (s.observe before l after).InRoutine := by
  obtain ⟨hk, hu⟩ := isWord_iff.mp hl
  have hhead : s.observeHead l after = { s with routine := true, headerDone := true } := by
    simp [observeHead, observeHeader, h.count, h.not_done, hn, isSymbol, isAnyWord,
      hk, hu, plainObjectWords, routineWords]
  constructor
  · rw [routine_observe, hhead]
  · rw [headerDone_observe, hhead]
  · rw [package_observe, hhead, h.not_package]

end Splitter

variable {ws : List String}

/-- **Behind the header of a procedure** the splitter is in a routine and nothing is nested. -/
lemma read_procedureHead {head : List Lexeme} (hws : ws ∈ procedureHeads)
    (hhead : Spells head ws) (after : Option Lexeme) :
    (read {} none head after).InRoutine ∧ (read {} none head after).Unnested := by
  have hstart : ({} : Splitter).Unnested := ⟨rfl, rfl, rfl⟩
  simp only [procedureHeads, mem_cons, not_mem_nil, or_false] at hws
  rcases hws with rfl | rfl | rfl
  · rcases hhead with _ | ⟨h₁, _ | ⟨h₂, _ | _⟩⟩
    exact ⟨(inHeader_create h₁ _ _).inRoutine (by decide) h₂ _ _,
      (hstart.observe h₁ (by decide) _ _).observe h₂ (by decide) _ _⟩
  all_goals
    rcases hhead with _ | ⟨h₁, _ | ⟨h₂, _ | ⟨h₃, _ | ⟨h₄, _ | _⟩⟩⟩⟩
    refine ⟨?_, (((hstart.observe h₁ (by decide) _ _).observe h₂ (by decide) _ _).observe h₃
      (by decide) _ _).observe h₄ (by decide) _ _⟩
    exact (((inHeader_create h₁ _ _).observe h₂ (by decide) _ _).observe h₃
      (by decide) _ _).inRoutine (by decide) h₄ _ _

/-! ## Procedures -/

/-- A script that defines a procedure: the words that start the definition stand at its start, no
directive and no delimiter stands behind them, and its literals are closed. -/
structure IsProcedure (source : Text) (head body : List Lexeme) : Prop where
  scan : scanScript source = head ++ body
  start : head.head?.map (·.start) = some 0
  spells : ∃ ws ∈ procedureHeads, Spells head ws
  plain : ∀ l ∈ body, l.isBoundary = false
  closed : Scan.LiteralsClosed source

/-- A name, the `AS` or `IS` behind it, and a body that starts with a word. -/
structure NamesBody (name : List Lexeme) (link : Lexeme) (body : List Lexeme) : Prop where
  ne_nil : name ≠ []
  is_name : ∀ l ∈ name, l.isName ∨ l.isSymbol '.'
  not_execute : name.getLast?.any (·.isWord "EXECUTE") = false
  is_link : link.isAnyWord ["IS", "AS"]
  word_follows : body.head?.any (·.kind == .word)

lemma Spells.exists_isWord (h : Spells ls ws) (hl : l ∈ ls) : ∃ w ∈ ws, l.isWord w := by
  induction h with
  | nil => cases hl
  | cons hword _ ih =>
    rcases mem_cons.mp hl with rfl | hl
    · exact ⟨_, mem_cons_self, hword⟩
    · obtain ⟨w, hw, hlw⟩ := ih hl
      exact ⟨w, mem_cons_of_mem _ hw, hlw⟩

lemma Spells.kind_eq (h : Spells ls ws) (hl : l ∈ ls) : l.kind = .word := by
  obtain ⟨w, -, hword⟩ := h.exists_isWord hl
  exact (isWord_iff.mp hword).1

lemma Lexeme.isSymbol_eq_false_of_name (h : l.isName ∨ l.isSymbol '.') {c : Char}
    (hc : c ≠ '.') : l.isSymbol c = false := by
  simp only [isName, isSymbol_iff, Bool.or_eq_true, beq_iff_eq] at h
  rcases h with (hk | hk) | ⟨hk, ht⟩
  · simp [isSymbol, hk]
  · simp [isSymbol, hk]
  · simp [isSymbol, ht, hc.symm]

namespace IsProcedure

variable {source : Text} {head body : List Lexeme}

lemma not_separator (h : IsProcedure source head body) (hl : l ∈ head) : l.isSeparator = false := by
  obtain ⟨ws, -, hspells⟩ := h.spells
  simp [Lexeme.isSeparator, Lexeme.isBoundary, Lexeme.isSymbol, hspells.kind_eq hl]

lemma exists_first (h : IsProcedure source head body) : ∃ l ∈ head, l.start = 0 := by
  obtain ⟨l, hl, hstart⟩ := Option.map_eq_some_iff.mp h.start
  exact ⟨l, mem_of_head? hl, hstart⟩

/-- **When a procedure is one group of lexemes**: every exposed semicolon has only semicolons behind
it. -/
lemma length_groups_eq_one_iff (h : IsProcedure source head body) :
    (Progress.groups {} (scanScript source)).length = 1 ↔
      ∀ ks l rest, body = ks ++ l :: rest → l.isSymbol ';' →
        Exposed head.getLast? ks (some l) → ∀ m ∈ rest, m.isSymbol ';' := by
  obtain ⟨l₀, hl₀, -⟩ := h.exists_first
  obtain ⟨ws, hws, hspells⟩ := h.spells
  obtain ⟨hroutine, hunnested⟩ := read_procedureHead hws hspells body.head?
  have hhead : groups {} (head ++ body) =
      (behind {} head body.head?).groups body := by
    refine groups_of_not_ends body fun ks l rest hks => ?_
    have hsep := h.not_separator (l := l) (by rw [hks]; simp)
    by_contra hends
    rw [isSeparator_of_ends (Bool.not_eq_false _ ▸ hends)] at hsep
    cases hsep
  -- behind the header, a lexeme ends the statement exactly if it is an exposed semicolon
  have hends : ∀ ks l rest, body = ks ++ l :: rest →
      (((behind {} head body.head?).behind ks (some l)).ends l ↔
        l.isSymbol ';' ∧ Exposed head.getLast? ks (some l)) := by
    intro ks l rest hks
    have hl := h.plain l (by rw [hks]; simp)
    have hsplit := hroutine.canSplit_read_iff head.getLast? (some l) ks hunnested.parens
      hunnested.depth hunnested.not_awaiting
    rw [← hsplit]
    simp [Progress.ends, Progress.behind, hl]
  rw [h.scan, hhead, Progress.length_groups_eq_one_iff (by
    simpa [Progress.behind] using ne_nil_of_mem hl₀) h.plain]
  refine forall_congr' fun ks => forall_congr' fun l => forall_congr' fun rest => ?_
  refine forall_congr' fun hks => ?_
  rw [hends ks l rest hks, and_imp]

lemma offset_eq_zero (h : IsProcedure source head body) {g : List Lexeme}
    (hg : groups {} (scanScript source) = [g]) :
    (Statement.ofGroup source g).offset = 0 := by
  have hlossless := Scan.lossless_scanFrom true {} source
  have hgrouping := grouping_scanScript source
  obtain ⟨l, hl, hstart⟩ := h.exists_first
  have hmem : l ∈ scanScript source := by
    rw [h.scan]
    exact mem_append_left body hl
  rcases hgrouping.mem_or_apart hlossless.ordered hmem with ⟨f, hf, hlf⟩ | ⟨hsep, -⟩
  · rw [hg, mem_singleton] at hf
    subst hf
    have hsub := (hgrouping.of_mem (hg ▸ mem_singleton_self f)).2.1
    have := (inside_ofGroup hlossless hsub hlf).1
    omega
  · rw [h.not_separator hl] at hsep
    cases hsep

/-- **When a procedure is one statement**, up to the line that ends its batch. -/
lemma exists_statement_iff (h : IsProcedure source head body) {t : Text}
    (ht : t ∈ batchSeparators) : (∃ text, splitStatements (source ++ t) = [⟨0, text⟩]) ↔
      (groups {} (scanScript source)).length = 1 := by
  have hplain : ∀ l ∈ scanScript source, l.isBoundary = false := by
    intro l hl
    rw [h.scan, mem_append] at hl
    rcases hl with hl | hl
    · exact (Bool.or_eq_false_iff.mp (h.not_separator hl)).1
    · exact h.plain l hl
  rw [splitStatements_append_batch ht h.closed hplain, splitStatements_eq_groups]
  constructor
  · rintro ⟨text, htext⟩
    have := congrArg length htext
    rwa [length_map] at this
  · intro hlen
    obtain ⟨g, hg⟩ := length_eq_one_iff.mp hlen
    refine ⟨(Statement.ofGroup source g).text, ?_⟩
    rw [hg, map_singleton, singleton_inj]
    exact congrArg (Statement.mk · _) (h.offset_eq_zero hg)

end IsProcedure

variable {ks rest : List Lexeme}

namespace NamesBody

variable {name : List Lexeme} {link : Lexeme} {body : List Lexeme}

lemma exists_split (h : NamesBody name link body)
    (hks : name ++ link :: body = ks ++ l :: rest) (hl : l.isSymbol ';') :
    ∃ ms, ks = name ++ link :: ms ∧ body = ms ++ l :: rest := by
  have hsymbol := isSymbol_iff.mp hl
  have hname : l ∉ name := by
    intro hmem
    rw [isSymbol_eq_false_of_name (h.is_name l hmem) (by decide)] at hl
    cases hl
  have hlink : l ≠ link := by
    rintro rfl
    have := h.is_link
    simp [isAnyWord, hsymbol] at this
  rcases split_append_cons hks with ⟨ns, rfl, -⟩ | ⟨-, rfl, -⟩ | h
  · exact absurd (mem_append_right ks mem_cons_self) hname
  · exact absurd rfl hlink
  · exact h

lemma parenDepth_name (h : NamesBody name link body) : parenDepth name = 0 :=
  parenDepth_eq_zero fun l hl => ⟨isSymbol_eq_false_of_name (h.is_name l hl) (by decide),
    isSymbol_eq_false_of_name (h.is_name l hl) (by decide)⟩

lemma not_exposed (h : NamesBody name link body) {before : Option Lexeme}
    (hopens : opens ∉ blockMarks before (name ++ link :: body) none)
    (hks : name ++ link :: body = ks ++ l :: rest)
    (hl : l.isSymbol ';') : ¬ Exposed before ks (some l) := by
  obtain ⟨ms, rfl, rfl⟩ := h.exists_split hks hl
  rw [blockMarks_append, blockMarks, blockMarks_append, mem_append, mem_cons,
    mem_append, not_or, not_or, not_or] at hopens
  obtain ⟨hname, -, hms, -⟩ := hopens
  have hlast : name.getLast?.or before = name.getLast? := by
    rw [getLast?_eq_some_getLast h.ne_nil]
    rfl
  have hword := h.word_follows
  rw [head?_append] at hword
  have hfollows : bodyFollows (name.getLast?.or before) link (ms.head?.or (some l)) := by
    rw [bodyFollows, hlast, h.is_link, h.not_execute]
    exact hword
  intro hexposed
  refine hexposed.not_waiting ⟨name, link, ms, rfl, ?_, ?_, hms⟩
  · rw [announces, h.parenDepth_name, hfollows]
    rfl
  · exact foldl_depthBehind_of_not_opens hname

end NamesBody

/-- **When a procedure is kept whole** up to the line that ends its batch: exactly if every
semicolon behind its header that is exposed, outside of parentheses and blocks and where no body is
awaited, has only semicolons behind it. In particular it is kept whole, however many semicolons it
has, if its body follows an `AS` or `IS` behind the name and no block is opened in it. -/
theorem splitStatements_procedure {source t : Text} {head body : List Lexeme}
    (h : IsProcedure source head body) (ht : t ∈ batchSeparators) :
    ((∃ text, splitStatements (source ++ t) = [⟨0, text⟩]) ↔
      ∀ ks l rest, body = ks ++ l :: rest → l.isSymbol ';' = true →
        Exposed head.getLast? ks (some l) → ∀ m ∈ rest, m.isSymbol ';' = true) ∧
    ∀ name link text, body = name ++ link :: text → NamesBody name link text →
      BlockMark.opens ∉ blockMarks head.getLast? body none →
        ∃ text, splitStatements (source ++ t) = [⟨0, text⟩] := by
  have hiff := (h.exists_statement_iff ht).trans h.length_groups_eq_one_iff
  refine ⟨hiff, ?_⟩
  rintro name link text rfl hbody hopens
  refine hiff.mpr fun ks l rest hks hl hexposed => ?_
  exact absurd hexposed (hbody.not_exposed hopens hks hl)

/-- Two calls in the body of a procedure are kept together with its header. -/
theorem splitStatements_procedure_calls :
    IsProcedure "CREATE PROCEDURE p AS f(1); g".toList
        [⟨.word, "CREATE".toList, 0⟩, ⟨.word, "PROCEDURE".toList, 7⟩]
        [⟨.word, ['p'], 17⟩, ⟨.word, "AS".toList, 19⟩, ⟨.word, ['f'], 22⟩, ⟨.symbol, ['('], 23⟩,
          ⟨.number, ['1'], 24⟩, ⟨.symbol, [')'], 25⟩, ⟨.symbol, [';'], 26⟩, ⟨.word, ['g'], 28⟩] ∧
      ∃ text, splitStatements ("CREATE PROCEDURE p AS f(1); g".toList ++ "\nGO\n".toList) =
        [⟨0, text⟩] :=
  have h := IsProcedure.mk (by decide +kernel) rfl ⟨["CREATE", "PROCEDURE"], by decide, by decide⟩
    (by decide) (by decide +kernel)
  ⟨h, (splitStatements_procedure h (by decide)).2 [⟨.word, ['p'], 17⟩] ⟨.word, "AS".toList, 19⟩ _
    rfl ⟨by decide, by decide, by decide, by decide, by decide⟩ (by decide)⟩

/-- A `CASE` expression in the body of a procedure ends the wait for the body, so the semicolon
behind it ends the statement. -/
theorem splitStatements_procedure_case :
    splitStatements ("CREATE PROCEDURE p AS SELECT CASE WHEN a THEN 1 END; SELECT 2".toList ++
        "\nGO\n".toList) =
      [⟨0, "CREATE PROCEDURE p AS SELECT CASE WHEN a THEN 1 END".toList⟩,
        ⟨53, "SELECT 2".toList⟩] := by
  decide +kernel

end SqlOutline
