import SqlOutline.Proofs.Statement.Block
import SqlOutline.Proofs.Statement.Body

/-!
# Bodies of packages

The body of a package counts as a block from its `AS` or `IS` on, if a word other than `EXECUTE`
follows. A `BEGIN` in front of statements of its own opens one more block, and the last `END` closes
only one of the two.

## Main definitions

* `IsPackageBody` — a text that defines the body of a package.

## Main results

* `depth_pos` — semicolons in the package stand in a block.
* `IsPackageBody.canSplit_read` — when the semicolon behind the package ends it.
-/

namespace SqlOutline

open Option List Text Lexeme Splitter Progress Statement

/-! ## Nesting of lexemes that are put together -/

variable {l : Lexeme} {ws : List String}

lemma Lexeme.isAnyWord_eq_false_iff : l.isAnyWord ws = false ↔ ∀ w ∈ ws, l.isWord w = false := by
  by_cases hk : l.kind = .word
  · simp only [isAnyWord, isWord, hk, BEq.rfl, Bool.true_and, beq_eq_false_iff_ne]
    rw [← Bool.not_eq_true, contains_iff_mem]
    exact ⟨fun h w hw heq => h (heq ▸ hw), fun h hmem => h _ hmem rfl⟩
  · simp [isAnyWord, isWord, hk]

lemma Lexeme.isAnyWord_eq_false_of_subset {vs : List String}
    (h : l.isAnyWord ws = false) (hsub : vs ⊆ ws) : l.isAnyWord vs = false := by
  rw [isAnyWord_eq_false_iff] at h ⊢
  exact fun w hw => h w (hsub hw)

section Nesting

variable {before after : Option Lexeme} {xs ys ls : List Lexeme}

lemma Matched.foldl_depthBehind (h : Matched before ls after) (n : Nat) :
    (blockMarks before ls after).foldl BlockMark.depthBehind n =
      blockDepth before ls after + n := by
  induction ls using reverseRecOn generalizing after with
  | nil => exact (Nat.zero_add n).symm
  | append_singleton ls l ih =>
    have hls := ih (show Matched before ls (some l) from h.of_append)
    have hclose := h ls l [] rfl
    rw [blockDepth_concat, blockMarks_append, foldl_append]
    change BlockMark.depthBehind (foldl _ n (blockMarks before ls (some l)))
      (blockMark (ls.getLast?.or before) l after) = _
    rw [hls]
    cases hm : blockMark (ls.getLast?.or before) l after with
    | opens =>
      simp only [BlockMark.depthBehind]
      omega
    | closes =>
      have hpos := hclose hm
      simp only [BlockMark.depthBehind]
      omega
    | none => rfl

lemma Matched.blockDepth_append (hys : Matched (xs.getLast?.or before) ys after) :
    blockDepth before (xs ++ ys) after =
      blockDepth (xs.getLast?.or before) ys after + blockDepth before xs (ys.head?.or after) := by
  rw [blockDepth, blockMarks_append, foldl_append]
  exact hys.foldl_depthBehind _

/-- **Lexemes that are put together**: every end has a start if this holds of both parts. -/
lemma Matched.append (hxs : Matched before xs (ys.head?.or after))
    (hys : Matched (xs.getLast?.or before) ys after) : Matched before (xs ++ ys) after := by
  intro ks l ms hks hclose
  -- a lexeme of the second part
  have hsecond (ns : List Lexeme) (hns : ks = xs ++ ns) (hms : ys = ns ++ l :: ms) :
      1 ≤ blockDepth before ks (some l) := by
    subst hns hms
    have hmatched : Matched (xs.getLast?.or before) ns (some l) := hys.of_append
    rw [getLast?_append, Option.or_assoc] at hclose
    have hpos := hys ns l ms rfl hclose
    rw [hmatched.blockDepth_append]
    omega
  rcases append_eq_append_iff.mp hks with ⟨ns, hns, hms⟩ | ⟨ns, rfl, hns⟩
  · exact hsecond ns hns hms
  · cases ns with
    | nil => exact hsecond [] (by simp) hns.symm
    | cons n ns =>
      rw [cons_append, cons.injEq] at hns
      obtain ⟨rfl, rfl⟩ := hns
      refine hxs ks l ns rfl ?_
      rwa [head?_append, Option.or_assoc] at hclose

lemma matched_singleton (h : blockMark before l after ≠ .closes) : Matched before [l] after := by
  intro ks m ms hks hclose
  cases ks with
  | nil =>
    obtain ⟨rfl, rfl⟩ := cons.inj hks
    exact absurd hclose h
  | cons k ks => simp at hks

lemma matched_iff : Matched before ls after ↔ ∀ i : Fin ls.length,
    blockMark ((ls.take i).getLast?.or before) ls[i] ((ls.drop (i + 1)).head?.or after) = .closes →
      1 ≤ blockDepth before (ls.take i) (some ls[i]) := by
  constructor
  · intro h i
    apply h (ls.take i) ls[i] (ls.drop (i + 1))
    simp
  · rintro h ks l ms rfl
    simpa using h ⟨ks.length, by simp⟩

instance : Decidable (Matched before ls after) := decidable_of_iff' _ matched_iff

/-- Lexemes whose parentheses and blocks are closed. -/
structure WellNested (before : Option Lexeme) (ls : List Lexeme) (after : Option Lexeme) :
    Prop where
  parens : parenDepth ls = 0
  matched : Matched before ls after
  blocks : blockDepth before ls after = 0

instance : Decidable (WellNested before ls after) :=
  decidable_of_iff (parenDepth ls = 0 ∧ Matched before ls after ∧ blockDepth before ls after = 0)
    ⟨fun h => ⟨h.1, h.2.1, h.2.2⟩, fun h => ⟨h.parens, h.matched, h.blocks⟩⟩

lemma WellNested.append (hxs : WellNested before xs (ys.head?.or after))
    (hys : WellNested (xs.getLast?.or before) ys after) : WellNested before (xs ++ ys) after where
  parens := by
    have hparens : ys.foldl depthBehind (parenDepth xs) = 0 := by
      rw [hxs.parens]
      exact hys.parens
    rwa [parenDepth, foldl_append]
  matched := hxs.matched.append hys.matched
  blocks := by rw [hys.matched.blockDepth_append, hys.blocks, hxs.blocks]

lemma blockMark_eq_none (h : l.isAnyWord ["BEGIN", "CASE", "END"] = false)
    (x y : Option Lexeme) : blockMark x l y = .none := by
  rw [isAnyWord_eq_false_iff] at h
  simp [blockMark, h]

lemma wellNested_of_plain (h : ∀ l ∈ ls, l.isAnyWord ["BEGIN", "CASE", "END"] = false)
    (hparens : parenDepth ls = 0) : WellNested before ls after := by
  have hblocks : Matched before ls after ∧ blockDepth before ls after = 0 := by
    clear hparens
    induction ls generalizing before with
    | nil => exact ⟨fun ks l ms hks => by simp at hks, rfl⟩
    | cons l ls ih =>
      obtain ⟨hl, hls⟩ := forall_mem_cons.mp h
      have hsingle : Matched before [l] (ls.head?.or after) :=
        matched_singleton (by simp [blockMark_eq_none hl])
      have hrest : Matched ([l].getLast?.or before) ls after := (ih hls).1
      have hdepth : blockDepth ([l].getLast?.or before) ls after = 0 := (ih hls).2
      refine ⟨hsingle.append hrest, ?_⟩
      have happend := hrest.blockDepth_append
      rw [hdepth] at happend
      refine happend.trans ?_
      simp [blockDepth, blockMarks, blockMark_eq_none hl, BlockMark.depthBehind]
  exact ⟨hparens, hblocks.1, hblocks.2⟩

end Nesting

/-! ## A text in front of a script -/

/-- A text that its first and last lexeme bound: no literal is left open, and no directive and no
delimiter stands in it. -/
structure IsWhole (source : Text) : Prop where
  starts : ∀ l ∈ (scanScript source).head?, l.start = 0
  stops : (scanScript source).getLast?.map (·.stop) = some (byteLength source)
  trimmed : ∀ c ∈ source.getLast?, isBlank c = false
  plain : ∀ l ∈ scanScript source, l.isBoundary = false
  closed : Scan.LiteralsClosed source

variable {ks ms : List Lexeme}

namespace IsWhole

variable {source : Text} (h : IsWhole source)

include h

lemma scanScript_append :
    scanScript (source ++ [';']) = scanScript source ++ [semicolonBehind source] ∧
      ∀ b, scanScript (source ++ ';' :: '\n' :: b) = scanScript source ++
        semicolonBehind source :: (scanScript b).map (shift (byteLength source + 2)) := by
  obtain ⟨l, hl, hstop⟩ := map_eq_some_iff.mp h.stops
  have hdir : ∀ m ∈ scanScript source, m.kind ≠ .directive := by
    intro m hm hk
    have hplain := h.plain m hm
    rw [Lexeme.isBoundary, hk] at hplain
    cases hplain
  obtain ⟨st, hrun, hst⟩ := Scan.exists_run_semicolon h.closed (mem_of_getLast? hl) hstop hdir
    h.trimmed
  exact Scan.scanScript_append hrun hst

lemma scanScript_ne_nil : scanScript source ≠ [] := by
  intro hnil
  have hstops := h.stops
  rw [hnil] at hstops
  cases hstops

lemma ofGroup_scanScript (z : Text) :
    ofGroup (source ++ z) (scanScript source) = ⟨0, source⟩ := by
  have hstart : groupStart (scanScript source) = 0 := by
    obtain ⟨l, ls, hscan⟩ := exists_cons_of_ne_nil h.scanScript_ne_nil
    have hfirst := h.starts l (by rw [hscan]; rfl)
    rw [hscan]
    exact hfirst
  have hstop : groupStop (scanScript source) = byteLength source := by rw [groupStop, h.stops]; rfl
  have hslice : slice 0 (byteLength source) (source ++ z) = source := by
    simpa using slice_append [] source z
  rw [ofGroup, hstart, hstop, hslice]

/-- **When a text in front of a script is a statement**, if no lexeme in it ends one: exactly if the
semicolon behind it does.

**Proof sketch.** If the semicolon ends the statement, the text is one on its own, and so it is in
front of a script (`splitStatements_append`). If not, the semicolon belongs to the first statement,
which then reaches behind the text. -/
lemma splitStatements_append_iff (hinner : ∀ ks l ms, scanScript source = ks ++ l :: ms →
      (behind {} ks (some l)).ends l = false) (b : Text) :
    splitStatements (source ++ ';' :: '\n' :: b) =
        ⟨0, source⟩ :: (splitStatements b).map (Statement.shift (byteLength source + 2)) ↔
      (read {} none (scanScript source) (some (semicolonBehind source))).canSplit =
        true := by
  set p := behind {} (scanScript source) (some (semicolonBehind source)) with hp
  have hcurrent : p.current = scanScript source := rfl
  show _ ↔ p.ends (semicolonBehind source)
  constructor
  · intro hsplit
    by_contra hno
    have hgroups (ls : List Lexeme) : groups {}
        (scanScript source ++ semicolonBehind source :: ls) =
        (p.step (semicolonBehind source) ls.head?).groups ls := by
      rw [groups_of_not_ends _ hinner, head?_cons, ← hp, Progress.groups,
        Progress.closed, if_neg hno, nil_append]
    have hstep (after : Option Lexeme) : (p.step (semicolonBehind source) after).current =
        scanScript source ++ [semicolonBehind source] := by
      rw [step, if_neg hno, ← hcurrent]
    obtain ⟨ms, gs, hfirst⟩ := exists_groups_eq_cons
      (p := p.step (semicolonBehind source)
        ((scanScript b).map (Lexeme.shift (byteLength source + 2))).head?)
      (by simp [hstep]) ((scanScript b).map (Lexeme.shift (byteLength source + 2)))
    have hall := hgroups ((scanScript b).map (Lexeme.shift (byteLength source + 2)))
    rw [← h.scanScript_append.2 b, hfirst, hstep] at hall
    rw [splitStatements_eq_groups, hall, map_cons] at hsplit
    have hstatement := (cons.inj hsplit).1
    -- the semicolon lies in the first statement
    have hmem := (grouping_scanScript (source ++ ';' :: '\n' :: b)).of_mem
      (hall ▸ mem_cons_self)
    have hinside := inside_ofGroup (Scan.lossless_scanFrom true {} _) hmem.2.1
      (show semicolonBehind source ∈ _ by simp)
    have hstop : byteLength source + 1 ≤ 0 + byteLength source := (hstatement ▸ hinside).2
    omega
  · intro hyes
    apply splitStatements_append
    have hgroups : groups {} (scanScript source ++ [semicolonBehind source]) =
        [scanScript source] := by
      rw [groups_of_not_ends _ hinner, head?_cons, ← hp, Progress.groups,
        Progress.closed, if_pos hyes, Progress.step, if_pos hyes, Progress.finished,
        if_neg (by rw [hcurrent]; exact h.scanScript_ne_nil), hcurrent]
      rfl
    rw [IsStatement, splitStatements_eq_groups, h.scanScript_append.1, hgroups, map_singleton,
      h.ofGroup_scanScript]

lemma splitStatements_append_ne (hks : scanScript source = ks ++ l :: ms) (hne : ks ≠ [])
    (hinner : ∀ xs m ys, ks = xs ++ m :: ys → (behind {} xs (some m)).ends m = false)
    (hl : (behind {} ks (some l)).ends l) (b : Text) (ss : List Statement) :
    splitStatements (source ++ ';' :: '\n' :: b) ≠ ⟨0, source⟩ :: ss := by
  intro hsplit
  have hscan := h.scanScript_append.2 b
  rw [hks, append_assoc, cons_append] at hscan
  have hgroups : ∃ gs, Progress.groups {} (scanScript (source ++ ';' :: '\n' :: b)) = ks :: gs := by
    rw [hscan, groups_of_not_ends _ hinner, head?_cons, Progress.groups,
      Progress.closed, if_pos hl, Progress.finished, if_neg (by simpa [Progress.behind] using hne)]
    exact ⟨_, rfl⟩
  obtain ⟨gs, hgroups⟩ := hgroups
  rw [splitStatements_eq_groups, hgroups, map_cons] at hsplit
  have hstatement := (cons.inj hsplit).1
  have hstop := stop_ofGroup (Scan.lossless_scanFrom true {} (source ++ ';' :: '\n' :: b))
    ((grouping_scanScript _).of_mem (hgroups ▸ mem_cons_self)).2.1 hne
  rw [hstatement] at hstop
  -- the lexeme stands behind the group and in the text
  obtain ⟨k, hk, hlast⟩ := exists_stop_eq hne
  have hlossless := Scan.lossless_scanFrom true {} source
  rw [← scanScript, hks] at hlossless
  have h₁ := (pairwise_append.mp hlossless.ordered).2.2 k hk l mem_cons_self
  have h₂ := hlossless.start_lt_stop l (by simp)
  have h₃ := hlossless.stop_le l (by simp)
  have h₄ : 0 + byteLength source = groupStop ks := hstop
  omega

end IsWhole

/-! ## Bodies of packages -/

variable {s : Splitter}

lemma Splitter.canSplit_observe_name {m n : Lexeme} (hm : m.isWord "END")
    (hl : l.isName) (hend : l.isWord "END" = false) (hn : n.isSymbol ';') :
    (s.observe (some m) l (some n)).canSplit = s.canSplit := by
  have hmark : blockMark (some m) l (some n) = .none := by simp [blockMark, hend, hm, hn]
  obtain ⟨hbody, hdeclare, hopens⟩ := s.announces_of_semicolon hn (some m) l
  have hparens : depthBehind s.parens l = s.parens := by
    simp only [isName, Bool.or_eq_true, beq_iff_eq] at hl
    rcases hl with hl | hl <;> simp [depthBehind, isSymbol, hl]
  rw [canSplit, parens_observe, hparens, awaitingBody_observe, depth_observe, hmark, hbody,
    hdeclare, hopens]
  simp [canSplit, BlockMark.depthBehind]

variable {after : Option Lexeme} {ls : List Lexeme}

lemma Splitter.awaitingBody_read_eq_false {before : Option Lexeme} (hs : s.awaitingBody = false)
    (h : ∀ ks l ms, ls = ks ++ l :: ms →
      bodyFollows (ks.getLast?.or before) l (ms.head?.or after) = false ∧
        declarationsFollow l (ms.head?.or after) = false) :
    (s.read before ls after).awaitingBody = false := by
  induction ls using reverseRecOn generalizing after with
  | nil => exact hs
  | append_singleton ls l ih =>
    have hls : (s.read before ls (some l)).awaitingBody = false := by
      apply ih
      rintro ks m ms rfl
      have hm := h ks m (ms ++ [l]) (by simp)
      rwa [head?_append, Option.or_assoc] at hm
    have hlast : bodyFollows (ls.getLast?.or before) l after = false ∧
        declarationsFollow l after = false := h ls l [] rfl
    rw [read_concat, awaitingBody_observe, hls, hlast.1, hlast.2]
    simp

/-- The words that start the definition of the body of a package. -/
def packageHeads : List (List String) :=
  [["CREATE", "PACKAGE", "BODY"], ["CREATE", "OR", "REPLACE", "PACKAGE", "BODY"]]

/-- The words that open or close a block or announce a body. -/
def nestingWords : List String := ["BEGIN", "CASE", "END", "IS", "AS", "DECLARE"]

/-- A text that defines the body of a package: its lexemes are the words of the header, a name, the
`AS` or `IS` behind it, the members, perhaps a `BEGIN` and statements, the last `END` and perhaps a
name. The parentheses and blocks of the members and of the statements are closed. -/
structure IsPackageBody (source : Text) (head name : List Lexeme) (link : Lexeme)
    (members init : List Lexeme) (last : Lexeme) (rest : List Lexeme) : Prop where
  whole : IsWhole source
  scan : scanScript source = head ++ (name ++ link :: (members ++ (init ++ last :: rest)))
  spells : ∃ ws ∈ packageHeads, Spells head ws
  name_ne_nil : name ≠ []
  is_name : ∀ l ∈ name, (l.isName ∨ l.isSymbol '.') ∧
    l.isAnyWord nestingWords = false
  is_link : link.isAnyWord ["IS", "AS"]
  members_nested : WellNested (some link) members (init ++ [last]).head?
  is_init : ∀ first stmts, init = first :: stmts →
    first.isWord "BEGIN" ∧ WellNested (some first) stmts (some last)
  is_last : last.isWord "END"
  is_rest : ∀ l ∈ rest, rest = [l] ∧ l.isName ∧
    l.isAnyWord ("END" :: uncountedEndWords) = false

namespace IsPackageBody

variable {source : Text} {head name : List Lexeme} {link : Lexeme} {members init : List Lexeme}
  {last : Lexeme} {rest : List Lexeme}
  (h : IsPackageBody source head name link members init last rest)

include h

lemma of_mem_header (hl : l ∈ head ++ name) :
    l.isAnyWord nestingWords = false ∧ (l.isName ∨ l.isSymbol '.') := by
  rcases mem_append.mp hl with hl | hl
  · obtain ⟨ws, hws, hspells⟩ := h.spells
    obtain ⟨w, hw, hword⟩ := hspells.exists_isWord hl
    obtain ⟨hk, rfl⟩ := isWord_iff.mp hword
    have hupper : l.upper ∈ ["CREATE", "OR", "REPLACE", "PACKAGE", "BODY"] := by
      simp only [packageHeads, mem_cons, not_mem_nil, or_false] at hws
      rcases hws with rfl | rfl <;> simp at hw ⊢ <;> tauto
    refine ⟨?_, .inl (by simp [isName, hk])⟩
    simp only [mem_cons, not_mem_nil, or_false] at hupper
    rcases hupper with hu | hu | hu | hu | hu <;> simp [isAnyWord, hk, hu, nestingWords]
  · exact (h.is_name l hl).symm

lemma definesPackage : DefinesPackage (head ++ name) (some link) := by
  obtain ⟨ws, hws, hspells⟩ := h.spells
  simp only [packageHeads, mem_cons, not_mem_nil, or_false] at hws
  rcases hws with rfl | rfl
  · rcases hspells with _ | ⟨h₁, _ | ⟨h₂, hrest⟩⟩
    obtain ⟨hk, hu⟩ := isWord_iff.mp h₁
    refine ⟨[_], _, _, rfl, by simp, by simp [headerWindow], ?_,
      by simp [isPackageWord, h₂]⟩
    rintro first tail ⟨⟩
    exact ⟨by simp [isAnyWord, hk, hu], by simp⟩
  · rcases hspells with _ | ⟨h₁, _ | ⟨h₂, _ | ⟨h₃, _ | ⟨h₄, hrest⟩⟩⟩⟩
    obtain ⟨hk, hu⟩ := isWord_iff.mp h₁
    obtain ⟨hk₂, hu₂⟩ := isWord_iff.mp h₂
    obtain ⟨hk₃, hu₃⟩ := isWord_iff.mp h₃
    refine ⟨[_, _, _], _, _, rfl, by simp, by simp [headerWindow], ?_,
      by simp [isPackageWord, h₄]⟩
    rintro first tail ⟨⟩
    refine ⟨by simp [isAnyWord, hk, hu], ?_⟩
    simp [endsHeader, isSymbol, isAnyWord, hk₂, hu₂, hk₃, hu₃,
      plainObjectWords, routineWords]

lemma link_eq : link.kind = .word ∧ (link.upper = "IS" ∨ link.upper = "AS") := by
  simpa [isAnyWord] using h.is_link

lemma isSymbol_eq_false (hl : l ∈ head ++ name ++ [link]) {c : Char} (hc : c ≠ '.') :
    l.isSymbol c = false := by
  rw [mem_append, mem_singleton] at hl
  rcases hl with hl | rfl
  · obtain ⟨-, hname⟩ := h.of_mem_header hl
    exact isSymbol_eq_false_of_name hname hc
  · simp [isSymbol, h.link_eq.1]

lemma isAnyWord_eq_false (hl : l ∈ head ++ name ++ [link]) :
    l.isAnyWord ["BEGIN", "CASE", "END"] = false := by
  rw [mem_append, mem_singleton] at hl
  rcases hl with hl | rfl
  · exact isAnyWord_eq_false_of_subset (h.of_mem_header hl).1 (by decide)
  · obtain ⟨hk, hu | hu⟩ := h.link_eq <;> simp [isAnyWord, hk, hu]

lemma parenDepth_header (hls : ls ⊆ head ++ name ++ [link]) : parenDepth ls = 0 :=
  parenDepth_eq_zero fun _ hl =>
    ⟨h.isSymbol_eq_false (hls hl) (by decide), h.isSymbol_eq_false (hls hl) (by decide)⟩

lemma getLast?_header : (head ++ name).getLast? = name.getLast? := by
  rw [getLast?_append, getLast?_eq_some_getLast h.name_ne_nil]
  rfl

lemma wellNested_header : WellNested none (head ++ name ++ [link]) after :=
  wellNested_of_plain (fun _ hl => h.isAnyWord_eq_false hl) (h.parenDepth_header fun _ => id)

lemma opensPackage (hfollows : bodyFollows name.getLast? link (ms.head?.or after)) :
    OpensPackage (head ++ name ++ [link] ++ ms) after := by
  have hparens : parenDepth (head ++ name) = 0 :=
    h.parenDepth_header (subset_append_left _ _)
  exact ⟨head ++ name, link, ms, by simp, h.definesPackage, hparens, by rwa [h.getLast?_header]⟩

lemma blockDepth_init {first : Lexeme} {stmts : List Lexeme} (hinit : init = first :: stmts)
    (before : Option Lexeme) : blockDepth before init (some last) =
      (blockMark none first (stmts.head?.or (some last))).depthBehind 0 := by
  obtain ⟨hfirst, hstmts⟩ := h.is_init first stmts hinit
  have hmark : blockMark before first (stmts.head?.or (some last)) =
      blockMark none first (stmts.head?.or (some last)) := by
    simp [blockMark, hfirst]
  have hmatched : Matched ([first].getLast?.or before) stmts (some last) := hstmts.matched
  have hblocks : blockDepth ([first].getLast?.or before) stmts (some last) = 0 := hstmts.blocks
  have happend := hmatched.blockDepth_append
  rw [hblocks, Nat.zero_add] at happend
  rw [hinit, ← hmark]
  exact happend

lemma blockDepth_init_eq_zero_iff : blockDepth none init (some last) = 0 ↔
    ∀ first stmts, init = first :: stmts →
      blockMark none first (stmts.head?.or (some last)) ≠ .opens := by
  cases hinit : init with
  | nil => exact iff_of_true rfl (fun _ _ hnil => by cases hnil)
  | cons first stmts =>
    rw [← hinit, h.blockDepth_init hinit]
    constructor
    · rintro hzero f ss heq hopens
      obtain ⟨rfl, rfl⟩ := cons.inj (hinit.symm.trans heq)
      rw [hopens] at hzero
      cases hzero
    · intro hno
      cases hm : blockMark none first (stmts.head?.or (some last)) with
      | opens => exact absurd hm (hno first stmts hinit)
      | closes => rfl
      | none => rfl

lemma of_init (before : Option Lexeme) : Matched before init (some last) ∧ parenDepth init = 0 ∧
    blockDepth before init (some last) = blockDepth none init (some last) := by
  cases hinit : init with
  | nil => exact ⟨fun ks l ms hks => by simp at hks, rfl, rfl⟩
  | cons first stmts =>
    obtain ⟨hfirst, hstmts⟩ := h.is_init first stmts hinit
    have hsingle : Matched before [first] (stmts.head?.or (some last)) := by
      apply matched_singleton
      unfold blockMark
      rw [if_pos hfirst]
      split
      · split_ifs <;> simp
      · simp
    obtain ⟨hk, -⟩ := isWord_iff.mp hfirst
    refine ⟨hsingle.append hstmts.matched, ?_, ?_⟩
    · have hparens := hstmts.parens
      rw [parenDepth] at hparens ⊢
      rw [foldl_cons, depthBehind]
      simpa [isSymbol, hk] using hparens
    · rw [← hinit, h.blockDepth_init hinit, h.blockDepth_init hinit]

/-- The block that the `BEGIN` of the package opens, if it opens one, is open before the last
`END`; all other blocks are closed there. -/
lemma matched_inner : Matched none (head ++ name ++ [link] ++ (members ++ init)) (some last) ∧
    parenDepth (head ++ name ++ [link] ++ (members ++ init)) = 0 ∧
    blockDepth none (head ++ name ++ [link] ++ (members ++ init)) (some last) =
      blockDepth none init (some last) := by
  have hmembers : WellNested (some link) members (init.head?.or (some last)) := by
    have hnested := h.members_nested
    rwa [head?_append] at hnested
  have houter : WellNested none (head ++ name ++ [link] ++ members)
      (init.head?.or (some last)) := by
    refine WellNested.append h.wellNested_header ?_
    rwa [getLast?_concat, some_or]
  obtain ⟨hmatched, hparens, hdepth⟩ :=
    h.of_init ((head ++ name ++ [link] ++ members).getLast?.or none)
  rw [← append_assoc]
  refine ⟨houter.matched.append hmatched, ?_, ?_⟩
  · have hinit : init.foldl depthBehind (parenDepth (head ++ name ++ [link] ++ members)) = 0 := by
      rw [houter.parens]
      exact hparens
    rwa [parenDepth, foldl_append]
  · rw [hmatched.blockDepth_append, houter.blocks, hdepth, Nat.add_zero]

lemma scan_eq : scanScript source =
    head ++ name ++ [link] ++ (members ++ init) ++ last :: rest := by
  rw [h.scan]
  simp

section Follows

variable (hfollows : bodyFollows name.getLast? link (members ++ (init ++ [last])).head?)

include hfollows

/-- **Semicolons in the package**: a block is open in front of each of them. -/
lemma depth_pos (hks : scanScript source = ks ++ l :: ms)
    (hl : l.isSymbol ';') : 1 ≤ (read {} none ks (some l)).depth := by
  obtain ⟨hsymbol, -⟩ := isSymbol_iff.mp hl
  obtain ⟨xs, ys, rfl, hinner⟩ : ∃ xs ys, ks = head ++ name ++ [link] ++ xs ∧
      members ++ init = xs ++ l :: ys := by
    rw [h.scan_eq] at hks
    rcases split_append_cons hks with ⟨ns, hns, -⟩ | ⟨-, rfl, -⟩ | ⟨ns, -, rfl⟩
    · rcases append_eq_append_iff.mp hns with ⟨xs, rfl, hxs⟩ | ⟨xs, hpre, hxs⟩
      · exact ⟨xs, ns, rfl, hxs⟩
      · cases xs with
        | nil => exact ⟨[], ns, by rw [hpre]; simp, hxs.symm⟩
        | cons x xs =>
          obtain ⟨rfl, -⟩ := cons.inj hxs
          have hnot := h.isSymbol_eq_false (l := l) (c := ';') (by rw [hpre]; simp) (by decide)
          rw [hl] at hnot
          cases hnot
    · have hword := (isWord_iff.mp h.is_last).1
      rw [hsymbol] at hword
      cases hword
    · have hname := (h.is_rest l (by simp)).2.1
      simp [isName, hsymbol] at hname
  have hmatched := h.matched_inner.1
  rw [hinner, ← append_assoc] at hmatched
  have hopened : (read {} none (head ++ name ++ [link] ++ xs) (some l)).packageOpened =
      true := by
    rw [packageOpened_read]
    apply h.opensPackage
    rwa [← append_assoc, hinner, append_assoc, head?_append] at hfollows
  have hdepth := depth_read (show Matched none _ (some l) from hmatched.of_append)
  rw [hopened] at hdepth
  rw [hdepth]
  exact Nat.le_add_left _ _

/-- **Before the last `END`**, the package is open, and the block that its `BEGIN` opens. -/
lemma depth_inner : (read {} none (head ++ name ++ [link] ++ (members ++ init))
    (some last)).depth = blockDepth none init (some last) + 1 := by
  obtain ⟨hmatched, -, hdepth⟩ := h.matched_inner
  have hopened : (read {} none (head ++ name ++ [link] ++ (members ++ init))
      (some last)).packageOpened := by
    rw [packageOpened_read]
    apply h.opensPackage
    rwa [← append_assoc, head?_append] at hfollows
  rw [depth_read hmatched, hdepth, hopened]
  rfl

/-- **Behind the last `END`** a semicolon ends the statement exactly if the statements of the
package leave no block open. -/
lemma canSplit_last (hafter : after.any (·.isAnyWord uncountedEndWords) = false) :
    (read {} none (head ++ name ++ [link] ++ (members ++ init) ++ [last]) after).canSplit =
      (blockDepth none init (some last) == 0) := by
  obtain ⟨hk, hu⟩ := isWord_iff.mp h.is_last
  obtain ⟨-, hparens, -⟩ := h.matched_inner
  have hdepth := h.depth_inner hfollows
  rw [read_concat]
  set s := read {} none (head ++ name ++ [link] ++ (members ++ init)) (some last)
  set before := (head ++ name ++ [link] ++ (members ++ init)).getLast?.or none
  have hzero : depthBehind s.parens last = 0 := by
    have hread : s.parens = 0 := (parens_read {} none (some last) _).trans hparens
    simp [depthBehind, isSymbol, hk, hread]
  have hmark : blockMark before last after = .closes := by
    simp [blockMark, isWord, hk, hu, hafter]
  have hbody : bodyFollows before last after = false := by
    simp [bodyFollows, isAnyWord, hu]
  have hdeclare : declarationsFollow last after = false := by
    simp [declarationsFollow, Lexeme.isWord, hu]
  have hopens : s.opensPackage before last after = false := by simp [Splitter.opensPackage, hbody]
  rw [Splitter.canSplit, parens_observe, hzero, awaitingBody_observe,
    depth_observe, hmark, hbody, hdeclare, hopens, hdepth]
  rcases Nat.eq_zero_or_pos (blockDepth none init (some last)) with hout | hin
  · simp [hout, BlockMark.depthBehind]
  · have hne : blockDepth none init (some last) ≠ 0 := by omega
    simp [BlockMark.depthBehind, hne]

/-- **When the semicolon behind the package ends it**: exactly if the statements of the package
leave no block open. -/
lemma canSplit_read {n : Lexeme} (hn : n.isSymbol ';') :
    (read {} none (scanScript source) (some n)).canSplit =
      (blockDepth none init (some last) == 0) := by
  obtain ⟨hk, -⟩ := isSymbol_iff.mp hn
  rw [h.scan_eq, append_cons]
  rcases eq_nil_or_concat' rest with rfl | ⟨ls, l, hrest⟩
  · rw [append_nil]
    exact h.canSplit_last hfollows (by simp [isAnyWord, hk])
  · obtain ⟨rfl, hname, hwords⟩ := h.is_rest l (by rw [hrest]; simp)
    rw [isAnyWord_eq_false_iff, forall_mem_cons, ← isAnyWord_eq_false_iff] at hwords
    rw [read_concat, getLast?_concat, some_or, canSplit_observe_name h.is_last hname hwords.1 hn]
    exact h.canSplit_last hfollows (by simpa using hwords.2)

/-- **A package in front of a script** is a statement exactly if its own statements leave no block
open. -/
lemma splitStatements_append_iff (b : Text) : splitStatements (source ++ ';' :: '\n' :: b) =
        ⟨0, source⟩ :: (splitStatements b).map (Statement.shift (byteLength source + 2)) ↔
      blockDepth none init (some last) = 0 := by
  have hinner (ks : List Lexeme) (l : Lexeme) (ms : List Lexeme)
      (hks : scanScript source = ks ++ l :: ms) :
      (behind {} ks (some l)).ends l = false := by
    rw [ends, h.whole.plain l (by rw [hks]; simp), Bool.false_or]
    cases hl : l.isSymbol ';' with
    | false => rfl
    | true =>
      have hpos := h.depth_pos hfollows hks hl
      have hdepth : ((behind {} ks (some l)).splitter.depth == 0) = false :=
        beq_eq_false_iff_ne.mpr (Nat.ne_of_gt hpos)
      rw [canSplit, hdepth]
      simp
  rw [h.whole.splitStatements_append_iff hinner, h.canSplit_read hfollows rfl, beq_iff_eq]

end Follows

section NotFollows

variable {decl more : List Lexeme} {semi : Lexeme}
  (hfollows : bodyFollows name.getLast? link (members ++ (init ++ [last])).head? = false)
  (hmembers : members = decl ++ semi :: more) (hsemi : semi.isSymbol ';')
  (hdecl : ∀ l ∈ decl, l.isSymbol ';' = false ∧ l.isAnyWord ["IS", "AS", "DECLARE"] = false)
  (hnested : WellNested (some link) decl (some semi))

include hfollows hmembers hdecl in
lemma not_announced (hks : head ++ name ++ [link] ++ decl = ks ++ l :: ms) :
    bodyFollows ks.getLast? l (ms.head?.or (some semi)) = false ∧
      declarationsFollow l (ms.head?.or (some semi)) = false := by
  -- a lexeme other than the link is none of the words
  have hword (hl : l.isAnyWord ["IS", "AS", "DECLARE"] = false) :
      bodyFollows ks.getLast? l (ms.head?.or (some semi)) = false ∧
        declarationsFollow l (ms.head?.or (some semi)) = false := by
    have hbody : l.isAnyWord ["IS", "AS"] = false :=
      isAnyWord_eq_false_of_subset hl (by decide)
    have hdeclare : l.isWord "DECLARE" = false :=
      isAnyWord_eq_false_iff.mp hl "DECLARE" (by decide)
    exact ⟨by simp [bodyFollows, hbody], by simp [declarationsFollow, hdeclare]⟩
  rw [← append_cons] at hks
  rcases split_append_cons hks with ⟨ns, hns, -⟩ | ⟨rfl, rfl, rfl⟩ | ⟨ns, -, rfl⟩
  · have hwords := (h.of_mem_header (l := l) (by rw [hns]; simp)).1
    exact hword (isAnyWord_eq_false_of_subset hwords (by decide))
  · have hhead : (members ++ (init ++ [last])).head? = decl.head?.or (some semi) := by
      rw [hmembers, append_assoc, head?_append]
      rfl
    rw [hhead] at hfollows
    rw [h.getLast?_header]
    refine ⟨hfollows, ?_⟩
    obtain ⟨-, hu | hu⟩ := h.link_eq <;> simp [declarationsFollow, isWord, hu]
  · exact hword (hdecl l (by simp)).2

include hfollows hmembers hdecl hnested in
/-- **The first semicolon of the members** ends the statement, if the package does not count as a
block. -/
lemma canSplit_decl :
    (read {} none (head ++ name ++ [link] ++ decl) (some semi)).canSplit := by
  have houter : WellNested none (head ++ name ++ [link] ++ decl) (some semi) := by
    refine WellNested.append h.wellNested_header ?_
    rwa [getLast?_concat, some_or]
  have hquiet : (read {} none (head ++ name ++ [link] ++ decl) (some semi)).awaitingBody =
      false := by
    refine awaitingBody_read_eq_false rfl fun ks l ms hks => ?_
    rw [or_none]
    exact h.not_announced hfollows hmembers hdecl hks
  have hclosed : (read {} none (head ++ name ++ [link] ++ decl)
      (some semi)).packageOpened = false := by
    rw [← Bool.not_eq_true, packageOpened_read]
    rintro ⟨ks, l, ms, hks, -, -, hbody⟩
    rw [(h.not_announced hfollows hmembers hdecl hks).1] at hbody
    cases hbody
  have hdepth := depth_read houter.matched
  have hparens := (parens_read {} none (some semi) (head ++ name ++ [link] ++ decl)).trans
    houter.parens
  rw [houter.blocks, hclosed] at hdepth
  rw [canSplit, hdepth, hparens, hquiet]
  rfl

include hfollows hmembers hsemi hdecl hnested in
/-- **A package that does not count as a block** is cut at the first semicolon of its members. -/
lemma splitStatements_append_ne (b : Text) (ss : List Statement) :
    splitStatements (source ++ ';' :: '\n' :: b) ≠ ⟨0, source⟩ :: ss := by
  have hscan : scanScript source =
      head ++ name ++ [link] ++ decl ++ semi :: (more ++ (init ++ last :: rest)) := by
    rw [h.scan, hmembers]
    simp
  have hends (ks : List Lexeme) (l : Lexeme) (hl : l ∈ scanScript source) :
      (behind {} ks (some l)).ends l = (l.isSymbol ';' &&
        (read {} none ks (some l)).canSplit) := by
    rw [ends, h.whole.plain l hl]
    simp [behind]
  refine h.whole.splitStatements_append_ne hscan (by simp) (fun ks l ms hks => ?_) ?_ b ss
  · have hmem : l ∈ head ++ name ++ [link] ++ decl := by rw [hks]; simp
    have hno : l.isSymbol ';' = false := by
      rcases mem_append.mp hmem with hmem | hmem
      · exact h.isSymbol_eq_false hmem (by decide)
      · exact (hdecl l hmem).1
    rw [hends ks l (by rw [hscan]; exact mem_append_left _ hmem), hno, Bool.false_and]
  · rw [hends _ semi (by rw [hscan]; simp), hsemi,
      h.canSplit_decl hfollows hmembers hdecl hnested, Bool.and_self]

end NotFollows

end IsPackageBody

/-- **The semicolon behind the body of a package** ends its statement exactly if the package has no
statements of its own, or only such whose `BEGIN` opens no block. So it is where a word follows the
`AS` or `IS`. Where none does, the first semicolon in the members ends the statement. -/
theorem splitStatements_packageBody {source : Text} {head name members init rest : List Lexeme}
    {link last : Lexeme} (h : IsPackageBody source head name link members init last rest)
    (b : Text) :
    (bodyFollows name.getLast? link (members ++ (init ++ [last])).head? = true →
      (splitStatements (source ++ ';' :: '\n' :: b) =
          ⟨0, source⟩ :: (splitStatements b).map (Statement.shift (byteLength source + 2)) ↔
        ∀ first stmts, init = first :: stmts →
          blockMark none first (stmts.head?.or (some last)) ≠ .opens)) ∧
    (bodyFollows name.getLast? link (members ++ (init ++ [last])).head? = false →
      ∀ decl semi more, members = decl ++ semi :: more → semi.isSymbol ';' = true →
        (∀ l ∈ decl, l.isSymbol ';' = false ∧ l.isAnyWord ["IS", "AS", "DECLARE"] = false) →
        WellNested (some link) decl (some semi) →
        splitStatements (source ++ ';' :: '\n' :: b) ≠
          ⟨0, source⟩ :: (splitStatements b).map (Statement.shift (byteLength source + 2))) := by
  refine ⟨fun hfollows => ?_, fun hfollows decl semi more hmembers hsemi hdecl hnested => ?_⟩
  · rw [h.splitStatements_append_iff hfollows b, h.blockDepth_init_eq_zero_iff]
  · exact h.splitStatements_append_ne hfollows hmembers hsemi hdecl hnested b _

/-- A package with a procedure and no statements of its own ends at its semicolon. One whose first
member has a quoted name is cut behind that member. -/
theorem splitStatements_packageBody_member :
    (IsPackageBody "CREATE PACKAGE BODY p AS PROCEDURE q IS BEGIN NULL; END; END p".toList
        [⟨.word, "CREATE".toList, 0⟩, ⟨.word, "PACKAGE".toList, 7⟩, ⟨.word, "BODY".toList, 15⟩]
        [⟨.word, ['p'], 20⟩] ⟨.word, "AS".toList, 22⟩
        [⟨.word, "PROCEDURE".toList, 25⟩, ⟨.word, ['q'], 35⟩, ⟨.word, "IS".toList, 37⟩,
          ⟨.word, "BEGIN".toList, 40⟩, ⟨.word, "NULL".toList, 46⟩, ⟨.symbol, [';'], 50⟩,
          ⟨.word, "END".toList, 52⟩, ⟨.symbol, [';'], 55⟩]
        [] ⟨.word, "END".toList, 57⟩ [⟨.word, ['p'], 61⟩] ∧
      splitStatements ("CREATE PACKAGE BODY p AS PROCEDURE q IS BEGIN NULL; END; END p".toList ++
          ';' :: '\n' :: "SELECT 1;".toList) =
        ⟨0, "CREATE PACKAGE BODY p AS PROCEDURE q IS BEGIN NULL; END; END p".toList⟩ ::
          (splitStatements "SELECT 1;".toList).map (Statement.shift (byteLength
            "CREATE PACKAGE BODY p AS PROCEDURE q IS BEGIN NULL; END; END p".toList + 2))) ∧
    (IsPackageBody "CREATE PACKAGE BODY p AS \"x\" NUMBER; END p".toList
        [⟨.word, "CREATE".toList, 0⟩, ⟨.word, "PACKAGE".toList, 7⟩, ⟨.word, "BODY".toList, 15⟩]
        [⟨.word, ['p'], 20⟩] ⟨.word, "AS".toList, 22⟩
        [⟨.quotedIdent, "\"x\"".toList, 25⟩, ⟨.word, "NUMBER".toList, 29⟩, ⟨.symbol, [';'], 35⟩]
        [] ⟨.word, "END".toList, 37⟩ [⟨.word, ['p'], 41⟩] ∧
      splitStatements ("CREATE PACKAGE BODY p AS \"x\" NUMBER; END p".toList ++
          ';' :: '\n' :: "SELECT 1;".toList) ≠
        ⟨0, "CREATE PACKAGE BODY p AS \"x\" NUMBER; END p".toList⟩ ::
          (splitStatements "SELECT 1;".toList).map (Statement.shift (byteLength
            "CREATE PACKAGE BODY p AS \"x\" NUMBER; END p".toList + 2))) :=
  have hmember := IsPackageBody.mk
    ⟨by decide +kernel, by decide +kernel, by decide +kernel, by decide +kernel, by decide +kernel⟩
    (by decide +kernel) (by decide +kernel) (by decide) (by decide +kernel) (by decide)
    (by decide) (fun _ _ hnil => by cases hnil) rfl (by decide)
  have hquoted := IsPackageBody.mk
    ⟨by decide +kernel, by decide +kernel, by decide +kernel, by decide +kernel, by decide +kernel⟩
    (by decide +kernel) (by decide +kernel) (by decide) (by decide +kernel) (by decide)
    (by decide) (fun _ _ hnil => by cases hnil) rfl (by decide)
  ⟨⟨hmember, ((splitStatements_packageBody hmember _).1 (by decide)).mpr
      fun _ _ hnil => by cases hnil⟩,
    ⟨hquoted, (splitStatements_packageBody hquoted _).2 (by decide)
      [⟨.quotedIdent, "\"x\"".toList, 25⟩, ⟨.word, "NUMBER".toList, 29⟩] ⟨.symbol, [';'], 35⟩ []
      rfl rfl (by decide) (by decide)⟩⟩

/-- A package with statements of its own goes on behind its semicolon, to the end of the script. -/
theorem splitStatements_packageBody_own :
    IsPackageBody "CREATE PACKAGE BODY p AS PROCEDURE q IS BEGIN NULL; END; BEGIN q; END p".toList
        [⟨.word, "CREATE".toList, 0⟩, ⟨.word, "PACKAGE".toList, 7⟩, ⟨.word, "BODY".toList, 15⟩]
        [⟨.word, ['p'], 20⟩] ⟨.word, "AS".toList, 22⟩
        [⟨.word, "PROCEDURE".toList, 25⟩, ⟨.word, ['q'], 35⟩, ⟨.word, "IS".toList, 37⟩,
          ⟨.word, "BEGIN".toList, 40⟩, ⟨.word, "NULL".toList, 46⟩, ⟨.symbol, [';'], 50⟩,
          ⟨.word, "END".toList, 52⟩, ⟨.symbol, [';'], 55⟩]
        [⟨.word, "BEGIN".toList, 57⟩, ⟨.word, ['q'], 63⟩, ⟨.symbol, [';'], 64⟩]
        ⟨.word, "END".toList, 66⟩ [⟨.word, ['p'], 70⟩] ∧
      splitStatements
          ("CREATE PACKAGE BODY p AS PROCEDURE q IS BEGIN NULL; END; BEGIN q; END p".toList ++
            ';' :: '\n' :: "SELECT 1;".toList) =
        [⟨0, "CREATE PACKAGE BODY p AS PROCEDURE q IS BEGIN NULL; END; BEGIN q; END p".toList ++
          ';' :: '\n' :: "SELECT 1;".toList⟩] := by
  refine ⟨IsPackageBody.mk
    ⟨by decide +kernel, by decide +kernel, by decide +kernel, by decide +kernel, by decide +kernel⟩
    (by decide +kernel) (by decide +kernel) (by decide) (by decide +kernel) (by decide)
    (by decide +kernel) (fun first stmts hinit => ?_) rfl (by decide +kernel), by decide +kernel⟩
  obtain ⟨rfl, rfl⟩ := cons.inj hinit
  exact ⟨rfl, by decide⟩

end SqlOutline
