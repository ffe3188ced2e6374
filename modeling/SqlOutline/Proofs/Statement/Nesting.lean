import SqlOutline.Lexeme.Group
import SqlOutline.Proofs.Statement.Append

/-!
# Nesting

What the splitter keeps in its state is read off the lexemes, each between its neighbours.

## Main definitions

* `blockDepth`, `parenDepth` — the blocks and parentheses that lexemes leave open.
* `bodyFollows`, `declarationsFollow` — words that announce a body.

## Main results

* `observe_eq`, `awaitingBody_observe` — what a lexeme does, and when a body is awaited.
-/

namespace SqlOutline

open List Lexeme

/-! ## Neighbours -/

lemma Lexeme.isWord_iff {l : Lexeme} {w : String} :
    l.isWord w ↔ l.kind = .word ∧ l.upper = w := by
  simp [isWord]

lemma Lexeme.isSymbol_iff {l : Lexeme} {c : Char} :
    l.isSymbol c ↔ l.kind = .symbol ∧ l.text = [c] := by
  simp [isSymbol]

lemma getLast?_or_some {α : Type*} (ls : List α) (l : α) (before : Option α) :
    ls.getLast?.or (some l) = (l :: ls).getLast?.or before := by
  rw [getLast?_cons]
  cases ls.getLast? <;> rfl

lemma split_append_cons {xs ys ks ms : List Lexeme} {x l : Lexeme}
    (h : xs ++ x :: ys = ks ++ l :: ms) :
    (∃ ns, xs = ks ++ l :: ns ∧ ms = ns ++ x :: ys) ∨ (xs = ks ∧ x = l ∧ ys = ms) ∨
      ∃ ns, ks = xs ++ x :: ns ∧ ys = ns ++ l :: ms := by
  rcases append_eq_append_iff.mp h with ⟨ns, rfl, hns⟩ | ⟨ns, rfl, hns⟩
  · cases ns with
    | nil =>
      obtain ⟨rfl, rfl⟩ := cons.inj hns
      exact Or.inr (Or.inl ⟨(append_nil xs).symm, rfl, rfl⟩)
    | cons n ns =>
      obtain ⟨rfl, rfl⟩ := cons.inj hns
      exact Or.inr (Or.inr ⟨ns, rfl, rfl⟩)
  · cases ns with
    | nil =>
      obtain ⟨rfl, rfl⟩ := cons.inj hns
      exact Or.inr (Or.inl ⟨append_nil ks, rfl, rfl⟩)
    | cons n ns =>
      obtain ⟨rfl, rfl⟩ := cons.inj hns
      exact Or.inl ⟨ns, rfl, rfl⟩

lemma exists_split_concat {φ : List Lexeme → Lexeme → List Lexeme → Prop} {ls : List Lexeme}
    {m : Lexeme} : (∃ ks l rest, ls ++ [m] = ks ++ l :: rest ∧ φ ks l rest) ↔
      (∃ ks l rest, ls = ks ++ l :: rest ∧ φ ks l (rest ++ [m])) ∨ φ ls m [] := by
  constructor
  · rintro ⟨ks, l, rest, hls, h⟩
    rcases split_append_cons hls with ⟨ns, rfl, rfl⟩ | ⟨rfl, rfl, rfl⟩ | ⟨ns, -, hnil⟩
    · exact Or.inl ⟨ks, l, ns, rfl, h⟩
    · exact Or.inr h
    · simp at hnil
  · rintro (⟨ks, l, rest, rfl, h⟩ | h)
    · exact ⟨ks, l, rest ++ [m], by simp, h⟩
    · exact ⟨ls, m, [], rfl, h⟩

/-! ## Depths -/

/-- The number of open blocks behind a block mark. An end that matches no start does not count. -/
def BlockMark.depthBehind (depth : Nat) : BlockMark → Nat
  | .opens => depth + 1
  | .closes => depth - 1
  | .none => depth

/-- The block marks of lexemes between the lexemes `before` and `after`. -/
def blockMarks (before : Option Lexeme) (ls : List Lexeme) (after : Option Lexeme) :
    List BlockMark :=
  match ls with
  | [] => []
  | l :: ls => blockMark before l (ls.head?.or after) :: blockMarks (some l) ls after

/-- The number of blocks that lexemes between `before` and `after` leave open. -/
def blockDepth (before : Option Lexeme) (ls : List Lexeme) (after : Option Lexeme) : Nat :=
  (blockMarks before ls after).foldl BlockMark.depthBehind 0

/-- The number of blocks that marks leave open, where `depth` are open in front; `none` if one of
them closes a block that is not open. -/
def BlockMark.nest? : Nat → List BlockMark → Option Nat
  | depth, [] => some depth
  | depth, .opens :: ms => nest? (depth + 1) ms
  | 0, .closes :: _ => .none
  | depth + 1, .closes :: ms => nest? depth ms
  | depth, .none :: ms => nest? depth ms

/-- The number of parentheses that lexemes leave open. -/
def parenDepth (ls : List Lexeme) : Nat := ls.foldl depthBehind 0

lemma parenDepth_eq_zero {ls : List Lexeme}
    (h : ∀ l ∈ ls, l.isSymbol '(' = false ∧ l.isSymbol ')' = false) :
    parenDepth ls = 0 := by
  unfold parenDepth
  induction ls with
  | nil => rfl
  | cons l ls ih =>
    obtain ⟨⟨hopen, hclose⟩, hls⟩ := forall_mem_cons.mp h
    rw [foldl_cons, depthBehind, hopen, hclose]
    exact ih hls

lemma blockMarks_append (before after : Option Lexeme) (ls ms : List Lexeme) :
    blockMarks before (ls ++ ms) after =
      blockMarks before ls (ms.head?.or after) ++ blockMarks (ls.getLast?.or before) ms after := by
  induction ls generalizing before with
  | nil => rfl
  | cons l ls ih =>
    rw [cons_append, blockMarks, ih, head?_append, Option.or_assoc,
      getLast?_or_some ls l before, blockMarks, cons_append]

lemma blockDepth_concat (before after : Option Lexeme) (ls : List Lexeme) (l : Lexeme) :
    blockDepth before (ls ++ [l]) after =
      (blockMark (ls.getLast?.or before) l after).depthBehind (blockDepth before ls (some l)) := by
  rw [blockDepth, blockMarks_append, foldl_append]
  rfl

lemma foldl_depthBehind_of_not_opens {ms : List BlockMark} (h : BlockMark.opens ∉ ms) :
    ms.foldl BlockMark.depthBehind 0 = 0 := by
  induction ms with
  | nil => rfl
  | cons m ms ih =>
    rw [mem_cons, not_or] at h
    have hm : m.depthBehind 0 = 0 := by
      cases m with
      | opens => exact absurd rfl h.1
      | closes => rfl
      | none => rfl
    rw [foldl_cons, hm, ih h.2]

/-! ## Words that announce a body -/

/-- An `AS` or `IS` before a body: a word follows, and no `EXECUTE` stands before. -/
def bodyFollows (before : Option Lexeme) (l : Lexeme) (after : Option Lexeme) : Bool :=
  l.isAnyWord ["IS", "AS"] && !before.any (·.isWord "EXECUTE") && after.any (·.kind == .word)

/-- A `DECLARE` before declarations: a word that names no variable of a session follows. -/
def declarationsFollow (l : Lexeme) (after : Option Lexeme) : Bool :=
  l.isWord "DECLARE" && after.any (fun n => n.kind == .word && !n.startsWith '@')

/-! ## What a lexeme does -/

namespace Splitter

variable (s : Splitter) (before : Option Lexeme) (l : Lexeme) (after : Option Lexeme)

def observeHead : Splitter :=
  if s.count < headerWindow && !s.headerDone then s.observeHeader s.count l after else s

def opensPackage : Bool :=
  s.routine && s.parens == 0 && bodyFollows before l after && s.package && !s.packageOpened

lemma observeParen_eq : s.observeParen l = { s with parens := depthBehind s.parens l } := by
  unfold observeParen depthBehind
  split_ifs <;> rfl

lemma observeBlock_eq (m : BlockMark) : s.observeBlock m = { s with
    depth := m.depthBehind s.depth
    awaitingBody := s.awaitingBody && !(decide (m = .closes) && s.depth == 1) } := by
  cases s with
  | mk extent count depth parens awaitingBody routine package packageOpened headerDone =>
    cases m with
    | opens => simp [observeBlock, BlockMark.depthBehind]
    | none => simp [observeBlock, BlockMark.depthBehind]
    | closes =>
      by_cases h : depth = 0
      · simp [observeBlock, BlockMark.depthBehind, h]
      · simp only [observeBlock, h, if_false, BlockMark.depthBehind, decide_true, Bool.true_and]
        rfl

lemma observeBodyWord_eq : s.observeBodyWord before l after = { s with
    packageOpened := s.packageOpened || s.opensPackage before l after
    depth := s.depth + (s.opensPackage before l after).toNat
    awaitingBody := s.awaitingBody || (s.routine && s.parens == 0 && bodyFollows before l after &&
      !s.opensPackage before l after && s.depth == 0) } := by
  have hcond : (s.routine && s.parens == 0 && l.isAnyWord ["IS", "AS"]
      && !before.any (·.isWord "EXECUTE") && after.any (·.kind == .word)) =
      (s.routine && s.parens == 0 && bodyFollows before l after) := by
    simp only [bodyFollows, Bool.and_assoc]
  unfold observeBodyWord opensPackage
  rw [hcond]
  cases s with
  | mk extent count depth parens awaitingBody routine package packageOpened headerDone =>
    dsimp only
    cases routine && parens == 0 && bodyFollows before l after with
    | false => simp
    | true =>
      by_cases hp : (package && !packageOpened)
      · simp [hp]
      · by_cases hd : depth = 0 <;> simp [hp, hd]

lemma observeDeclare_eq (i : Nat) : s.observeDeclare i l after = { s with
    awaitingBody := s.awaitingBody ||
      (declarationsFollow l after && s.depth == 0 && (i == 0 || s.routine)) } := by
  have hcond : (l.isWord "DECLARE" && s.depth == 0 && (i == 0 || s.routine)
      && after.any (fun n => n.kind == .word && !n.startsWith '@')) =
      (declarationsFollow l after && s.depth == 0 && (i == 0 || s.routine)) := by
    rw [declarationsFollow]
    ac_rfl
  unfold observeDeclare
  rw [hcond]
  cases declarationsFollow l after && s.depth == 0 && (i == 0 || s.routine) <;> simp

lemma observeHeader_with (i : Nat) (e : Option (Nat × Nat)) (n : Nat) :
    ({ s with extent := e, count := n } : Splitter).observeHeader i l after =
      { s.observeHeader i l after with extent := e, count := n } := by
  unfold observeHeader
  split_ifs <;> rfl

lemma observeHead_eq : s.observeHead l after = { s with
    routine := (s.observeHead l after).routine
    package := (s.observeHead l after).package
    headerDone := (s.observeHead l after).headerDone } := by
  unfold observeHead observeHeader
  split_ifs <;> rfl

/-- What is known about a statement when header, parentheses and blocks have been taken note of. -/
def observeNesting : Splitter := { s.observeHead l after with
  extent := some ((s.extent.map (·.1)).getD l.start, l.stop)
  count := s.count + 1
  parens := depthBehind s.parens l
  depth := (blockMark before l after).depthBehind s.depth
  awaitingBody := s.awaitingBody && !(decide (blockMark before l after = .closes) && s.depth == 1) }

/-- **What a lexeme does**: it changes the nesting, and then it may announce a body. -/
lemma observe_eq : s.observe before l after =
    ((s.observeNesting before l after).observeBodyWord before l after).observeDeclare s.count l
      after := by
  have hnesting : s.observeNesting before l after = (({ s.observeHead l after with
      extent := some ((s.extent.map (·.1)).getD l.start, l.stop)
      count := s.count + 1 } : Splitter).observeParen l).observeBlock
        (blockMark before l after) := by
    rw [observeBlock_eq, observeParen_eq, observeNesting, observeHead_eq]
  rw [hnesting]
  unfold observe observeHead
  dsimp only
  split_ifs
  · rw [observeHeader_with]
  · rfl

@[simp]
lemma parens_observe : (s.observe before l after).parens = depthBehind s.parens l := by
  rw [observe_eq, observeDeclare_eq, observeBodyWord_eq]
  rfl

@[simp]
lemma count_observe : (s.observe before l after).count = s.count + 1 := by
  rw [observe_eq, observeDeclare_eq, observeBodyWord_eq]
  rfl

@[simp]
lemma routine_observe : (s.observe before l after).routine = (s.observeHead l after).routine := by
  rw [observe_eq, observeDeclare_eq, observeBodyWord_eq]
  rfl

@[simp]
lemma package_observe : (s.observe before l after).package = (s.observeHead l after).package := by
  rw [observe_eq, observeDeclare_eq, observeBodyWord_eq]
  rfl

@[simp]
lemma headerDone_observe :
    (s.observe before l after).headerDone = (s.observeHead l after).headerDone := by
  rw [observe_eq, observeDeclare_eq, observeBodyWord_eq]
  rfl

variable {before l after}

lemma of_bodyFollows (h : bodyFollows before l after) :
    depthBehind s.parens l = s.parens ∧ (s.observeHead l after).routine = s.routine ∧
      (s.observeHead l after).package = s.package := by
  simp only [bodyFollows, isAnyWord, Bool.and_eq_true, beq_iff_eq, contains_cons,
    contains_nil, Bool.or_eq_true, Bool.or_false] at h
  obtain ⟨⟨⟨hk, hu⟩, -⟩, -⟩ := h
  have hsymbol : ∀ c, l.isSymbol c = false := fun c => by simp [isSymbol, hk]
  refine ⟨by simp [depthBehind, hsymbol], ?_, ?_⟩
  all_goals
    rcases hu with hu | hu <;>
    · unfold observeHead observeHeader
      simp [isAnyWord, isWord, hk, hu, hsymbol, plainObjectWords, routineWords]
      split_ifs <;> rfl

lemma opensPackage_observeNesting : (s.observeNesting before l after).opensPackage before l after =
      s.opensPackage before l after := by
  have hopened : (s.observeHead l after).packageOpened = s.packageOpened := by rw [observeHead_eq]
  unfold opensPackage observeNesting
  cases hb : bodyFollows before l after with
  | false => simp
  | true =>
    obtain ⟨hparens, hroutine, hpackage⟩ := s.of_bodyFollows hb
    simp only [hparens, hroutine, hpackage, hopened]

variable (before l after)

lemma packageOpened_observe : (s.observe before l after).packageOpened =
    (s.packageOpened || s.opensPackage before l after) := by
  have hopened : (s.observeHead l after).packageOpened = s.packageOpened := by rw [observeHead_eq]
  rw [observe_eq, observeDeclare_eq, observeBodyWord_eq, opensPackage_observeNesting,
    observeNesting, hopened]

lemma depth_observe : (s.observe before l after).depth =
    (blockMark before l after).depthBehind s.depth + (s.opensPackage before l after).toNat := by
  rw [observe_eq, observeDeclare_eq, observeBodyWord_eq, opensPackage_observeNesting,
    observeNesting]

/-- **When a body is awaited** behind a lexeme: it was before and no outermost block ends here, or
the lexeme announces it outside of blocks. -/
lemma awaitingBody_observe : (s.observe before l after).awaitingBody =
    (s.awaitingBody && !(decide (blockMark before l after = .closes) && s.depth == 1) ||
      (s.routine && s.parens == 0 && bodyFollows before l after &&
          !s.opensPackage before l after ||
        declarationsFollow l after && (s.count == 0 || (s.observeHead l after).routine)) &&
        (s.observe before l after).depth == 0) := by
  have hbody : ((s.observeNesting before l after).routine &&
      (s.observeNesting before l after).parens == 0 && bodyFollows before l after) =
      (s.routine && s.parens == 0 && bodyFollows before l after) := by
    cases hb : bodyFollows before l after with
    | false => simp
    | true =>
      obtain ⟨hparens, hroutine, -⟩ := s.of_bodyFollows hb
      rw [observeNesting, hparens, hroutine]
  rw [depth_observe, observe_eq, observeDeclare_eq, observeBodyWord_eq,
    opensPackage_observeNesting, hbody]
  dsimp only [observeNesting]
  cases s.opensPackage before l after with
  | true => simp
  | false =>
    simp only [Bool.toNat_false, Nat.add_zero, Bool.not_false, Bool.and_true]
    cases (blockMark before l after).depthBehind s.depth == 0 <;> simp [Bool.or_assoc]

/-! ## What is known behind lexemes -/

/-- What the splitter knows behind lexemes between `before` and `after` that end no statement. -/
def read (s : Splitter) (before : Option Lexeme) (ls : List Lexeme) (after : Option Lexeme) :
    Splitter :=
  match ls with
  | [] => s
  | l :: ls => (s.observe before l (ls.head?.or after)).read (some l) ls after

lemma read_append (ls ms : List Lexeme) : s.read before (ls ++ ms) after =
    (s.read before ls (ms.head?.or after)).read (ls.getLast?.or before) ms after := by
  induction ls generalizing s before with
  | nil => rfl
  | cons l ls ih =>
    rw [cons_append, read, ih, head?_append, Option.or_assoc, getLast?_or_some ls l before, read]

lemma read_concat (ls : List Lexeme) : s.read before (ls ++ [l]) after =
    (s.read before ls (some l)).observe (ls.getLast?.or before) l after := by
  rw [read_append]
  rfl

lemma parens_read (ls : List Lexeme) :
    (s.read before ls after).parens = ls.foldl depthBehind s.parens := by
  induction ls generalizing s before with
  | nil => rfl
  | cons l ls ih => rw [read, ih, parens_observe, foldl_cons]

end Splitter

/-! ## Lexemes that end no statement -/

namespace Progress

/-- What is known behind lexemes that end no statement, before the lexeme `after`. -/
def behind (p : Progress) (ls : List Lexeme) (after : Option Lexeme) : Progress :=
  { p with
    splitter := p.splitter.read p.before ls after
    before := ls.getLast?.or p.before
    current := p.current ++ ls }

@[simp]
lemma behind_nil (p : Progress) (after : Option Lexeme) : p.behind [] after = p := by
  simp [behind, Splitter.read]

lemma step_of_not_ends {p : Progress} {l : Lexeme} (h : p.ends l = false) (after : Option Lexeme) :
    p.step l after = p.behind [l] after := by
  rw [step, if_neg (by simp [h])]
  rfl

lemma behind_behind (p : Progress) (ls ms : List Lexeme) (after : Option Lexeme) :
    (p.behind ls (ms.head?.or after)).behind ms after = p.behind (ls ++ ms) after := by
  have hlast : ms.getLast?.or (ls.getLast?.or p.before) = (ls ++ ms).getLast?.or p.before := by
    rw [getLast?_append, Option.or_assoc]
  unfold behind
  rw [Splitter.read_append, hlast, append_assoc]

/-- **Lexemes that end no statement** are all read into the current one. -/
lemma groups_of_not_ends {p : Progress} {ls : List Lexeme} (ms : List Lexeme)
    (h : ∀ ks l rest, ls = ks ++ l :: rest → (p.behind ks (some l)).ends l = false) :
    p.groups (ls ++ ms) = (p.behind ls ms.head?).groups ms := by
  induction ls generalizing p with
  | nil => rw [nil_append, behind_nil]
  | cons l ls ih =>
    have hl : p.ends l = false := by
      have := h [] l ls rfl
      rwa [behind_nil] at this
    rw [cons_append, groups, closed, if_neg (by simp [hl]), nil_append, step_of_not_ends hl, ih]
    · rw [head?_append, behind_behind]
      rfl
    · intro ks m rest hks
      have := h (l :: ks) m rest (by rw [hks, cons_append])
      rw [hks, append_assoc, cons_append, head?_append, head?_cons, behind_behind]
      exact this

end Progress

end SqlOutline
