import SqlOutline.Proofs.Statement.PackageBody
import SqlOutline.Routine.Package

/-!
# Members of packages

Each member has one block, and the semicolon behind it ends the member, however deep it is nested.

## Main definitions

* `Member`, `IsDeclarations` — the parts of a member, and declarations with members in them.

## Main results

* `memberEnd?_eq` — a member ends at the semicolon behind its block.
* `HoldsMembers.memberRuns_eq` — the members of a package are found.
-/

namespace SqlOutline

open List Text Lexeme MemberState BlockMark

/-! ## Outside parentheses -/

/-- The lexemes outside parentheses, where `depth` of them are open in front. -/
def outside (depth : Nat) : List Lexeme → List Lexeme
  | [] => []
  | l :: ls =>
    let more := outside (depthBehind depth l) ls
    if depth = 0 then l :: more else more

/-- The block marks of the lexemes outside parentheses, where `depth` of them are open in front. -/
def outsideMarks (depth : Nat) (before : Option Lexeme) (ls : List Lexeme) (after : Option Lexeme) :
    List BlockMark :=
  match ls with
  | [] => []
  | l :: ls =>
    let more := outsideMarks (depthBehind depth l) (some l) ls after
    if depth = 0 then blockMark before l (ls.head?.or after) :: more else more

/-- Lexemes whose parentheses are closed, and none of which is a semicolon or one of some words
outside of them. -/
def IsCalm (words : List String) (ls : List Lexeme) : Prop :=
  parenDepth ls = 0 ∧ ∀ l ∈ outside 0 ls, l.isSymbol ';' = false ∧ l.isAnyWord words = false

instance (words : List String) (ls : List Lexeme) : Decidable (IsCalm words ls) :=
  inferInstanceAs (Decidable (_ ∧ _))

/-! ## The parts of a package -/

def memberWords : List String :=
  ["PROCEDURE", "FUNCTION", "IS", "AS", "BEGIN", "CASE", "END", "IF", "LOOP", "WHILE", "REPEAT",
    "FOR"]

/-- An identifier without quotes, of letters, digits and underscores. -/
def Lexeme.isPlainName (l : Lexeme) : Bool :=
  l.kind == .word && l.text.all (fun c => isAsciiAlnum c || c == '_') && !l.isAnyWord memberWords

def declarationStops : List String := ["BEGIN", "CASE", "END", "PROCEDURE", "FUNCTION"]

def headerStops : List String := "IS" :: "AS" :: declarationStops

/-- The parts of a member: the word for its kind, its name, the rest of its header, the `IS` or `AS`
behind it, its declarations, its `BEGIN`, its statements, its `END` and perhaps a name. -/
structure Member where
  kind : Lexeme
  name : Lexeme
  header : List Lexeme
  link : Lexeme
  declarations : List Lexeme
  first : Lexeme
  statements : List Lexeme
  last : Lexeme
  label : Option Lexeme

namespace Member

def block (m : Member) : List Lexeme := m.first :: (m.statements ++ m.last :: m.label.toList)

def tail (m : Member) : List Lexeme :=
  m.name :: (m.header ++ m.link :: (m.declarations ++ m.block))

/-- The lexemes of a member. -/
def lexemes (m : Member) : List Lexeme := m.kind :: m.tail

/-- How the parts of a member are put together, its declarations apart. The statements close their
parentheses and, outside of them, their blocks, and the `BEGIN` before them opens a block. -/
structure IsFramed (m : Member) : Prop where
  is_kind : m.kind.isAnyWord ["PROCEDURE", "FUNCTION"]
  is_name : m.name.isPlainName
  header_calm : IsCalm headerStops m.header
  is_link : m.link.isAnyWord ["IS", "AS"]
  is_first : m.first.isWord "BEGIN"
  opens : ∀ l ∈ m.statements.head?,
    l.isSymbol ';' = false ∧ l.isAnyWord transactionWords = false
  parens : parenDepth m.statements = 0
  nested : nest? 0 (outsideMarks 0 (some m.first) m.statements (some m.last)) = some 0
  is_last : m.last.isWord "END"
  is_label : ∀ l ∈ m.label, l.isPlainName

instance (m : Member) : Decidable m.IsFramed :=
  decidable_of_iff ((m.kind.isAnyWord ["PROCEDURE", "FUNCTION"] ∧
    m.name.isPlainName ∧ IsCalm headerStops m.header ∧ m.link.isAnyWord ["IS", "AS"] ∧
    m.first.isWord "BEGIN") ∧ (∀ l ∈ m.statements.head?,
      l.isSymbol ';' = false ∧ l.isAnyWord transactionWords = false) ∧
    parenDepth m.statements = 0 ∧
    nest? 0 (outsideMarks 0 (some m.first) m.statements (some m.last)) = some 0 ∧
    m.last.isWord "END" ∧ ∀ l ∈ m.label, l.isPlainName)
    ⟨fun ⟨⟨h₁, h₂, h₃, h₄, h₅⟩, h₆, h₇, h₈, h₉, h₁₀⟩ => ⟨h₁, h₂, h₃, h₄, h₅, h₆, h₇, h₈, h₉, h₁₀⟩,
      fun h => ⟨⟨h.is_kind, h.is_name, h.header_calm, h.is_link, h.is_first⟩, h.opens, h.parens,
        h.nested, h.is_last, h.is_label⟩⟩

end Member

/-- The declarations of a member: plain ones and members, each with a semicolon behind it. -/
inductive IsDeclarations : List Lexeme → Prop
  | nil : IsDeclarations []
  | plain {d ds : List Lexeme} {semi : Lexeme} (hd : IsCalm declarationStops d)
      (hsemi : semi.isSymbol ';') (hds : IsDeclarations ds) : IsDeclarations (d ++ semi :: ds)
  | member {m : Member} {ds : List Lexeme} {semi : Lexeme} (hm : m.IsFramed)
      (hdecls : IsDeclarations m.declarations) (hsemi : semi.isSymbol ';')
      (hds : IsDeclarations ds) : IsDeclarations (m.lexemes ++ semi :: ds)

/-- The parts of a member are put together as they should, and so are its declarations. -/
structure Member.IsMember (m : Member) : Prop extends m.IsFramed where
  is_declarations : IsDeclarations m.declarations

/-- What stands in a package, and its members: plain items, members without a body, and members,
each with a semicolon behind it. -/
inductive HoldsMembers : List Lexeme → List Member → Prop
  | nil : HoldsMembers [] []
  | plain {item ls : List Lexeme} {semi : Lexeme} {ms : List Member}
      (hitem : ∀ l ∈ item, l.isAnyWord ["PROCEDURE", "FUNCTION", "BEGIN", "END"] = false)
      (hsemi : semi.isSymbol ';') (hls : HoldsMembers ls ms) :
      HoldsMembers (item ++ semi :: ls) ms
  | forward {kind name semi : Lexeme} {header ls : List Lexeme} {ms : List Member}
      (hkind : kind.isAnyWord ["PROCEDURE", "FUNCTION"]) (hname : name.isPlainName)
      (hheader : IsCalm headerStops header) (hsemi : semi.isSymbol ';')
      (hls : HoldsMembers ls ms) : HoldsMembers (kind :: name :: (header ++ semi :: ls)) ms
  | member {m : Member} {ls : List Lexeme} {semi : Lexeme} {ms : List Member} (hm : m.IsMember)
      (hsemi : semi.isSymbol ';') (hls : HoldsMembers ls ms) :
      HoldsMembers (m.lexemes ++ semi :: ls) (m :: ms)

/-! ## Words and symbols -/

variable {ws : List String}

namespace Lexeme

variable {l : Lexeme}

lemma kind_of_isAnyWord (h : l.isAnyWord ws) : l.kind = .word := by
  simp only [isAnyWord, Bool.and_eq_true, beq_iff_eq] at h
  exact h.1

lemma isAnyWord_eq_false_of_isSymbol {c : Char} (h : l.isSymbol c) (ws : List String) :
    l.isAnyWord ws = false := by
  obtain ⟨hk, -⟩ := isSymbol_iff.mp h
  simp [isAnyWord, hk]

lemma isAnyWord_eq_false_of_disjoint {vs : List String} (h : l.isAnyWord vs)
    (hdisjoint : ∀ w ∈ vs, w ∉ ws) : l.isAnyWord ws = false := by
  simp only [isAnyWord, Bool.and_eq_true, contains_iff_mem] at h
  simpa [isAnyWord] using fun _ => hdisjoint _ h.2

lemma isPlainName_iff : l.isPlainName ↔ l.kind = .word ∧
    (∀ c ∈ l.text, (isAsciiAlnum c || c == '_')) ∧ l.isAnyWord memberWords = false := by
  simp [isPlainName, and_assoc]

lemma isAnyWord_eq_false_of_isPlainName (h : l.isPlainName)
    (hsub : ws ⊆ memberWords) : l.isAnyWord ws = false :=
  isAnyWord_eq_false_of_subset (isPlainName_iff.mp h).2.2 hsub

end Lexeme

/-! ## Lexemes behind which a member goes on -/

variable {parens : Nat}

namespace MemberState

variable {s s' s'' : MemberState} {before after : Option Lexeme} {l : Lexeme}
  {xs ys : List Lexeme}

/-- A member goes on behind some lexemes: where it ends is looked for behind them. -/
def Passes (s : MemberState) (before : Option Lexeme) (xs : List Lexeme) (after : Option Lexeme)
    (s' : MemberState) : Prop :=
  ∀ ls, ls.head? = after → memberEnd? s before (xs ++ ls) =
    (memberEnd? s' (xs.getLast?.or before) ls).map fun e => (e.1 + xs.length, e.2)

lemma Passes.nil : s.Passes before [] after s := fun ls _ => by simp

lemma Passes.append (hxs : s.Passes before xs (ys.head?.or after) s')
    (hys : s'.Passes (xs.getLast?.or before) ys after s'') :
    s.Passes before (xs ++ ys) after s'' := by
  intro ls hls
  have hhead : (ys ++ ls).head? = ys.head?.or after := by rw [head?_append, hls]
  have hlast : ys.getLast?.or (xs.getLast?.or before) = (xs ++ ys).getLast?.or before := by
    rw [getLast?_append, Option.or_assoc]
  rw [append_assoc, hxs _ hhead, hys _ hls, hlast, Option.map_map]
  congr 1
  funext e
  simp only [Function.comp_apply, length_append, Prod.mk.injEq, and_true]
  omega

lemma Passes.cons (hl : s.Passes before [l] (ys.head?.or after) s')
    (hys : s'.Passes (some l) ys after s'') : s.Passes before (l :: ys) after s'' := by
  rw [← singleton_append]
  exact hl.append hys

lemma passes_paren (h : l.isSymbol '(' ∨ l.isSymbol ')') :
    s.Passes before [l] after { s with parens := depthBehind s.parens l } := by
  intro ls _
  rw [singleton_append, memberEnd?, if_pos (by simpa using h)]
  rfl

lemma passes_inside (hparens : 0 < s.parens) :
    s.Passes before [l] after { s with parens := depthBehind s.parens l } := by
  by_cases hl : l.isSymbol '(' ∨ l.isSymbol ')'
  · exact passes_paren hl
  · intro ls _
    have hdepth : depthBehind s.parens l = s.parens := by
      rw [not_or] at hl
      rw [depthBehind, if_neg hl.1, if_neg hl.2]
    rw [singleton_append, memberEnd?, if_neg (by simpa using hl), if_pos hparens, hdepth]
    rfl

lemma passes_outside (hparens : s.parens = 0)
    (hl : l.isSymbol '(' = false ∧ l.isSymbol ')' = false ∧ l.isSymbol ';' = false) :
    s.Passes before [l] after (s.advance before l after) := by
  intro ls hls
  rw [singleton_append, memberEnd?, if_neg (by simp [hl]), if_neg (by omega), hls]
  dsimp only
  rw [if_neg (by simp [hl])]
  rfl

lemma advance_semicolon (h : l.isSymbol ';') : s.advance before l after = s := by
  have hword := isAnyWord_eq_false_of_isSymbol h
  simp [advance, hword, blockMark_eq_none (hword ["BEGIN", "CASE", "END"])]

lemma memberEnd?_semicolon (hparens : s.parens = 0) (h : l.isSymbol ';')
    (ls : List Lexeme) : memberEnd? s before (l :: ls) =
      if s.depth ≤ 0 then
        if !s.hasBody then some (0, false)
        else if !s.opened then (memberEnd? s (some l) ls).map fun e => (e.1 + 1, e.2)
        else if s.nested = 0 then some (0, true)
        else (memberEnd? { s with nested := s.nested - 1, opened := false } (some l) ls).map
          fun e => (e.1 + 1, e.2)
      else (memberEnd? s (some l) ls).map fun e => (e.1 + 1, e.2) := by
  have hsymbol (c : Char) (hc : c ≠ ';') : l.isSymbol c = false := by
    obtain ⟨-, ht⟩ := isSymbol_iff.mp h
    simp [isSymbol, ht, hc.symm]
  rw [memberEnd?, if_neg (by simp [hsymbol]), if_neg (by omega), advance_semicolon h, h]
  simp

lemma passes_of_outside (hclosed : xs.foldl depthBehind parens = 0)
    (h : ∀ l ∈ outside parens xs, l.isSymbol ';' = false ∧ ∀ x y, s.advance x l y = s)
    (hs : s.parens = 0) : ({ s with parens } : MemberState).Passes before xs after s := by
  induction xs generalizing before parens with
  | nil =>
    rw [foldl_nil] at hclosed
    rw [hclosed, ← hs]
    exact .nil
  | cons l xs ih =>
    rw [foldl_cons] at hclosed
    rw [outside] at h
    by_cases hparens : parens = 0
    · subst hparens
      rw [if_pos rfl, forall_mem_cons] at h
      refine Passes.cons ?_ (ih hclosed h.2)
      by_cases hl : l.isSymbol '(' ∨ l.isSymbol ')'
      · exact passes_paren hl
      · rw [not_or, Bool.not_eq_true, Bool.not_eq_true] at hl
        have hsame : ({ s with parens := 0 } : MemberState) = s := by rw [← hs]
        have hstep : s.Passes before [l] (xs.head?.or after) (s.advance before l _) :=
          passes_outside hs ⟨hl.1, hl.2, h.1.1⟩
        rw [h.1.2] at hstep
        rwa [depthBehind, hl.1, hl.2, if_neg (by simp), if_neg (by simp), hsame]
    · rw [if_neg hparens] at h
      exact Passes.cons (passes_inside (Nat.pos_of_ne_zero hparens)) (ih hclosed h)

lemma advance_of_headerStops (h : l.isAnyWord headerStops = false) :
    s.advance before l after = s := by
  have hlink : l.isAnyWord ["IS", "AS"] = false := l.isAnyWord_eq_false_of_subset h (by decide)
  have hkind : l.isAnyWord ["PROCEDURE", "FUNCTION"] = false :=
    l.isAnyWord_eq_false_of_subset h (by decide)
  have hmark := blockMark_eq_none (l.isAnyWord_eq_false_of_subset h (by decide)) before after
  simp [advance, hlink, hkind, hmark]

lemma advance_of_declarationStops (hbody : s.hasBody)
    (h : l.isAnyWord declarationStops = false) : s.advance before l after = s := by
  have hkind : l.isAnyWord ["PROCEDURE", "FUNCTION"] = false :=
    l.isAnyWord_eq_false_of_subset h (by decide)
  have hmark := blockMark_eq_none (l.isAnyWord_eq_false_of_subset h (by decide)) before after
  have hsame : ({ s with hasBody := true } : MemberState) = s := by rw [← hbody]
  simp [advance, hkind, hmark, hsame]

lemma advance_inner (h : s.depth ≠ 0) : s.advance before l after =
    match blockMark before l after with
    | .opens => { s with depth := s.depth + 1, opened := true }
    | .closes => { s with depth := s.depth - 1 }
    | .none => s := by
  have hdepth : (s.depth == 0) = false := beq_eq_false_iff_ne.mpr h
  cases hmark : blockMark before l after <;> simp [advance, hdepth, hmark]

lemma passes_word (hparens : s.parens = 0) (hl : l.kind = .word) :
    s.Passes before [l] after (s.advance before l after) := by
  have hsymbol (c : Char) : l.isSymbol c = false := by simp [isSymbol, hl]
  exact passes_outside hparens ⟨hsymbol _, hsymbol _, hsymbol _⟩

lemma passes_name (hparens : s.parens = 0) (hl : l.isPlainName) :
    s.Passes before [l] after s := by
  obtain ⟨hk, -, hwords⟩ := isPlainName_iff.mp hl
  have hstep : s.Passes before [l] after _ := passes_word hparens hk
  rwa [advance_of_headerStops (l.isAnyWord_eq_false_of_subset hwords (by decide))] at hstep

lemma passes_calm {words : List String} (hcalm : IsCalm words xs) (hs : s.parens = 0)
    (h : ∀ l x y, l.isAnyWord words = false → s.advance x l y = s) :
    s.Passes before xs after s := by
  have hsame : ({ s with parens := 0 } : MemberState) = s := by rw [← hs]
  have hpasses : ({ s with parens := 0 } : MemberState).Passes before xs after s :=
    passes_of_outside hcalm.1
      (fun l hl => ⟨(hcalm.2 l hl).1, fun x y => h l x y (hcalm.2 l hl).2⟩) hs
  rwa [hsame] at hpasses

lemma passes_semicolon_inner (hparens : s.parens = 0) (hdepth : 0 < s.depth)
    (hl : l.isSymbol ';') : s.Passes before [l] after s := by
  intro ls _
  rw [singleton_append, memberEnd?_semicolon hparens hl, if_neg (by omega)]
  rfl

/-- **Statements inside a block** whose parentheses and blocks are closed leave the depth as it is.
-/
lemma passes_statements {d e : Nat} (hs : s.parens = 0) (hopened : s.opened)
    (hclosed : xs.foldl depthBehind parens = 0)
    (hnest : nest? d (outsideMarks parens before xs after) = some e) :
    ({ s with parens, depth := d + 1 } : MemberState).Passes before xs after
      { s with depth := e + 1 } := by
  induction xs generalizing before parens d with
  | nil =>
    obtain rfl : parens = 0 := hclosed
    obtain rfl : d = e := Option.some.inj hnest
    rw [← hs]
    exact .nil
  | cons l xs ih =>
    rw [foldl_cons] at hclosed
    rw [outsideMarks] at hnest
    by_cases hparens : parens = 0
    case neg =>
      rw [if_neg hparens] at hnest
      exact Passes.cons (passes_inside (Nat.pos_of_ne_zero hparens)) (ih hclosed hnest)
    subst hparens
    rw [if_pos rfl] at hnest
    -- a lexeme that is no word does nothing to the blocks
    have hquiet (c : Char) (hl : l.isSymbol c) :
        nest? d (outsideMarks (depthBehind 0 l) (some l) xs after) = some e := by
      rwa [blockMark_eq_none (isAnyWord_eq_false_of_isSymbol hl _), nest?] at hnest
    by_cases hopen : l.isSymbol '('
    · exact Passes.cons (passes_paren (.inl hopen)) (ih hclosed (hquiet _ hopen))
    by_cases hclose : l.isSymbol ')'
    · exact Passes.cons (passes_paren (.inr hclose)) (ih hclosed (hquiet _ hclose))
    have hsame : depthBehind 0 l = 0 := by rw [depthBehind, if_neg hopen, if_neg hclose]
    rw [hsame] at hclosed hnest hquiet
    by_cases hsemi : l.isSymbol ';'
    · refine Passes.cons (passes_semicolon_inner rfl ?_ hsemi) (ih hclosed (hquiet _ hsemi))
      show (0 : Int) < d + 1
      omega
    rw [Bool.not_eq_true] at hopen hclose hsemi
    have hstep : ({ s with parens := 0, depth := d + 1 } : MemberState).Passes before [l]
        (xs.head?.or after) _ := passes_outside rfl ⟨hopen, hclose, hsemi⟩
    rw [advance_inner (show (d + 1 : Int) ≠ 0 by omega)] at hstep
    refine Passes.cons hstep ?_
    cases hmark : blockMark before l (xs.head?.or after) with
    | opens =>
      rw [hmark] at hnest
      have hmore := ih hclosed hnest
      rw [← hopened]
      exact hmore
    | closes =>
      rw [hmark] at hnest
      cases d with
      | zero => cases hnest
      | succ d =>
        have hmore := ih hclosed hnest
        have hdepth : ((d + 1 : Nat) : Int) + 1 - 1 = d + 1 := by omega
        dsimp only
        rwa [hdepth]
    | none =>
      rw [hmark] at hnest
      exact ih hclosed hnest

lemma passes_semicolon_plain (hparens : s.parens = 0) (hdepth : s.depth = 0)
    (hbody : s.hasBody) (hopened : s.opened = false) (hl : l.isSymbol ';') :
    s.Passes before [l] after s := by
  intro ls _
  rw [singleton_append, memberEnd?_semicolon hparens hl]
  simp [hdepth, hbody, hopened]

lemma passes_semicolon_nested (hparens : s.parens = 0) (hdepth : s.depth = 0)
    (hbody : s.hasBody) (hopened : s.opened) (hnested : s.nested ≠ 0)
    (hl : l.isSymbol ';') :
    s.Passes before [l] after { s with nested := s.nested - 1, opened := false } := by
  intro ls _
  rw [singleton_append, memberEnd?_semicolon hparens hl]
  simp [hdepth, hbody, hopened, hnested]

end MemberState

/-! ## Members -/

variable {semi : Lexeme}

namespace Member.IsFramed

variable {m : Member} (hm : m.IsFramed) {s : MemberState} {before after : Option Lexeme}

include hm

lemma passes_header (hs : s.parens = 0) : s.Passes before (m.name :: m.header) after s :=
  (passes_name hs hm.is_name).cons (passes_calm hm.header_calm hs
    fun _ _ _ => advance_of_headerStops)

lemma passes_link (hs : s.parens = 0) (hdepth : s.depth = 0) :
    s.Passes before [m.link] after { s with hasBody := true } := by
  have hkind : m.link.isAnyWord ["PROCEDURE", "FUNCTION"] = false :=
    isAnyWord_eq_false_of_disjoint hm.is_link (by decide)
  have hmark := blockMark_eq_none
    (isAnyWord_eq_false_of_disjoint hm.is_link (by decide)) before after
  have hadvance : s.advance before m.link after = { s with hasBody := true } := by
    simp [advance, hm.is_link, hkind, hmark, hdepth]
  rw [← hadvance]
  exact passes_word hs (kind_of_isAnyWord hm.is_link)

lemma passes_first (hplain : ∀ l ∈ m.lexemes, l.isBoundary = false) (hs : s.parens = 0)
    (hdepth : s.depth = 0) : s.Passes before [m.first] (m.statements.head?.or (some m.last))
      { s with depth := 1, opened := true } := by
  obtain ⟨hk, hu⟩ := isWord_iff.mp hm.is_first
  -- what follows it starts no transaction
  have hnext : ∀ l ∈ m.statements.head?.or (some m.last), l.isSymbol ';' = false ∧
      l.isBoundary = false ∧ l.isAnyWord transactionWords = false := by
    cases hhead : m.statements.head? with
    | none =>
      rintro l ⟨⟩
      obtain ⟨hk, hu⟩ := isWord_iff.mp hm.is_last
      have hlast := hplain m.last (by simp [lexemes, tail, block])
      simp [isSymbol, isAnyWord, hk, hu, hlast, transactionWords]
    | some l =>
      rintro _ ⟨⟩
      have hl := hplain l (by simp [lexemes, tail, block, mem_of_mem_head? hhead])
      exact ⟨(hm.opens l hhead).1, hl, (hm.opens l hhead).2⟩
  obtain ⟨n, hn⟩ : ∃ n, m.statements.head?.or (some m.last) = some n := by
    cases m.statements.head? <;> simp
  rw [hn] at hnext ⊢
  obtain ⟨hsemi, hboundary, htransaction⟩ := hnext n rfl
  have hmark : blockMark before m.first (some n) = .opens := by
    simp [blockMark, hm.is_first, hsemi, hboundary, htransaction]
  have hadvance : s.advance before m.first (some n) = { s with depth := 1, opened := true } := by
    simp [advance, isAnyWord, hu, hmark, hdepth]
  rw [← hadvance]
  exact passes_word hs hk

lemma passes_last (hs : s.parens = 0) (hdepth : s.depth = 1)
    (hafter : ∀ l ∈ after, l.isAnyWord uncountedEndWords = false) :
    s.Passes before [m.last] after { s with depth := 0 } := by
  obtain ⟨hk, hu⟩ := isWord_iff.mp hm.is_last
  have hmark : blockMark before m.last after = .closes := by
    have hany : after.any (·.isAnyWord uncountedEndWords) = false := by
      cases after with
      | none => rfl
      | some l => exact hafter l rfl
    simp [blockMark, isWord, hk, hu, hany]
  have hadvance : s.advance before m.last after = { s with depth := 0 } := by
    rw [advance_inner (by omega), hmark, hdepth]
    rfl
  rw [← hadvance]
  exact passes_word hs hk

/-- **The block of a member** opens one level and closes it. -/
lemma passes_block (hplain : ∀ l ∈ m.lexemes, l.isBoundary = false) (hs : s.parens = 0)
    (hdepth : s.depth = 0) (hsemi : semi.isSymbol ';') :
    s.Passes before m.block (some semi) { s with opened := true } := by
  have hstatements : ({ s with depth := 1, opened := true } : MemberState).Passes (some m.first)
      m.statements (some m.last) { s with depth := 1, opened := true } := by
    have hpasses := passes_statements (s := { s with opened := true }) hs rfl
      hm.parens hm.nested
    have hsame : ({ s with parens := 0, depth := 1, opened := true } : MemberState) =
        { s with depth := 1, opened := true } := by rw [← hs]
    exact hsame ▸ hpasses
  have hlast (x : Option Lexeme) : ({ s with depth := 1, opened := true } : MemberState).Passes x
      (m.last :: m.label.toList) (some semi) { s with opened := true } := by
    have hsame : ({ s with depth := 0, opened := true } : MemberState) =
        { s with opened := true } := by rw [← hdepth]
    rw [← hsame]
    cases hlabel : m.label with
    | none =>
      refine hm.passes_last hs rfl ?_
      rintro l ⟨⟩
      exact isAnyWord_eq_false_of_isSymbol hsemi _
    | some l =>
      have hname := hm.is_label l hlabel
      refine MemberState.Passes.cons (hm.passes_last hs rfl ?_) (passes_name hs hname)
      rintro l ⟨⟩
      exact isAnyWord_eq_false_of_isPlainName hname (by decide)
  rw [block]
  refine MemberState.Passes.cons ?_ (MemberState.Passes.append hstatements (hlast _))
  rw [head?_append, Option.or_assoc]
  exact hm.passes_first hplain hs hdepth

/-- **What follows the word for the kind of a member**, up to the semicolon behind its block: the
member has a body, and a block has been opened. Its declarations must leave what is counted as it
was. -/
lemma passes_tail (hplain : ∀ l ∈ m.lexemes, l.isBoundary = false)
    (hdecls : ∀ x y, ({ s with hasBody := true } : MemberState).Passes x m.declarations y
      { s with hasBody := true }) (hs : s.parens = 0) (hdepth : s.depth = 0)
    (hsemi : semi.isSymbol ';') :
    s.Passes before m.tail (some semi) { s with hasBody := true, opened := true } := by
  have htail : m.tail = (m.name :: m.header) ++ m.link :: (m.declarations ++ m.block) := rfl
  rw [htail]
  exact (hm.passes_header hs).append ((hm.passes_link hs hdepth).cons ((hdecls _ _).append
    (hm.passes_block (s := { s with hasBody := true }) hplain hs hdepth hsemi)))

end Member.IsFramed

/-- **Declarations** leave what is counted as it was.

**Proof sketch.** Induction on the declarations. A member among them is counted at the word for its
kind, its own declarations leave that count as it is, and the semicolon behind its block takes it
back. -/
lemma IsDeclarations.passes {ds : List Lexeme} (h : IsDeclarations ds)
    (hplain : ∀ l ∈ ds, l.isBoundary = false) {s : MemberState} {before after : Option Lexeme}
    (hs : s.parens = 0) (hdepth : s.depth = 0) (hbody : s.hasBody)
    (hopened : s.opened = false) : s.Passes before ds after s := by
  induction h generalizing s before after with
  | nil => exact .nil
  | @plain d ds semi hd hsemi _ ih =>
    have hdecl : s.Passes before d ((semi :: ds).head?.or after) s :=
      passes_calm hd hs fun _ _ _ => advance_of_declarationStops hbody
    exact hdecl.append ((passes_semicolon_plain hs hdepth hbody hopened hsemi).cons
      (ih (fun l hl => hplain l (by simp [hl])) hs hdepth hbody hopened))
  | @member m ds semi hm _ hsemi _ ihdecls ih =>
    have hlexemes : ∀ l ∈ m.lexemes, l.isBoundary = false := fun l hl =>
      hplain l (mem_append_left _ hl)
    set t : MemberState := { s with nested := s.nested + 1 } with ht
    have hbody' : t.hasBody := hbody
    have hsame : ({ t with hasBody := true } : MemberState) = t := by rw [← hbody']
    have hkind (y : Option Lexeme) : s.Passes before [m.kind] y t := by
      have hlink : m.kind.isAnyWord ["IS", "AS"] = false :=
        isAnyWord_eq_false_of_disjoint hm.is_kind (by decide)
      have hmark := blockMark_eq_none
        (isAnyWord_eq_false_of_disjoint hm.is_kind (by decide)) before y
      have hadvance : s.advance before m.kind y = t := by
        simp [advance, hm.is_kind, hlink, hmark, hdepth, hbody, ht]
      rw [← hadvance]
      exact passes_word hs (kind_of_isAnyWord hm.is_kind)
    have htail : t.Passes (some m.kind) m.tail (some semi) { t with opened := true } := by
      have hdecls (x y : Option Lexeme) : t.Passes x m.declarations y t :=
        ihdecls (fun l hl => hlexemes l (by simp [Member.lexemes, Member.tail, hl])) hs hdepth hbody
          hopened
      have hpasses : t.Passes (some m.kind) m.tail (some semi) _ :=
        hm.passes_tail (s := t) hlexemes (by rwa [hsame]) hs hdepth hsemi
      have hsame' : ({ t with hasBody := true, opened := true } : MemberState) =
          { t with opened := true } := by simp [hbody']
      exact hsame' ▸ hpasses
    have hend (x : Option Lexeme) :
        ({ t with opened := true } : MemberState).Passes x [semi] (ds.head?.or after) s := by
      have hstep :
          ({ t with opened := true } : MemberState).Passes x [semi] (ds.head?.or after) _ :=
        passes_semicolon_nested hs hdepth hbody rfl (Nat.succ_ne_zero _) hsemi
      have hback : ({ t with nested := t.nested - 1, opened := false } : MemberState) = s := by
        rw [ht, ← hopened]
        rfl
      exact hback ▸ hstep
    rw [Member.lexemes, cons_append]
    exact (hkind _).cons (htail.append ((hend _).cons
      (ih (fun l hl => hplain l (by simp [hl])) hs hdepth hbody hopened)))

namespace Member.IsMember

variable {m : Member} (hm : m.IsMember) (hplain : ∀ l ∈ m.lexemes, l.isBoundary = false)

include hm hplain

/-- **A member ends** at the semicolon behind its block, and it has a body. -/
lemma memberEnd?_eq (hsemi : semi.isSymbol ';') (ls : List Lexeme) :
    memberEnd? {} (some m.kind) (m.tail ++ semi :: ls) = some (m.tail.length, true) := by
  have hdecls (x y : Option Lexeme) : ({ hasBody := true } : MemberState).Passes x m.declarations y
      { hasBody := true } :=
    hm.is_declarations.passes (fun l hl => hplain l (by simp [lexemes, tail, hl])) rfl rfl rfl rfl
  rw [hm.passes_tail hplain hdecls rfl rfl hsemi (semi :: ls) rfl, memberEnd?_semicolon rfl hsemi]
  simp

end Member.IsMember

variable {kind : Lexeme}

/-- **A member without a body ends** at the semicolon behind its header. -/
lemma memberEnd?_forward {name : Lexeme} {header : List Lexeme}
    (hname : name.isPlainName) (hheader : IsCalm headerStops header)
    (hsemi : semi.isSymbol ';') (ls : List Lexeme) :
    memberEnd? {} (some kind) (name :: (header ++ semi :: ls)) =
      some (header.length + 1, false) := by
  have hpasses : MemberState.Passes {} (some kind) (name :: header) (some semi) {} :=
    (passes_name rfl hname).cons (passes_calm hheader rfl
      fun _ _ _ => advance_of_headerStops)
  rw [← cons_append, hpasses (semi :: ls) rfl, memberEnd?_semicolon rfl hsemi]
  simp

/-! ## Packages -/

lemma memberRuns_append {item : List Lexeme}
    (h : ∀ l ∈ item, l.isAnyWord ["PROCEDURE", "FUNCTION", "BEGIN", "END"] = false)
    (ls : List Lexeme) : memberRuns (item ++ ls) = memberRuns ls := by
  induction item with
  | nil => rfl
  | cons l item ih =>
    obtain ⟨hl, hitem⟩ := forall_mem_cons.mp h
    have hend : l.isAnyWord ["BEGIN", "END"] = false :=
      l.isAnyWord_eq_false_of_subset hl (by decide)
    have hkind : l.isAnyWord ["PROCEDURE", "FUNCTION"] = false :=
      l.isAnyWord_eq_false_of_subset hl (by decide)
    rw [cons_append, memberRuns, hend, hkind]
    simpa using ih hitem

variable {ls : List Lexeme}

lemma memberRuns_cons (hkind : kind.isAnyWord ["PROCEDURE", "FUNCTION"]) {n : Nat}
    {hasBody : Bool} (h : memberEnd? {} (some kind) ls = some (n, hasBody)) :
    memberRuns (kind :: ls) = if hasBody then (kind :: ls.take n) :: memberRuns (ls.drop (n + 1))
      else memberRuns (ls.drop (n + 1)) := by
  have hend : kind.isAnyWord ["BEGIN", "END"] = false :=
    isAnyWord_eq_false_of_disjoint hkind (by decide)
  rw [memberRuns, hend, hkind, h]
  rfl

/-- **The members of a package** are found, each as a whole, up to the last `END`. -/
lemma HoldsMembers.memberRuns_eq {ms : List Member} (h : HoldsMembers ls ms)
    (hplain : ∀ l ∈ ls, l.isBoundary = false) {last : Lexeme} (hlast : last.isWord "END")
    (rest : List Lexeme) : memberRuns (ls ++ last :: rest) = ms.map Member.lexemes := by
  induction h with
  | nil =>
    have hend : last.isAnyWord ["BEGIN", "END"] := by
      obtain ⟨hk, hu⟩ := isWord_iff.mp hlast
      simp [isAnyWord, hk, hu]
    rw [nil_append, memberRuns, if_pos hend]
    rfl
  | @plain item ls semi ms hitem hsemi _ ih =>
    have hall : ∀ l ∈ item ++ [semi],
        l.isAnyWord ["PROCEDURE", "FUNCTION", "BEGIN", "END"] = false := by
      rw [forall_mem_append]
      exact ⟨hitem, by simpa using isAnyWord_eq_false_of_isSymbol hsemi _⟩
    rw [append_cons item semi ls, append_assoc, memberRuns_append hall]
    exact ih fun l hl => hplain l (by simp [hl])
  | @forward kind name semi header ls ms hkind hname hheader hsemi _ ih =>
    have hend : memberEnd? {} (some kind) _ = _ :=
      memberEnd?_forward hname hheader hsemi (ls ++ last :: rest)
    simp only [cons_append, append_assoc]
    rw [memberRuns_cons hkind hend, if_neg Bool.false_ne_true]
    simpa using ih fun l hl => hplain l (by simp [hl])
  | @member m ls semi ms hm hsemi _ ih =>
    have hend := hm.memberEnd?_eq (fun l hl => hplain l (mem_append_left _ hl)) hsemi
      (ls ++ last :: rest)
    rw [Member.lexemes, cons_append, cons_append, append_assoc, cons_append,
      memberRuns_cons hm.is_kind hend, if_pos rfl, take_left, map_cons, ← Member.lexemes]
    simpa using ih fun l hl => hplain l (by simp [hl])

end SqlOutline
