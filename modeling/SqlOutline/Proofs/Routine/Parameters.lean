import SqlOutline.Proofs.Definition.Mark
import SqlOutline.Proofs.Routine.Package

/-!
# Parameters of routines

Variables can stand without parentheses, in front of the first word with which a body or an option
starts. One of these words is `AS`, which may also stand before a type.

## Main definitions

* `IsNested`, `IsBareType` — paired parentheses, and types without a name.

## Main results

* `readParameters_shift` — parameters are read alike wherever their text stands.
* `readSignature?_parentheses` — variables with and without parentheses.
* `readSignature?_bareTypes` — types without names, of which those with brackets get one.
-/

namespace SqlOutline

open List Text Scan Lexeme Name
open Lexeme (shift)

/-! ## Lexemes that are moved -/

section Move

variable (word : String) (leading : Option Direction) (depth n : Nat) (isVar : Bool) {t : Text}
  {ls item : List Lexeme} (x y : Text)

lemma spanText?_shift (h : ls ⊆ tokenize t) :
    spanText? (x ++ (t ++ y)) (ls.map (shift (byteLength x))) = spanText? t ls := by
  have hbounds := (lossless_scanFrom false {} t).isBoundary
  unfold spanText?
  rw [head?_map, getLast?_map]
  cases hfirst : ls.head? with
  | none => rfl
  | some first =>
    cases hlast : ls.getLast? with
    | none => rfl
    | some last =>
      have hslice := slice_append_of_isBoundary (hbounds first (h (mem_of_mem_head? hfirst))).1
        (hbounds last (h (mem_of_getLast? hlast))).2 y
      simp [slice_shift, hslice]

lemma spanUntil_eq (ends : Lexeme → Option Lexeme → Bool) (ls : List Lexeme) :
    (spanUntil ends ls).1 ++ (spanUntil ends ls).2 = ls := by
  induction ls with
  | nil => rfl
  | cons l ls ih =>
    rw [spanUntil]
    split_ifs
    · rfl
    · exact congrArg (l :: ·) ih

lemma spanUntil_map (ls : List Lexeme) : spanUntil endsParameterType (ls.map (shift n)) =
      Prod.map (map (shift n)) (map (shift n)) (spanUntil endsParameterType ls) := by
  induction ls with
  | nil => rfl
  | cons l ls ih =>
    have hends : endsParameterType (shift n l) (ls.map (shift n)).head? =
        endsParameterType l ls.head? := by
      cases ls <;> rfl
    rw [map_cons, spanUntil, spanUntil, hends, ih]
    split_ifs <;> rfl

lemma dropWord_map (ls : List Lexeme) :
    dropWord word (ls.map (shift n)) = (dropWord word ls).map (shift n) := by
  cases ls with
  | nil => rfl
  | cons l ls => exact (apply_ite (map (shift n)) _ _ _).symm

lemma dropWord_subset (ls : List Lexeme) : dropWord word ls ⊆ ls := by
  grind [dropWord, drop_subset]

lemma readDirection?_map (ls : List Lexeme) : readDirection? (ls.map (shift n)) =
      (readDirection? ls).map (Prod.map id (map (shift n))) := by
  rcases ls with _ | ⟨l, ls⟩
  · rfl
  have hout : (ls.map (shift n)).head?.any (·.isWord "OUT") = ls.head?.any (·.isWord "OUT") := by
    cases ls <;> rfl
  rw [map_cons, readDirection?, readDirection?, hout, ← map_drop]
  show (if l.isWord "IN" then _ else if l.isAnyWord _ then
    (Direction.ofKeyword? l.text).map _ else _) = _
  split_ifs
  · rfl
  · rfl
  · cases Direction.ofKeyword? l.text <;> rfl
  · rfl

lemma subset_of_readDirection? {d : Direction} {ks : List Lexeme}
    (h : readDirection? ls = some (d, ks)) : ks ⊆ ls := by
  cases ls with
  | nil => cases h
  | cons l ls =>
    rw [readDirection?] at h
    grind [Option.map_eq_some_iff, mem_of_mem_drop]

lemma leadingDirection_map (ls : List Lexeme) : leadingDirection (ls.map (shift n)) =
      Prod.map id (map (shift n)) (leadingDirection ls) := by
  unfold leadingDirection
  rw [readDirection?_map, dropWord_map]
  rcases readDirection? ls with _ | ⟨d, _ | ⟨k, ks⟩⟩ <;> rfl

lemma leadingDirection_subset (ls : List Lexeme) : (leadingDirection ls).2 ⊆ ls := by
  grind [leadingDirection, subset_of_readDirection?, dropWord_subset]

lemma trailingDirection_map (n : Nat)
    (ls : List Lexeme) : trailingDirection leading isVar (ls.map (shift n)) =
      Prod.map id (map (shift n)) (trailingDirection leading isVar ls) := by
  unfold trailingDirection
  rw [readDirection?_map, dropWord_map]
  cases isVar <;> cases leading <;> cases readDirection? ls <;> rfl

lemma trailingDirection_subset (ls : List Lexeme) :
    (trailingDirection leading isVar ls).2 ⊆ ls := by
  unfold trailingDirection
  grind [subset_of_readDirection?, dropWord_subset]

lemma readTyped?_shift (h : ls ⊆ tokenize t) (name : Option String) (isVar : Bool)
    (direction : Option Direction) :
    readTyped? (x ++ (t ++ y)) name isVar direction (ls.map (shift (byteLength x))) =
      readTyped? t name isVar direction ls := by
  have hparts := spanUntil_eq endsParameterType ls
  unfold readTyped?
  rw [spanUntil_map]
  generalize spanUntil endsParameterType ls = parts at hparts ⊢
  obtain ⟨type, tail⟩ := parts
  rw [← hparts] at h
  obtain ⟨hsub, htail⟩ := append_subset.mp h
  have htype : spanType? (x ++ (t ++ y)) (type.map (shift (byteLength x))) = spanType? t type := by
    rw [spanType?, spanType?, spanText?_shift x y hsub]
  have hdefault (k : Nat) : readDefault? (x ++ (t ++ y))
      ((tail.take k).map (shift (byteLength x))) = readDefault? t (tail.take k) := by
    have hk := List.Subset.trans (take_subset k tail) htail
    cases hls : tail.take k with
    | nil => rfl
    | cons l ls =>
      obtain ⟨-, hrest⟩ := cons_subset.mp (hls ▸ hk)
      rw [map_cons, readDefault?, readDefault?, ← map_drop, spanText?_shift x y hrest,
        spanText?_shift x y (List.Subset.trans (drop_subset 1 ls) hrest)]
      rfl
  simp only [Prod.map, ← map_reverse, takeWhile_map, length_map, ← map_take,
    htype, hdefault, any_map]
  rfl

/-- **A parameter is read alike wherever its text stands.** -/
lemma readParameter?_shift (h : item ⊆ tokenize t) :
    readParameter? (x ++ (t ++ y)) (item.map (shift (byteLength x))) = readParameter? t item := by
  have hlead := List.Subset.trans (leadingDirection_subset item) h
  unfold readParameter?
  rw [leadingDirection_map]
  generalize leadingDirection item = found at hlead ⊢
  obtain ⟨leading, _ | ⟨first, rest⟩⟩ := found
  · rfl
  have hnamed : isParameterName (shift (byteLength x) first) (rest.map (shift (byteLength x))) =
      isParameterName first rest := by
    cases rest <;> rfl
  have hsub : (if isParameterName first rest then rest else first :: rest) ⊆ tokenize t := by
    split_ifs
    · exact (cons_subset.mp hlead).2
    · exact hlead
  simp only [Prod.map, map_cons, hnamed, id_eq]
  rw [← map_cons, ← apply_ite (map (shift (byteLength x))), trailingDirection_map]
  have hbehind := List.Subset.trans (dropWord_subset "NOCOPY" _)
    (List.Subset.trans (trailingDirection_subset leading (isVariable first) _) hsub)
  simp only [Prod.map, dropWord_map]
  exact readTyped?_shift x y hbehind _ _ _

lemma itemsFrom_map (depth : Nat) (ls : List Lexeme) :
    itemsFrom depth (ls.map (shift n)) = (itemsFrom depth ls).map (map (shift n)) := by
  induction ls generalizing depth with
  | nil => rfl
  | cons l ls ih =>
    rw [map_cons, itemsFrom, itemsFrom, ih, show depthBehind depth (shift n l) =
      depthBehind depth l from rfl, ih]
    show (if (decide (depth = 0) && l.isSymbol ',') = true then _ else _) = _
    split_ifs
    · rfl
    · cases itemsFrom (depthBehind depth l) ls <;> rfl

lemma sublist_of_mem_splitTopLevel (h : item ∈ splitTopLevel ls) : item.Sublist ls := by
  obtain ⟨rs, -, -, hitems⟩ := exists_stretches_splitTopLevel ls
  rw [hitems] at h
  obtain ⟨r, -, rfl⟩ := mem_map.mp h
  exact (drop_sublist _ _).trans (take_sublist _ _)

/-- **So are the parameters between commas.** -/
lemma readParameters_shift (h : ls ⊆ tokenize t) :
    readParameters (x ++ (t ++ y)) (ls.map (shift (byteLength x))) = readParameters t ls := by
  have hsplit : splitTopLevel (ls.map (shift (byteLength x))) =
      (splitTopLevel ls).map (map (shift (byteLength x))) := by
    rw [splitTopLevel, itemsFrom_map, filter_map, splitTopLevel]
    congr 2
    funext item
    simp
  rw [readParameters, hsplit, filterMap_map]
  refine filterMap_congr fun item hitem => readParameter?_shift x y ?_
  exact List.Subset.trans (sublist_of_mem_splitTopLevel hitem).subset h

end Move

/-! ## Parameters in front of a body -/

/-- Each parenthesis of the text has its partner in it. -/
def IsNested (t : Text) : Prop := nesting? true 0 ((tokenize t).map Lexeme.mark) = some 0

instance (t : Text) : Decidable (IsNested t) := inferInstanceAs (Decidable (_ = _))

/-- The first words of a routine, up to its name. -/
lemma tokenize_heading {k n v : Text} (hk : (k.head?.any fun c => !isAsciiDigit c) ∧
      ∀ c ∈ k, (isAsciiAlnum c || c == '_'))
    (hn : (n.head?.any fun c => !isAsciiDigit c) ∧
      ∀ c ∈ n, (isAsciiAlnum c || c == '_')) (hv : wordLength v = 0) :
    tokenize ("CREATE ".toList ++ (k ++ ' ' :: (n ++ v))) =
      [⟨.word, "CREATE".toList, 0⟩, ⟨.word, k, 7⟩, ⟨.word, n, 7 + (byteLength k + 1)⟩] ++
        (tokenize v).map (shift (7 + (byteLength k + 1 + byteLength n))) := by
  rw [tokenize_create, tokenize_word hk.1 hk.2 rfl, tokenize_space, tokenize_word hn.1 hn.2 hv]
  simp [shift, Nat.add_assoc]

def grouped (p : Text) : Text := '(' :: (p ++ [')'])

section Front

variable {p v : Text} {first last as : Lexeme} {ls rest : List Lexeme} (depth : Nat) (x : Text)

lemma tokenize_grouped (hp : tokenize (p ++ ')' :: v) =
      tokenize p ++ (tokenize (')' :: v)).map (shift (byteLength p))) :
    tokenize (grouped p ++ v) = ⟨.symbol, ['('], 0⟩ ::
      ((tokenize p).map (shift 1) ++ [⟨.symbol, [')'], 1 + byteLength p⟩]) ++
        (tokenize v).map (shift (byteLength (grouped p))) := by
  have hlength : byteLength (grouped p) = 1 + (byteLength p + 1) := by
    rw [grouped, byteLength_cons, byteLength_append]
    rfl
  rw [hlength, grouped, cons_append, append_assoc, tokenize_symbol (by decide), singleton_append,
    hp, tokenize_symbol (by decide), map_append, map_cons, map_cons, map_shift_map_shift,
    map_shift_map_shift, cons_append, append_assoc]
  rfl

lemma IsNested.map_shift (h : IsNested p) (n : Nat) :
    nesting? true 0 (((tokenize p).map (shift n)).map mark) = some 0 := by
  rw [map_map]
  exact h

lemma parametersAtFront_grouped (hp : IsNested p) (x v : Text) (rest : List Lexeme) :
    parametersAtFront (x ++ (grouped p ++ v)) ((⟨.symbol, ['('], 0⟩ ::
      ((tokenize p).map (shift 1) ++ [⟨.symbol, [')'], 1 + byteLength p⟩])).map
        (shift (byteLength x)) ++ rest) =
        (readParameters p (tokenize p), rest) := by
  have hparameters := readParameters_shift (x ++ ['(']) (')' :: v) (List.Subset.refl (tokenize p))
  rw [byteLength_append, append_assoc] at hparameters
  have hsource : x ++ (grouped p ++ v) = x ++ (['('] ++ (p ++ ')' :: v)) := by simp [grouped]
  rw [map_cons, map_append, map_shift_map_shift, cons_append,
    append_assoc, parametersAtFront, if_pos (by rfl), map_singleton,
    singleton_append, bracketed_eq (by rfl) (hp.map_shift _) (by rfl), hsource]
  exact congrArg (·, rest) hparameters

lemma spanTopLevel_eq (ls : List Lexeme) :
    (spanTopLevel endsVariables depth ls).1 ++ (spanTopLevel endsVariables depth ls).2 = ls := by
  induction ls generalizing depth with
  | nil => rfl
  | cons l ls ih =>
    rw [spanTopLevel]
    split_ifs
    · rfl
    · exact congrArg (l :: ·) (ih _)

lemma spanTopLevel_append (has : as.isWord "AS") {depth : Nat}
    (h : nesting? true depth (ls.map mark) = some 0) (n : Nat) (rest : List Lexeme) :
    spanTopLevel endsVariables depth (ls.map (shift n) ++ as :: rest) =
      Prod.map (map (shift n)) (fun ks => ks.map (shift n) ++ as :: rest)
        (spanTopLevel endsVariables depth ls) := by
  induction ls generalizing depth with
  | nil =>
    obtain rfl := Option.some.inj h
    have hends : endsVariables as rest.head? := by
      obtain ⟨hk, hu⟩ := isWord_iff.mp has
      simp [endsVariables, isAnyWord, hk, hu]
    simp [spanTopLevel, hends]
  | cons l ls ih =>
    obtain ⟨d, hd, h⟩ := Option.bind_eq_some_iff.mp h
    have hdepth : depthBehind depth l = d := by
      unfold Mark.nesting? at hd
      simp only [depthBehind, ← mark_eq_symbol_iff l (c := '(') (by decide),
        ← mark_eq_symbol_iff l (c := ')') (by decide)]
      split_ifs at hd ⊢ <;> simp_all
    rw [map_cons, cons_append, spanTopLevel, spanTopLevel,
      show depthBehind depth (shift n l) = d from hdepth, hdepth, ih h]
    show (if (decide (depth = 0) && endsVariables l ls.head?) = true then _ else _) = _
    split_ifs <;> rfl

lemma isSymbol_of_isVariable (h : isVariable first) {c : Char} (hc : c ≠ '@') :
    first.isSymbol c = false := by
  rw [Bool.eq_false_iff, ne_eq, isSymbol_iff]
  rintro ⟨-, htext⟩
  simp [isVariable, startsWith, htext, hc] at h

lemma parametersAtFront_variables (hp : IsNested p) (hls : tokenize p = first :: ls)
    (hfirst : isVariable first) (has : as.isWord "AS") (x v : Text)
    (rest : List Lexeme) :
    parametersAtFront (x ++ (p ++ v)) ((first :: ls).map (shift (byteLength x)) ++ as :: rest) =
      (readParameters p (spanTopLevel endsVariables 0 (tokenize p)).1,
        (spanTopLevel endsVariables 0 (tokenize p)).2.map (shift (byteLength x)) ++
          as :: rest) := by
  have hrun := readParameters_shift x v fun l hl =>
    spanTopLevel_eq 0 (tokenize p) ▸ mem_append_left _ hl
  have hspan := spanTopLevel_append has hp (byteLength x) rest
  rw [hls, map_cons, cons_append] at hspan
  rw [map_cons, cons_append, parametersAtFront,
    isSymbol_of_isVariable (by exact hfirst) (by decide), if_neg (by decide),
    if_pos (by exact hfirst), hspan, ← hls]
  exact congrArg (·, _ ++ _) hrun

lemma bodyBehindAs?_shift (v : Text) (ls : List Lexeme) :
    bodyBehindAs? (x ++ v) (ls.map (shift (byteLength x))) = bodyBehindAs? v ls := by
  cases ls with
  | nil => rfl
  | cons l ls =>
    have hrest : restText? (x ++ v) ((l :: ls).map (shift (byteLength x))) =
        restText? v (l :: ls) := by
      simp [restText?, dropBytes_byteLength_add, shift]
    rw [bodyBehindAs?, bodyBehindAs?, hrest]
    rfl

lemma readBody?_behind {source x : Text} (hsource : source = x ++ v) (has : as.isWord "AS")
    (hls : tokenize source = ls ++ (as :: rest).map (shift (byteLength x)))
    (hlast : ls.getLast? = some last) (hexecute : last.isWord "EXECUTE" = false) (returns : Bool) :
    readBody? source returns
        (lexemeBefore? (tokenize source) ((as :: rest).map (shift (byteLength x)))) 0
        ((as :: rest).map (shift (byteLength x))) = bodyBehindAs? v rest := by
  obtain ⟨hk, hu⟩ :=
    isWord_iff.mp (show (shift (byteLength x) as).isWord "AS" from has)
  have hbefore : lexemeBefore? (tokenize source) ((as :: rest).map (shift (byteLength x))) =
      some last := by
    simp [lexemeBefore?, hls, hlast]
  rw [hbefore, ← bodyBehindAs?_shift x, hsource, map_cons, readBody?]
  simp [hk, hu, hexecute, isAnyWord]

section Header

variable {h w : Text} {verb kind name : Lexeme} {routine : RoutineKind} {s : List Lexeme}
  {parameters : List Parameter}
  (hh : tokenize (h ++ (w ++ v)) =
    [verb, kind, name] ++ (tokenize (w ++ v)).map (shift (byteLength h)))
  (hverb : verb.isWord "CREATE") (hkind : routineWord? kind = some routine)
  (hname : name.isPlainName)
  (hw : tokenize (w ++ v) = first :: ls ++ (tokenize v).map (shift (byteLength w)))
  (hdot : first.isSymbol '.' = false) (hsemi : first.isSymbol ';' = false)
  (hfront : parametersAtFront (h ++ (w ++ v)) ((first :: ls).map (shift (byteLength h)) ++
    (tokenize v).map (shift (byteLength (h ++ w)))) =
      (parameters, s ++ (tokenize v).map (shift (byteLength (h ++ w)))))

include hh hverb hkind hname hw hdot hsemi hfront

lemma readSignature?_front :
    tokenize (h ++ (w ++ v)) = [verb, kind, name] ++ (first :: ls).map (shift (byteLength h)) ++
      (tokenize v).map (shift (byteLength (h ++ w))) ∧
    readSignature? (h ++ (w ++ v)) = some (signatureBehind (h ++ (w ++ v)) routine false false
      ⟨none, String.ofList name.text⟩
      (parameters, s ++ (tokenize v).map (shift (byteLength (h ++ w))))) := by
  rw [hw, map_append, map_shift_map_shift, ← byteLength_append] at hh
  refine ⟨hh.trans (append_assoc _ _ _).symm, ?_⟩
  have hnumber (ks : List Lexeme) :
      behindRoutineNumber (shift (byteLength h) first :: ks) =
        shift (byteLength h) first :: ks := by
    have hsemi : (shift (byteLength h) first).isSymbol ';' = false := hsemi
    cases ks <;> simp [behindRoutineNumber, hsemi]
  have hchain (ks : List Lexeme) : chainLength (shift (byteLength h) first :: ks) = 0 := by
    have hdot : (shift (byteLength h) first).isSymbol '.' = false := hdot
    cases ks <;> simp [chainLength, hdot]
  simp only [map_cons, cons_append, nil_append] at hh hfront
  rw [readSignature?_plain hh hverb hkind hname (hchain _), hnumber, hfront]

lemma readSignature?_procedure (hprocedure : routine = .procedure)
    (hlast : (first :: ls).getLast? = some last) (hexecute : last.isWord "EXECUTE" = false)
    (hv : tokenize v = as :: rest) (has : as.isWord "AS") :
    (readSignature? (h ++ (w ++ v))).map (·.parameters) = some parameters ∧
    (s = [] → readSignature? (h ++ (w ++ v)) = some {
      kind := .procedure, alter := false, orReplace := false
      name := ⟨none, String.ofList name.text⟩, parameters, returnType := none
      body := bodyBehindAs? v rest }) := by
  obtain ⟨hlexemes, hread⟩ := readSignature?_front hh hverb hkind hname hw hdot hsemi hfront
  refine ⟨by rw [hread]; rfl, ?_⟩
  rintro rfl
  subst hprocedure
  rw [hv] at hlexemes hread
  have hbefore : ([verb, kind, name] ++ (first :: ls).map (shift (byteLength h))).getLast? =
      some (shift (byteLength h) last) := by
    rw [getLast?_append, getLast?_map, hlast]
    rfl
  rw [hread, ← readBody?_behind (append_assoc h w v).symm has hlexemes hbefore hexecute false]
  rfl

lemma readSignature?_function {returns type : Lexeme} (hfunction : routine = .function)
    (hs : s = []) (hv : tokenize v = [returns, type] ++ as :: rest)
    (hreturns : returns.isWord "RETURNS")
    (hreturn : ∀ source n, readReturnType source ((type :: as :: rest).map (shift n)) =
      (spanType? source ([type].map (shift n)), (as :: rest).map (shift n)))
    (has : as.isWord "AS") (hexecute : type.isWord "EXECUTE" = false) :
    readSignature? (h ++ (w ++ v)) = some {
      kind := .function, alter := false, orReplace := false
      name := ⟨none, String.ofList name.text⟩, parameters, returnType := spanType? v [type]
      body := bodyBehindAs? v rest } := by
  obtain ⟨hlexemes, hread⟩ := readSignature?_front hh hverb hkind hname hw hdot hsemi hfront
  subst hfunction hs
  have htype : spanType? (h ++ (w ++ v)) ([type].map (shift (byteLength (h ++ w)))) =
      spanType? v [type] := by
    have hspan := spanText?_shift (h ++ w) [] (show [type] ⊆ tokenize v by simp [hv])
    rw [append_nil, append_assoc] at hspan
    rw [spanType?, spanType?, hspan]
  rw [hv, map_append] at hlexemes hread
  have hbody := readBody?_behind (append_assoc h w v).symm has
    (hlexemes.trans (append_assoc _ _ _).symm)
    (getLast?_append.trans (by rfl : _ = some (shift (byteLength (h ++ w)) type)))
    hexecute true
  rw [hread, ← htype, ← hbody]
  generalize byteLength (h ++ w) = n
  have hword : (shift n returns).isWord "RETURNS" := hreturns
  obtain ⟨hk, hu⟩ := isWord_iff.mp hword
  have hrest := hreturn (h ++ (w ++ v)) n
  rw [map_cons, map_cons] at hrest
  simp [signatureBehind, hword, isAnyWord, hk, hu, hrest]

end Header

end Front

/-! ## Variables with and without parentheses -/

/-- **Variables in parentheses are all read, and so is the body. Without parentheses they are read
up to the first word with which a body or an option starts**, and if there is none, the routine is
the same. -/
theorem readSignature?_parentheses {p : Text} (hp : Movable p) (hnested : IsNested p)
    (hfirst : (tokenize p).head?.any isVariable = true)
    (hlast : (tokenize p).getLast?.any (·.isWord "EXECUTE") = false) (body : Text) :
    readSignature? ("CREATE PROCEDURE p (".toList ++ p ++ ") AS ".toList ++ body) = some {
      kind := .procedure, alter := false, orReplace := false, name := ⟨none, "p"⟩
      parameters := readParameters p (tokenize p), returnType := none
      body := bodyBehindAs? body (tokenize body) } ∧
    (readSignature? ("CREATE PROCEDURE p ".toList ++ p ++ " AS ".toList ++ body)).map
      (·.parameters) = some (readParameters p (spanTopLevel endsVariables 0 (tokenize p)).1) ∧
    ((spanTopLevel endsVariables 0 (tokenize p)).2 = [] →
      readSignature? ("CREATE PROCEDURE p ".toList ++ p ++ " AS ".toList ++ body) =
        readSignature? ("CREATE PROCEDURE p (".toList ++ p ++ ") AS ".toList ++ body)) := by
  have hgrouped : "CREATE PROCEDURE p (".toList ++ p ++ ") AS ".toList ++ body =
      "CREATE PROCEDURE p ".toList ++ (grouped p ++ (" AS ".toList ++ body)) := by
    simp [grouped]
  have hplain : "CREATE PROCEDURE p ".toList ++ p ++ " AS ".toList ++ body =
      "CREATE PROCEDURE p ".toList ++ (p ++ (" AS ".toList ++ body)) := by
    simp
  have hbody := bodyBehindAs?_shift " AS ".toList body (tokenize body)
  have hv : tokenize (" AS ".toList ++ body) =
      ⟨.word, "AS".toList, 1⟩ :: (tokenize body).map (shift (byteLength " AS ".toList)) := by
    have has := tokenize_word (w := "AS".toList) (v := ' ' :: body) (by decide) (by decide) rfl
    rw [tokenize_space, map_shift_map_shift] at has
    refine (tokenize_space _).trans ((congrArg (map (shift 1)) has).trans ?_)
    rw [map_cons, map_shift_map_shift]
    rfl
  have hstart : StartsApart (" AS ".toList ++ body) := startsApart_cons (by decide)
  have hhead (u : Text) : tokenize ("CREATE PROCEDURE p ".toList ++ u) =
      [⟨.word, "CREATE".toList, 0⟩, ⟨.word, "PROCEDURE".toList, 7⟩, ⟨.word, "p".toList, 17⟩] ++
        (tokenize u).map (shift (byteLength "CREATE PROCEDURE p ".toList)) := by
    have hwords := tokenize_heading (k := "PROCEDURE".toList) (n := "p".toList) (v := ' ' :: u)
      (by decide) (by decide) rfl
    rwa [tokenize_space, map_shift_map_shift] at hwords
  rw [hgrouped, hplain]
  generalize " AS ".toList ++ body = v at *
  obtain ⟨first, ls, hls⟩ : ∃ first ls, tokenize p = first :: ls := by
    cases hls : tokenize p with
    | nil => simp [hls] at hfirst
    | cons first ls => exact ⟨first, ls, rfl⟩
  have hvariable : isVariable first = true := by rwa [hls] at hfirst
  obtain ⟨last, hl⟩ :=
    Option.isSome_iff_exists.mp (show (first :: ls).getLast?.isSome = true by simp)
  have hexecute : last.isWord "EXECUTE" = false := by rwa [hls, hl] at hlast
  have hbare := readSignature?_procedure (hhead (p ++ v)) (by decide) (by decide) (by decide)
    (hls ▸ hp.tokenize_append hstart) (isSymbol_of_isVariable hvariable (by decide))
    (isSymbol_of_isVariable hvariable (by decide))
    (by rw [hv]; exact parametersAtFront_variables hnested hls hvariable rfl _ _ _) rfl hl hexecute
    hv rfl
  have hgroup := readSignature?_procedure (s := []) (hhead (grouped p ++ v)) (by decide)
    (by decide) (by decide) (tokenize_grouped (hp.tokenize_append (startsApart_cons (by decide))))
    rfl rfl (parametersAtFront_grouped hnested _ _ _) rfl
    (by rw [← cons_append, getLast?_concat]) rfl hv rfl
  rw [hbody] at hbare hgroup
  refine ⟨hgroup.2 rfl, hbare.1, fun hstop => ?_⟩
  have hall := spanTopLevel_eq 0 (tokenize p)
  rw [hstop, append_nil] at hall
  rw [hbare.2 (by rw [hstop]; rfl), hgroup.2 rfl, hall]

/-- A default, a direction and a type with arguments. -/
theorem readSignature?_parentheses_defaults :
    let p := "@a INT = 1 OUTPUT, @b DECIMAL(10, 2)".toList
    (Movable p ∧ IsNested p ∧ (tokenize p).head?.any isVariable = true ∧
      (tokenize p).getLast?.any (·.isWord "EXECUTE") = false ∧
      (spanTopLevel endsVariables 0 (tokenize p)).2 = []) ∧
    readSignature? ("CREATE PROCEDURE p ".toList ++ p ++ " AS SELECT 1".toList) =
      readSignature? ("CREATE PROCEDURE p (".toList ++ p ++ ") AS SELECT 1".toList) := by
  intro p
  have hp : Movable p ∧ IsNested p ∧ (tokenize p).head?.any isVariable = true ∧
      (tokenize p).getLast?.any (·.isWord "EXECUTE") = false ∧
      (spanTopLevel endsVariables 0 (tokenize p)).2 = [] := by decide +kernel
  obtain ⟨hmove, hnested, hfirst, hlast, hstop⟩ := hp
  have h := (readSignature?_parentheses hmove hnested hfirst hlast "SELECT 1".toList).2.2 hstop
  rw [append_assoc _ _ "SELECT 1".toList, append_assoc _ _ "SELECT 1".toList] at h
  exact ⟨⟨hmove, hnested, hfirst, hlast, hstop⟩, h⟩

/-- Without parentheses the word `AS` before a type ends the variables. -/
theorem readSignature?_variable_as :
    (readSignature? "CREATE PROCEDURE p @a AS INT AS SELECT 1".toList).map
        (fun r => (r.parameters, r.body)) ≠
      (readSignature? "CREATE PROCEDURE p (@a AS INT) AS SELECT 1".toList).map
        (fun r => (r.parameters, r.body)) := by
  decide +kernel

/-! ## Parameters that are types -/

/-- A lexeme that can follow the word of a type: a word of it, or a part of what stands in
parentheses or brackets. -/
def isTypePart (l : Lexeme) : Bool :=
  l.kind == .number || l.isAnyWord ["PRECISION", "VARYING", "WITH", "WITHOUT", "TIME", "ZONE"]
    || ['(', ')', ',', '[', ']'].any l.isSymbol

def continuesType (l : Lexeme) : Bool :=
  l.isSymbol '(' || l.isAnyWord ["PRECISION", "VARYING", "WITH", "WITHOUT"]

/-- A type without a name: a word for a type, and what can follow it, with commas in parentheses
only. -/
structure IsBareType (t : Text) : Prop where
  movable : Movable t
  nested : nesting? false 0 ((tokenize t).map mark) = some 0
  word : (tokenize t).head?.any fun l =>
    l.start = 0 && l.isPlainName && isTypeName l.text
  parts : ∀ l ∈ (tokenize t).tail, isTypePart l
  next : ∀ l ∈ (tokenize t).tail.head?, l.isSymbol '[' ∨ continuesType l

instance (t : Text) : Decidable (IsBareType t) :=
  decidable_of_iff (Movable t ∧ nesting? false 0 ((tokenize t).map mark) = some 0 ∧
      ((tokenize t).head?.any fun l => l.start = 0 && l.isPlainName && isTypeName l.text) ∧
      (∀ l ∈ (tokenize t).tail, isTypePart l) ∧
      ∀ l ∈ (tokenize t).tail.head?, l.isSymbol '[' ∨ continuesType l)
    ⟨fun ⟨h₁, h₂, h₃, h₄, h₅⟩ => ⟨h₁, h₂, h₃, h₄, h₅⟩,
      fun ⟨h₁, h₂, h₃, h₄, h₅⟩ => ⟨h₁, h₂, h₃, h₄, h₅⟩⟩

/-- What is read for a type without a name. -/
def bareParameter (t : Text) : Parameter :=
  if (tokenize t).tail.head?.any (·.isSymbol '[') then
    { name := (tokenize t).head?.map (String.ofList ·.text)
      dataType := spanType? t (tokenize t).tail }
  else { dataType := (normalizeType? t).map String.ofList }

def parameterWords : List String :=
  ["IN", "OUT", "INOUT", "VARIADIC", "NOCOPY", "DEFAULT", "OUTPUT", "READONLY"]

def IsNeutral (l : Lexeme) : Prop :=
  l.isAnyWord parameterWords = false ∧ ∀ c ∈ ['=', ':', '.', '%'], l.isSymbol c = false

section Neutral

variable {l : Lexeme} {ls : List Lexeme}

lemma isNeutral_of_isAnyWord {u : List String} (h : l.isAnyWord u)
    (hu : ∀ w ∈ u, w ∉ parameterWords) : IsNeutral l :=
  ⟨isAnyWord_eq_false_of_disjoint h hu,
    by simp [isSymbol, kind_of_isAnyWord h]⟩

lemma isNeutral_of_isTypePart (h : isTypePart l) : IsNeutral l := by
  simp only [isTypePart, Bool.or_eq_true, any_eq_true, beq_iff_eq] at h
  rcases h with (h | h) | ⟨c, hc, h⟩
  · constructor <;> simp [isAnyWord, isSymbol, h]
  · exact isNeutral_of_isAnyWord h (by decide)
  · refine ⟨isAnyWord_eq_false_of_isSymbol h _, fun d hd => ?_⟩
    have hne : ∀ c ∈ ['(', ')', ',', '[', ']'], ∀ d ∈ ['=', ':', '.', '%'], c ≠ d := by decide
    simpa [isSymbol, (isSymbol_iff.mp h).2] using fun _ => hne c hc d hd

namespace IsNeutral

variable (h : IsNeutral l)

include h

lemma isWord_eq_false {w : String} (hw : w ∈ parameterWords) : l.isWord w = false :=
  isAnyWord_eq_false_iff.mp h.1 w hw

lemma endsParameterType_eq_false (next : Option Lexeme) : endsParameterType l next = false := by
  rw [endsParameterType, isAnyWord_eq_false_of_subset h.1 (by decide), h.2 '=' (by decide),
    h.2 ':' (by decide)]
  rfl

end IsNeutral

lemma readTyped?_neutral (h : ∀ l ∈ ls, IsNeutral l) (source : Text) (name : Option String)
    (hsome : name.isSome ∨ (spanType? source ls).isSome) :
    readTyped? source name false none ls = some { name, dataType := spanType? source ls } := by
  have hspan : spanUntil endsParameterType ls = (ls, []) := by
    clear hsome
    induction ls with
    | nil => rfl
    | cons l ls ih =>
      obtain ⟨hl, hls⟩ := forall_mem_cons.mp h
      rw [spanUntil, hl.endsParameterType_eq_false, ih hls]
      rfl
  rw [readTyped?, hspan]
  refine if_neg ?_
  rw [Bool.and_eq_true, Option.isNone_iff_eq_none, Option.isNone_iff_eq_none]
  rintro ⟨hname, htype⟩
  rw [show name = none from hname, show spanType? source ls = none from htype] at hsome
  simp at hsome

lemma dropWord_neutral (h : ∀ l ∈ ls, IsNeutral l) {w : String} (hw : w ∈ parameterWords) :
    dropWord w ls = ls := by
  cases ls with
  | nil => rfl
  | cons l ls => simp [dropWord, (h l mem_cons_self).isWord_eq_false hw]

lemma readDirection?_neutral (h : ∀ l ∈ ls, IsNeutral l) : readDirection? ls = none := by
  cases ls with
  | nil => rfl
  | cons l ls =>
    have hl := h l mem_cons_self
    rw [readDirection?, hl.isWord_eq_false (by decide),
      isAnyWord_eq_false_of_subset hl.1 (by decide)]
    rfl

lemma readParameter?_neutral (h : ∀ k ∈ l :: ls, IsNeutral k) (hvar : isVariable l = false)
    (source : Text) : readParameter? source (l :: ls) =
      if isParameterName l ls then readTyped? source l.plain? false none ls
      else readTyped? source none false none (l :: ls) := by
  have hrest : ∀ k ∈ if isParameterName l ls then ls else l :: ls, IsNeutral k := by
    split_ifs
    · exact (forall_mem_cons.mp h).2
    · exact h
  rw [readParameter?, leadingDirection, readDirection?_neutral h, dropWord_neutral h (by decide)]
  simp only [hvar, trailingDirection, readDirection?_neutral hrest, Bool.false_eq_true, if_false]
  rw [dropWord_neutral hrest (by decide)]
  split_ifs <;> rfl

end Neutral

namespace IsBareType

variable {t : Text} (h : IsBareType t)

include h

lemma exists_cons : ∃ word rest, tokenize t = word :: rest ∧ word.start = 0 ∧
    word.isPlainName ∧ isTypeName word.text := by
  have hword := h.word
  cases hls : tokenize t with
  | nil => simp [hls] at hword
  | cons word rest => exact ⟨word, rest, rfl, by simpa [hls, and_assoc] using hword⟩

lemma spanText?_eq : spanText? t (tokenize t) = some t := by
  obtain ⟨word, rest, hls, hstart, -⟩ := h.exists_cons
  obtain ⟨last, hlast, hstop⟩ := Option.map_eq_some_iff.mp h.movable.ends
  have hslice := slice_append [] t []
  rw [append_nil, nil_append, byteLength_nil, Nat.zero_add] at hslice
  rw [spanText?, hlast, hls, head?_cons]
  show some (slice word.start last.stop t) = some t
  rw [hstart, hstop, hslice]

lemma isSome_normalizeType? : (normalizeType? t).isSome := by
  obtain ⟨word, rest, hls, hstart, hname, -⟩ := h.exists_cons
  have hmem : word ∈ tokenize t := hls ▸ mem_cons_self
  have hlossless := lossless_scanFrom false {} t
  have htext := hlossless.slice_eq word hmem
  have hne := hlossless.ne_nil word hmem
  rw [hstart, slice, Nat.sub_zero] at htext
  cases t with
  | nil => exact absurd htext.symm hne
  | cons c r =>
    rw [dropBytes, if_pos rfl, takeBytes] at htext
    split_ifs at htext
    · exact absurd htext.symm hne
    · have hc : isBlank c = false := not_isBlank_of_isSimpleChar <| isSimpleChar_of_isPlain <|
        (isPlainName_iff.mp hname).2.1 c (htext ▸ mem_cons_self)
      rw [normalizeType?, ← nil_append (c :: r), trim_append_cons hc]
      rfl

lemma isNeutral : ∀ l ∈ tokenize t, IsNeutral l := by
  obtain ⟨word, rest, hls, -, hname, htype⟩ := h.exists_cons
  have hparts := h.parts
  rw [hls] at hparts ⊢
  refine forall_mem_cons.mpr ⟨isNeutral_of_isAnyWord (u := typeNames) ?_ (by decide),
    fun l hl => isNeutral_of_isTypePart (hparts l hl)⟩
  obtain ⟨hkind, hchars, -⟩ := isPlainName_iff.mp hname
  rw [isTypeName, trim_of_not_blank fun c hc =>
    not_isBlank_of_isSimpleChar (isSimpleChar_of_isPlain (hchars c hc))] at htype
  rw [Lexeme.isAnyWord, hkind, Lexeme.upper, htype]
  rfl

/-- **A type without a name is read with one if a bracket follows its word.** -/
lemma readParameter?_eq : readParameter? t (tokenize t) = some (bareParameter t) := by
  have hneutral := h.isNeutral
  have hspan : spanType? t (tokenize t) = (normalizeType? t).map String.ofList := by
    rw [spanType?, h.spanText?_eq]
    rfl
  have htyped := readTyped?_neutral hneutral t none <| .inr <| by
    rw [hspan, Option.isSome_map, h.isSome_normalizeType?]
  have hnext := h.next
  obtain ⟨word, rest, hls, -, hname, htype⟩ := h.exists_cons
  have hne := (lossless_scanFrom false {} t).ne_nil word (mem_of_mem_head? (congrArg _ hls))
  obtain ⟨hkind, hchars, -⟩ := isPlainName_iff.mp hname
  have hvar : isVariable word = false := by
    rw [isVariable, startsWith, Bool.eq_false_iff, ne_eq, beq_iff_eq]
    exact fun hat => absurd (hchars '@' (mem_of_mem_head? hat)) (by decide)
  rw [bareParameter, ← hspan]
  rw [hls] at hneutral hnext htyped ⊢
  rw [readParameter?_neutral hneutral hvar, htyped]
  cases rest with
  | nil =>
    rw [isParameterName, hvar, if_neg (by decide)]
    rfl
  | cons next rest =>
    have hrest := (forall_mem_cons.mp hneutral).2
    obtain ⟨-, hsymbol⟩ := hrest next mem_cons_self
    have hplain : word.plain? = some (String.ofList word.text) := by
      rw [plain?, stripQuotes?_of_isSimple (isSimple_of_isPlainName hname hne)]
      rfl
    have hnamed : isParameterName word (next :: rest) = !continuesType next := by
      simp [isParameterName, continuesType, hvar, isName, hkind, htype, hsymbol '.',
        hsymbol '%']
    have hbracket : (!continuesType next) = next.isSymbol '[' := by
      cases hb : next.isSymbol '[' with
      | false => simpa [hb] using hnext next rfl
      | true =>
        obtain ⟨hk, htext⟩ := isSymbol_iff.mp hb
        simp [continuesType, isSymbol, isAnyWord, hk, htext]
    rw [hnamed, hbracket, hplain, readTyped?_neutral hrest t _ (.inl rfl)]
    exact (apply_ite some _ _ _).symm

end IsBareType

section TypeList

variable {ts : List Text} {t v : Text}

lemma tokenize_comma (ht : Movable t) (u : Text) : tokenize (t ++ ", ".toList ++ u) =
    tokenize t ++ ⟨.symbol, [','], byteLength t⟩ ::
      (tokenize u).map (shift (byteLength (t ++ ", ".toList))) := by
  rw [append_assoc, show ", ".toList ++ u = ',' :: ' ' :: u from rfl,
    ht.tokenize_append (startsApart_cons (by decide)), tokenize_symbol (by decide), tokenize_space,
    map_cons, map_shift_map_shift, map_shift_map_shift, byteLength_append]
  rfl

lemma tokenize_join (h : ∀ t ∈ ts, Movable t) (hv : StartsApart v) :
    tokenize (join ", ".toList ts ++ v) = tokenize (join ", ".toList ts) ++
      (tokenize v).map (shift (byteLength (join ", ".toList ts))) := by
  induction ts with
  | nil => exact (map_shift_zero _).symm.trans (by rw [join, tokenize_nil]; rfl)
  | cons t ts ih =>
    obtain ⟨ht, hts⟩ := forall_mem_cons.mp h
    cases ts with
    | nil => exact ht.tokenize_append hv
    | cons u us =>
      rw [join.eq_3 _ _ _ (by simp), append_assoc, tokenize_comma ht, tokenize_comma ht, ih hts,
        map_append, map_shift_map_shift, append_assoc, cons_append, ← byteLength_append]

lemma isNested_join (h : ∀ t ∈ ts, IsBareType t) : IsNested (join ", ".toList ts) := by
  induction ts with
  | nil => exact congrArg (fun ls => nesting? true 0 (ls.map mark)) tokenize_nil
  | cons t ts ih =>
    obtain ⟨ht, hts⟩ := forall_mem_cons.mp h
    cases ts with
    | nil => exact nesting?_true ht.nested
    | cons u us =>
      rw [IsNested, join.eq_3 _ _ _ (by simp), tokenize_comma ht.movable, map_append,
        nesting?_append, nesting?_true ht.nested]
      exact (ih hts).map_shift _

/-- **Types between commas are read one by one.** -/
lemma readParameters_types (h : ∀ t ∈ ts, IsBareType t) :
    readParameters (join ", ".toList ts) (tokenize (join ", ".toList ts)) =
      ts.map bareParameter := by
  induction ts with
  | nil => exact congrArg (readParameters []) tokenize_nil
  | cons t ts ih =>
    obtain ⟨ht, hts⟩ := forall_mem_cons.mp h
    have hne : tokenize t ≠ [] := by
      obtain ⟨word, rest, hls, -⟩ := ht.exists_cons
      simp [hls]
    cases ts with
    | nil => simp [readParameters, splitTopLevel, itemsFrom_eq_singleton ht.nested, hne, join,
        ht.readParameter?_eq]
    | cons u us =>
      have hitem := readParameter?_shift [] (", ".toList ++ join ", ".toList (u :: us))
        (List.Subset.refl (tokenize t))
      have hrest := readParameters_shift (t ++ ", ".toList) []
        (List.Subset.refl (tokenize (join ", ".toList (u :: us))))
      rw [byteLength_nil, map_shift_zero, ht.readParameter?_eq, nil_append] at hitem
      rw [append_nil, append_assoc, ih hts] at hrest
      rw [join.eq_3 _ _ _ (by simp), tokenize_comma ht.movable, readParameters, splitTopLevel,
        itemsFrom_append_comma ht.nested (by rfl), filter_cons_of_pos (by simpa using hne),
        filterMap_cons, append_assoc, hitem]
      exact congrArg (_ :: ·) hrest

end TypeList

/-- **Types without a name are read one by one, each with its type, unless a bracket follows the
word of a type**, which is then taken for a name. -/
theorem readSignature?_bareTypes {ts : List Text} (h : ∀ t ∈ ts, IsBareType t) :
    readSignature? ("CREATE FUNCTION f(".toList ++ join ", ".toList ts ++
      ") RETURNS int AS $$ SELECT 1 $$ LANGUAGE sql".toList) = some {
        kind := .function, alter := false, orReplace := false, name := ⟨none, "f"⟩
        parameters := ts.map bareParameter, returnType := some "int"
        body := some " SELECT 1 ".toList } := by
  obtain ⟨p, hp⟩ : ∃ p, join ", ".toList ts = p := ⟨_, rfl⟩
  obtain ⟨v, hv⟩ : ∃ v, " RETURNS int AS $$ SELECT 1 $$ LANGUAGE sql".toList = v := ⟨_, rfl⟩
  have hsource : "CREATE FUNCTION f(".toList ++ join ", ".toList ts ++
      ") RETURNS int AS $$ SELECT 1 $$ LANGUAGE sql".toList =
        "CREATE FUNCTION f".toList ++ (grouped p ++ v) := by
    simp [grouped, ← hp, ← hv]
  have hhead : tokenize ("CREATE FUNCTION f".toList ++ (grouped p ++ v)) =
      [⟨.word, "CREATE".toList, 0⟩, ⟨.word, "FUNCTION".toList, 7⟩, ⟨.word, "f".toList, 16⟩] ++
        (tokenize (grouped p ++ v)).map (shift (byteLength "CREATE FUNCTION f".toList)) :=
    tokenize_heading (k := "FUNCTION".toList) (n := "f".toList) (by decide) (by decide) rfl
  have hbehind : tokenize v = [⟨.word, "RETURNS".toList, 1⟩, ⟨.word, "int".toList, 9⟩] ++
      ⟨.word, "AS".toList, 13⟩ :: [⟨.dollarBody, "$$ SELECT 1 $$".toList, 16⟩,
        ⟨.word, "LANGUAGE".toList, 31⟩, ⟨.word, "sql".toList, 40⟩] := by
    rw [← hv]
    decide +kernel
  have htype : spanType? v [⟨.word, "int".toList, 9⟩] = some "int" := by
    rw [← hv]
    decide
  have hjoin := tokenize_join (fun t ht => (h t ht).movable)
    (startsApart_cons (c := ')') (v := v) (by decide))
  have hnested := isNested_join h
  have hparameters := readParameters_types h
  rw [hp] at hjoin hnested hparameters
  rw [hsource, readSignature?_function hhead (by decide) (by decide) (by decide)
    (tokenize_grouped hjoin) rfl rfl (parametersAtFront_grouped hnested _ _ _) rfl rfl hbehind rfl
    (fun _ _ => rfl) rfl rfl, htype, hparameters]
  rfl

/-- A type with arguments, one of more words and one with brackets. -/
theorem readSignature?_bareTypes_suffixes :
    let ts := ["numeric(10, 2)".toList, "timestamp with time zone".toList, "integer[]".toList]
    (∀ t ∈ ts, IsBareType t) ∧
    (readSignature? ("CREATE FUNCTION f(".toList ++ join ", ".toList ts ++
      ") RETURNS int AS $$ SELECT 1 $$ LANGUAGE sql".toList)).map (·.parameters) =
        some (ts.map bareParameter) := by
  intro ts
  have hts : ∀ t ∈ ts, IsBareType t := by decide +kernel
  exact ⟨hts, congrArg (Option.map (·.parameters)) (readSignature?_bareTypes hts)⟩

/-- The word before the brackets of an array is read as a name. -/
theorem readSignature?_array :
    (readSignature? ("CREATE FUNCTION f(integer[]) RETURNS int AS $$ SELECT 1 $$ " ++
      "LANGUAGE sql").toList).map (·.parameters) ≠
        some [{ dataType := (Name.normalizeType? "integer[]".toList).map String.ofList }] := by
  decide +kernel

end SqlOutline
