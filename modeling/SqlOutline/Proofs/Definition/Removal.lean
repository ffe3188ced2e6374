import SqlOutline.Proofs.Definition.Mark
import SqlOutline.Proofs.Name.Quoted
import SqlOutline.Proofs.Trigger.BlockWords

/-!
# Removed objects

The words in front of the names of removed objects are read by a pattern, which does not take a
first name `if` for `IF EXISTS`. The names are read from the lexemes behind.

## Main definitions

* `RemovedName` — a dotted name in a list, perhaps with arguments in parentheses.
* `RemovalHeader`, `RemovalEnd` — what stands in front of a list and behind it.

## Main results

* `droppedNames_written` — all names of a list are read, in their order and each once.
* `readDrop?_written` — the removal of listed objects is one removal for each name.
-/

namespace SqlOutline

open List Text Scan Pattern Name Cursor QualifiedName
open Lexeme (shift)

variable {c : Char}

/-! ## Names -/

variable {ps : List NamePart} {s : Text}

namespace NamePart

/-- A word of letters, digits and underscores that does not start with a digit, or a quoted
identifier on one line, without dots in it and without white space at its ends. -/
def IsPlain : NamePart → Prop
  | word t => (t.head?.any fun c => !isAsciiDigit c) ∧
      ∀ c ∈ t, (isAsciiAlnum c || c == '_')
  | quoted i => '.' ∉ i.value ∧ '\n' ∉ i.value ∧ trim i.value = i.value

instance : DecidablePred IsPlain
  | word _ => inferInstanceAs (Decidable (_ ∧ _))
  | quoted _ => inferInstanceAs (Decidable (_ ∧ _ ∧ _))

/-- The object that a dotted name stands for: the last identifier, qualified by the others. -/
def object (before : List NamePart) (last : NamePart) : QualifiedName :=
  ⟨if before.isEmpty then none else some (String.ofList (join ['.'] (before.map value))),
    String.ofList last.value⟩

variable {p : NamePart} {v : Text}

/-- The text does not continue an identifier before it. -/
def Ends (v : Text) : Prop := ∀ c ∈ v.head?, c ∈ ['.', ',', '('] ∨ isAsciiBlank c

lemma Ends.not_wordPart (hv : Ends v) (hc : c ∈ v.head?) :
    (isAsciiAlnum c || c == '_' || c == '#' || c == '@' || isWide c || c == '$') = false ∧
      isQuoteMark c = false := by
  rcases hv c hc with h | h
  · have hall : ∀ c ∈ ['.', ',', '('], (isAsciiAlnum c || c == '_' || c == '#' || c == '@' ||
        isWide c || c == '$') = false ∧ isQuoteMark c = false := by decide
    exact hall c h
  · simp only [isAsciiBlank, Bool.or_eq_true, beq_iff_eq] at h
    rcases h with (((rfl | rfl) | rfl) | rfl) | rfl <;> decide

lemma Ends.wordLength_eq_zero (hv : Ends v) : wordLength v = 0 := by
  cases v with
  | nil => rfl
  | cons c v =>
    have hc := (hv.not_wordPart (c := c) rfl).1
    simp only [Bool.or_eq_false_iff] at hc
    simp [wordLength, hc]

/-- **An identifier is one lexeme**, up to a character that ends it. -/
lemma tokenize_text (hp : p.IsPlain) (hv : Ends v) : tokenize (p.text ++ v) =
      ⟨p.kind, p.text, 0⟩ :: (tokenize v).map (shift (byteLength p.text)) := by
  cases p with
  | word t => exact tokenize_word hp.1 hp.2 hv.wordLength_eq_zero
  | quoted i =>
    obtain ⟨-, hfeed, -⟩ := hp
    refine QuotedIdent.tokenize_text ?_ fun c hc => (hv.not_wordPart hc).2
    simp [QuotedIdent.fitsLine, hfeed]

lemma IsPlain.isSimple_word {t : Text} (hp : (word t).IsPlain) : isSimple t := by
  obtain ⟨hfirst, hall⟩ := hp
  obtain _ | ⟨c, t⟩ := t
  · cases hfirst
  · exact all_eq_true.mpr fun c hc => isSimpleChar_of_isPlain (hall c hc)

lemma IsPlain.head_text (hp : p.IsPlain) (u : Text) : (p.text ++ u).head?.any isBlank = false := by
  cases p with
  | word t =>
    have hsimple := hp.isSimple_word
    obtain ⟨c, t, rfl⟩ := exists_cons_of_ne_nil (ne_nil_of_isSimple hsimple)
    exact not_isBlank_of_isSimpleChar (isSimpleChar_of_mem hsimple mem_cons_self)
  | quoted i =>
    have hall : ∀ s : QuoteStyle, isBlank s.opening = false := by
      rintro (_ | _ | _) <;> decide
    exact hall i.style

lemma segmentsFrom_text_append (hp : p.IsPlain) {u : Text} {ss : List Text}
    (hu : segmentsFrom none u = s :: ss) :
    segmentsFrom none (p.text ++ u) = (p.text ++ s) :: ss := by
  cases p with
  | word t => exact segmentsFrom_append (fun c hc => isSimpleChar_of_isPlain (hp.2 c hc)) hu
  | quoted i => exact i.segmentsFrom_text_append hu

lemma value_spec (hp : p.IsPlain) :
    stripQuotes? p.text = some p.value ∧ IsBare p.value ∧ '.' ∉ p.value := by
  cases p with
  | word t =>
    have hsimple := hp.isSimple_word
    exact ⟨stripQuotes?_of_isSimple hsimple, isBare_of_isSimple hsimple,
      dot_notMem_of_isSimple hsimple⟩
  | quoted i =>
    obtain ⟨hdot, -, htrim⟩ := hp
    exact ⟨i.stripQuotes?_text, ⟨i.value_ne_nil, htrim, fun c => i.isQuoteMark_of_mem⟩, hdot⟩

/-- **The object of a dotted name** is its last identifier, qualified by the others. -/
lemma ofChain?_dotted {before : List NamePart} {last : NamePart}
    (h : ∀ p ∈ before ++ [last], p.IsPlain) :
    ofChain? (dotted (before ++ [last])) = some (object before last) := by
  have hvalues : ∀ v ∈ before.map value ++ [last.value], IsBare v := by
    rw [← map_singleton (f := value), ← map_append, forall_mem_map]
    exact fun p hp => (value_spec (h p hp)).2.1
  have hstrip : (segments (dotted (before ++ [last]))).filterMap stripQuotes? =
      before.map value ++ [last.value] := by
    rw [dotted, segments_join (by simp) (forall_mem_map.mpr
      fun p hp _ _ _ hu => segmentsFrom_text_append (h p hp) hu), filterMap_map,
      ← map_singleton (f := value), ← map_append]
    exact filterMap_eq_map_iff_forall_eq_some.mpr fun p hp => (value_spec (h p hp)).1
  rw [ofChain?_eq_ofValues hstrip hvalues (value_spec (h last (by simp))).2.2, ofValues_eq hvalues,
    isEmpty_map, object]

end NamePart

/-! ## Lists of names -/

/-- Arguments in parentheses, the last of which closes the first. -/
structure IsArguments (g : Text) : Prop where
  opens : g.head? = some '('
  movable : Movable g
  nested : ∃ first inner last, tokenize g = first :: (inner ++ [last]) ∧
    first.isSymbol '(' ∧ last.isSymbol ')' ∧
    nesting? true 0 (inner.map Lexeme.mark) = some 0

variable {g : Text}

lemma IsArguments.exists_cons (hg : IsArguments g) : ∃ r, g = '(' :: r := by
  have hopens := hg.opens
  cases g with
  | nil => cases hopens
  | cons c r => exact ⟨r, congrArg (· :: r) (Option.some.inj hopens)⟩

lemma IsArguments.ends {gap : Text} (hg : IsArguments g)
    (hgap : ∀ c ∈ gap, isAsciiBlank c) (v : Text) : NamePart.Ends (gap ++ (g ++ v)) := by
  cases gap with
  | nil =>
    obtain ⟨r, rfl⟩ := hg.exists_cons
    rintro _ ⟨⟩
    exact .inl (by decide)
  | cons c gap =>
    rintro _ ⟨⟩
    exact .inr (hgap c mem_cons_self)

/-- A name in a list of removed objects, with what stands behind it up to the next comma. -/
structure RemovedName where
  before : List NamePart
  last : NamePart
  /-- Arguments in parentheses with white space in front of them. -/
  arguments : Option (Text × Text)
  space : Text

variable {rest : List (Text × RemovedName)}

namespace RemovedName

/-- A name and its arguments as they are written. -/
def text (i : RemovedName) : Text :=
  NamePart.dotted (i.before ++ [i.last]) ++
    ((i.arguments.elim [] fun a => a.1 ++ a.2) ++ i.space)

def object (i : RemovedName) : QualifiedName := NamePart.object i.before i.last

/-- A name that is written as it should be. -/
structure IsPlain (i : RemovedName) : Prop where
  parts : ∀ p ∈ i.before ++ [i.last], p.IsPlain
  arguments : ∀ a ∈ i.arguments, (∀ c ∈ a.1, isAsciiBlank c) ∧ IsArguments a.2
  space : ∀ c ∈ i.space, isAsciiBlank c

/-- Names with commas between them, and a gap behind each comma. -/
def written (i : RemovedName) : List (Text × RemovedName) → Text
  | [] => i.text
  | (gap, j) :: rest => i.text ++ ',' :: (gap ++ written j rest)

variable {i : RemovedName} {v : Text}

/-- Text behind a name and its arguments: it ends them, and goes on with neither a dot nor a
parenthesis. -/
structure Follows (v : Text) : Prop where
  ends : NamePart.Ends v
  apart : StartsApart v
  head : (tokenize v).head?.any (fun l => l.isSymbol '.' || l.isSymbol '(') = false

lemma startsApart_blank (hc : isAsciiBlank c) : StartsApart (c :: v) := by
  simp only [isAsciiBlank, Bool.or_eq_true, beq_iff_eq] at hc
  refine startsApart_cons ?_
  rcases hc with (((rfl | rfl) | rfl) | rfl) | rfl <;> decide

lemma any_map_shift (f : Lexeme → Bool) (hf : ∀ n l, f (shift n l) = f l) (n : Nat)
    (ls : List Lexeme) : (ls.map (shift n)).head?.any f = ls.head?.any f := by
  cases ls with
  | nil => rfl
  | cons l ls => exact hf n l

lemma Follows.blanks (hs : ∀ c ∈ s, isAsciiBlank c) (hv : Follows v) : Follows (s ++ v) := by
  refine ⟨?_, ?_, ?_⟩
  · cases s with
    | nil => exact hv.ends
    | cons c s =>
      rintro _ ⟨⟩
      exact .inr (hs c mem_cons_self)
  · cases s with
    | nil => exact hv.apart
    | cons c s => exact startsApart_blank (hs c mem_cons_self)
  · rw [tokenize_blanks hs, any_map_shift _ fun _ _ => rfl]
    exact hv.head

lemma Follows.head_dot (hv : Follows v) : (tokenize v).head?.any (·.isSymbol '.') = false := by
  have h := hv.head
  revert h
  cases (tokenize v).head? <;> simp +contextual

lemma Follows.head_paren (hv : Follows v) : (tokenize v).head?.any (·.isSymbol '(') = false := by
  have h := hv.head
  revert h
  cases (tokenize v).head? <;> simp +contextual

lemma chainLength_eq_zero {ls : List Lexeme} (h : ls.head?.any (·.isSymbol '.') = false) :
    chainLength ls = 0 := by
  rcases ls with _ | ⟨l, _ | ⟨l', ls⟩⟩
  · rfl
  · rfl
  · have hl : l.isSymbol '.' = false := h
    rw [chainLength, hl]
    rfl

lemma bracketed_arguments (hg : IsArguments g) (hv : StartsApart v) (n : Nat) :
    ((tokenize (g ++ v)).map (shift n)).head?.any (·.isSymbol '(') ∧
    (bracketed ((tokenize (g ++ v)).map (shift n))).2 =
      (tokenize v).map (shift (n + byteLength g)) := by
  obtain ⟨first, inner, last, hlexemes, hfirst, hlast, hnested⟩ := hg.nested
  rw [hg.movable.tokenize_append hv, hlexemes, map_append, Lexeme.map_shift_map_shift, map_cons,
    map_append, map_singleton, cons_append, append_assoc, singleton_append]
  refine ⟨hfirst, ?_⟩
  rw [bracketed_eq (show (shift n first).isSymbol '(' = true from hfirst) (by rwa [map_map])
    (show (shift n last).isSymbol ')' from hlast)]

/-- **A name in a list** is read with its arguments, wherever it stands. -/
lemma exists_readChain? (hi : i.IsPlain) (hv : Follows v) (x : Text) :
    ∃ rest, readChain? (x ++ (i.text ++ v)) ((tokenize (i.text ++ v)).map (shift (byteLength x))) =
        some (NamePart.dotted (i.before ++ [i.last]), rest) ∧
      (if rest.head?.any (·.isSymbol '(') then (bracketed rest).2 else rest) =
        (tokenize v).map (shift (byteLength (x ++ i.text))) := by
  have hname {u : Text} (hu : NamePart.Ends u)
      (hdot : (tokenize u).head?.any (·.isSymbol '.') = false) :=
    NamePart.readChain?_dotted (by rintro _ _ ⟨⟩; exact .inl (by decide))
      (fun p hp _ => NamePart.tokenize_text (hi.parts p hp)) hu (by simp)
      (chainLength_eq_zero hdot) x
  set name := NamePart.dotted (i.before ++ [i.last])
  have hspace := hv.blanks hi.space
  have htext : i.text = name ++ ((i.arguments.elim [] fun a => a.1 ++ a.2) ++ i.space) := rfl
  cases harguments : i.arguments with
  | none =>
    rw [harguments] at htext
    have hread := hname hspace.ends hspace.head_dot
    rw [htext, append_assoc]
    refine ⟨_, hread, ?_⟩
    rw [any_map_shift _ fun _ _ => rfl, hspace.head_paren, tokenize_blanks hi.space,
      Lexeme.map_shift_map_shift, ← byteLength_append, append_assoc]
    rfl
  | some a =>
    obtain ⟨gap, g⟩ := a
    obtain ⟨hgap, hg⟩ := hi.arguments _ harguments
    have hgap : ∀ c ∈ gap, isAsciiBlank c := hgap
    have hg : IsArguments g := hg
    rw [harguments] at htext
    obtain ⟨hparen, hbracketed⟩ := bracketed_arguments hg hspace.apart
      (byteLength (x ++ name) + byteLength gap)
    have hends := hg.ends hgap (i.space ++ v)
    have hlexemes := tokenize_blanks hgap (g ++ (i.space ++ v))
    have hdot : (tokenize (gap ++ (g ++ (i.space ++ v)))).head?.any (·.isSymbol '.') = false := by
      obtain ⟨first, inner, last, hinner, hfirst, -⟩ := hg.nested
      rw [hlexemes, any_map_shift _ fun _ _ => rfl, hg.movable.tokenize_append hspace.apart, hinner]
      exact first.isSymbol_eq_false hfirst (by decide)
    have hsource : i.text ++ v = name ++ (gap ++ (g ++ (i.space ++ v))) := by simp [htext]
    rw [hsource]
    refine ⟨_, hname hends hdot, ?_⟩
    rw [hlexemes, Lexeme.map_shift_map_shift, if_pos hparen, hbracketed, tokenize_blanks hi.space,
      Lexeme.map_shift_map_shift, htext]
    simp [byteLength_append, Nat.add_assoc]

lemma length_lt_of_readChain? {source chain : Text} {ls rest : List Lexeme}
    (h : readChain? source ls = some (chain, rest)) : rest.length < ls.length := by
  cases ls with
  | nil => cases h
  | cons l ls =>
    simp only [readChain?, Option.ite_none_right_eq_some, Option.some.injEq, Prod.mk.injEq] at h
    rw [← h.2.2, length_drop, length_cons]
    omega

lemma length_bracketed_le (ls : List Lexeme) : (bracketed ls).2.length ≤ ls.length := by
  rw [bracketed]
  split <;> simp

lemma follows_comma (u : Text) : Follows (',' :: u) := by
  refine ⟨?_, startsApart_cons (by decide), ?_⟩
  · rintro _ ⟨⟩
    exact .inl (by decide)
  · rw [tokenize_symbol (by decide)]
    rfl

/-- **All names of a list are read**, in their order and each once. -/
lemma droppedNames_written (hi : i.IsPlain)
    (hrest : ∀ r ∈ rest, (∀ c ∈ r.1, isAsciiBlank c) ∧ r.2.IsPlain) (hv : Follows v)
    (hcomma : (tokenize v).head?.any (·.isSymbol ',') = false) (x : Text) {bound : Nat}
    (hbound : rest.length < bound) : droppedNames (x ++ (i.written rest ++ v)) bound
        ((tokenize (i.written rest ++ v)).map (shift (byteLength x))) =
      (i :: rest.map Prod.snd).map object := by
  induction rest generalizing i x bound with
  | nil =>
    obtain ⟨bound, rfl⟩ := Nat.exists_eq_add_of_lt hbound
    obtain ⟨ls, hread, hbehind⟩ := exists_readChain? hi hv x
    rw [written, droppedNames, hread]
    dsimp only
    rw [hbehind, NamePart.ofChain?_dotted hi.parts]
    cases htokens : tokenize v with
    | nil => rfl
    | cons l ls =>
      rw [htokens] at hcomma
      have hl : (shift (byteLength (x ++ i.text)) l).isSymbol ',' = false := hcomma
      rw [map_cons]
      dsimp only
      rw [hl]
      rfl
  | cons r rest ih =>
    obtain ⟨gap, j⟩ := r
    obtain ⟨⟨hgap, hj⟩, hrest⟩ := forall_mem_cons.mp hrest
    have hgap : ∀ c ∈ gap, isAsciiBlank c := hgap
    obtain ⟨bound, rfl⟩ : ∃ b, bound = b + 1 := ⟨bound - 1, by omega⟩
    have hrec := ih hj hrest (x ++ (i.text ++ ',' :: gap)) (Nat.lt_of_succ_lt_succ hbound)
    obtain ⟨ls, hread, hbehind⟩ :=
      exists_readChain? hi (follows_comma (gap ++ (j.written rest ++ v))) x
    have hsource : i.written ((gap, j) :: rest) ++ v =
        i.text ++ ',' :: (gap ++ (j.written rest ++ v)) := by simp [written]
    have hlist : x ++ (i.text ++ ',' :: gap) ++ (j.written rest ++ v) =
        x ++ (i.text ++ ',' :: (gap ++ (j.written rest ++ v))) := by simp
    have hlength : byteLength (x ++ (i.text ++ ',' :: gap)) =
        byteLength (x ++ i.text) + 1 + byteLength gap := by
      rw [← append_assoc, byteLength_append, byteLength_cons, ← Nat.add_assoc]
      rfl
    rw [hlist, hlength] at hrec
    rw [hsource, droppedNames, hread]
    dsimp only
    rw [hbehind, NamePart.ofChain?_dotted hi.parts, tokenize_symbol (by decide),
      tokenize_blanks hgap, map_cons, Lexeme.map_shift_map_shift, Lexeme.map_shift_map_shift]
    exact congrArg (i.object :: ·) hrec

lemma length_lt_tokenize_written (hi : i.IsPlain)
    (hrest : ∀ r ∈ rest, (∀ c ∈ r.1, isAsciiBlank c) ∧ r.2.IsPlain) (hv : Follows v) :
    rest.length < (tokenize (i.written rest ++ v)).length := by
  have hname {i : RemovedName} {v : Text} (hi : i.IsPlain) (hv : Follows v) :
      (tokenize v).length < (tokenize (i.text ++ v)).length := by
    obtain ⟨ls, hread, hbehind⟩ := exists_readChain? hi hv []
    have hchain := length_lt_of_readChain? hread
    have hlength := congrArg length hbehind
    rw [length_map] at hchain hlength
    split at hlength
    · exact Nat.lt_of_le_of_lt (hlength ▸ length_bracketed_le ls) hchain
    · exact hlength ▸ hchain
  induction rest generalizing i with
  | nil => exact Nat.zero_lt_of_lt (hname hi hv)
  | cons r rest ih =>
    obtain ⟨gap, j⟩ := r
    obtain ⟨⟨hgap, hj⟩, hrest⟩ := forall_mem_cons.mp hrest
    have hsource : i.written ((gap, j) :: rest) ++ v =
        i.text ++ ',' :: (gap ++ (j.written rest ++ v)) := by simp [written]
    have hlt := hname hi (follows_comma (gap ++ (j.written rest ++ v)))
    rw [tokenize_symbol (by decide), tokenize_blanks hgap, length_cons, length_map,
      length_map] at hlt
    have hrec : rest.length < (tokenize (j.written rest ++ v)).length := ih hj hrest
    rw [hsource, length_cons]
    omega

end RemovedName

/-! ## Words in front of the names -/

/-- The words that say what kind of object is removed. -/
def kindPhrases : List (List String × DropKind) :=
  [(["TABLE"], .table), (["MATERIALIZED", "VIEW"], .materializedView), (["VIEW"], .view),
    (["INDEX"], .index), (["PROCEDURE"], .procedure), (["PROC"], .procedure),
    (["FUNCTION"], .function), (["TRIGGER"], .trigger)]

/-- The words in front of the names of removed objects, in any letter case, with or without the
words that allow that there are no such objects. -/
inductive RemovalHeader (kind : DropKind) : Bool → Text → Prop
  | plain {a d b x g : Text} {ws : List String} (ha : ∀ c ∈ a, isBlank c)
    (hd : Spelled "DROP" d) (hb : IsGap b) (hws : (ws, kind) ∈ kindPhrases) (hx : InWords ws x)
    (hg : IsGap g) : RemovalHeader kind false (a ++ (d ++ (b ++ (x ++ g))))
  | ifExists {t x g : Text} (ht : RemovalHeader kind false t) (hx : InWords ["IF", "EXISTS"] x)
    (hg : IsGap g) : RemovalHeader kind true (t ++ (x ++ g))

variable {ws : List String}

lemma map_upper_words {x : Text} (hx : InWords ws x)
    (hws : ∀ s ∈ ws, IsCapital s ∧ ∀ a ∈ s.toList, a.toUpper = a ∧ a ≠ 'K' ∧ a ≠ 'S') :
    (words x).map upper = ws.map String.toList := by
  have hword {s : String} {x y : Text} (hx : Spelled s x)
      (hs : IsCapital s ∧ ∀ a ∈ s.toList, a.toUpper = a ∧ a ≠ 'K' ∧ a ≠ 'S')
      (hy : ∀ c ∈ y.head?, isBlank c) :
      (words (x ++ y)).map upper = s.toList :: (words y).map upper := by
    rw [words_append_of_not_blank (hx.ne_nil hs.1) (hx.isBlank_eq_false hs.1) hy, map_cons,
      (TriggerScan.spelled_iff_upper hs.2).mp hx]
  induction hx with
  | @single s x hx =>
    have h := hword hx (hws s mem_cons_self) (y := []) (by simp)
    rwa [append_nil] at h
  | @cons s u us x g y hx hg hy ih =>
    obtain ⟨hs, hws⟩ := forall_mem_cons.mp hws
    rw [hword hx hs (hg.head y), words_append_of_blank hg.2, ih hws]
    rfl

lemma upper_join (g : Text) (ps : List Text) :
    upper (join g ps) = join (upper g) (ps.map upper) := by
  induction ps with
  | nil => rfl
  | cons p ps ih =>
    cases ps with
    | nil => rfl
    | cons q ps =>
      show upper (p ++ g ++ join g (q :: ps)) = upper p ++ upper g ++ join (upper g) _
      rw [← ih]
      simp [upper]

variable {kind : DropKind}

/-- **The words of a kind mean it.** -/
lemma ofKeywords?_of_inWords {x : Text} (hws : (ws, kind) ∈ kindPhrases) (hx : InWords ws x) :
    DropKind.ofKeywords? x = some kind := by
  have hplain : ∀ e ∈ kindPhrases, ∀ s ∈ e.1,
      IsCapital s ∧ ∀ a ∈ s.toList, a.toUpper = a ∧ a ≠ 'K' ∧ a ≠ 'S' := by decide
  have hwords := map_upper_words hx (hplain _ hws)
  rw [DropKind.ofKeywords?, upperString, upper_join, hwords]
  revert hws
  clear hwords hx
  simp only [kindPhrases, mem_cons, not_mem_nil, or_false, Prod.mk.injEq]
  rintro (⟨rfl, rfl⟩ | ⟨rfl, rfl⟩ | ⟨rfl, rfl⟩ | ⟨rfl, rfl⟩ | ⟨rfl, rfl⟩ | ⟨rfl, rfl⟩ | ⟨rfl, rfl⟩ |
    ⟨rfl, rfl⟩) <;> rfl

def headerWith (q : Pattern) : Pattern :=
  all [.atStart, blanks0, lit "DROP", blanks,
    .group 1 (anyOf ((kindPhrases.map Prod.fst).map phrase)), blanks, q]

/-- The end of a list of names: nothing, or a word that says what happens to what hangs on the
objects. -/
inductive RemovalEnd : Text → Prop
  | none : RemovalEnd []
  | word {g w z : Text} (hne : g ≠ []) (hg : ∀ c ∈ g, isAsciiBlank c)
    (hw : upper w = "CASCADE".toList ∨ upper w = "RESTRICT".toList)
    (hz : ∀ c ∈ z, isAsciiBlank c) : RemovalEnd (g ++ (w ++ z))

def NoExists (u : Text) : Prop := ∀ c ∈ (trimStart u).head?, letterMatches 'E' c = false

lemma noExists_cons (hc : isBlank c = false ∧ letterMatches 'E' c = false) (u : Text) :
    NoExists (c :: u) := by
  have htrim : trimStart (c :: u) = c :: u := trimStart_append_cons hc.1 [] u
  rw [NoExists, htrim]
  rintro _ ⟨⟩
  exact hc.2

lemma noExists_append {u : Text} (hs : ∀ c ∈ s, isAsciiBlank c) :
    NoExists (s ++ u) ↔ NoExists u := by
  rw [NoExists, trimStart, dropWhile_append_of_pos fun c hc => isBlank_of_isAsciiBlank (hs c hc)]
  exact Iff.rfl

lemma RemovalEnd.spec {v : Text} (h : RemovalEnd v) : RemovedName.Follows v ∧ NoExists v ∧
    (tokenize v).head?.any (·.isSymbol ',') = false := by
  cases h with
  | none =>
    refine ⟨⟨?_, ?_, by rw [tokenize_nil]; rfl⟩, ?_, by rw [tokenize_nil]; rfl⟩ <;> rintro c ⟨⟩
  | @word g w z hne hg hw hz =>
    have hupper : ∀ c ∈ w, isAsciiAlpha c.toUpper := by
      have hall : ∀ s ∈ ["CASCADE", "RESTRICT"], ∀ c ∈ s.toList, isAsciiAlpha c := by decide
      intro c hc
      have hmem : c.toUpper ∈ upper w := mem_map_of_mem hc
      rcases hw with hw | hw <;> rw [hw] at hmem
      · exact hall "CASCADE" (by simp) _ hmem
      · exact hall "RESTRICT" (by simp) _ hmem
    have halpha : ∀ c ∈ w, isAsciiAlpha c :=
      fun c hc => isAsciiAlpha_of_toUpper (hupper c hc)
    obtain ⟨a, w, rfl⟩ : ∃ a r, w = a :: r :=
      exists_cons_of_ne_nil (by rintro rfl; rcases hw with hw | hw <;> cases hw)
    have ha := halpha a mem_cons_self
    have hplain : (NamePart.word (a :: w)).IsPlain := by
      refine ⟨?_, fun c hc => by simp [isAsciiAlnum, halpha c hc]⟩
      have hcode := toNat_of_isAsciiAlpha ha
      have hle : ∀ a b : Char, a ≤ b ↔ a.toNat ≤ b.toNat := fun _ _ => Iff.rfl
      have hnine : '9'.toNat = 57 := rfl
      simp only [head?_cons, Option.any_some, isAsciiDigit, hle, hnine, Bool.not_eq_true',
        Bool.and_eq_false_iff, decide_eq_false_iff_not]
      omega
    have hz' : NamePart.Ends z := fun c hc => .inr (hz c (mem_of_mem_head? hc))
    have hlexemes : ∃ n ls, tokenize (g ++ (a :: w ++ z)) =
        (⟨.word, a :: w, n⟩ : Lexeme) :: ls := by
      rw [tokenize_blanks hg]
      exact ⟨_, _, congrArg _ (NamePart.tokenize_text hplain hz')⟩
    obtain ⟨n, ls, hls⟩ := hlexemes
    obtain ⟨c, g, rfl⟩ := exists_cons_of_ne_nil hne
    refine ⟨⟨?_, RemovedName.startsApart_blank (hg c mem_cons_self), ?_⟩, ?_, ?_⟩
    · rintro _ ⟨⟩
      exact .inr (hg c mem_cons_self)
    · rw [hls]
      rfl
    · refine (noExists_append hg).mpr (noExists_cons ⟨isBlank_eq_false_of_isAsciiAlpha ha, ?_⟩ _)
      have hletter : a.toUpper = 'C' ∨ a.toUpper = 'R' := by
        rcases hw with hw | hw
        · exact .inl (cons.inj hw).1
        · exact .inr (cons.inj hw).1
      rw [Bool.eq_false_iff, ne_eq, TriggerScan.letterMatches_iff (by decide)]
      rcases hletter with h | h <;> simp [h]
    · rw [hls]
      rfl

namespace RemovedName

variable {i : RemovedName} {v : Text}

lemma exists_written_eq (hi : i.IsPlain) (rest : List (Text × RemovedName)) (hv : Follows v)
    (hexists : NoExists v) : ∃ (p : NamePart) (u : Text), i.written rest ++ v = p.text ++ u ∧
      p.IsPlain ∧ NoExists u ∧ NamePart.Ends u := by
  obtain ⟨w, hw, hfollows, hwexists⟩ :
      ∃ w, i.written rest ++ v = i.text ++ w ∧ Follows w ∧ NoExists w := by
    cases rest with
    | nil => exact ⟨v, rfl, hv, hexists⟩
    | cons r rest =>
      refine ⟨',' :: (r.1 ++ (r.2.written rest ++ v)), by simp [written], follows_comma _, ?_⟩
      exact noExists_cons (by decide) _
  obtain ⟨p, ps, hparts⟩ := exists_cons_of_ne_nil (show i.before ++ [i.last] ≠ [] by simp)
  have hp : p.IsPlain := hi.parts p (by simp [hparts])
  have hspace := hfollows.blanks hi.space
  refine ⟨p, NamePart.dottedTail ps ++
    (((i.arguments.elim [] fun a => a.1 ++ a.2) ++ i.space) ++ w), ?_, hp, ?_⟩
  · rw [hw, text, hparts, NamePart.dotted_cons, append_assoc, append_assoc]
  cases ps with
  | cons q ps =>
    refine ⟨noExists_cons (by decide) _, ?_⟩
    rintro _ ⟨⟩
    exact .inl (by decide)
  | nil =>
    cases harguments : i.arguments with
    | none => exact ⟨(noExists_append hi.space).mpr hwexists, hspace.ends⟩
    | some a =>
      obtain ⟨gap, g⟩ := a
      obtain ⟨hgap, hg⟩ := hi.arguments _ harguments
      have hends := IsArguments.ends hg hgap (i.space ++ w)
      obtain ⟨r, hr⟩ := hg.exists_cons
      have hsource : NamePart.dottedTail [] ++
          (((some (gap, g)).elim [] fun a => a.1 ++ a.2) ++ i.space ++ w) =
            gap ++ (g ++ (i.space ++ w)) := by simp [NamePart.dottedTail]
      rw [hsource]
      refine ⟨(noExists_append hgap).mpr ?_, hends⟩
      rw [show g = '(' :: r from hr]
      exact noExists_cons (by decide) _

/-- **The first name is not taken for `IF EXISTS`**. -/
lemma fails_ifExists (hi : i.IsPlain) (rest : List (Text × RemovedName)) (hv : Follows v)
    (hexists : NoExists v) {k : Cursor} (hk : k.rest = i.written rest ++ v) :
    (phrase ["IF", "EXISTS"]).Fails k := by
  obtain ⟨p, u, heq, hp, hu, hends⟩ := exists_written_eq hi rest hv hexists
  refine fails_of_not_spells (by decide) fun x r hx hspells => ?_
  obtain ⟨y, _, rfl, hy, hspells⟩ := spells_seq_iff.mp hspells
  obtain ⟨g, z, rfl, hg, hz⟩ := spells_seq_iff.mp hspells
  obtain ⟨hne, hblanks⟩ := spells_blanks_iff.mp hg
  have hsource : y ++ (g ++ (z ++ r)) = p.text ++ u := by
    rw [← heq, ← hk, hx]
    simp
  have hupper : upper y = "IF".toList :=
    (TriggerScan.spelled_iff_upper (by decide)).mp (spells_lit_iff.mp hy)
  have halpha : ∀ c ∈ y, isAsciiAlpha c := by
    intro c hc
    have hall : ∀ c ∈ "IF".toList, isAsciiAlpha c := by decide
    exact isAsciiAlpha_of_toUpper (hall _ (hupper ▸ mem_map_of_mem hc))
  cases p with
  | word t =>
    have hblank : (g ++ (z ++ r)).head?.any (fun c => isAsciiAlnum c || c == '_') = false := by
      obtain ⟨c, g, rfl⟩ := exists_cons_of_ne_nil hne
      refine Bool.eq_false_iff.mpr fun hc => Bool.false_ne_true ?_
      rw [← hblanks c mem_cons_self, not_isBlank_of_isSimpleChar (isSimpleChar_of_isPlain hc)]
    have hbehind : u.head?.any (fun c => isAsciiAlnum c || c == '_') = false := by
      cases u with
      | nil => rfl
      | cons c u =>
        have hc := (hends.not_wordPart (c := c) rfl).1
        simp only [Bool.or_eq_false_iff] at hc
        simp [hc]
    obtain ⟨-, rfl⟩ := append_inj_of_class hsource
      (fun c hc => by simp [isAsciiAlnum, halpha c hc]) hp.2 hblank hbehind
    have hcapital : IsCapital "EXISTS" := by decide
    have hspelled := spells_lit_iff.mp hz
    obtain ⟨c, z, rfl⟩ := exists_cons_of_ne_nil (hspelled.ne_nil hcapital)
    have htrim : trimStart (g ++ (c :: z ++ r)) = c :: (z ++ r) := by
      rw [cons_append, trimStart_append_cons
        (hspelled.isBlank_eq_false hcapital c mem_cons_self), trimStart_of_blank hblanks]
      rfl
    have hletter : letterMatches 'E' c := (forall₂_cons.mp hspelled).1
    have hnone := hu c (by rw [htrim]; rfl)
    rw [hletter] at hnone
    cases hnone
  | quoted j =>
    obtain ⟨c, y, rfl⟩ : ∃ c r, y = c :: r :=
      exists_cons_of_ne_nil (by rintro rfl; cases hupper)
    have hmark : c = j.style.opening := (cons.inj hsource).1
    have hletter := halpha c mem_cons_self
    rw [hmark] at hletter
    revert hletter
    cases j.style <;> decide

end RemovedName

/-- **The words of a header** are read up to what may follow the kind. -/
lemma RemovalHeader.exists_leads {t r : Text} (h : RemovalHeader kind false t)
    (hr : r.head?.any isBlank = false) :
    ∃ (l : Cursor) (c : Capture), l.rest = r ∧ l.groups = [(1, c)] ∧
      DropKind.ofKeywords? c.text = some kind ∧
      ∀ {q : Pattern} {m : Cursor}, q.Leads l m → (headerWith q).Leads ⟨none, t ++ r, 0, []⟩ m := by
  cases h with
  | @plain a d b x g ws ha hd hb hws hx hg =>
    have hphrases : ∀ e ∈ kindPhrases, e.1 ≠ [] ∧ ∀ s ∈ e.1, IsCapital s := by decide
    have hcapital : ∀ us ∈ kindPhrases.map Prod.fst, ∀ u ∈ us, IsCapital u := by decide
    have hapart : (kindPhrases.map Prod.fst).Pairwise fun us vs => us ≠ [] ∧
        ∀ u ∈ us.head?, ∀ v ∈ vs.head?, ¬ u.toList <+: v.toList := by decide
    obtain ⟨hne, hwords⟩ := hphrases _ hws
    obtain ⟨s, ws, rfl⟩ := exists_cons_of_ne_nil hne
    have hdrop : IsCapital "DROP" := by decide
    set k : Cursor := ⟨none, a ++ (d ++ (b ++ (x ++ g))) ++ r, 0, []⟩ with hk
    have hk₀ : k.rest = a ++ (d ++ (b ++ (x ++ (g ++ r)))) := by simp [hk]
    have hk₁ := rest_behind hk₀
    have hk₂ := rest_behind hk₁
    have hk₃ := rest_behind hk₂
    have hk₄ := rest_behind hk₃
    set k₃ := ((k.behind a).behind d).behind b with hk₃'
    set k₄ : Cursor := { k₃.behind x with
      groups := (1, k₃.textTo (k₃.behind x)) :: (k₃.behind x).groups } with hk₄'
    have hfirst : (d ++ (b ++ (x ++ (g ++ r)))).head?.any isBlank = false := by
      obtain ⟨c, d, rfl⟩ := exists_cons_of_ne_nil (hd.ne_nil hdrop)
      exact hd.isBlank_eq_false hdrop c mem_cons_self
    have hkind :=
      (leads_anyOf_phrase hcapital hapart (mem_map_of_mem hws) hx (hg.head r) hk₃).group 1
    refine ⟨k₄.behind g, k₃.textTo (k₃.behind x), rest_behind (k := k₄) hk₄, rfl, ?_, ?_⟩
    · have htext : (k₃.textTo (k₃.behind x)).text = x := by
        have hoffset : (k₃.behind x).offset - k₃.offset = byteLength x :=
          Nat.add_sub_cancel_left _ _
        rw [textTo, hoffset, hk₃, takeBytes_byteLength]
      rw [htext, ofKeywords?_of_inWords hws hx]
    · intro q m hq
      exact (leads_atStart rfl).cons ((leads_many ha hfirst hk₀).cons ((leads_lit hd hk₁).cons
        ((hb.leads (hx.head_eq_false (hwords s mem_cons_self) _) hk₂).cons
          (hkind.cons ((hg.leads hr (k := k₄) hk₄).cons (hq.cons (leads_all_nil m)))))))

/-- **The removal of listed objects** is one removal for each name of the list, in its order, of the
kind that the words in front say. -/
theorem readDrop?_written {kind : DropKind} {ifExists : Bool} {t v : Text} {i : RemovedName}
    {rest : List (Text × RemovedName)} (ht : RemovalHeader kind ifExists t) (hi : i.IsPlain)
    (hrest : ∀ r ∈ rest, (∀ c ∈ r.1, isAsciiBlank c = true) ∧ r.2.IsPlain) (hv : RemovalEnd v) :
    readDrop? (t ++ (i.written rest ++ v)) =
      some ((i :: rest.map Prod.snd).map fun j => .drop ⟨kind, j.object, ifExists⟩) := by
  obtain ⟨hfollows, hexists, hcomma⟩ := hv.spec
  have hcount := RemovedName.length_lt_tokenize_written hi hrest hfollows
  have hnames := RemovedName.droppedNames_written hi hrest hfollows hcomma [] hcount
  rw [nil_append, byteLength_nil, Lexeme.map_shift_zero] at hnames
  have hhead : (i.written rest ++ v).head?.any isBlank = false := by
    obtain ⟨p, u, heq, hp, -⟩ := RemovedName.exists_written_eq hi rest hfollows hexists
    rw [heq]
    exact hp.head_text u
  have hfind : ∃ m x, dropHeader.find? (t ++ (i.written rest ++ v)) = some m ∧
      m.stop.rest = i.written rest ++ v ∧ m.text? 1 = some x ∧
      DropKind.ofKeywords? x = some kind ∧ (m.text? 2).isSome = ifExists := by
    cases ifExists with
    | false =>
      obtain ⟨l, c, hl, hgroups, hkind, hlead⟩ := ht.exists_leads hhead
      have hfails := RemovedName.fails_ifExists hi rest hfollows hexists hl
      have hopt : (opt (.group 2 (all [phrase ["IF", "EXISTS"], blanks]))).Leads l l :=
        leads_opt_of_fails fun next => hfails _
      have hmatch := Leads.matchAt? (k := ⟨none, t ++ (i.written rest ++ v), 0, []⟩) (hlead hopt)
      refine ⟨_, c.text, findFrom?_of_matchAt? hmatch, hl, ?_, hkind, ?_⟩ <;>
        simp [Found.text?, group?, hgroups]
    | true =>
      cases ht with
      | @ifExists t x g ht hx hg =>
        have hcapital : ∀ s ∈ ["IF", "EXISTS"], IsCapital s := by decide
        have hfirst := hx.head_eq_false (hcapital "IF" (by simp)) (g ++ (i.written rest ++ v))
        obtain ⟨l, c, hl, hgroups, hkind, hlead⟩ := ht.exists_leads hfirst
        have hgap := rest_behind hl
        have hopt := (((leads_phrase hcapital hx hl).cons ((hg.leads hhead hgap).cons
          (leads_all_nil _))).group 2).altLeft .empty
        have hmatch := Leads.matchAt? (k := ⟨none, t ++ (x ++ (g ++ (i.written rest ++ v))), 0, []⟩)
          (hlead hopt)
        rw [append_assoc, append_assoc]
        refine ⟨_, c.text, findFrom?_of_matchAt? hmatch, rest_behind hgap, ?_, hkind, ?_⟩ <;>
          simp [Found.text?, group?, behind, hgroups]
  obtain ⟨m, x, hfind, hstop, htext, hkind, hflag⟩ := hfind
  simp only [readDrop?, hfind, htext, hkind, hstop, hflag, hnames, Option.bind_eq_bind,
    Option.bind_some, map_cons, map_map]
  rfl

/-- Two functions, one of them called `if` and one in quotes and with arguments. -/
theorem readDrop?_written_functions :
    let i : RemovedName := ⟨[], .word "if".toList, none, " ".toList⟩
    let j : RemovedName := ⟨[.word "s".toList],
      .quoted ⟨.double, "f g".toList, by decide, by decide⟩,
      some (" ".toList, "(int, t(3))".toList), []⟩
    RemovalHeader .function true "Drop FUNCTION If exists ".toList ∧ i.IsPlain ∧ j.IsPlain ∧
      RemovalEnd " cascade".toList ∧
      readDrop? "Drop FUNCTION If exists if , s.\"f g\" (int, t(3)) cascade".toList =
        some [.drop ⟨.function, ⟨none, "if"⟩, true⟩,
          .drop ⟨.function, ⟨some "s", "f g"⟩, true⟩] := by
  intro i j
  have hgap : IsGap " ".toList := by decide
  have hspelled : Spelled "DROP" "Drop".toList ∧ Spelled "FUNCTION" "FUNCTION".toList ∧
      Spelled "IF" "If".toList ∧ Spelled "EXISTS" "exists".toList := by
    unfold Spelled
    decide
  obtain ⟨hdrop, hfunction, hif, hexists⟩ := hspelled
  have hplain : RemovalHeader .function false "Drop FUNCTION ".toList :=
    .plain (a := []) (b := " ".toList) (g := " ".toList) (by simp) hdrop hgap (by decide)
      (.single hfunction) hgap
  have hheader : RemovalHeader .function true "Drop FUNCTION If exists ".toList :=
    .ifExists hplain (.cons hif hgap (.single hexists)) hgap
  have harguments : IsArguments "(int, t(3))".toList :=
    ⟨by decide, by decide +kernel, ⟨.symbol, ['('], 0⟩,
      (tokenize "(int, t(3))".toList).tail.dropLast, ⟨.symbol, [')'], 10⟩, by decide +kernel⟩
  have hi : i.IsPlain := ⟨by decide, by simp [i], by decide⟩
  have hj : j.IsPlain := by
    refine ⟨by decide, ?_, by simp [j]⟩
    rintro a ⟨⟩
    exact ⟨by decide, harguments⟩
  have hend : RemovalEnd " cascade".toList :=
    .word (g := " ".toList) (w := "cascade".toList) (z := []) (by decide) (by decide)
      (.inl (by decide)) (by simp)
  have hrest : ∀ r ∈ [(" ".toList, j)], (∀ c ∈ r.1, isAsciiBlank c = true) ∧ r.2.IsPlain :=
    forall_mem_singleton.mpr ⟨by decide, hj⟩
  exact ⟨hheader, hi, hj, hend, readDrop?_written hheader hi hrest hend⟩

end SqlOutline
