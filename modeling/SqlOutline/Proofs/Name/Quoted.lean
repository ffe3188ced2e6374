import SqlOutline.Proofs.Lexeme.Literal
import SqlOutline.Proofs.Name.Simple

/-!
# Quoted names

A dotted name is read by removing the quotes, putting the identifiers together with dots and
splitting the result at its last dot, so where an identifier ends is forgotten on the way.

## Main definitions

* `QuotedIdent`, `NamePart` — identifiers in quotes, and identifiers of a dotted name.

## Main results

* `readChain?_written` — how far a written name is read.
* `readName?_written_eq_ofParts?_iff` — when a name stands for what its identifiers do.
-/

namespace SqlOutline

open List Text QualifiedName Name Scan Lexeme

variable {ps : List Text}

/-! ## Quoted identifiers -/

/-- A way to quote an identifier. -/
inductive QuoteStyle where
  | double
  | back
  | brackets
  deriving Repr, DecidableEq

namespace QuoteStyle

def opening : QuoteStyle → Char
  | double => '"'
  | back => '`'
  | brackets => '['

def closing : QuoteStyle → Char
  | double => '"'
  | back => '`'
  | brackets => ']'

lemma isQuotePair_opening_closing (s : QuoteStyle) : isQuotePair s.opening s.closing := by
  cases s <;> rfl

lemma isQuoteMark_closing (s : QuoteStyle) : isQuoteMark s.closing := by
  cases s <;> rfl

end QuoteStyle

/-- An identifier in quotes, with no quotes in it and not blank. -/
structure QuotedIdent where
  style : QuoteStyle
  value : Text
  not_blank : trim value ≠ []
  no_quotes : (value.any isQuoteMark) = false

namespace QuotedIdent

/-- The identifier as it is written. -/
def text (i : QuotedIdent) : Text := i.style.opening :: (i.value ++ [i.style.closing])

/-- A dotted name as it is written. -/
def written (is : List QuotedIdent) : Text := join ['.'] (is.map text)

/-- Whether an identifier closes on its line, as one in brackets has to. -/
def fitsLine (i : QuotedIdent) : Bool := i.style != .brackets || !i.value.contains '\n'

section Ident

variable (i : QuotedIdent)

lemma value_ne_nil : i.value ≠ [] := by
  intro hnil
  apply i.not_blank
  rw [hnil]
  rfl

lemma isQuoteMark_of_mem {c : Char} (hc : c ∈ i.value) : isQuoteMark c = false := by
  have h := any_eq_false.mp i.no_quotes c hc
  simpa using h

lemma not_mem_of_isQuoteMark {c : Char} (hc : isQuoteMark c) : c ∉ i.value := by
  intro hmem
  rw [i.isQuoteMark_of_mem hmem] at hc
  cases hc

lemma closing_not_mem : i.style.closing ∉ i.value :=
  i.not_mem_of_isQuoteMark i.style.isQuoteMark_closing

lemma stripQuotes?_text : stripQuotes? i.text = some i.value :=
  stripQuotes?_quoted i.style.isQuotePair_opening_closing i.value

lemma segmentsFrom_text_append {u p : Text} (hu : segmentsFrom none u = p :: ps) :
    segmentsFrom none (i.text ++ u) = (i.text ++ p) :: ps := by
  have hquoted := segmentsFrom_quoted i.closing_not_mem hu
  obtain ⟨style, value, hblank, hquotes⟩ := i
  cases style <;> simp only [QuoteStyle.closing] at hquoted <;>
    simp [text, segmentsFrom, QuoteStyle.opening, QuoteStyle.closing, hquoted]

end Ident

lemma segments_written {is : List QuotedIdent} (hne : is ≠ []) :
    segments (written is) = is.map text :=
  segments_join (by simpa using hne) (forall_mem_map.mpr fun i _ _ _ _ hu =>
    i.segmentsFrom_text_append hu)

lemma normalizeChain?_written {is : List QuotedIdent} (hne : is ≠ []) :
    normalizeChain? (written is) = some (join ['.'] (is.map value)) := by
  have hstrip : (is.map text).filterMap stripQuotes? = is.map value := by
    rw [filterMap_map]
    exact filterMap_eq_map_iff_forall_eq_some.mpr fun i _ => i.stripQuotes?_text
  rw [normalizeChain?, segments_written hne, hstrip, joinDotted?_of_ne_nil (by simpa)]
  intro v hv
  obtain ⟨i, -, rfl⟩ := mem_map.mp hv
  exact i.value_ne_nil

end QuotedIdent

/-! ## Scanning quoted identifiers -/

namespace Scan

variable {quote : Char} {t v : Text}

lemma quotedLength_closed (ht : quote ∉ t) (hv : v.head? ≠ some quote) :
    quotedLength quote (t ++ quote :: v) = t.length + 1 := by
  have hdoubled : doubled quote t = t := by
    rw [doubled, flatMap_congr fun c hc => if_neg (ne_of_mem_of_not_mem hc ht), flatMap_singleton']
  simpa only [hdoubled] using quotedLength_doubled t hv

lemma takeWhile_closed (hbracket : ']' ∉ t) (hfeed : '\n' ∉ t) {d : Char}
    (hd : d = ']' ∨ d = '\n') :
    (t ++ d :: v).takeWhile (fun c => c != ']' && c != '\n') = t :=
  takeWhile_append_of_class
    (fun c hc => by simp [ne_of_mem_of_not_mem hc hbracket, ne_of_mem_of_not_mem hc hfeed])
    (by rcases hd with rfl | rfl <;> rfl)

lemma bracketLength?_closed (hne : t ≠ []) (hbracket : ']' ∉ t) (hfeed : '\n' ∉ t) :
    bracketLength? (t ++ ']' :: v) = some (t.length + 1) := by
  simp [bracketLength?, takeWhile_closed hbracket hfeed (.inl rfl), hne]

lemma bracketLength?_of_newline (hbracket : ']' ∉ t) (hfeed : '\n' ∈ t) :
    bracketLength? (t ++ v) = none := by
  obtain ⟨x, y, rfl, hx⟩ := eq_append_cons_of_mem hfeed
  rw [append_assoc, cons_append, bracketLength?,
    takeWhile_closed (fun h => hbracket (mem_append_left _ h)) hx (.inr rfl)]
  simp

end Scan

namespace QuotedIdent

variable {i : QuotedIdent} {v : Text}

/-- **An identifier in quotes is one lexeme** if it closes on its line. -/
lemma tokenize_text (hi : i.fitsLine) (hv : ∀ c ∈ v.head?, isQuoteMark c = false) :
    tokenize (i.text ++ v) =
      ⟨.quotedIdent, i.text, 0⟩ :: (tokenize v).map (shift (byteLength i.text)) := by
  have hclosing := i.closing_not_mem
  have hhead {c : Char} (hc : isQuoteMark c) : v.head? ≠ some c := fun h => by
    rw [hv c h] at hc
    cases hc
  have hpiece : piece false {} i.style.opening ((i.value ++ [i.style.closing]) ++ v) =
      lexeme .quotedIdent (i.value ++ [i.style.closing]).length {} := by
    rw [piece_of_delimiter_eq_none rfl, append_assoc, singleton_append,
      length_append, length_singleton]
    cases hstyle : i.style with
    | brackets =>
      rw [hstyle] at hclosing
      have hfeed : '\n' ∉ i.value := by simpa [fitsLine, hstyle] using hi
      have hlength := bracketLength?_closed (v := v) i.value_ne_nil hclosing hfeed
      rw [if_neg (by decide)]
      show plainPiece {} '[' (i.value ++ ']' :: v) = _
      rw [plainPiece_bracket, hlength]
    | _ =>
      rw [hstyle] at hclosing
      rw [if_neg (by decide)]
      exact (plainPiece_quote _ _ (by decide)).trans
        (congrArg (lexeme _ · {}) (quotedLength_closed hclosing (hhead (by decide))))
  exact tokenize_piece hpiece

lemma tokenize_text_of_not_fitsLine (hi : i.fitsLine = false) (v : Text) :
    ∃ l ls, tokenize (i.text ++ v) = l :: ls ∧ l.isName = false := by
  obtain ⟨hstyle, hfeed⟩ : i.style = .brackets ∧ '\n' ∈ i.value := by simpa [fitsLine] using hi
  have hclosing := i.closing_not_mem
  rw [hstyle] at hclosing
  have hlength := bracketLength?_of_newline (v := [']'] ++ v) hclosing hfeed
  have hpiece : piece false {} '[' ([] ++ (i.value ++ ([']'] ++ v))) = lexeme .symbol 0 {} := by
    rw [piece_of_delimiter_eq_none rfl, if_neg (by decide), nil_append, plainPiece_bracket, hlength]
  have htext : i.text ++ v = '[' :: ([] ++ (i.value ++ ([']'] ++ v))) := by
    simp [text, hstyle, QuoteStyle.opening, QuoteStyle.closing]
  rw [htext, tokenize_piece hpiece]
  exact ⟨_, _, rfl, rfl⟩

end QuotedIdent

/-! ## Dotted names -/

/-- An identifier of a dotted name: a word, or an identifier in quotes. -/
inductive NamePart where
  | word (t : Text)
  | quoted (i : QuotedIdent)

namespace NamePart

def text : NamePart → Text
  | word t => t
  | quoted i => i.text

def value : NamePart → Text
  | word t => t
  | quoted i => i.value

def kind : NamePart → LexemeKind
  | word _ => .word
  | quoted _ => .quotedIdent

def dotted (ps : List NamePart) : Text := join ['.'] (ps.map text)

def dottedTail (ps : List NamePart) : Text := ps.flatMap fun p => '.' :: p.text

lemma dotted_cons (p : NamePart) (ps : List NamePart) :
    dotted (p :: ps) = p.text ++ dottedTail ps := by
  rw [dotted, map_cons, join_dot_cons, flatMap_map, dottedTail]

/-- The identifier is one lexeme in front of some texts. -/
def StandsBefore (P : Text → Prop) (p : NamePart) : Prop := ∀ v, P v → tokenize (p.text ++ v) =
  ⟨p.kind, p.text, 0⟩ :: (tokenize v).map (shift (byteLength p.text))

variable {P : Text → Prop} {ps : List NamePart} {v : Text}

section Tail

variable (hdot : ∀ v, P ('.' :: v)) (hps : ∀ p ∈ ps, p.StandsBefore P) (hv : P v)

include hdot hv

lemma dottedTail_append (ps : List NamePart) : P (dottedTail ps ++ v) := by
  cases ps with
  | nil => exact hv
  | cons p ps => exact hdot _

include hps

lemma exists_tokenize_dottedTail : ∃ ls, tokenize (dottedTail ps ++ v) =
        ls ++ (tokenize v).map (shift (byteLength (dottedTail ps))) ∧
      (∀ n ms, chainLength (ls.map (shift n) ++ ms) = ls.length + chainLength ms) ∧
      ∀ n (l : Lexeme), l.stop = n →
        ((ls.map (shift n)).getLast?.getD l).stop = n + byteLength (dottedTail ps) := by
  induction ps with
  | nil =>
    refine ⟨[], (map_shift_zero _).symm, fun _ _ => (Nat.zero_add _).symm, ?_⟩
    rintro n l rfl
    rfl
  | cons p ps ih =>
    obtain ⟨hp, hps⟩ := forall_mem_cons.mp hps
    obtain ⟨ls, hls, hchain, hstop⟩ := ih hps
    have htail : dottedTail (p :: ps) = '.' :: (p.text ++ dottedTail ps) := rfl
    have hlength : byteLength (dottedTail (p :: ps)) =
        1 + byteLength p.text + byteLength (dottedTail ps) := by
      rw [htail, byteLength_cons, byteLength_append, Nat.add_assoc]
      rfl
    refine ⟨⟨.symbol, ['.'], 0⟩ :: ⟨p.kind, p.text, 1⟩ :: ls.map (shift (1 + byteLength p.text)),
      ?_, fun n ms => ?_, fun n l hl => ?_⟩
    · rw [htail, cons_append, tokenize_symbol (by decide), append_assoc,
        hp _ (dottedTail_append hdot hv ps), hls, ← htail, hlength]
      simp only [map_append, map_cons, map_shift_map_shift, cons_append, Nat.add_assoc]
      rfl
    · have hname : (shift n ⟨p.kind, p.text, 1⟩).isName := by cases p <;> rfl
      rw [map_cons, map_cons, cons_append, cons_append, chainLength, hname,
        map_shift_map_shift, hchain]
      simp [shift, isSymbol]
      omega
    · have hlast : (shift n ⟨p.kind, p.text, 1⟩).stop = n + (1 + byteLength p.text) := by
        simp [shift, stop, Nat.add_assoc]
      have hrest := hstop (n + (1 + byteLength p.text)) _ hlast
      rw [hlength, ← Nat.add_assoc, ← hrest, map_cons, map_cons, map_shift_map_shift]
      simp [getLast?_cons]

/-- **A dotted name** is read up to its end, wherever it stands. -/
lemma readChain?_dotted (hne : ps ≠ []) (hend : chainLength (tokenize v) = 0) (x : Text) :
    readChain? (x ++ (dotted ps ++ v)) ((tokenize (dotted ps ++ v)).map (shift (byteLength x))) =
      some (dotted ps, (tokenize v).map (shift (byteLength (x ++ dotted ps)))) := by
  obtain ⟨p, ps, rfl⟩ := exists_cons_of_ne_nil hne
  obtain ⟨hp, hps⟩ := forall_mem_cons.mp hps
  obtain ⟨ls, hls, hchain, hstop⟩ := exists_tokenize_dottedTail hdot hps hv
  set first : Lexeme := ⟨p.kind, p.text, byteLength x⟩ with hfirst
  have hname : first.isName := by cases p <;> rfl
  have hlexemes : (tokenize (dotted (p :: ps) ++ v)).map (shift (byteLength x)) =
      first :: (ls.map (shift first.stop) ++
        (tokenize v).map (shift (byteLength (x ++ dotted (p :: ps))))) := by
    rw [dotted_cons, append_assoc, hp _ (dottedTail_append hdot hv ps), hls]
    simp only [map_append, map_cons, map_shift_map_shift, byteLength_append]
    rfl
  have hlast := hstop first.stop first rfl
  have hlength : (ls.map (shift first.stop)).length = ls.length := length_map _
  rw [hlexemes, readChain?, if_pos hname]
  dsimp only
  rw [hchain, chainLength_map_shift, hend, Nat.add_zero, ← hlength, take_left, drop_left, hlast]
  have hslice := slice_append x (dotted (p :: ps)) v
  rw [dotted_cons, byteLength_append, ← Nat.add_assoc] at hslice
  rw [dotted_cons]
  exact congrArg (fun c => some (c, _)) hslice

end Tail

end NamePart

section Written

open NamePart (dotted dottedTail dotted_cons)
open QuotedIdent

variable {is rest : List QuotedIdent} {i : QuotedIdent}

lemma written_eq_dotted (is : List QuotedIdent) : written is = dotted (is.map .quoted) := by
  rw [written, dotted, map_map]
  rfl

lemma chainLength_dottedTail (his : ∀ i ∈ is.head?, i.fitsLine = false) :
    chainLength (tokenize (dottedTail (is.map .quoted))) = 0 := by
  cases is with
  | nil =>
    rw [map_nil, dottedTail, flatMap_nil, tokenize_nil]
    rfl
  | cons i is =>
    obtain ⟨l, ls, hscan, hl⟩ := tokenize_text_of_not_fitsLine (his i rfl)
      (dottedTail (is.map .quoted))
    have hcons : dottedTail ((i :: is).map .quoted) =
        '.' :: (i.text ++ dottedTail (is.map .quoted)) := rfl
    have hname : (shift 1 l).isName = false := hl
    rw [hcons, tokenize_symbol (by decide), hscan, map_cons, chainLength, hname, Bool.and_false]
    rfl

/-- **How far a written name is read**: up to the first identifier that does not close on its
line. -/
lemma readChain?_written (hi : i.fitsLine)
    (his : ∀ j ∈ is, j.fitsLine) (hrest : ∀ j ∈ rest.head?, j.fitsLine = false) :
    ∃ ls, readChain? (written (i :: (is ++ rest))) (tokenize (written (i :: (is ++ rest)))) =
      some (written (i :: is), ls) := by
  have hwritten : written (i :: (is ++ rest)) =
      dotted ((i :: is).map .quoted) ++ dottedTail (rest.map .quoted) := by
    simp [written_eq_dotted, dotted_cons, dottedTail]
  have hall : ∀ j ∈ i :: is, j.fitsLine := forall_mem_cons.mpr ⟨hi, his⟩
  have hstands : ∀ p ∈ (i :: is).map NamePart.quoted,
      p.StandsBefore fun v => ∀ c ∈ v.head?, c = '.' :=
    forall_mem_map.mpr fun j hj v hv => tokenize_text (hall j hj) fun c hc => hv c hc ▸ rfl
  have hbehind : ∀ c ∈ (dottedTail (rest.map .quoted)).head?, c = '.' := by
    cases rest <;> simp [dottedTail]
  have hread := NamePart.readChain?_dotted (by simp) hstands hbehind (by simp)
    (chainLength_dottedTail hrest) []
  rw [nil_append, byteLength_nil, map_shift_zero, ← hwritten, ← written_eq_dotted] at hread
  exact ⟨_, hread⟩

lemma readChain?_written_eq_none (hi : i.fitsLine = false) (is : List QuotedIdent) :
    readChain? (written (i :: is)) (tokenize (written (i :: is))) = none := by
  obtain ⟨l, ls, hscan, hl⟩ := tokenize_text_of_not_fitsLine hi (dottedTail (is.map .quoted))
  have hwritten : written (i :: is) = i.text ++ dottedTail (is.map .quoted) := by
    rw [written_eq_dotted, map_cons, dotted_cons]
    rfl
  rw [hwritten, hscan, readChain?, if_neg (by simp [hl])]

/-! ## When a name is read back -/

lemma map_fst_readName? (source : Text) (ls : List Lexeme) : (readName? source ls).map (·.1) =
      ((readChain? source ls).map (·.1)).bind ofChain? := by
  unfold readName?
  cases readChain? source ls with
  | none => rfl
  | some p =>
    obtain ⟨chain, rest⟩ := p
    cases h : ofChain? chain <;> simp [h]

/-- What identifiers have to be like for the object they stand for to be read from their written
name: an identifier in brackets closes on its line, there is no dot in the last identifier, and
there is no white space beside the dots between the others. -/
structure Recoverable (before : List QuotedIdent) (last : QuotedIdent) : Prop where
  one_line : ∀ i ∈ before ++ [last], i.fitsLine
  undotted : '.' ∉ last.value
  tight : Tight (before.map value)

lemma exists_fitting (is : List QuotedIdent) :
    ∃ js rest, is = js ++ rest ∧ (∀ j ∈ js, j.fitsLine) ∧
      ∀ j ∈ rest.head?, j.fitsLine = false := by
  induction is with
  | nil => exact ⟨[], [], rfl, by simp, by simp⟩
  | cons i is ih =>
    obtain ⟨js, rest, rfl, hjs, hrest⟩ := ih
    cases hi : i.fitsLine with
    | true => exact ⟨i :: js, rest, rfl, forall_mem_cons.mpr ⟨hi, hjs⟩, hrest⟩
    | false => exact ⟨[], i :: (js ++ rest), rfl, by simp, by simpa using hi⟩

lemma readName?_written (hi : i.fitsLine)
    (his : ∀ j ∈ is, j.fitsLine) (hrest : ∀ j ∈ rest.head?, j.fitsLine = false) :
    (readName? (written (i :: (is ++ rest))) (tokenize (written (i :: (is ++ rest))))).map (·.1) =
      ofText? (join ['.'] ((i :: is).map value)) := by
  obtain ⟨ls, hread⟩ := readChain?_written hi his hrest
  rw [map_fst_readName?, hread, Option.map_some, Option.bind_some, ofChain?,
    normalizeChain?_written (by simp), Option.bind_some]

lemma readName?_written_of_fitsLine (hne : is ≠ []) (his : ∀ i ∈ is, i.fitsLine) :
    (readName? (written is) (tokenize (written is))).map (·.1) =
      ofText? (join ['.'] (is.map value)) := by
  obtain ⟨i, is, rfl⟩ := exists_cons_of_ne_nil hne
  rw [forall_mem_cons] at his
  have hnone : ∀ j ∈ ([] : List QuotedIdent).head?, j.fitsLine = false := by simp
  have hread := readName?_written his.1 his.2 hnone
  rwa [append_nil] at hread

/-- If an identifier does not close on its line, what is read has fewer characters than the object
that the identifiers stand for. -/
lemma readName?_written_ne_ofValues {before : List QuotedIdent} {last : QuotedIdent}
    (h : ¬ ∀ i ∈ before ++ [last], i.fitsLine) :
    (readName? (written (before ++ [last])) (tokenize (written (before ++ [last])))).map (·.1) ≠
      some (ofValues (before.map value) last.value) := by
  intro hread
  obtain ⟨js, rest, hsplit, hjs, hrest⟩ := exists_fitting (before ++ [last])
  rw [hsplit] at h hread
  match js, rest with
  | js, [] => exact h (by simpa using hjs)
  | [], bad :: rest =>
    rw [nil_append, map_fst_readName?, readChain?_written_eq_none (hrest bad rfl)] at hread
    cases hread
  | i :: js, bad :: rest =>
    rw [forall_mem_cons] at hjs
    rw [cons_append, readName?_written hjs.1 hjs.2 hrest] at hread
    have hsub := (of_ofText? hread).1
    have hne : (i :: js).map value ≠ [] := by simp
    have hlt := solid_join_lt hne bad.value (rest.map value)
    rw [← map_cons, ← map_append, ← hsplit, map_append, map_singleton,
      ← solid_join_trim (_ ++ _), ← chars_ofValues] at hlt
    exact absurd hsub.countP_le (Nat.not_le.mpr hlt)

/-- **When a written name stands for what its identifiers stand for.** The identifiers of a name
stand for the last of them, qualified by the others. The object that is read from the lexemes of the
written name is the same one exactly if the identifiers are `Recoverable`.

**Proof sketch.** Reading stops before the first identifier that does not close on its line. If
there is none, the identifiers are put together with dots and split at the last dot
(`QualifiedName.ofText?_join_eq_iff`). If there is one, too little is read
(`readName?_written_ne_ofValues`). -/
theorem readName?_written_eq_ofParts?_iff (before : List QuotedIdent) (last : QuotedIdent) :
    QualifiedName.ofParts? ((before ++ [last]).map (String.ofList ·.value)) =
        some ⟨if before.isEmpty then none
          else some (String.ofList (join ['.'] (before.map (trim ·.value)))),
          String.ofList (trim last.value)⟩ ∧
      ((readName? (written (before ++ [last])) (tokenize (written (before ++ [last])))).map (·.1) =
          QualifiedName.ofParts? ((before ++ [last]).map (String.ofList ·.value)) ↔
        Recoverable before last) := by
  have hvalues : (before ++ [last]).map value = before.map value ++ [last.value] := by simp
  have hblank : ∀ v ∈ before.map value ++ [last.value], trim v ≠ [] := by
    rw [← hvalues, forall_mem_map]
    exact fun i _ => i.not_blank
  have hquote : ∀ v ∈ before.map value ++ [last.value], ∀ c ∈ v, isQuoteMark c = false := by
    rw [← hvalues, forall_mem_map]
    exact fun i _ c hc => i.isQuoteMark_of_mem hc
  have hparts : ofParts? ((before ++ [last]).map (String.ofList ·.value)) =
      some (ofValues (before.map value) last.value) := by
    rw [← ofParts?_eq_ofValues hblank, ← hvalues, map_map]
    rfl
  rw [hparts]
  refine ⟨by simp [ofValues, Function.comp_def], ?_⟩
  by_cases hall : ∀ i ∈ before ++ [last], i.fitsLine = true
  · rw [readName?_written_of_fitsLine (by simp) hall, hvalues,
      ofText?_join_eq_iff hblank hquote]
    exact ⟨fun h => ⟨hall, h.1, h.2⟩, fun h => ⟨h.undotted, h.tight⟩⟩
  · exact iff_of_false (readName?_written_ne_ofValues hall) fun h => hall h.one_line

/-- An identifier with a dot in it, which belongs to the schema that is read. -/
theorem readName?_dotted_table :
    QualifiedName.ofParts? ["dbo", "My.Table"] = some ⟨some "dbo", "My.Table"⟩ ∧
      (readName? "[dbo].[My.Table]".toList (tokenize "[dbo].[My.Table]".toList)).map (·.1) =
        some ⟨some "dbo.My", "Table"⟩ := by
  decide +kernel

end Written

end SqlOutline
