import SqlOutline.Lexeme.Group
import SqlOutline.Proofs.Lexeme.Cut

/-!
# Texts that can be moved

The lexemes of a text hang on what follows it. A text can be moved if its last lexeme ends with it
and it leaves nothing open.

## Main definitions

* `Movable` — a text that has the same lexemes wherever it stands.
* `StartsApart` — text that does not continue a lexeme before it.

## Main results

* `tokenize_append` — the lexemes of a movable text and of what follows it.
-/

namespace SqlOutline

open List Text Lexeme

lemma Lexeme.map_shift_map_shift (m n : Nat) (ls : List Lexeme) :
    (ls.map (shift n)).map (shift m) = ls.map (shift (m + n)) := by
  rw [map_map]
  refine map_congr_left fun l _ => ?_
  simp [shift, Nat.add_assoc]

lemma Lexeme.map_shift_zero (ls : List Lexeme) : ls.map (shift 0) = ls :=
  map_id'' (fun l => by simp [shift]) ls

lemma chainLength_map_shift (n : Nat) (ls : List Lexeme) :
    chainLength (ls.map (shift n)) = chainLength ls := by
  fun_induction chainLength ls with
  | case1 dot name rest h ih =>
    rw [map_cons, map_cons, chainLength, if_pos (by exact h), ih]
  | case2 dot name rest h => rw [map_cons, map_cons, chainLength, if_neg (by exact h)]
  | case3 ls h =>
    rcases ls with _ | ⟨dot, _ | ⟨name, rest⟩⟩
    · rfl
    · rfl
    · exact absurd rfl (h dot name rest)

lemma tokenize_nil : tokenize [] = [] := by rw [tokenize, scanFrom]

namespace Scan

variable {c : Char} {v s : Text} {st : State}

/-- Text whose first character does not continue a lexeme before it. -/
def StartsApart (v : Text) : Prop := ∀ c ∈ v.head?, isSticky c = false ∧ c ≠ '$'

lemma startsApart_cons (h : isSticky c = false ∧ c ≠ '$') : StartsApart (c :: v) := by
  rintro d ⟨⟩
  exact h

lemma StartsApart.unglued (h : StartsApart v) : Unglued v where
  head c hc := (h c hc).1
  dollar hd := absurd rfl (h '$' hd).2

/-- A text that has the same lexemes wherever it stands: no literal is open at its end, it ends with
a lexeme, and a bracket that is a symbol cannot be closed by what follows. -/
structure Movable (t : Text) : Prop where
  closed : tokenize (t ++ ['\n']) = tokenize t
  ends : (tokenize t).getLast?.map stop = some (byteLength t)
  brackets : ∀ l ∈ tokenize t, l.isSymbol '[' → ∃ c ∈ dropBytes l.stop t, c = ']' ∨ c = '\n'

instance (t : Text) : Decidable (Movable t) :=
  haveI (l : Lexeme) : Decidable (∃ c ∈ dropBytes l.stop t, c = ']' ∨ c = '\n') :=
    decidableBEx _ _
  decidable_of_iff (tokenize (t ++ ['\n']) = tokenize t ∧
      (tokenize t).getLast?.map stop = some (byteLength t) ∧
      ∀ l ∈ tokenize t, l.isSymbol '[' → ∃ c ∈ dropBytes l.stop t, c = ']' ∨ c = '\n')
    ⟨fun ⟨h₁, h₂, h₃⟩ => ⟨h₁, h₂, h₃⟩, fun ⟨h₁, h₂, h₃⟩ => ⟨h₁, h₂, h₃⟩⟩

lemma mem_of_bracketLength? {u : Text} {n : Nat} (h : bracketLength? (s ++ u) = some n)
    (hn : n ≤ s.length) : ']' ∈ s := by
  unfold bracketLength? at h
  dsimp only at h
  split_ifs at h with hclosed
  obtain rfl := Option.some.inj h
  rw [Bool.and_eq_true, beq_iff_eq] at hclosed
  rw [head?_drop_of_append (by omega)] at hclosed
  exact mem_of_mem_drop (mem_of_mem_head? hclosed.2)

lemma scanFrom_blank (hst : st.delimiter = none) (hc : isAsciiBlank c) (i : Nat) (t : Text) :
    scanFrom false st i (c :: t) = scanFrom false {} (i + c.utf8Size) t := by
  have hpiece := piece_of_delimiter_eq_none hst c t
  rw [if_pos hc] at hpiece
  rw [scanFrom_gap (by rw [hpiece]), hpiece]
  apply scanFrom_congr
  · exact hst
  · rfl

lemma tokenize_blanks {w : Text} (hw : ∀ c ∈ w, isAsciiBlank c) (t : Text) :
    tokenize (w ++ t) = (tokenize t).map (shift (byteLength w)) := by
  induction w with
  | nil => exact (map_shift_zero _).symm
  | cons c w ih =>
    obtain ⟨hc, hw⟩ := forall_mem_cons.mp hw
    have hfirst : scanFrom false {} 0 (c :: (w ++ t)) =
        scanFrom false {} (0 + c.utf8Size) (w ++ t) := scanFrom_blank rfl hc 0 (w ++ t)
    rw [Nat.zero_add, ← Nat.add_zero c.utf8Size, scanFrom_add] at hfirst
    rw [byteLength_cons, ← map_shift_map_shift, ← ih hw]
    exact hfirst

lemma tokenize_space (t : Text) : tokenize (' ' :: t) = (tokenize t).map (shift 1) :=
  tokenize_blanks (w := [' ']) (by decide) t

lemma tokenize_piece {r : Text} {kind : LexemeKind}
    (h : piece false {} c (r ++ v) = lexeme kind r.length {}) : tokenize (c :: (r ++ v)) =
      ⟨kind, c :: r, 0⟩ :: (tokenize v).map (shift (byteLength (c :: r))) := by
  rw [tokenize, (run_of_piece h 0).scanFrom_eq, singleton_append, tokenize, ← scanFrom_add,
    Nat.zero_add, Nat.add_zero]
  exact congrArg _ (scanFrom_congr rfl rfl _ _)

lemma tokenize_symbol (hc : c ∈ ['(', ')', ',', '.']) (t : Text) :
    tokenize (c :: t) = ⟨.symbol, [c], 0⟩ :: (tokenize t).map (shift 1) := by
  simp only [mem_cons, not_mem_nil, or_false] at hc
  rcases hc with rfl | rfl | rfl | rfl <;> exact tokenize_piece (r := []) rfl

lemma wordLength_append_of_eq_zero {t : Text}
    (ht : ∀ c ∈ t, (isAsciiAlnum c || c == '_')) (hv : wordLength v = 0) :
    wordLength (t ++ v) = t.length := by
  induction t with
  | nil => exact hv
  | cons c t ih =>
    obtain ⟨hc, ht⟩ := forall_mem_cons.mp ht
    have hpart := ih ht
    simp only [Bool.or_eq_true] at hc
    rcases hc with hc | hc <;> simp [wordLength, hc, hpart]

/-- **A word is one lexeme**, up to a character that ends it. -/
lemma tokenize_word {w : Text} (hfirst : (w.head?.any fun c => !isAsciiDigit c))
    (hall : ∀ c ∈ w, (isAsciiAlnum c || c == '_')) (hv : wordLength v = 0) :
    tokenize (w ++ v) = ⟨.word, w, 0⟩ :: (tokenize v).map (shift (byteLength w)) := by
  obtain _ | ⟨c, t⟩ := w
  · cases hfirst
  obtain ⟨hc, hall⟩ := forall_mem_cons.mp hall
  refine tokenize_piece ?_
  have hdigit : isAsciiDigit c = false := by simpa using hfirst
  rw [isAsciiAlnum, hdigit, Bool.or_false] at hc
  have hblank : ¬ isAsciiBlank c := by
    simp only [isAsciiBlank, Bool.or_eq_true, beq_iff_eq]
    rintro ((((rfl | rfl) | rfl) | rfl) | rfl) <;> exact absurd hc (by decide)
  have hother : c ∉ ['-', '/', '#', '\'', '"', '`', '[', '$'] := by
    have hall : ∀ c ∈ ['-', '/', '#', '\'', '"', '`', '[', '$'],
        ¬ (isAsciiAlpha c || c == '_') := by decide
    exact fun h => hall c h hc
  have hstart : isWordStart c := by rw [isWordStart, hc]; rfl
  rw [piece_of_delimiter_eq_none rfl, if_neg hblank, plainPiece_other _ _ hother,
    if_neg (by simp [hdigit]), if_pos hstart, wordLength_append_of_eq_zero hall hv]

namespace Movable

variable {t v : Text} (ht : Movable t) (hv : StartsApart v)

def Reads (t : Text) (st : State) (s : Text) : Prop :=
  st.delimiter = none ∧ ∃ x, t = x ++ s ∧
    ∀ l ∈ scanFrom false st (byteLength x) (s ++ ['\n']), l ∈ tokenize t

lemma Reads.next (h : Reads t st (c :: s)) {p : Piece}
    (hp : piece false st c (s ++ ['\n']) = p) (hlen : p.width ≤ s.length) :
    Reads t p.state (s.drop p.width) := by
  obtain ⟨hst, x, rfl, hmem⟩ := h
  refine ⟨hp ▸ delimiter_piece hst _ _, x ++ c :: s.take p.width, by simp, fun l hl => hmem l ?_⟩
  rw [cons_append, scanFrom_cons, hp]
  rw [byteLength_append, ← take_append_of_le_length hlen, ← drop_append_of_le_length hlen] at hl
  exact mem_append_right _ hl

include ht hv

lemma piece_append (h : Reads t st (c :: s))
    (hlen : (piece false st c (s ++ ['\n'])).more ≤ s.length)
    (hgap : (piece false st c (s ++ ['\n'])).kind = none →
      (piece false st c (s ++ ['\n'])).more < s.length) :
    piece false st c (s ++ v) = piece false st c (s ++ ['\n']) := by
  obtain ⟨hst, x, rfl, hmem⟩ := h
  refine piece_append_of_unglued hlen (fun hk => .inl (hgap hk)) hv.unglued ?_
    (fun hd => absurd rfl (hv '$' hd).2) (fun _ h => by cases h) fun mark hmark => ?_
  · rintro rfl
    have hpiece := piece_of_delimiter_eq_none hst '[' (s ++ ['\n'])
    rw [if_neg (by decide), plainPiece_bracket] at hpiece
    have hstop : ∃ c ∈ s, c = ']' ∨ c = '\n' := by
      cases hb : bracketLength? (s ++ ['\n']) with
      | some n =>
        rw [hpiece, hb] at hlen
        exact ⟨']', mem_of_bracketLength? hb hlen, .inl rfl⟩
      | none =>
        rw [hb] at hpiece
        have hl := hmem ⟨.symbol, ['['], byteLength x⟩ (by
          rw [cons_append, scanFrom_cons, hpiece]
          exact mem_cons_self)
        have hbehind := ht.brackets _ hl rfl
        rwa [stop, show x ++ '[' :: s = x ++ ['['] ++ s by simp, ← byteLength_append,
          dropBytes_byteLength] at hbehind
    rw [bracketLength?_append_of_mem hstop, bracketLength?_append_of_mem hstop]
  · rw [hst] at hmark
    cases hmark

/-- **A movable text is read by one run**, whatever follows. -/
lemma exists_run :
    ∃ st, Run false {} 0 (t ++ v) (tokenize t) st (byteLength t) v ∧ st.delimiter = none := by
  obtain ⟨ks, z, hz⟩ : ∃ ks z, tokenize t = ks ++ [z] := by
    refine (eq_nil_or_concat' (tokenize t)).resolve_left fun hnil => ?_
    have hends := ht.ends
    rw [hnil] at hends
    cases hends
  have hscan : scanFrom false {} 0 (t ++ ['\n']) = ks ++ z :: [] := ht.closed.trans hz
  have hstop : z.stop = byteLength t := by
    have hends := ht.ends
    rw [hz, getLast?_concat] at hends
    exact Option.some.inj hends
  obtain ⟨st, x, d, y, rfl, htext, hstart, hbefore, hk, hmore⟩ :=
    exists_run_to_last hscan (cons_ne_nil _ _) (hstop.trans (Nat.zero_add _).symm)
  have hst : st.delimiter = none := hbefore.delimiter_eq_of_statement
  have hfirst : Run false {} 0 (x ++ d :: y ++ v) ks st z.start (d :: y ++ v) := by
    refine Run.append_congr (u := ['\n']) (P := fun st s _ => Reads (x ++ d :: y) st s) ?_
      (by simpa using hbefore) (by simp) ⟨rfl, [], rfl, fun l hl => ht.closed ▸ hl⟩
    rintro st i c s ls _ rfl h hlen
    have hle := (piece false st c (s ++ ['\n'])).more_le_width
    rw [length_cons] at hlen
    exact ⟨ht.piece_append hv h (by omega) fun _ => by omega, h.next rfl (by omega)⟩
  have hlast : piece false st d (y ++ v) = piece false st d (y ++ ['\n']) := by
    refine ht.piece_append hv ⟨hst, x, rfl, fun l hl => ?_⟩ (by omega) fun hnone => ?_
    · rw [← ht.closed, tokenize, append_assoc, cons_append, hbefore.scanFrom_eq, hstart,
        Nat.zero_add]
      exact mem_append_right _ hl
    · rw [hk] at hnone
      cases hnone
  rw [← hlast] at hk hmore
  have hend := run_lexeme htext hk hmore (skip_piece _ _ _)
  rw [hstop] at hend
  rw [hz]
  exact ⟨_, hfirst.trans hend, delimiter_piece hst _ _⟩

/-- **The lexemes of a movable text and of what follows it.** -/
lemma tokenize_append :
    tokenize (t ++ v) = tokenize t ++ (tokenize v).map (shift (byteLength t)) := by
  obtain ⟨st, hrun, hst⟩ := ht.exists_run hv
  rw [tokenize, hrun.scanFrom_eq, tokenize.eq_def v, ← scanFrom_add]
  exact congrArg _ (scanFrom_congr hst rfl _ _)

end Movable

end Scan

end SqlOutline
