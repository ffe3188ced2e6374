import Mathlib.Data.List.Sort
import SqlOutline.Proofs.Lexeme.WordEdge
import SqlOutline.Proofs.Statement.PackageBody
import SqlOutline.Proofs.Trigger.Body

/-!
# Bodies of MySQL triggers and their lexemes

A lexeme that opens or closes a block is a word of the text, but `END` in a literal, in a comment or
in a longer name is a word and no lexeme. A statement ends at the first semicolon of the text.

## Main definitions

* `ReadAlike` — block words that are lexemes too and do the same.
* `LexemeBlock` — a block among the lexemes of a text.

## Main results

* `mysqlBody?_blocks_and_statements` — the body of a trigger.
* `mysqlBody?_literals` — words and semicolons in literals count.
-/

namespace SqlOutline

open Option List Text BlockMark

namespace TriggerScan

/-! ## Members of lists between their neighbours -/

/-- A member of a list between its neighbours. -/
structure Spot (α : Type) where
  before : Option α
  item : α
  after : Option α
  deriving Repr, DecidableEq

def spots {α : Type} (before : Option α) (xs : List α) (after : Option α) : List (Spot α) :=
  match xs with
  | [] => []
  | x :: xs => ⟨before, x, xs.head?.or after⟩ :: spots (some x) xs after

section Spots

variable {α : Type} {before after : Option α} {xs : List α} {s : Spot α}

lemma spots_append (before after : Option α) (xs ys : List α) : spots before (xs ++ ys) after =
      spots before xs (ys.head?.or after) ++ spots (xs.getLast?.or before) ys after := by
  induction xs generalizing before with
  | nil => rfl
  | cons x xs ih =>
    rw [cons_append, spots, ih, head?_append, Option.or_assoc,
      getLast?_or_some xs x before, spots, cons_append]

@[simp]
lemma map_item_spots (before after : Option α) (xs : List α) :
    (spots before xs after).map Spot.item = xs := by
  induction xs generalizing before with
  | nil => rfl
  | cons x xs ih => rw [spots, map_cons, ih]

lemma item_mem (hs : s ∈ spots before xs after) : s.item ∈ xs := by
  rw [← map_item_spots before after xs]
  exact mem_map_of_mem hs

lemma exists_spot (before after : Option α) {x : α} (hx : x ∈ xs) :
    ∃ s ∈ spots before xs after, s.item = x := by
  rw [← map_item_spots before after xs] at hx
  exact mem_map.mp hx

lemma exists_of_mem_spots (hs : s ∈ spots before xs after) :
    ∃ ys zs, xs = ys ++ s.item :: zs ∧ s.before = ys.getLast?.or before ∧
      s.after = zs.head?.or after := by
  induction xs generalizing before with
  | nil => cases hs
  | cons x xs ih =>
    rcases mem_cons.mp hs with rfl | hs
    · exact ⟨[], xs, rfl, rfl, rfl⟩
    · obtain ⟨ys, zs, hxs, hbefore, hafter⟩ := ih hs
      refine ⟨x :: ys, zs, by rw [hxs, cons_append], ?_, hafter⟩
      rw [hbefore, getLast?_or_some ys x before]

lemma mem_spots (before after : Option α) (ys : List α) (x : α) (zs : List α) :
    ⟨ys.getLast?.or before, x, zs.head?.or after⟩ ∈ spots before (ys ++ x :: zs) after := by
  rw [spots_append]
  exact mem_append_right _ mem_cons_self

lemma exists_spot_before (hs : s ∈ spots none xs none) {y : α} (hy : s.before = some y) :
    ∃ r ∈ spots none xs none, r.item = y ∧ r.after = some s.item := by
  obtain ⟨ys, zs, rfl, hbefore, -⟩ := exists_of_mem_spots hs
  rw [hy, or_none] at hbefore
  obtain ⟨ys, rfl⟩ := getLast?_eq_some_iff.mp hbefore.symm
  rw [append_assoc]
  exact ⟨_, mem_spots none none ys y (s.item :: zs), rfl, rfl⟩

lemma exists_spot_after (hs : s ∈ spots none xs none) {y : α} (hy : s.after = some y) :
    ∃ r ∈ spots none xs none, r.item = y ∧ r.before = some s.item := by
  obtain ⟨ys, zs, rfl, -, hafter⟩ := exists_of_mem_spots hs
  rw [hy, or_none] at hafter
  obtain ⟨zs, rfl⟩ := head?_eq_some_iff.mp hafter.symm
  rw [← concat_append]
  refine ⟨_, mem_spots none none (ys.concat s.item) y zs, rfl, ?_⟩
  rw [concat_eq_append, getLast?_concat]
  rfl

variable {f : α → Nat}

lemma lt_of_before (hxs : xs.Pairwise fun x y => f x < f y) (hs : s ∈ spots none xs none) {y : α}
    (hy : s.before = some y) : f y < f s.item := by
  obtain ⟨ys, zs, rfl, hbefore, -⟩ := exists_of_mem_spots hs
  rw [hy, or_none] at hbefore
  exact (pairwise_append.mp hxs).2.2 y (mem_of_getLast? hbefore.symm) s.item
    mem_cons_self

lemma pairwise_spots (hxs : xs.Pairwise fun x y => f x < f y) (before after : Option α) :
    (spots before xs after).Pairwise fun s r => f s.item < f r.item := by
  rwa [← map_item_spots before after xs, pairwise_map] at hxs

lemma spot_eq (hxs : xs.Pairwise fun x y => f x < f y) {r : Spot α}
    (hs : s ∈ spots before xs after) (hr : r ∈ spots before xs after) (h : f s.item = f r.item) :
    s = r := by
  by_contra hne
  have hpair : (spots before xs after).Pairwise fun s r => f s.item ≠ f r.item :=
    (pairwise_spots hxs before after).imp Nat.ne_of_lt
  have : Std.Symm fun s r : Spot α => f s.item ≠ f r.item := ⟨fun _ _ h => h.symm⟩
  exact hpair.forall hs hr hne h

lemma mem_spots_middle {xs ys zs : List α} {start stop : Nat} (hxs : ∀ x ∈ xs, f x ≤ start)
    (hys : ∀ y ∈ ys, start < f y ∧ f y < stop) (hzs : ∀ z ∈ zs, stop ≤ f z) :
    s ∈ spots xs.getLast? ys zs.head? ↔
      s ∈ spots none (xs ++ (ys ++ zs)) none ∧ start < f s.item ∧ f s.item < stop := by
  simp only [spots_append, or_none, mem_append]
  constructor
  · exact fun hs => ⟨.inr (.inl hs), hys _ (item_mem hs)⟩
  · rintro ⟨hs | hs | hs, hstart, hstop⟩
    · exact absurd (hxs _ (item_mem hs)) (Nat.not_le_of_gt hstart)
    · exact hs
    · exact absurd (hzs _ (item_mem hs)) (Nat.not_le_of_gt hstop)

def counted (f : α → Nat) (mark : Option α → α → Option α → BlockMark) (ss : List (Spot α)) :
    List (Nat × BlockMark) :=
  (ss.map fun s => (f s.item, mark s.before s.item s.after)).filter (·.2 ≠ .none)

lemma mem_counted {mark : Option α → α → Option α → BlockMark} {ss : List (Spot α)}
    {m : Nat × BlockMark} : m ∈ counted f mark ss ↔
      m.2 ≠ .none ∧ ∃ s ∈ ss, (f s.item, mark s.before s.item s.after) = m := by
  rw [counted, mem_filter, List.mem_map, decide_eq_true_iff, and_comm]

lemma pairwise_counted (hxs : xs.Pairwise fun x y => f x < f y) (before after : Option α)
    (mark : Option α → α → Option α → BlockMark) :
    (counted f mark (spots before xs after)).Pairwise fun m n => m.1 < n.1 := by
  refine List.Pairwise.filter _ (pairwise_map.mpr ?_)
  exact pairwise_spots hxs before after

lemma nest?_counted (mark : Option α → α → Option α → BlockMark) (ss : List (Spot α))
    (depth : Nat) : nest? depth ((counted f mark ss).map Prod.snd) =
      nest? depth (ss.map fun s => mark s.before s.item s.after) := by
  induction ss generalizing depth with
  | nil => rfl
  | cons s ss ih =>
    unfold counted at ih ⊢
    rw [map_cons, map_cons]
    cases hmark : mark s.before s.item s.after with
    | opens => exact ih (depth + 1)
    | none =>
      rw [filter_cons_of_neg (by simp), nest?]
      exact ih depth
    | closes =>
      cases depth with
      | zero => rfl
      | succ depth => exact ih depth

end Spots

/-! ## Words and lexemes -/

namespace TextWord

def lexeme (w : TextWord) : Lexeme := ⟨.word, w.text, w.start⟩

@[simp]
lemma isWord_lexeme (w : TextWord) (keyword : String) : w.lexeme.isWord keyword = w.is keyword := by
  rw [Bool.eq_iff_iff, Lexeme.isWord_iff, is, beq_iff_eq, Lexeme.upper, upperString]
  constructor
  · rintro ⟨-, rfl⟩
    rw [String.toList_ofList]
    rfl
  · intro h
    exact ⟨rfl, by rw [lexeme, h, String.ofList_toList]⟩

lemma isAnyWord_lexeme (w : TextWord) (keywords : List String) :
    w.lexeme.isAnyWord keywords = keywords.any w.is := by
  have hcontains : w.lexeme.isAnyWord keywords = keywords.any w.lexeme.isWord := by
    rw [Bool.eq_iff_iff, List.any_eq_true]
    simp [Lexeme.isAnyWord, Lexeme.isWord, lexeme]
  rw [hcontains]
  exact congrArg keywords.any (funext w.isWord_lexeme)

end TextWord

def wordBehind? (after : Option TextWord) : Option (Nat × Text) :=
  (after.filter fun w => w.adjoins && endWords.any w.is).map fun w => (w.start, w.text)

def lexemeBehind? (after : Option Lexeme) : Option (Nat × Text) :=
  (after.filter (·.isAnyWord ("CASE" :: uncountedEndWords))).map fun l => (l.start, l.text)

lemma wordBehind?_eq_some_iff {after : Option TextWord} {p : Nat × Text} :
    wordBehind? after = some p ↔ ∃ w, after = some w ∧ w.adjoins ∧
      endWords.any w.is ∧ (w.start, w.text) = p := by
  simp only [wordBehind?, map_eq_some_iff, filter_eq_some_iff, Bool.and_eq_true, and_assoc]

lemma lexemeBehind?_eq_some_iff {after : Option Lexeme} {p : Nat × Text} :
    lexemeBehind? after = some p ↔ ∃ l, after = some l ∧
      l.isAnyWord ("CASE" :: uncountedEndWords) ∧ (l.start, l.text) = p := by
  simp only [lexemeBehind?, map_eq_some_iff, filter_eq_some_iff, and_assoc]

/-- The words `BEGIN`, `CASE` and `END` do the same in a text and among its lexemes, up to the place
`stop`. -/
structure ReadAlike (t : Text) (stop : Nat) : Prop where
  /-- Such words of the text are lexemes: none stands in a literal, in a comment or in a longer
  word. -/
  words : ∀ w ∈ textWords 0 t, w.start ≤ stop → ["BEGIN", "CASE", "END"].any w.is →
    w.lexeme ∈ tokenize t
  /-- No `BEGIN` starts a transaction. -/
  begins : ∀ r ∈ spots none (tokenize t) none, r.item.start ≤ stop → r.item.isWord "BEGIN" →
    blockMark r.before r.item r.after = .opens
  /-- Behind an `END`, the text and the lexemes go on with the same word. -/
  ends : ∀ s ∈ spots none (textWords 0 t) none, ∀ r ∈ spots none (tokenize t) none,
    s.item.start ≤ stop → s.item.is "END" → r.item = s.item.lexeme →
      wordBehind? s.after = lexemeBehind? r.after

lemma any_is_eq {keywords : List String} (hcase : "CASE" ∉ keywords) (w : TextWord) :
    keywords.any w.is = (("CASE" :: keywords).any w.is && upper w.text != "CASE".toList) := by
  have hupper (k : String) : w.is k ↔ upper w.text = k.toList := beq_iff_eq
  rw [Bool.eq_iff_iff, Bool.and_eq_true, bne_iff_ne, List.any_eq_true, List.any_eq_true]
  constructor
  · rintro ⟨k, hk, hw⟩
    refine ⟨⟨k, mem_cons_of_mem _ hk, hw⟩, fun h => hcase ?_⟩
    rw [hupper, h, String.toList_inj] at hw
    rwa [hw]
  · rintro ⟨⟨k, hk, hw⟩, hne⟩
    rcases mem_cons.mp hk with rfl | hk
    · exact absurd ((hupper _).mp hw) hne
    · exact ⟨k, hk, hw⟩

lemma pairwise_textWords (n : Nat) (t : Text) :
    (textWords n t).Pairwise fun v w => v.start < w.start := by
  induction t generalizing n with
  | nil => exact .nil
  | cons c t ih =>
    have hrest : ∀ w ∈ textWords (n + c.utf8Size) t, n < w.start := by
      intro w hw
      obtain ⟨p, d, z, -, -, hstart⟩ := exists_of_mem_textWords hw
      have hpos := Char.utf8Size_pos c
      omega
    have hsorted := ih (n + c.utf8Size)
    rw [textWords]
    generalize textWords (n + c.utf8Size) t = ws at hrest hsorted
    cases ws with
    | nil => split_ifs <;> simp [behind]
    | cons w ws =>
      have htail := pairwise_cons.mp hsorted
      dsimp only
      split_ifs
      · exact .cons (fun v hv => hrest v (mem_cons_of_mem w hv)) htail.2
      · exact .cons hrest hsorted
      · exact .cons htail.1 htail.2

lemma pairwise_tokenize (t : Text) : (tokenize t).Pairwise fun l m => l.start < m.start := by
  have hlossless := Scan.lossless_scanFrom false {} t
  refine hlossless.ordered.imp_of_mem fun hl _ h => ?_
  exact Nat.lt_of_lt_of_le (hlossless.start_lt_stop _ hl) h

lemma exists_textWord {t : Text} {l : Lexeme} (hl : l ∈ tokenize t)
    (hword : l.isAnyWord ["BEGIN", "CASE", "END"]) : ∃ w ∈ textWords 0 t, w.lexeme = l := by
  rw [Lexeme.isAnyWord, Bool.and_eq_true, beq_iff_eq, contains_iff_mem] at hword
  obtain ⟨hkind, hmem⟩ := hword
  have hupper : upper l.text = l.upper.toList := by
    rw [Lexeme.upper, upperString, String.toList_ofList]
  obtain ⟨hne, hall⟩ := IsOneOf.word ⟨_, hmem, hupper⟩ (by decide)
  have hhead : l.text.head?.any isAsciiAlpha := by
    have hletter : ∀ k ∈ ["BEGIN", "CASE", "END"], k.toList.head?.any isAsciiAlpha := by decide
    have hfirst := hletter _ hmem
    obtain ⟨c, x, htext⟩ := exists_cons_of_ne_nil hne
    rw [← hupper, htext] at hfirst
    rw [htext]
    exact isAsciiAlpha_of_toUpper hfirst
  obtain ⟨y, z, rfl, hstart, hy, hz⟩ := Scan.exists_split_of_word hl hkind hhead
  obtain ⟨g, hwords⟩ := exists_textWords_append 0 hy (l.text ++ z)
  rw [textWords_run hne hall hz, behind] at hwords
  refine ⟨_, by rw [hwords]; exact mem_append_right _ mem_cons_self, ?_⟩
  rw [TextWord.lexeme, Nat.zero_add, ← hstart, ← hkind]

lemma any_uncounted_eq (after : Option TextWord) :
    (after.any fun n => n.adjoins && uncountedTextWords.any n.is) =
      (wordBehind? after).any fun p => upper p.2 != "CASE".toList := by
  rw [wordBehind?, Option.any_map, Option.any_filter]
  refine congrArg (Option.any · after) (funext fun n => ?_)
  rw [any_is_eq (by decide), ← Bool.and_assoc]
  rfl

lemma any_isAnyWord_eq (after : Option Lexeme) : after.any (·.isAnyWord uncountedEndWords) =
      (lexemeBehind? after).any fun p => upper p.2 != "CASE".toList := by
  rw [lexemeBehind?, Option.any_map, Option.any_filter]
  refine congrArg (Option.any · after) (funext fun n => ?_)
  cases hkind : n.kind == .word with
  | false => simp [Lexeme.isAnyWord, hkind]
  | true =>
    obtain ⟨w, rfl⟩ : ∃ w : TextWord, w.lexeme = n :=
      ⟨⟨n.start, [], n.text⟩, by rw [TextWord.lexeme, ← beq_iff_eq.mp hkind]⟩
    rw [TextWord.isAnyWord_lexeme, TextWord.isAnyWord_lexeme, any_is_eq (by decide)]
    rfl

section ReadAlike

variable {t : Text} {stop : Nat} {s : Spot TextWord} {r : Spot Lexeme}

lemma ReadAlike.before_of_adjoins (h : ReadAlike t stop) (hs : s ∈ spots none (textWords 0 t) none)
    (hr : r ∈ spots none (tokenize t) none) (hstop : s.item.start ≤ stop)
    (hitem : r.item = s.item.lexeme) (hcase : s.item.is "CASE")
    (hadjoins : s.item.adjoins) {e : TextWord} (hbefore : s.before = some e)
    (hend : e.is "END") : r.before = some e.lexeme := by
  have hle : e.start ≤ stop :=
    Nat.le_trans (Nat.le_of_lt (lt_of_before (pairwise_textWords 0 t) hs hbefore)) hstop
  obtain ⟨s', hs', rfl, hafter⟩ := exists_spot_before hs hbefore
  have hany : ["BEGIN", "CASE", "END"].any s'.item.is :=
    any_eq_true.mpr ⟨"END", by decide, hend⟩
  obtain ⟨r', hr', hitem'⟩ := exists_spot none none (h.words _ (item_mem hs') hle hany)
  have hbehind : wordBehind? s'.after = some (s.item.start, s.item.text) :=
    wordBehind?_eq_some_iff.mpr ⟨s.item, hafter, hadjoins,
      any_eq_true.mpr ⟨"CASE", mem_cons_self, hcase⟩, rfl⟩
  rw [h.ends s' hs' r' hr' hle hend hitem'] at hbehind
  obtain ⟨l, hl, -, hplace⟩ := lexemeBehind?_eq_some_iff.mp hbehind
  obtain ⟨r'', hr'', rfl, hbefore''⟩ := exists_spot_after hr' hl
  have hstart : r''.item.start = r.item.start := by
    rw [hitem]
    exact congrArg Prod.fst hplace
  rw [← spot_eq (pairwise_tokenize t) hr'' hr hstart, hbefore'', hitem']

lemma ReadAlike.adjoins_of_before (h : ReadAlike t stop) (hs : s ∈ spots none (textWords 0 t) none)
    (hr : r ∈ spots none (tokenize t) none) (hstop : s.item.start ≤ stop)
    (hitem : r.item = s.item.lexeme) (hcase : s.item.is "CASE") {l : Lexeme}
    (hbefore : r.before = some l) (hend : l.isWord "END") :
    s.item.adjoins ∧ s.before.any (·.is "END") := by
  have hle : l.start ≤ stop := by
    have hlt := lt_of_before (pairwise_tokenize t) hr hbefore
    rw [hitem] at hlt
    exact Nat.le_trans (Nat.le_of_lt hlt) hstop
  obtain ⟨r', hr', rfl, hafter⟩ := exists_spot_before hr hbefore
  have hany : r'.item.isAnyWord ["BEGIN", "CASE", "END"] := by
    obtain ⟨hkind, hupper⟩ := Lexeme.isWord_iff.mp hend
    rw [Lexeme.isAnyWord, hkind, hupper]
    rfl
  obtain ⟨w, hw, hlexeme⟩ := exists_textWord (item_mem hr') hany
  obtain ⟨s', hs', rfl⟩ := exists_spot none none hw
  have hbehind : lexemeBehind? r'.after = some (s.item.start, s.item.text) := by
    refine lexemeBehind?_eq_some_iff.mpr ⟨s.item.lexeme, by rw [hafter, hitem], ?_, rfl⟩
    rw [TextWord.isAnyWord_lexeme]
    exact any_eq_true.mpr ⟨"CASE", mem_cons_self, hcase⟩
  rw [← hlexeme, TextWord.isWord_lexeme] at hend
  rw [← hlexeme] at hle
  rw [← h.ends s' hs' r' hr' hle hend hlexeme.symm] at hbehind
  obtain ⟨v, hv, hadjoins, -, hplace⟩ := wordBehind?_eq_some_iff.mp hbehind
  obtain ⟨s'', hs'', rfl, hbefore''⟩ := exists_spot_after hs' hv
  obtain rfl := spot_eq (pairwise_textWords 0 t) hs'' hs (congrArg Prod.fst hplace)
  rw [hbefore'']
  exact ⟨hadjoins, hend⟩

/-- **A word that is read alike does the same.** -/
lemma ReadAlike.mark_eq (h : ReadAlike t stop) (hs : s ∈ spots none (textWords 0 t) none)
    (hr : r ∈ spots none (tokenize t) none) (hstop : s.item.start ≤ stop)
    (hitem : r.item = s.item.lexeme) :
    textMark s.before s.item s.after = blockMark r.before r.item r.after := by
  have hws := pairwise_textWords 0 t
  have hls := pairwise_tokenize t
  have hstart : r.item.start = s.item.start := by rw [hitem]; rfl
  have hword (keyword : String) : r.item.isWord keyword = s.item.is keyword := by
    rw [hitem, TextWord.isWord_lexeme]
  by_cases hbegin : s.item.is "BEGIN"
  · rw [textMark, if_pos hbegin, h.begins r hr (hstart ▸ hstop) (by rw [hword, hbegin])]
  by_cases hcase : s.item.is "CASE"
  · have hend : (s.item.adjoins && s.before.any (·.is "END")) = r.before.any (·.isWord "END") := by
      rw [Bool.eq_iff_iff, Bool.and_eq_true, Option.any_eq_true, Option.any_eq_true]
      constructor
      · rintro ⟨hadjoins, e, hbefore, hend⟩
        exact ⟨e.lexeme, h.before_of_adjoins hs hr hstop hitem hcase hadjoins hbefore hend,
          by rwa [TextWord.isWord_lexeme]⟩
      · rintro ⟨l, hbefore, hend⟩
        have hleft := h.adjoins_of_before hs hr hstop hitem hcase hbefore hend
        rwa [Option.any_eq_true] at hleft
    unfold textMark blockMark
    rw [hword, hword, if_neg hbegin, if_neg hbegin, if_pos hcase, if_pos hcase, hend]
  by_cases hend : s.item.is "END"
  · have hbehind := h.ends s hs r hr hstop hend hitem
    unfold textMark blockMark
    rw [hword, hword, hword, if_neg hbegin, if_neg hbegin, if_neg hcase, if_neg hcase, if_pos hend,
      if_pos hend, any_uncounted_eq, any_isAnyWord_eq, hbehind]
  · unfold textMark blockMark
    rw [hword, hword, hword, if_neg hbegin, if_neg hbegin, if_neg hcase, if_neg hcase, if_neg hend,
      if_neg hend]

lemma any_is_of_textMark {before after : Option TextWord} {w : TextWord}
    (h : textMark before w after ≠ .none) : ["BEGIN", "CASE", "END"].any w.is := by
  by_contra hnone
  simp only [any_cons, any_nil, Bool.or_false, Bool.or_eq_true, not_or] at hnone
  rw [textMark, if_neg hnone.1, if_neg hnone.2.1, if_neg hnone.2.2] at h
  exact h rfl

/-- **A word that does something is a lexeme** that does the same. -/
lemma ReadAlike.exists_lexeme (h : ReadAlike t stop) (hs : s ∈ spots none (textWords 0 t) none)
    (hstop : s.item.start ≤ stop) (hmark : textMark s.before s.item s.after ≠ .none) :
    ∃ r ∈ spots none (tokenize t) none, r.item.start = s.item.start ∧
      blockMark r.before r.item r.after = textMark s.before s.item s.after := by
  have hlexeme := h.words _ (item_mem hs) hstop (any_is_of_textMark hmark)
  obtain ⟨r, hr, hitem⟩ := exists_spot none none hlexeme
  exact ⟨r, hr, by rw [hitem]; rfl, (h.mark_eq hs hr hstop hitem).symm⟩

/-- **A lexeme that does something is a word** that does the same. -/
lemma ReadAlike.exists_word (h : ReadAlike t stop) (hr : r ∈ spots none (tokenize t) none)
    (hstop : r.item.start ≤ stop) (hmark : blockMark r.before r.item r.after ≠ .none) :
    ∃ s ∈ spots none (textWords 0 t) none, s.item.start = r.item.start ∧
      textMark s.before s.item s.after = blockMark r.before r.item r.after := by
  have hany : r.item.isAnyWord ["BEGIN", "CASE", "END"] := by
    by_contra hnone
    exact hmark (blockMark_eq_none (Bool.eq_false_iff.mpr hnone) _ _)
  obtain ⟨w, hw, hitem⟩ := exists_textWord (item_mem hr) hany
  obtain ⟨s, hs, rfl⟩ := exists_spot none none hw
  have hstart : s.item.start = r.item.start := by rw [← hitem]; rfl
  exact ⟨s, hs, hstart, h.mark_eq hs hr (hstart ▸ hstop) hitem.symm⟩

end ReadAlike

/-! ## Blocks of lexemes -/

lemma textMarksFrom_eq_map (before : Option TextWord) (ws : List TextWord)
    (after : Option TextWord) : textMarksFrom before ws after =
      (spots before ws after).map fun s => textMark s.before s.item s.after := by
  induction ws generalizing before with
  | nil => rfl
  | cons w ws ih => rw [textMarksFrom, spots, map_cons, ih]

lemma blockMarks_eq_map (before : Option Lexeme) (ls : List Lexeme) (after : Option Lexeme) :
    blockMarks before ls after =
      (spots before ls after).map fun r => blockMark r.before r.item r.after := by
  induction ls generalizing before with
  | nil => rfl
  | cons l ls ih => rw [blockMarks, spots, map_cons, ih]

/-- A block among the lexemes of a text: the lexeme at `start` opens it, and the one at `stop` is
the one that closes it. -/
structure LexemeBlock (t : Text) (start stop : Nat) where
  before : List Lexeme
  first : Lexeme
  inner : List Lexeme
  last : Lexeme
  behind : List Lexeme
  tokenize_eq : tokenize t = before ++ first :: (inner ++ last :: behind)
  first_start : first.start = start
  last_start : last.start = stop
  opens : blockMark before.getLast? first (inner.head?.or (some last)) = .opens
  nest : nest? 0 (blockMarks (some first) inner (some last)) = some 0
  closes : blockMark (inner.getLast?.or (some first)) last behind.head? = .closes

section LexemeBlock

variable {t : Text} {start stop : Nat}

lemma ReadAlike.mem_counted_iff (h : ReadAlike t stop) {ss : List (Spot TextWord)}
    {rs : List (Spot Lexeme)}
    (hss : ∀ s, s ∈ ss ↔ s ∈ spots none (textWords 0 t) none ∧ start < s.item.start ∧
      s.item.start < stop)
    (hrs : ∀ r, r ∈ rs ↔ r ∈ spots none (tokenize t) none ∧ start < r.item.start ∧
      r.item.start < stop) (m : Nat × BlockMark) :
    m ∈ counted TextWord.start textMark ss ↔ m ∈ counted Lexeme.start blockMark rs := by
  rw [mem_counted, mem_counted]
  refine and_congr_right fun hm => ⟨?_, ?_⟩
  · rintro ⟨s, hs, rfl⟩
    obtain ⟨hs, hstart, hstop⟩ := (hss s).mp hs
    obtain ⟨r, hr, hplace, hmark⟩ := h.exists_lexeme hs (Nat.le_of_lt hstop) hm
    exact ⟨r, (hrs r).mpr ⟨hr, hplace ▸ hstart, hplace ▸ hstop⟩, by rw [hplace, hmark]⟩
  · rintro ⟨r, hr, rfl⟩
    obtain ⟨hr, hstart, hstop⟩ := (hrs r).mp hr
    obtain ⟨s, hs, hplace, hmark⟩ := h.exists_word hr (Nat.le_of_lt hstop) hm
    exact ⟨s, (hss s).mpr ⟨hs, hplace ▸ hstart, hplace ▸ hstop⟩, by rw [hplace, hmark]⟩

namespace LexemeBlock

variable (k : LexemeBlock t start stop)

lemma mem_inner_iff {r : Spot Lexeme} : r ∈ spots (some k.first) k.inner (some k.last) ↔
    r ∈ spots none (tokenize t) none ∧ start < r.item.start ∧ r.item.start < stop := by
  have hsplit : tokenize t = (k.before ++ [k.first]) ++ (k.inner ++ k.last :: k.behind) := by
    rw [k.tokenize_eq, append_assoc]
    rfl
  have hsorted := pairwise_tokenize t
  rw [hsplit, pairwise_append, pairwise_append, pairwise_append] at hsorted
  obtain ⟨⟨-, -, hbefore⟩, ⟨-, hbehind, hinner⟩, hfirst⟩ := hsorted
  have hstart := k.first_start
  have hstop := k.last_start
  have hlow : ∀ l ∈ k.before ++ [k.first], l.start ≤ start := by
    intro l hl
    rcases mem_append.mp hl with hl | hl
    · have hlt := hbefore l hl k.first (mem_singleton_self _)
      omega
    · rw [mem_singleton.mp hl]
      omega
  have hmiddle : ∀ l ∈ k.inner, start < l.start ∧ l.start < stop := by
    intro l hl
    have hleft := hfirst k.first (by simp) l (mem_append_left _ hl)
    have hright := hinner l hl k.last mem_cons_self
    omega
  have hhigh : ∀ l ∈ k.last :: k.behind, stop ≤ l.start := by
    intro l hl
    rcases mem_cons.mp hl with rfl | hl
    · omega
    · have hlt := (pairwise_cons.mp hbehind).1 l hl
      omega
  have hmem := mem_spots_middle (s := r) hlow hmiddle hhigh
  rwa [getLast?_concat, ← hsplit] at hmem

lemma last_mem : ⟨k.inner.getLast?.or (some k.first), k.last, k.behind.head?⟩ ∈
    spots none (tokenize t) none := by
  have hmem := mem_spots none none (k.before ++ k.first :: k.inner) k.last k.behind
  rwa [append_assoc, cons_append, ← k.tokenize_eq, or_none, or_none, getLast?_append_cons,
    ← or_none (o := (k.first :: k.inner).getLast?), ← getLast?_or_some] at hmem

/-- **A block that is read alike** is one for the words of the text. -/
lemma nest_and_closes (k : LexemeBlock t start stop) (h : ReadAlike t stop)
    {before inner more : List TextWord} {last : TextWord}
    (hwords : textWords 0 t = before ++ (inner ++ last :: more))
    (hbefore : ∀ w ∈ before, w.start ≤ start)
    (hinner : ∀ w ∈ inner, start < w.start ∧ w.start < stop) (hlast : last.start = stop)
    (hmore : ∀ w ∈ more, stop ≤ w.start) :
    nest? 0 (textMarksFrom before.getLast? inner (some last)) = some 0 ∧
      textMark ((before ++ inner).getLast?) last more.head? = .closes := by
  have hsorted := pairwise_textWords 0 t
  have hhigh : ∀ w ∈ last :: more, stop ≤ w.start :=
    forall_mem_cons.mpr ⟨Nat.le_of_eq hlast.symm, hmore⟩
  have hmem (s : Spot TextWord) : s ∈ spots before.getLast? inner (some last) ↔
      s ∈ spots none (textWords 0 t) none ∧ start < s.item.start ∧ s.item.start < stop := by
    rw [hwords]
    exact mem_spots_middle hbefore hinner hhigh
  constructor
  · have hsame : counted TextWord.start textMark (spots before.getLast? inner (some last)) =
        counted Lexeme.start blockMark (spots (some k.first) k.inner (some k.last)) := by
      have hwsorted := (pairwise_append.mp (pairwise_append.mp (hwords ▸ hsorted)).2.1).1
      have hlsorted := pairwise_tokenize t
      rw [k.tokenize_eq, pairwise_append, pairwise_cons, pairwise_append] at hlsorted
      have : Std.Irrefl fun m n : Nat × BlockMark => m.1 < n.1 := ⟨fun m => Nat.lt_irrefl m.1⟩
      have : Std.Antisymm fun m n : Nat × BlockMark => m.1 < n.1 :=
        ⟨fun m n hmn hnm => absurd hmn (Nat.lt_asymm hnm)⟩
      exact (pairwise_counted hwsorted _ _ _).eq_of_mem_iff
        (pairwise_counted hlsorted.2.1.2.1 _ _ _)
        (h.mem_counted_iff hmem fun r => k.mem_inner_iff)
    rw [textMarksFrom_eq_map, ← nest?_counted (f := TextWord.start), hsame, nest?_counted,
      ← blockMarks_eq_map]
    exact k.nest
  · have hclosed := h.exists_word k.last_mem (Nat.le_of_eq k.last_start) (by rw [k.closes]; decide)
    obtain ⟨s, hs, hstart, hmark⟩ := hclosed
    have hspot := mem_spots none none (before ++ inner) last more
    rw [append_assoc, ← hwords, or_none, or_none] at hspot
    have hplace : s.item.start = last.start := by rw [hstart, hlast, k.last_start]
    rw [spot_eq hsorted hs hspot hplace] at hmark
    rw [hmark, k.closes]

end LexemeBlock

/-- Where the word stands that ends the block of a trigger. -/
def blockStop (b : Text) : Nat := byteLength (" FOR EACH ROW BEGIN ".toList ++ b ++ " ".toList)

/-- **The body of a block that is read alike**: the block is closed at its end. -/
lemma mysqlBody?_of_readAlike {b rest : Text} (k : LexemeBlock (blockTail b rest) 14 (blockStop b))
    (h : ReadAlike (blockTail b rest) (blockStop b)) :
    mysqlBody? (blockTail b rest) = bodyOf? b := by
  set a := " FOR EACH ROW BEGIN ".toList with ha
  obtain ⟨inner, last, more, hsplit⟩ := exists_splitsAtEnd (a := a) (by decide) (by decide) b rest
  have htail : blockTail b rest = a ++ (b ++ [' ']) ++ ("END".toList ++ rest) := by
    unfold blockTail
    rw [← ha, append_assoc, append_assoc]
    rfl
  have hstop : last.start = blockStop b := by
    rw [hsplit.start_eq, blockStop, append_assoc]
    rfl
  have hwords := hsplit.words_eq
  rw [← htail] at hwords
  have hbefore : ∀ w ∈ textWords 0 a, w.start ≤ 14 := by decide
  obtain ⟨hnest, hcloses⟩ := k.nest_and_closes h hwords hbefore
    (fun w hw => ⟨(by decide : 14 < byteLength a).trans_le (hsplit.inner_lt w hw).1,
      hstop ▸ (hsplit.inner_lt w hw).2⟩)
    hstop (fun w hw => hstop ▸ Nat.le_of_lt (hsplit.lt_more w hw))
  rw [hsplit.marks_eq] at hnest
  exact mysqlBody?_block b rest hnest (by rw [hsplit.head?_eq, hcloses])

end LexemeBlock

/-- **The body of a MySQL trigger.** A block is told by the words of the text: its body is found
exactly if they nest and the word `END` behind it closes something. That is so for every block of
lexemes in which words that count are lexemes and do the same. A single statement ends at the first
semicolon or pair of dollar signs of the text. -/
theorem mysqlBody?_blocks_and_statements (b rest : Text) :
    (mysqlBody? (blockTail b rest) = some (trim b) ↔ trim b ≠ [] ∧
      BlockMark.nest? 0 (textMarks b) = some 0 ∧
        (textMarks ("END".toList ++ rest)).head? = some .closes) ∧
    (BlockMark.nest? 0 (textMarks b) = some 0 →
      (textMarks ("END".toList ++ rest)).head? = some .closes →
        mysqlBody? (blockTail b rest) = bodyOf? b) ∧
    (Nonempty (LexemeBlock (blockTail b rest) 14 (blockStop b)) →
      ReadAlike (blockTail b rest) (blockStop b) → mysqlBody? (blockTail b rest) = bodyOf? b) ∧
    ∀ s, ¬ StartsWith bodyWords s →
      (mysqlBody? (statementTail s rest) = bodyOf? s ↔ ';' ∉ s ∧ ¬ ['$', '$'] <:+: s) := by
  refine ⟨⟨of_mysqlBody?_block b rest, ?_⟩, mysqlBody?_block b rest, ?_, ?_⟩
  · rintro ⟨hne, hnest, hend⟩
    rw [mysqlBody?_block b rest hnest hend]
    exact bodyOf?_eq_some_iff.mpr ⟨hne, rfl⟩
  · rintro ⟨k⟩ h
    exact mysqlBody?_of_readAlike k h
  · exact fun s hs => mysqlBody?_statement_eq_iff hs rest

namespace NestedBlock

def body : Text :=
  "IF NEW.a THEN BEGIN SET NEW.b = CASE NEW.a WHEN 1 THEN ';' ELSE 0 END; END; END IF;".toList

def text : Text := blockTail body ";".toList

def block : LexemeBlock text 14 (blockStop body) where
  before := (tokenize text).take 3
  first := ⟨.word, "BEGIN".toList, 14⟩
  inner := ((tokenize text).drop 4).take 28
  last := ⟨.word, "END".toList, blockStop body⟩
  behind := (tokenize text).drop 33
  tokenize_eq := by decide +kernel
  first_start := rfl
  last_start := rfl
  opens := by decide +kernel
  nest := by decide +kernel
  closes := by decide +kernel

lemma readAlike : ReadAlike text (blockStop body) := by
  constructor <;> decide +kernel

end NestedBlock

/-- A block with blocks inside, and a statement. -/
theorem mysqlBody?_blocks_and_statements_nested :
    Nonempty (LexemeBlock NestedBlock.text 14 (blockStop NestedBlock.body)) ∧
      ReadAlike NestedBlock.text (blockStop NestedBlock.body) ∧
      mysqlBody? NestedBlock.text = bodyOf? NestedBlock.body ∧
      BlockMark.nest? 0 (textMarks NestedBlock.body) = some 0 ∧
      (textMarks ("END".toList ++ ";".toList)).head? = some .closes ∧
      mysqlBody? NestedBlock.text = some NestedBlock.body ∧
      ¬ StartsWith bodyWords "UPDATE c SET n = $1".toList ∧
      mysqlBody? (statementTail "UPDATE c SET n = $1".toList ";".toList) =
        bodyOf? "UPDATE c SET n = $1".toList := by
  obtain ⟨hsome, hwords, hlexemes, hstatement⟩ :=
    mysqlBody?_blocks_and_statements NestedBlock.body ";".toList
  have hnest : nest? 0 (textMarks NestedBlock.body) = some 0 := by decide
  have hend : (textMarks ("END".toList ++ ";".toList)).head? = some .closes := by decide
  have hbody : bodyOf? NestedBlock.body = some NestedBlock.body := by decide
  have hstart : ¬ StartsWith bodyWords "UPDATE c SET n = $1".toList := by decide
  have hblock : Nonempty (LexemeBlock NestedBlock.text 14 (blockStop NestedBlock.body)) :=
    ⟨NestedBlock.block⟩
  exact ⟨hblock, NestedBlock.readAlike, hlexemes hblock NestedBlock.readAlike, hnest, hend,
    (hwords hnest hend).trans hbody, hstart, (hstatement _ hstart).mpr (by decide)⟩

namespace LiteralWord

def body : Text := "SET NEW.a = 'END'; INSERT INTO log VALUES (1);".toList

def text : Text := blockTail body ";".toList

def block : LexemeBlock text 14 (blockStop body) where
  before := (tokenize text).take 3
  first := ⟨.word, "BEGIN".toList, 14⟩
  inner := ((tokenize text).drop 4).take 15
  last := ⟨.word, "END".toList, blockStop body⟩
  behind := (tokenize text).drop 20
  tokenize_eq := by decide +kernel
  first_start := rfl
  last_start := rfl
  opens := by decide +kernel
  nest := by decide +kernel
  closes := by decide +kernel

def statement : Text := "INSERT INTO log VALUES (';')".toList

end LiteralWord

/-- **Words and semicolons in literals count.** The block is closed by its last lexeme `END`, but
its body ends in the literal; no lexeme of the statement is a semicolon, but its body ends in the
literal. The trigger then has no references. -/
theorem mysqlBody?_literals :
    Nonempty (LexemeBlock LiteralWord.text 14 (blockStop LiteralWord.body)) ∧
      bodyOf? LiteralWord.body = some LiteralWord.body ∧
      mysqlBody? LiteralWord.text = some "SET NEW.a = '".toList ∧
      (bodyUsage .mysql LiteralWord.body).relations = ⟨["log"]⟩ ∧
      (scanTriggers? ("CREATE TRIGGER t BEFORE INSERT ON x".toList ++ LiteralWord.text)).map
        (·.triggers.map (·.usage)) = some [{}] ∧
      (∀ l ∈ tokenize LiteralWord.statement, l.isSymbol ';' = false ∧ l.isSymbol '$' = false) ∧
      ¬ StartsWith bodyWords LiteralWord.statement ∧
      bodyOf? LiteralWord.statement = some LiteralWord.statement ∧
      mysqlBody? (statementTail LiteralWord.statement []) =
        some "INSERT INTO log VALUES ('".toList := by
  refine ⟨⟨LiteralWord.block⟩, ?_⟩
  decide +kernel

end TriggerScan

end SqlOutline
