import SqlOutline.Proofs.Text.Trim
import SqlOutline.Proofs.Trigger.BlockWords

/-!
# Bodies of MySQL triggers

Behind the words `FOR EACH ROW` stands a block or a single statement.

## Main definitions

* `SplitsAtEnd` — the words of a text with a block that is closed.

## Main results

* `mysqlBody?_block`, `of_mysqlBody?_block` — which blocks are the body of a trigger.
* `mysqlBody?_statement_eq_iff` — the body of a trigger with a single statement.
-/

namespace SqlOutline

open Option Text Pattern
open List hiding all find?

namespace TriggerScan

/-- A text without white space at its ends, if anything is left. -/
def bodyOf? (x : Text) : Option Text := if (trim x).isEmpty then none else some (trim x)

lemma bodyOf?_eq_some_iff {x y : Text} : bodyOf? x = some y ↔ y ≠ [] ∧ trim x = y := by
  rw [bodyOf?]
  split_ifs with h
  · rw [List.isEmpty_iff] at h
    simp only [h, false_iff, not_and]
    rintro hy rfl
    exact hy rfl
  · rw [some_inj]
    constructor
    · rintro rfl
      exact ⟨fun hnil => h (isEmpty_iff.mpr hnil), rfl⟩
    · exact fun h => h.2

lemma bodyOf?_inj {x y : Text} : bodyOf? x = bodyOf? y ↔ trim x = trim y := by
  refine ⟨fun h => ?_, fun h => by rw [bodyOf?, bodyOf?, h]⟩
  rw [bodyOf?, bodyOf?] at h
  split_ifs at h with hx hy
  · rw [isEmpty_iff.mp hx, isEmpty_iff.mp hy]
  · exact some_inj.mp h

lemma mysqlBody?_forEachRow (t : Text) :
    mysqlBody? (" FOR EACH ROW ".toList ++ t) = (bodyStart.find? (' ' :: t)).bind fun start =>
      (if (start.text? 1).isSome then blockText? start.stop.rest
        else some (statementText start.stop.rest)).bind bodyOf? := by
  have hrow : (forEachRow.find? (" FOR EACH ROW ".toList ++ t)).map (·.stop.rest) =
      some (' ' :: t) := rfl
  obtain ⟨row, hfind, hrest⟩ := map_eq_some_iff.mp hrow
  rw [mysqlBody?, hfind, ← hrest]
  simp only [bind_eq_bind, bind_some]
  refine congrArg _ (funext fun start => ?_)
  by_cases hgroup : (start.text? 1).isSome
  · rw [if_pos hgroup, if_pos hgroup]
    rfl
  · rw [if_neg hgroup, if_neg hgroup]
    rfl

/-- **The body of a trigger with a block** ends at the word that closes the block. -/
lemma mysqlBody?_begin (t : Text) : mysqlBody? (" FOR EACH ROW BEGIN ".toList ++ t) =
      (closing? 0 none (textWords 0 (' ' :: t))).bind fun n =>
        bodyOf? (takeBytes n (' ' :: t)) := by
  have hstart : (bodyStart.find? (" BEGIN ".toList ++ t)).map
      (fun m => ((m.text? 1).isSome, m.stop.rest)) = some (true, ' ' :: t) := rfl
  obtain ⟨start, hfind, hstart⟩ := map_eq_some_iff.mp hstart
  obtain ⟨hgroup, hrest⟩ := Prod.mk.inj hstart
  have htail : " FOR EACH ROW BEGIN ".toList ++ t =
      " FOR EACH ROW ".toList ++ ("BEGIN ".toList ++ t) :=
    rfl
  have hbehind : ' ' :: ("BEGIN ".toList ++ t) = " BEGIN ".toList ++ t := rfl
  rw [htail, mysqlBody?_forEachRow, hbehind, hfind, bind_some, hgroup, if_pos rfl, hrest,
    blockText?, findAll, blockEnd?_eq_closing? _ _ _ _ (.inl rfl)]
  cases closing? 0 none (textWords 0 (' ' :: t)) <;> rfl

/-! ## Blocks -/

lemma textWords_end (n : Nat) (rest : Text) :
    textWords n ("END".toList ++ rest) = ⟨n, [], "END".toList ++ rest.takeWhile isWordChar⟩ ::
      textWords (n + byteLength ("END".toList ++ rest.takeWhile isWordChar))
        (rest.dropWhile isWordChar) := by
  have hsplit : "END".toList ++ rest =
      ("END".toList ++ rest.takeWhile isWordChar) ++ rest.dropWhile isWordChar := by
    rw [append_assoc, takeWhile_append_dropWhile]
  conv_lhs => rw [hsplit]
  refine textWords_run (by simp) ?_ ?_ n
  · have hend : ∀ c ∈ "END".toList, isWordChar c := by decide
    exact fun c hc => (mem_append.mp hc).elim (hend c) mem_takeWhile_imp
  · cases hhead : (rest.dropWhile isWordChar).head? with
    | none => rfl
    | some d => exact not_of_mem_head?_dropWhile hhead

lemma textMark_end (n m : Nat) (g w : Text) (before after : Option TextWord) (k : Nat) :
    textMark before ⟨n, g, "END".toList ++ w⟩ (after.map (TextWord.shift k)) =
      textMark none ⟨m, [], "END".toList ++ w⟩ after := by
  have hhead (key : String) (hkey : key.toList.head? ≠ some 'E') (start : Nat) (gap : Text) :
      TextWord.is ⟨start, gap, "END".toList ++ w⟩ key = false := by
    refine beq_eq_false_iff_ne.mpr fun h => hkey ?_
    rw [← h]
    rfl
  rw [textMark, textMark, hhead "BEGIN" (by decide), hhead "CASE" (by decide),
    hhead "BEGIN" (by decide), hhead "CASE" (by decide)]
  cases after <;> rfl

lemma not_uncounted_end (n : Nat) (g w : Text) :
    uncountedTextWords.any (TextWord.is ⟨n, g, "END".toList ++ w⟩) = false := by
  refine any_eq_false.mpr fun k hk => ?_
  have hall : ∀ k ∈ uncountedTextWords, k.toList.head? ≠ some 'E' := by decide
  rw [TextWord.is, beq_iff_eq]
  intro h
  refine hall k hk ?_
  rw [← h]
  rfl

/-- The words of a text in which `a`, a block `b` and the word `END` stand before `rest`: those of
`a`, those of the block, the word that starts with `END`, and those behind. -/
structure SplitsAtEnd (a b rest : Text) (inner : List TextWord) (last : TextWord)
    (more : List TextWord) : Prop where
  words_eq : textWords 0 (a ++ (b ++ [' ']) ++ ("END".toList ++ rest)) =
    textWords 0 a ++ (inner ++ last :: more)
  start_eq : last.start = byteLength (a ++ (b ++ [' ']))
  inner_lt : ∀ w ∈ inner, byteLength a ≤ w.start ∧ w.start < last.start
  lt_more : ∀ w ∈ more, last.start < w.start
  /-- The words of the block do the same as without what surrounds it. -/
  marks_eq : textMarksFrom (textWords 0 a).getLast? inner (some last) = textMarks b
  /-- What the word that starts with `END` does depends on what follows only. -/
  head?_eq : ∀ before, (textMarks ("END".toList ++ rest)).head? =
    some (textMark before last more.head?)

/-- **Words around a block**, before which no `END` stands. -/
lemma exists_splitsAtEnd {a : Text} (ha : a.getLast?.any isWordChar = false)
    (hbefore : (textWords 0 a).getLast?.any (·.is "END") = false) (b rest : Text) :
    ∃ inner last more, SplitsAtEnd a b rest inner last more := by
  have hspace : ∀ c ∈ [' '], isWordChar c = false := by decide
  set x := a ++ (b ++ [' ']) with hx
  obtain ⟨g, hinner⟩ := exists_textWords_append 0 ha (b ++ [' '])
  rw [← hx, textWords_append_gap hspace, Nat.zero_add] at hinner
  have hlast : x.getLast?.any isWordChar = false := by
    rw [hx, ← append_assoc, getLast?_append_of_ne_nil _ (cons_ne_nil _ _)]
    exact hspace ' ' (mem_singleton_self _)
  obtain ⟨f, hwords⟩ := exists_textWords_append 0 hlast ("END".toList ++ rest)
  rw [textWords_end, behind, Nat.zero_add, hinner, append_assoc (textWords 0 a)] at hwords
  refine ⟨_, _, _, hwords, rfl, fun w hw => ?_, fun w hw => ?_, ?_, fun before => ?_⟩
  · obtain ⟨v, hv, hstart⟩ := exists_of_mem_behind hw
    obtain ⟨p, c, z, rfl, -, hp⟩ := exists_of_mem_textWords hv
    have hpos := Char.utf8Size_pos c
    rw [← hstart, hp, hx]
    simp only [byteLength_append, byteLength_cons]
    omega
  · obtain ⟨p, c, z, -, -, hp⟩ := exists_of_mem_textWords hw
    have hpos : 0 < byteLength ("END".toList ++ rest.takeWhile isWordChar) :=
      byteLength_pos (by simp)
    rw [hp]
    dsimp only
    omega
  · rw [textMarksFrom_of_not_end hbefore, textMarksFrom_behind,
      textMarksFrom_some (not_uncounted_end _ _ _)]
    have hadd := textWords_add (byteLength a) 0 b
    rw [Nat.add_zero] at hadd
    rw [hadd]
    exact textMarksFrom_shift (byteLength a) none (textWords 0 b) none
  · rw [textWords_add, head?_map, textMark_end _ 0, textMarks, textWords_end, textMarksFrom,
      or_none, Nat.zero_add]
    rfl

/-- **Which words a block must have** for the word `END` behind it to close it. -/
lemma closing?_block_iff (b rest : Text) :
    closing? 0 none (textWords 0 ((' ' :: (b ++ [' '])) ++ ("END".toList ++ rest))) =
        some (byteLength (' ' :: (b ++ [' ']))) ↔
      BlockMark.nest? 0 (textMarks b) = some 0 ∧
        (textMarks ("END".toList ++ rest)).head? = some .closes := by
  obtain ⟨inner, last, more, h⟩ := exists_splitsAtEnd (a := [' ']) rfl rfl b rest
  have hwords : textWords 0 ((' ' :: (b ++ [' '])) ++ ("END".toList ++ rest)) =
      inner ++ last :: more := h.words_eq
  have hstart : byteLength (' ' :: (b ++ [' '])) = last.start := h.start_eq.symm
  have hmarks : textMarks b = textMarksFrom none inner (some last) := h.marks_eq.symm
  rw [hwords, hstart, hmarks, h.head?_eq (inner.getLast?.or none), some_inj]
  exact closing?_eq_some_iff (fun w hw => (h.inner_lt w hw).2) h.lt_more

lemma trim_spaces (b : Text) : trim (' ' :: (b ++ [' '])) = trim b := by
  have hstart : trim (' ' :: (b ++ [' '])) = trim (b ++ [' ']) := rfl
  have hend (x : Text) : trimEnd (x ++ [' ']) = trimEnd x := by
    rw [trimEnd, trimEnd, reverse_append]
    rfl
  rw [hstart]
  by_cases hblank : ∀ c ∈ b, isBlank c
  · have hblank' : ∀ c ∈ b ++ [' '], isBlank c := by
      intro c hc
      rcases mem_append.mp hc with hc | hc
      · exact hblank c hc
      · rw [mem_singleton.mp hc]
        rfl
    rw [trim, trim, trimStart_of_blank hblank, trimStart_of_blank hblank']
  · obtain ⟨c, hc, hcb⟩ : ∃ c ∈ b, isBlank c = false := by simpa using hblank
    obtain ⟨x, y, rfl⟩ := append_of_mem hc
    rw [append_assoc, cons_append, trim_append_cons hcb, trim_append_cons hcb, hend]

lemma trim_append_cons_ne {c : Char} (hc : isBlank c = false) (x y : Text) :
    trim (x ++ c :: y) ≠ trim x := by
  intro h
  have hlen := (trim_sublist_trimStart x).length_le
  rw [← h, trim_append_cons hc, length_append, length_cons] at hlen
  omega

lemma isBlank_eq_false_of_isWordChar {c : Char} (h : isWordChar c) : isBlank c = false := by
  cases hc : isBlank c with
  | false => rfl
  | true =>
    rw [isWordChar_eq_false_of_isBlank hc] at h
    cases h

/-- What stands behind the header of a trigger whose body is the block `b`. -/
def blockTail (b rest : Text) : Text :=
  " FOR EACH ROW BEGIN ".toList ++ (b ++ (" END".toList ++ rest))

section Block

variable (b rest : Text)

lemma mysqlBody?_block_eq : mysqlBody? (blockTail b rest) =
      (closing? 0 none
        (textWords 0 ((' ' :: (b ++ [' '])) ++ ("END".toList ++ rest)))).bind fun n =>
        bodyOf? (takeBytes n ((' ' :: (b ++ [' '])) ++ ("END".toList ++ rest))) := by
  have hsplit : ' ' :: (b ++ (" END".toList ++ rest)) =
      (' ' :: (b ++ [' '])) ++ ("END".toList ++ rest) := by
    rw [cons_append, append_assoc]
    rfl
  unfold blockTail
  rw [mysqlBody?_begin, hsplit]

/-- **The body of a block** whose words are closed by the `END` behind it. -/
lemma mysqlBody?_block (hnest : BlockMark.nest? 0 (textMarks b) = some 0)
    (hend : (textMarks ("END".toList ++ rest)).head? = some .closes) :
    mysqlBody? (blockTail b rest) = bodyOf? b := by
  rw [mysqlBody?_block_eq, (closing?_block_iff b rest).mpr ⟨hnest, hend⟩, bind_some,
    takeBytes_byteLength, bodyOf?, bodyOf?, trim_spaces]

/-- **Only such a block has this body.** -/
lemma of_mysqlBody?_block (h : mysqlBody? (blockTail b rest) = some (trim b)) :
    trim b ≠ [] ∧ BlockMark.nest? 0 (textMarks b) = some 0 ∧
      (textMarks ("END".toList ++ rest)).head? = some .closes := by
  rw [mysqlBody?_block_eq] at h
  obtain ⟨n, hn, hbody⟩ := bind_eq_some_iff.mp h
  obtain ⟨hne, htrim⟩ := bodyOf?_eq_some_iff.mp hbody
  obtain ⟨v, hv, rfl⟩ := exists_of_closing? hn
  obtain ⟨p, c, z, hsplit, hc, hstart⟩ := exists_of_mem_textWords hv
  rw [Nat.zero_add] at hstart
  rw [hsplit, hstart, takeBytes_byteLength, ← trim_spaces b] at htrim
  refine ⟨hne, (closing?_block_iff b rest).mp ?_⟩
  rw [hn, hstart]
  rcases append_eq_append_iff.mp hsplit with ⟨u, rfl, hu⟩ | ⟨u, hx, hu⟩
  · cases u with
    | nil => rw [append_nil]
    | cons d u =>
      obtain rfl : 'E' = d := (cons.inj hu).1
      have hletter : isBlank 'E' = false := by decide
      exact absurd htrim (trim_append_cons_ne hletter _ _)
  · cases u with
    | nil => rw [hx, append_nil]
    | cons d u =>
      obtain ⟨rfl, -⟩ := cons.inj hu
      rw [hx] at htrim
      exact absurd htrim.symm (trim_append_cons_ne (isBlank_eq_false_of_isWordChar hc) _ _)

end Block

/-! ## Single statements -/

/-- The words with which what is no single statement starts. Two of them are also spelled with a
long `s`. -/
def bodyWords : List String := ["BEGIN", "FOLLOWS", "FOLLOWſ", "PRECEDES", "PRECEDEſ"]

lemma isOneOf_bodyWords_of_spelled {x : Text} (h : Spelled "FOLLOWS" x ∨ Spelled "PRECEDES" x) :
    IsOneOf bodyWords x := by
  have hfollows : Spelled "FOLLOWS" x ↔ upper x = "FOLLOWS".toList ∨ upper x = "FOLLOWſ".toList :=
    spelled_iff_upper_or "FOLLOW".toList [] rfl rfl (by decide)
  have hprecedes : Spelled "PRECEDES" x ↔
      upper x = "PRECEDES".toList ∨ upper x = "PRECEDEſ".toList :=
    spelled_iff_upper_or "PRECEDE".toList [] rfl rfl (by decide)
  rw [hfollows, hprecedes] at h
  rcases h with (h | h) | (h | h)
  · exact ⟨"FOLLOWS", by decide, h⟩
  · exact ⟨"FOLLOWſ", by decide, h⟩
  · exact ⟨"PRECEDES", by decide, h⟩
  · exact ⟨"PRECEDEſ", by decide, h⟩

/-- A text that starts with one of the words, perhaps behind white space. -/
def StartsWith (keywords : List String) (s : Text) : Prop :=
  ∃ w ∈ (textWords 0 s).head?, w.adjoins ∧ IsOneOf keywords w.text

instance (keywords : List String) (s : Text) : Decidable (StartsWith keywords s) :=
  inferInstanceAs
    (Decidable (∃ w ∈ (textWords 0 s).head?, w.adjoins ∧ IsOneOf keywords w.text))

lemma statementText_append (s rest : Text) :
    (';' ∉ s ∧ ¬ ['$', '$'] <:+: s → statementText (s ++ ';' :: rest) = s) ∧
      (¬ (';' ∉ s ∧ ¬ ['$', '$'] <:+: s) → ∃ c z, (c = ';' ∨ c = '$') ∧
        s = statementText (s ++ ';' :: rest) ++ c :: z) := by
  induction s with
  | nil => exact ⟨fun _ => rfl, fun h => absurd ⟨not_mem_nil, by simp⟩ h⟩
  | cons c s ih =>
    obtain ⟨hkept, hcut⟩ := ih
    have hhead : ((s ++ ';' :: rest).head? == some '$') = (s.head? == some '$') := by
      cases s <;> rfl
    have hpair : ['$', '$'] <:+: c :: s ↔ (c = '$' ∧ s.head? = some '$') ∨ ['$', '$'] <:+: s := by
      rw [infix_cons_iff]
      refine or_congr_left ?_
      cases s <;> simp [eq_comm]
    rw [cons_append, statementText, hhead]
    by_cases hc : (c == ';' || c == '$' && s.head? == some '$')
    · rw [if_pos hc]
      simp only [Bool.or_eq_true, Bool.and_eq_true, beq_iff_eq] at hc
      refine ⟨fun ⟨hsemi, hdollar⟩ => ?_, fun _ => ⟨c, s, hc.imp_right And.left, rfl⟩⟩
      rcases hc with rfl | hc
      · exact absurd mem_cons_self hsemi
      · exact absurd (hpair.mpr (.inl hc)) hdollar
    · rw [if_neg hc]
      simp only [Bool.or_eq_true, Bool.and_eq_true, beq_iff_eq, not_or] at hc
      have hsame : (';' ∉ c :: s ∧ ¬ ['$', '$'] <:+: c :: s) ↔ (';' ∉ s ∧ ¬ ['$', '$'] <:+: s) := by
        rw [hpair, mem_cons, not_or, not_or]
        exact ⟨fun h => ⟨h.1.2, h.2.2⟩, fun h => ⟨⟨fun heq => hc.1 heq.symm, h.1⟩, hc.2, h.2⟩⟩
      rw [hsame]
      refine ⟨fun h => by rw [hkept h], fun h => ?_⟩
      obtain ⟨d, z, hd, hs⟩ := hcut h
      exact ⟨d, z, hd, by rw [cons_append, ← hs]⟩

lemma exists_run_many_one {f : Char → Bool} {k : Cursor} {next : Continuation}
    (hnext : ∀ l, (next l).isSome) : ∃ l, k.Reaches (k.rest.takeWhile f) l ∧ l.groups = k.groups ∧
      (many true (.one f)).run k next = next l := by
  rw [run]
  generalize hfuel : k.rest = fuel
  induction fuel generalizing k with
  | nil => exact ⟨k, .refl k, rfl, rfl⟩
  | cons c t ih =>
    rw [rounds_cons, if_pos rfl, run, hfuel]
    dsimp only
    by_cases hc : f c
    · have hreach : k.Reaches [c] (k.next c t) := .next hfuel
      obtain ⟨l, hl, hgroups, hrun⟩ := ih (k := k.next c t) rfl
      rw [if_pos hc, if_pos (hreach.offset_lt (cons_ne_nil _ _)), hrun,
        or_of_isSome (hnext l), takeWhile_cons_of_pos hc]
      exact ⟨l, hreach.trans hl, hgroups, rfl⟩
    · rw [if_neg hc, none_or, takeWhile_cons_of_neg hc]
      exact ⟨k, .refl k, rfl, rfl⟩

lemma startsWith_of_append {keywords : List String} {s rest g x r : Text}
    (hg : ∀ c ∈ g, isBlank c) (hx : IsOneOf keywords x) (hne : x ≠ [])
    (hall : ∀ c ∈ x, isWordChar c) (hr : r.head?.any isWordChar = false)
    (h : s ++ ';' :: rest = g ++ (x ++ r)) : StartsWith keywords s := by
  have hgap : ∀ c ∈ g, isWordChar c = false := fun c hc => isWordChar_eq_false_of_isBlank (hg c hc)
  -- The semicolon stands behind the word.
  have hsplit : ∃ z, s = g ++ (x ++ z) ∧ z.head?.any isWordChar = false := by
    rw [← append_assoc] at h
    rcases append_eq_append_iff.mp h with ⟨z, hz, hrest⟩ | ⟨z, hz, hrest⟩
    · cases z with
      | nil => exact ⟨[], by rw [← append_assoc, hz, append_nil, append_nil], rfl⟩
      | cons c z =>
        obtain ⟨rfl, -⟩ := cons.inj hrest
        have hmem : ';' ∈ g ++ x := by simp [hz]
        rcases mem_append.mp hmem with hmem | hmem
        · exact absurd (hg _ hmem) (by decide)
        · exact absurd (hall _ hmem) (by decide)
    · refine ⟨z, by rw [hz, append_assoc], ?_⟩
      rw [hrest] at hr
      cases z with
      | nil => rfl
      | cons c z => exact hr
  obtain ⟨z, rfl, hz⟩ := hsplit
  refine ⟨⟨0 + byteLength g, g ++ [], x⟩, ?_, ?_, hx⟩
  · rw [textWords_gap hgap, textWords_run hne hall hz]
    rfl
  · simpa [TextWord.adjoins] using hg

/-- **The start of a single statement**: only white space is passed. -/
lemma exists_find?_bodyStart {s : Text} (hs : ¬ StartsWith bodyWords s) (rest : Text) :
    ∃ start, bodyStart.find? (' ' :: (s ++ ';' :: rest)) = some start ∧ start.text? 1 = none ∧
      start.stop.rest = trimStart s ++ ';' :: rest := by
  let order := all [anyOf [lit "FOLLOWS", lit "PRECEDES"], blanks, qualified, blanks0]
  let block := group 1 (all [lit "BEGIN", .boundary])
  let last : Continuation := fun l => (opt block).run l some
  have hlast (l : Cursor) : last l = (block.run l some).or (some l) := run_alt block .empty l some
  let next : Continuation := fun l => (all [opt order, opt block]).run l some
  have hnext (l : Cursor) : next l = (order.run l last).or (last l) := by
    have hparts : next l = (opt order).run l last := run_all_cons (opt order) [opt block] l some
    rw [hparts]
    exact run_alt order .empty l last
  have hlastSome (l : Cursor) : (last l).isSome := by
    rw [hlast]
    simp
  have hnextSome (l : Cursor) : (next l).isSome := by
    rw [hnext, isSome_or, hlastSome, Bool.or_true]
  set k : Cursor := ⟨none, ' ' :: (s ++ ';' :: rest), 0, []⟩ with hk
  obtain ⟨l, hl, hgroups, hrun⟩ := exists_run_many_one (f := isBlank) (k := k) hnextSome
  have hmatch : bodyStart.matchAt? k = next l := by
    have hparts : bodyStart = all [.atStart, blanks0, opt order, opt block] := rfl
    rw [matchAt?, hparts, run_all_cons, run, if_pos rfl, run_all_cons]
    exact hrun
  have hrest : l.rest = trimStart s ++ ';' :: rest := by
    have hsplit : k.rest = k.rest.takeWhile isBlank ++ k.rest.dropWhile isBlank :=
      takeWhile_append_dropWhile.symm
    rw [hl.rest_eq hsplit]
    exact trimStart_append_cons (by decide) (' ' :: s) rest
  -- None of the words stands here.
  have hnone {x r : Text} (hx : IsOneOf bodyWords x) (hr : r.head?.any isWordChar = false)
      (hl : l.rest = x ++ r) : False := by
    obtain ⟨hne, hall⟩ := hx.word (by decide)
    have hsplit : s ++ ';' :: rest = s.takeWhile isBlank ++ (x ++ r) := by
      rw [← hl, hrest, ← append_assoc, trimStart, takeWhile_append_dropWhile]
    exact hs (startsWith_of_append (fun c hc => mem_takeWhile_imp hc) hx hne hall hr hsplit)
  have horder : order.run l last = none := by
    by_contra hsome
    obtain ⟨m, hm⟩ := ne_none_iff_exists'.mp hsome
    obtain ⟨x, l', hl', hx, -⟩ := sound_of_floats rfl l last m hm
    obtain ⟨f, y, rfl, hf, hy⟩ := spells_all_cons_iff.mp hx
    obtain ⟨g, z, rfl, hg, -⟩ := spells_all_cons_iff.mp hy
    obtain ⟨hgne, hblank⟩ := spells_blanks_iff.mp hg
    have hword : IsOneOf bodyWords f := by
      simp only [anyOf, spells_alt_iff, spells_lit_iff] at hf
      exact isOneOf_bodyWords_of_spelled hf
    refine hnone hword (r := g ++ z ++ l'.rest) ?_ (by rw [hl'.rest]; simp)
    obtain ⟨c, g, rfl⟩ := exists_cons_of_ne_nil hgne
    simp [isWordChar_eq_false_of_isBlank (hblank c mem_cons_self)]
  have hblock : block.run l some = none := by
    by_contra hsome
    obtain ⟨m, hm⟩ := ne_none_iff_exists'.mp hsome
    obtain ⟨x, l', hl', hx, -⟩ := sound_of_floats rfl l some m hm
    obtain ⟨f, y, rfl, hf, hy⟩ := spells_all_cons_iff.mp (spells_group_iff.mp hx)
    obtain ⟨rfl, hbound⟩ := spells_boundary_iff.mp hy
    have hword : IsOneOf bodyWords f :=
      ⟨"BEGIN", by decide, (spelled_iff_upper (by decide)).mp (spells_lit_iff.mp hf)⟩
    obtain ⟨hne, hall⟩ := hword.word (by decide)
    refine hnone hword ((isWordBoundary_of_word hne hall _ _).mp hbound) ?_
    rw [hl'.rest, append_nil]
  have hfound : bodyStart.matchAt? k = some l := by
    rw [hmatch, hnext, horder, none_or, hlast, hblock, none_or]
  refine ⟨⟨k, l⟩, findFrom?_of_matchAt? hfound, ?_, hrest⟩
  rw [Found.text?, Cursor.group?, hgroups]
  rfl

lemma trim_statementText_trimStart (s rest : Text) :
    trim (statementText (trimStart s ++ ';' :: rest)) =
      trim (statementText (s ++ ';' :: rest)) := by
  induction s with
  | nil => rfl
  | cons c s ih =>
    by_cases hc : isBlank c
    · have hstay : (c == ';' || c == '$' && (s ++ ';' :: rest).head? == some '$') = false := by
        have hsemi : c ≠ ';' := by rintro rfl; exact absurd hc (by decide)
        have hdollar : c ≠ '$' := by rintro rfl; exact absurd hc (by decide)
        rw [beq_eq_false_iff_ne.mpr hsemi, beq_eq_false_iff_ne.mpr hdollar]
        rfl
      rw [trimStart, dropWhile_cons_of_pos hc, cons_append, statementText, hstay]
      rw [trimStart] at ih
      rw [ih, trim, trim, if_neg Bool.false_ne_true, trimStart, trimStart, dropWhile_cons_of_pos hc]
    · rw [trimStart, dropWhile_cons_of_neg hc]

/-- What stands behind the header of a trigger whose body is the statement `s`. -/
def statementTail (s rest : Text) : Text := " FOR EACH ROW ".toList ++ (s ++ ';' :: rest)

/-- **The body of a trigger with a single statement** is the whole statement, if neither a semicolon
nor two dollar signs in a row stand anywhere in it. -/
lemma mysqlBody?_statement_eq_iff {s : Text} (hs : ¬ StartsWith bodyWords s) (rest : Text) :
    mysqlBody? (statementTail s rest) = bodyOf? s ↔
      ';' ∉ s ∧ ¬ ['$', '$'] <:+: s := by
  obtain ⟨start, hfind, hgroup, hrest⟩ := exists_find?_bodyStart hs rest
  have hbody : mysqlBody? (statementTail s rest) =
      bodyOf? (statementText (s ++ ';' :: rest)) := by
    unfold statementTail
    rw [mysqlBody?_forEachRow, hfind, bind_some, hgroup, hrest]
    exact bodyOf?_inj.mpr (trim_statementText_trimStart s rest)
  obtain ⟨hkept, hcut⟩ := statementText_append s rest
  rw [hbody, bodyOf?_inj]
  refine ⟨fun h => ?_, fun h => by rw [hkept h]⟩
  by_contra hstop
  obtain ⟨c, z, hc, hs⟩ := hcut hstop
  have hblank : isBlank c = false := by rcases hc with rfl | rfl <;> decide
  exact trim_append_cons_ne hblank _ z ((congrArg trim hs).symm.trans h.symm)

end TriggerScan

end SqlOutline
