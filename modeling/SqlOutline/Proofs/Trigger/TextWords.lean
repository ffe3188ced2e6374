import SqlOutline.Proofs.Statement.Nesting
import SqlOutline.Trigger.Scan

/-!
# Words of a text

A word is a run of word characters, wherever it stands. `BEGIN` and `CASE` open a block, `END`
closes one, but not in front of `IF`, `LOOP`, `WHILE` or `REPEAT`.

## Main definitions

* `textWords`, `textMarks` — the words of a text and what they do.

## Main results

* `exists_textWords_append` — words of two texts.
* `closing?_eq_some_iff` — the word that closes a block.
-/

namespace SqlOutline

open List Text Pattern BlockMark

namespace TriggerScan

/-! ## Words -/

/-- A run of word characters: where it starts, the text between the run before and it, and the run
itself. -/
structure TextWord where
  start : Nat
  gap : Text
  text : Text
  deriving Repr, DecidableEq

namespace TextWord

def is (w : TextWord) (keyword : String) : Bool := upper w.text == keyword.toList

def adjoins (w : TextWord) : Bool := w.gap.all isBlank

end TextWord

def behind (g : Text) : List TextWord → List TextWord
  | [] => []
  | w :: ws => { w with gap := g ++ w.gap } :: ws

/-- The runs of word characters of a text at the offset `n`, whatever surrounds them. -/
def textWords (n : Nat) : Text → List TextWord
  | [] => []
  | c :: t =>
    let ws := textWords (n + c.utf8Size) t
    if isWordChar c then
      match ws with
      | w :: ws =>
        if w.gap.isEmpty then { w with start := n, text := c :: w.text } :: ws
        else ⟨n, [], [c]⟩ :: w :: ws
      | [] => [⟨n, [], [c]⟩]
    else behind [c] ws

variable {g : Text} {ws : List TextWord} {w : TextWord} {n : Nat} {before : Option TextWord}

@[simp]
lemma behind_nil (ws : List TextWord) : behind [] ws = ws := by
  cases ws <;> rfl

lemma behind_behind (g h : Text) (ws : List TextWord) :
    behind g (behind h ws) = behind (g ++ h) ws := by
  cases ws with
  | nil => rfl
  | cons w ws => simp [behind]

lemma exists_of_mem_behind (hw : w ∈ behind g ws) : ∃ v ∈ ws, v.start = w.start := by
  cases ws with
  | nil => cases hw
  | cons v ws =>
    rcases mem_cons.mp hw with rfl | hw
    · exact ⟨v, mem_cons_self, rfl⟩
    · exact ⟨w, mem_cons_of_mem v hw, rfl⟩

lemma textWords_gap (hg : ∀ c ∈ g, isWordChar c = false) (n : Nat) (t : Text) :
    textWords n (g ++ t) = behind g (textWords (n + byteLength g) t) := by
  induction g generalizing n with
  | nil => simp
  | cons c g ih =>
    obtain ⟨hc, hg⟩ := forall_mem_cons.mp hg
    rw [cons_append, textWords, hc, if_neg Bool.false_ne_true, ih hg, behind_behind,
      byteLength_cons, Nat.add_assoc]
    rfl

lemma gap_of_head? {t : Text} (hw : w ∈ (textWords n t).head?) :
    w.gap.isEmpty = t.head?.any isWordChar := by
  cases t with
  | nil => cases hw
  | cons c t =>
    rw [textWords] at hw
    cases hc : isWordChar c with
    | true =>
      rw [hc, if_pos rfl] at hw
      have hgap : w.gap.isEmpty := by
        split at hw
        · split_ifs at hw with hempty
          · obtain rfl := Option.some.inj hw
            exact hempty
          · obtain rfl := Option.some.inj hw
            rfl
        · obtain rfl := Option.some.inj hw
          rfl
      simp [hgap, hc]
    | false =>
      rw [hc, if_neg Bool.false_ne_true] at hw
      cases hws : textWords (n + c.utf8Size) t with
      | nil =>
        rw [hws] at hw
        cases hw
      | cons v vs =>
        rw [hws] at hw
        obtain rfl := Option.some.inj hw
        simp [hc]

/-- **A run of word characters** is a word. -/
lemma textWords_run {w : Text} (hne : w ≠ []) (hw : ∀ c ∈ w, isWordChar c) {r : Text}
    (hr : r.head?.any isWordChar = false) (n : Nat) :
    textWords n (w ++ r) = ⟨n, [], w⟩ :: textWords (n + byteLength w) r := by
  induction w generalizing n with
  | nil => exact absurd rfl hne
  | cons c w ih =>
    obtain ⟨hc, hw⟩ := forall_mem_cons.mp hw
    rw [cons_append, textWords, byteLength_cons, if_pos hc, ← Nat.add_assoc]
    cases w with
    | nil =>
      rw [nil_append, byteLength_nil, Nat.add_zero]
      cases hws : textWords (n + c.utf8Size) r with
      | nil => rfl
      | cons v vs =>
        have hgap := gap_of_head? (by rw [hws]; rfl : v ∈ (textWords (n + c.utf8Size) r).head?)
        rw [hr] at hgap
        dsimp only
        rw [hgap]
        rfl
    | cons d w =>
      rw [ih (cons_ne_nil d w) hw]
      rfl

lemma exists_first_run (t : Text) :
    ∃ g, (∀ c ∈ g, isWordChar c = false) ∧ (t = g ∨ ∃ w r, t = g ++ (w ++ r) ∧ w ≠ [] ∧
      (∀ c ∈ w, isWordChar c) ∧ r.head?.any isWordChar = false) := by
  refine ⟨t.takeWhile (!isWordChar ·), fun c hc => by simpa using mem_takeWhile_imp hc, ?_⟩
  set u := t.dropWhile (!isWordChar ·) with hu
  have ht : t = t.takeWhile (!isWordChar ·) ++ u := takeWhile_append_dropWhile.symm
  cases hcases : u with
  | nil =>
    rw [hcases, append_nil] at ht
    exact .inl ht
  | cons c v =>
    have hc : isWordChar c := by
      have := not_of_mem_head?_dropWhile (show c ∈ (t.dropWhile (!isWordChar ·)).head? by
        rw [← hu, hcases]
        rfl)
      simpa using this
    refine .inr ⟨u.takeWhile isWordChar, u.dropWhile isWordChar, ?_, ?_, ?_, ?_⟩
    · rwa [takeWhile_append_dropWhile]
    · rw [hcases, takeWhile_cons_of_pos hc]
      exact cons_ne_nil _ _
    · exact fun d hd => mem_takeWhile_imp hd
    · cases hhead : (u.dropWhile isWordChar).head? with
      | none => rfl
      | some d => exact not_of_mem_head?_dropWhile hhead

/-- **Words of two texts**, the first of which does not end in a word. -/
lemma exists_textWords_append (n : Nat) {x : Text} (hx : x.getLast?.any isWordChar = false)
    (y : Text) :
    ∃ g, textWords n (x ++ y) = textWords n x ++ behind g (textWords (n + byteLength x) y) := by
  induction hn : x.length using Nat.strongRecOn generalizing n x with
  | ind size ih =>
    obtain ⟨g, hg, rfl | ⟨w, r, rfl, hne, hw, hr⟩⟩ := exists_first_run x
    · refine ⟨x, ?_⟩
      have hnil : textWords n x = [] := by
        have hgap := textWords_gap hg n []
        rwa [append_nil] at hgap
      rw [textWords_gap hg, hnil, nil_append]
    · have hrne : r ≠ [] := by
        rintro rfl
        rw [append_nil, getLast?_append_of_ne_nil _ hne, getLast?_eq_getLast_of_ne_nil hne] at hx
        simp [hw _ (getLast_mem hne)] at hx
      have hlast : r.getLast?.any isWordChar = false := by
        rwa [getLast?_append_of_ne_nil _ (append_ne_nil_of_right_ne_nil _ hrne),
          getLast?_append_of_ne_nil _ hrne] at hx
      have hhead : (r ++ y).head?.any isWordChar = false := by
        rwa [head?_append_of_ne_nil _ hrne]
      have hlt : r.length < size := by
        have := length_pos_of_ne_nil hne
        simp only [length_append] at hn
        omega
      obtain ⟨g', hg'⟩ := ih r.length hlt (n + byteLength g + byteLength w) hlast rfl
      refine ⟨g', ?_⟩
      rw [append_assoc, append_assoc, textWords_gap hg, textWords_run hne hw hhead, hg',
        textWords_gap hg, textWords_run hne hw hr]
      simp only [behind, byteLength_append, cons_append, Nat.add_assoc]

lemma exists_of_mem_textWords {t : Text} (hw : w ∈ textWords n t) :
    ∃ p c z, t = p ++ c :: z ∧ isWordChar c ∧ w.start = n + byteLength p := by
  induction t generalizing n w with
  | nil => cases hw
  | cons c t ih =>
    -- A word starts at this character or at a later one.
    have hstart : (isWordChar c ∧ w.start = n) ∨
        ∃ v ∈ textWords (n + c.utf8Size) t, v.start = w.start := by
      rw [textWords] at hw
      generalize textWords (n + c.utf8Size) t = ws at hw
      split_ifs at hw with hc
      · cases ws with
        | nil =>
          obtain rfl := mem_singleton.mp hw
          exact .inl ⟨hc, rfl⟩
        | cons v ws =>
          dsimp only at hw
          split_ifs at hw
          · rcases mem_cons.mp hw with rfl | hw
            · exact .inl ⟨hc, rfl⟩
            · exact .inr ⟨w, mem_cons_of_mem v hw, rfl⟩
          · rcases mem_cons.mp hw with rfl | hw
            · exact .inl ⟨hc, rfl⟩
            · exact .inr ⟨w, hw, rfl⟩
      · exact .inr (exists_of_mem_behind hw)
    rcases hstart with ⟨hc, hstart⟩ | ⟨v, hv, hstart⟩
    · exact ⟨[], c, t, rfl, hc, hstart⟩
    · obtain ⟨p, d, z, rfl, hd, hp⟩ := ih hv
      refine ⟨c :: p, d, z, rfl, hd, ?_⟩
      rw [byteLength_cons]
      omega

lemma textWords_append_gap (hg : ∀ c ∈ g, isWordChar c = false) (n : Nat) (t : Text) :
    textWords n (t ++ g) = textWords n t := by
  induction t generalizing n with
  | nil =>
    have hnil := textWords_gap hg n []
    rwa [append_nil] at hnil
  | cons c t ih => rw [cons_append, textWords, textWords, ih]

def TextWord.shift (n : Nat) (w : TextWord) : TextWord := { w with start := n + w.start }

lemma textWords_add (n m : Nat) (t : Text) :
    textWords (n + m) t = (textWords m t).map (TextWord.shift n) := by
  induction t generalizing m with
  | nil => rfl
  | cons c t ih =>
    rw [textWords, textWords, Nat.add_assoc, ih]
    cases textWords (m + c.utf8Size) t with
    | nil =>
      cases isWordChar c <;> rfl
    | cons w ws =>
      cases isWordChar c with
      | false => rfl
      | true =>
        have hgap : (w.shift n).gap = w.gap := rfl
        simp only [if_true, map_cons, hgap]
        split_ifs <;> rfl

/-! ## Marks -/

/-- The words behind an `END` that closes nothing. The last one is taken for `CASE` by the search,
and then not recognised. -/
def uncountedTextWords : List String := ["IF", "LOOP", "WHILE", "REPEAT", "CAſE"]

def textMark (before : Option TextWord) (w : TextWord) (after : Option TextWord) : BlockMark :=
  if w.is "BEGIN" then .opens
  else if w.is "CASE" then
    if w.adjoins && before.any (·.is "END") then .none else .opens
  else if w.is "END" then
    if after.any fun n => n.adjoins && uncountedTextWords.any n.is then .none else .closes
  else .none

def textMarksFrom (before : Option TextWord) (ws : List TextWord) (after : Option TextWord) :
    List BlockMark :=
  match ws with
  | [] => []
  | w :: ws => textMark before w (ws.head?.or after) :: textMarksFrom (some w) ws after

/-- The marks of the words of a text. -/
def textMarks (t : Text) : List BlockMark := textMarksFrom none (textWords 0 t) none

lemma textMark_behind (w : TextWord) (g : Text) (after : Option TextWord) :
    textMark none { w with gap := g ++ w.gap } after = textMark none w after := by
  simp only [textMark, TextWord.is, Option.any_none, Bool.and_false]
  rfl

lemma textMarksFrom_behind (g : Text) (ws : List TextWord) (after : Option TextWord) :
    textMarksFrom none (behind g ws) after = textMarksFrom none ws after := by
  cases ws with
  | nil => rfl
  | cons w ws =>
    have hrest : textMarksFrom (some { w with gap := g ++ w.gap }) ws after =
        textMarksFrom (some w) ws after := by
      cases ws <;> rfl
    rw [behind, textMarksFrom, textMarksFrom, textMark_behind, hrest]

lemma textMarksFrom_of_not_end (h : before.any (·.is "END") = false)
    (ws : List TextWord) (after : Option TextWord) :
    textMarksFrom before ws after = textMarksFrom none ws after := by
  cases ws with
  | nil => rfl
  | cons w ws =>
    have hmark (after : Option TextWord) : textMark before w after = textMark none w after := by
      rw [textMark, textMark, h, Option.any_none]
    rw [textMarksFrom, textMarksFrom, hmark]

lemma textMarksFrom_shift (n : Nat) (before : Option TextWord) (ws : List TextWord)
    (after : Option TextWord) :
    textMarksFrom (before.map (TextWord.shift n)) (ws.map (TextWord.shift n)) after =
      textMarksFrom before ws after := by
  have hmark (before after : Option TextWord) (w : TextWord) :
      textMark (before.map (TextWord.shift n)) (w.shift n) after = textMark before w after := by
    cases before <;> rfl
  have hafter (before after : Option TextWord) (w : TextWord) :
      textMark before w (after.map (TextWord.shift n)) = textMark before w after := by
    cases after <;> rfl
  induction ws generalizing before with
  | nil => rfl
  | cons w ws ih =>
    have hnext : textMark before w ((ws.map (TextWord.shift n)).head?.or after) =
        textMark before w (ws.head?.or after) := by
      cases ws with
      | nil => rfl
      | cons v ws => exact hafter before (some v) w
    rw [map_cons, textMarksFrom, textMarksFrom, hmark, hnext]
    exact congrArg _ (ih (some w))

lemma textMarksFrom_some {e : TextWord} (he : uncountedTextWords.any e.is = false)
    (before : Option TextWord) (ws : List TextWord) :
    textMarksFrom before ws (some e) = textMarksFrom before ws none := by
  induction ws generalizing before with
  | nil => rfl
  | cons w ws ih =>
    have hmark : textMark before w (ws.head?.or (some e)) =
        textMark before w (ws.head?.or none) := by
      cases ws with
      | nil => simp [textMark, he]
      | cons v ws => rfl
    rw [textMarksFrom, textMarksFrom, hmark, ih]

/-- Where the word stands that closes a block, in which `depth` blocks are open. -/
def closing? (depth : Nat) (before : Option TextWord) : List TextWord → Option Nat
  | [] => none
  | w :: ws =>
    match textMark before w ws.head? with
    | .opens => closing? (depth + 1) (some w) ws
    | .none => closing? depth (some w) ws
    | .closes => if depth = 0 then some w.start else closing? (depth - 1) (some w) ws

lemma exists_of_closing? {depth : Nat}
    (h : closing? depth before ws = some n) : ∃ w ∈ ws, w.start = n := by
  induction ws generalizing depth before with
  | nil => cases h
  | cons w ws ih =>
    have hmore {depth : Nat} (h : closing? depth (some w) ws = some n) :
        ∃ v ∈ w :: ws, v.start = n := by
      obtain ⟨v, hv, hstart⟩ := ih h
      exact ⟨v, mem_cons_of_mem w hv, hstart⟩
    rw [closing?] at h
    split at h
    · exact hmore h
    · exact hmore h
    · split_ifs at h
      · exact ⟨w, mem_cons_self, Option.some.inj h⟩
      · exact hmore h

/-- **The word that closes a block**: the words before it leave as many blocks open as there were,
and it closes one. -/
lemma closing?_eq_some_iff {depth : Nat} {more : List TextWord}
    {e : TextWord} (hws : ∀ w ∈ ws, w.start < e.start) (hmore : ∀ w ∈ more, e.start < w.start) :
    closing? depth before (ws ++ e :: more) = some e.start ↔
      nest? depth (textMarksFrom before ws (some e)) = some 0 ∧
        textMark (ws.getLast?.or before) e more.head? = .closes := by
  induction ws generalizing depth before with
  | nil =>
    have hlater {depth : Nat} : closing? depth (some e) more ≠ some e.start := by
      intro h
      obtain ⟨w, hw, hstart⟩ := exists_of_closing? h
      exact absurd hstart (Nat.ne_of_gt (hmore w hw))
    rw [nil_append, closing?, getLast?_nil, Option.none_or, textMarksFrom]
    cases hmark : textMark before e more.head? with
    | opens => simp [hlater]
    | none => simp [hlater]
    | closes =>
      cases depth with
      | zero => simp [nest?]
      | succ depth => simp [nest?, hlater]
  | cons w ws ih =>
    obtain ⟨hw, hws⟩ := forall_mem_cons.mp hws
    have hhead : (ws ++ e :: more).head? = ws.head?.or (some e) := by
      rw [head?_append, head?_cons]
    have hlast : (w :: ws).getLast?.or before = ws.getLast?.or (some w) := by
      rw [getLast?_cons]
      cases ws.getLast? <;> rfl
    rw [cons_append, closing?, textMarksFrom, hhead, hlast]
    cases textMark before w (ws.head?.or (some e)) with
    | opens => exact ih hws
    | none =>
      rw [nest?]
      exact ih hws
    | closes =>
      cases depth with
      | zero =>
        have hne : w.start ≠ e.start := Nat.ne_of_lt hw
        simp [nest?, hne]
      | succ depth => exact ih hws

end TriggerScan

end SqlOutline
