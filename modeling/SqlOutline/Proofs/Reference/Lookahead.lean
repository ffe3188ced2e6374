import Mathlib.Data.List.Basic
import SqlOutline.Body.Chunk
import SqlOutline.Reference.Harvest

/-!
# How far harvesting looks ahead

A step of harvesting reads a name, the target of a verb or a call behind a token, and looks at what
follows them. All of these end in front of certain tokens, whatever stands behind: an operator, or
a word that is neither a name nor part of a list.

## Main definitions

* `Closed`, `Unglued`, `TopFree` — tokens behind which no group, name or `TOP` goes on.
* `Wall` — tokens in front of which all that is read ends.

## Main results

* `of_chain?_eq_some`, `snd_execute_le`, `snd_call_le` — no reader leaves its list.
* `Wall.target_append` — the target of a verb is the same with a wall behind it.
-/

namespace SqlOutline.Harvest

open Option Bool List Text Sql Token

/-! ## The front of a list -/

variable {m : String} {words vs ws : List String} {t : Token} {n : Nat}

section Front

variable {x y : List Token}

lemma startsWithMark_append (h : startsWithMark m y = false) (x : List Token) :
    startsWithMark m (x ++ y) = startsWithMark m x := by
  cases x with
  | nil => exact h
  | cons t x => rfl

lemma startsWith_append (h : startsWith words y = false) (x : List Token) :
    startsWith words (x ++ y) = startsWith words x := by
  cases x with
  | nil => exact h
  | cons t x => rfl

lemma isAny_eq_false_of_subset (h : isAny ws t = false) (hsub : vs ⊆ ws) : isAny vs t = false := by
  unfold isAny at h ⊢
  cases hw : t.plainWord? with
  | none => rfl
  | some w =>
    rw [hw] at h
    simp only [any_some, Word.isAny, contains_eq_mem, decide_eq_false_iff_not] at h ⊢
    exact fun hmem => h (hsub hmem)

lemma startsWith_of_subset (h : startsWith ws y = false) (hsub : vs ⊆ ws) :
    startsWith vs y = false := by
  cases y with
  | nil => rfl
  | cons t y => exact isAny_eq_false_of_subset h hsub

lemma runLength_append (h : startsWith words y = false) (x : List Token) :
    runLength (isAny words) (x ++ y) = runLength (isAny words) x := by
  induction x with
  | nil =>
    cases y with
    | nil => rfl
    | cons t y =>
      have ht : isAny words t = false := h
      simp [runLength, ht]
  | cons t x ih =>
    unfold runLength at ih ⊢
    cases ht : isAny words t <;> simp [ht, ih]

lemma runLength_le (f : Token → Bool) (ts : List Token) : runLength f ts ≤ ts.length :=
  (takeWhile_sublist f).length_le

lemma mem_getLast?_of_drop (h : t ∈ (x.drop n).getLast?) : t ∈ x.getLast? := by
  rw [getLast?_drop] at h
  split_ifs at h
  · cases h
  · exact h

end Front

/-! ## Names -/

def Unglued (x y : List Token) : Prop :=
  ∀ t ∈ x.getLast?, (t.isSymbol "." || t.isSymbol "@") → y.head?.any isWord = false

variable {ts : List Token} {name : Text}

section Chain

variable {x y : List Token}

lemma Unglued.drop (h : Unglued x y) (n : Nat) : Unglued (x.drop n) y := fun t ht =>
  h t (mem_getLast?_of_drop ht)

lemma any_isWord_append (hm : startsWithMark m y = false)
    (hglue : ∀ t ∈ x.getLast?, t.isSymbol m → y.head?.any isWord = false) :
    (startsWithMark m (x ++ y) && ((x ++ y).drop 1).head?.any isWord) =
      (startsWithMark m x && (x.drop 1).head?.any isWord) := by
  rcases x with _ | ⟨t, _ | ⟨u, x⟩⟩
  · rw [nil_append, hm]
    rfl
  · cases ht : t.isSymbol m with
    | false => simp [startsWithMark, ht]
    | true => simp [hglue t rfl ht]
  · rfl

lemma two_le_length
    (h : (startsWithMark m x && (x.drop 1).head?.any isWord)) : 2 ≤ x.length := by
  rcases x with _ | ⟨t, _ | ⟨u, x⟩⟩
  · simp [startsWithMark] at h
  · simp at h
  · simp

lemma isWord_iff : t.isWord ↔ ∃ w, t = .word w := by
  cases t <;> simp [isWord]

lemma chainParts_of_not_isWord (h : t.isWord = false) (ts : List Token) :
    chainParts (t :: ts) = ([], 0) := by
  cases t with
  | word w => cases h
  | _ => simp [chainParts]

def linkLength (ts : List Token) : Nat :=
  if startsWithMark "@" ts && (ts.drop 1).head?.any isWord then 2 else 0

lemma linkLength_le (ts : List Token) : linkLength ts ≤ ts.length := by
  unfold linkLength
  split_ifs with h
  · exact two_le_length h
  · exact Nat.zero_le _

lemma chainParts_word (w : Word) (ts : List Token) : chainParts (.word w :: ts) =
    if startsWithMark "." (ts.drop (linkLength ts)) &&
        ((ts.drop (linkLength ts)).drop 1).head?.any isWord then
      let (parts, n) := chainParts ((ts.drop (linkLength ts)).drop 1)
      (w.value :: parts, n + linkLength ts + 2)
    else ([w.value], linkLength ts + 1) := by
  rw [chainParts]
  rfl

/-- **A dotted chain** ends in front of a wall. -/
lemma chainParts_append (hne : x ≠ []) (hdot : startsWithMark "." y = false)
    (hat : startsWithMark "@" y = false) (hglue : Unglued x y) :
    chainParts (x ++ y) = chainParts x := by
  induction hn : x.length using Nat.strongRecOn generalizing x with
  | ind n ih =>
    obtain ⟨t, x, rfl⟩ := exists_cons_of_ne_nil hne
    cases ht : t.isWord with
    | false => rw [cons_append, chainParts_of_not_isWord ht, chainParts_of_not_isWord ht]
    | true =>
      obtain ⟨w, rfl⟩ := isWord_iff.mp ht
      have hx : Unglued x y := by simpa using hglue.drop 1
      have hlink : linkLength (x ++ y) = linkLength x := by
        unfold linkLength
        rw [any_isWord_append hat fun t ht h => hx t ht (by simp [h])]
      rw [cons_append, chainParts_word, chainParts_word, hlink,
        drop_append_of_le_length (linkLength_le x),
        any_isWord_append hdot fun t ht h => hx.drop _ t ht (by simp [h])]
      split_ifs with h
      · have htwo := two_le_length h
        have hmore : (x.drop (linkLength x)).drop 1 ≠ [] := by
          rw [ne_eq, ← length_eq_zero_iff, length_drop]
          omega
        have hshort : ((x.drop (linkLength x)).drop 1).length < n := by
          rw [← hn, length_drop, length_drop, length_cons]
          omega
        rw [drop_append_of_le_length (by omega), ih _ hshort hmore ((hx.drop _).drop 1) rfl]
      · rfl

lemma snd_chainParts_le (ts : List Token) : (chainParts ts).2 ≤ ts.length := by
  induction hn : ts.length using Nat.strongRecOn generalizing ts with
  | ind n ih =>
    cases ts with
    | nil => simp [chainParts]
    | cons t ts =>
      cases ht : t.isWord with
      | false => simp [chainParts_of_not_isWord ht]
      | true =>
        obtain ⟨w, rfl⟩ := isWord_iff.mp ht
        have hle := linkLength_le ts
        rw [length_cons] at hn
        rw [chainParts_word]
        split_ifs with h
        · have htwo := two_le_length h
          rw [length_drop] at htwo
          have hshort : ((ts.drop (linkLength ts)).drop 1).length < n := by
            rw [length_drop, length_drop]
            omega
          have hrest := ih _ hshort _ rfl
          rw [length_drop, length_drop] at hrest
          dsimp only
          omega
        · dsimp only
          omega

lemma chain?_append (hne : x ≠ []) (hdot : startsWithMark "." y = false)
    (hat : startsWithMark "@" y = false) (hglue : Unglued x y) : chain? (x ++ y) = chain? x := by
  rw [chain?, chain?, chainParts_append hne hdot hat hglue]

lemma of_chain?_eq_some (h : chain? ts = some (name, n)) : 0 < n ∧ n ≤ ts.length := by
  have hle := snd_chainParts_le ts
  unfold chain? at h
  split at h
  · cases h
  · rename_i parts m hnil hparts
    obtain ⟨-, rfl⟩ := Prod.mk.inj (some.inj h)
    rw [hparts] at hle
    refine ⟨?_, hle⟩
    cases ts with
    | nil => simp_all [chainParts]
    | cons t us =>
      cases t with
      | word w =>
        rw [chainParts_word] at hparts
        split_ifs at hparts
        all_goals
          obtain ⟨-, rfl⟩ := Prod.mk.inj hparts
          omega
      | _ => simp_all [chainParts]

lemma relation?_append (hdot : startsWithMark "." y = false) (hat : startsWithMark "@" y = false)
    (hy : relation? y = none) (hglue : Unglued x y) : relation? (x ++ y) = relation? x := by
  cases x with
  | nil => exact hy
  | cons t x =>
    have hchain := chain?_append (cons_ne_nil t x) hdot hat hglue
    cases t with
    | word w =>
      simp only [cons_append, relation?] at hchain ⊢
      rw [hchain]
    | _ => rfl

lemma of_relation?_eq_some (h : relation? ts = some (name, n)) : 0 < n ∧ n ≤ ts.length := by
  unfold relation? at h
  split at h
  · split_ifs at h
    exact of_chain?_eq_some h
  · cases h

end Chain

/-! ## Parentheses -/

/-- Tokens whose parentheses are closed among them. -/
def Closed (x : List Token) : Prop :=
  ∀ s, s <:+ x → startsWithMark "(" s → ∃ n, closing? 0 s = some n

variable {d : Nat}

section Closed

variable {x y : List Token}

lemma Closed.drop (h : Closed x) (n : Nat) : Closed (x.drop n) := fun s hs =>
  h s (hs.trans (drop_suffix n x))

lemma Closed.of_append {u : List Token} (h : Closed (u ++ x)) : Closed x := fun s hs =>
  h s (hs.trans (suffix_append u x))

lemma closing?_cons (d : Nat) (t : Token) : (∀ x, closing? d (t :: x) = some 1) ∨
    ∃ e, ∀ x, closing? d (t :: x) = (closing? e x).map (· + 1) := by
  simp only [closing?]
  split_ifs
  · exact .inr ⟨_, fun _ => rfl⟩
  · exact .inl fun _ => rfl
  · exact .inr ⟨_, fun _ => rfl⟩
  · exact .inr ⟨_, fun _ => rfl⟩

lemma closing?_spec (h : closing? d x = some n) :
    n ≤ x.length ∧ ∀ y, closing? d (x ++ y) = some n := by
  induction x generalizing d n with
  | nil => cases h
  | cons t x ih =>
    simp only [length_cons, cons_append]
    obtain hone | ⟨e, he⟩ := closing?_cons d t
    · obtain rfl := some.inj ((hone x).symm.trans h)
      exact ⟨by omega, fun y => hone _⟩
    · rw [he] at h
      obtain ⟨m, hm, rfl⟩ := map_eq_some_iff.mp h
      obtain ⟨hle, happend⟩ := ih hm
      exact ⟨Nat.succ_le_succ hle, fun y => by rw [he, happend, map_some]⟩

lemma Closed.closing?_append (h : Closed x) (hx : startsWithMark "(" x) (y : List Token) :
    ∃ n, closing? 0 x = some n ∧ closing? 0 (x ++ y) = some n ∧ n ≤ x.length := by
  obtain ⟨n, hn⟩ := h x suffix_rfl hx
  exact ⟨n, hn, (closing?_spec hn).2 y, (closing?_spec hn).1⟩

lemma isSome_closing?_of_depth {k : Nat} (hk : 0 < k) (hkd : k ≤ d)
    (h : x.foldl Body.depthAfter d = 0) : (closing? k x).isSome := by
  induction x generalizing d k with
  | nil =>
    rw [foldl_nil] at h
    omega
  | cons t x ih =>
    rw [foldl_cons, Body.depthAfter] at h
    unfold closing?
    split_ifs at h ⊢ with hopen hclose hlast
    · rw [isSome_map]
      exact ih (Nat.succ_pos k) (Nat.succ_le_succ hkd) h
    · rfl
    · rw [isSome_map]
      exact ih (Nat.pos_of_ne_zero hlast) (Nat.sub_le_sub_right hkd 1) h
    · rw [isSome_map]
      exact ih hk hkd h

/-- **At depth zero all parentheses are closed.** -/
lemma closed_of_depth (h : x.foldl Body.depthAfter d = 0) : Closed x := by
  rintro s ⟨u, rfl⟩ hparen
  rw [foldl_append] at h
  cases s with
  | nil => cases hparen
  | cons t s =>
    have ht : t.isSymbol "(" := hparen
    rw [foldl_cons, Body.depthAfter, if_pos ht] at h
    rw [← isSome_iff_exists, closing?, if_pos ht, isSome_map]
    exact isSome_closing?_of_depth Nat.one_pos (Nat.succ_le_succ (Nat.zero_le _)) h

end Closed

/-! ## Walls -/

def leadingWords : List String :=
  ["FROM", "TOP", "WITH", "LATERAL", "ONLY", "INTO", "IGNORE", "OVERWRITE", "LOW_PRIORITY",
    "DELAYED", "RECURSIVE"]

/-- Tokens in front of which names, groups and lists end. -/
structure Wall (y : List Token) : Prop where
  marks : ∀ m ∈ ["(", ".", "@", ","], startsWithMark m y = false
  words : startsWith leadingWords y = false
  relation : relation? y = none

namespace Wall

variable {x y : List Token} (h : Wall y)

include h

lemma startsWithMark_append (hm : m ∈ ["(", ".", "@", ","]) (x : List Token) :
    startsWithMark m (x ++ y) = startsWithMark m x :=
  Harvest.startsWithMark_append (h.marks m hm) x

lemma startsWith_append (hsub : words ⊆ leadingWords) (x : List Token) :
    startsWith words (x ++ y) = startsWith words x :=
  Harvest.startsWith_append (startsWith_of_subset h.words hsub) x

lemma runLength_append (hsub : words ⊆ leadingWords) (x : List Token) :
    runLength (isAny words) (x ++ y) = runLength (isAny words) x :=
  Harvest.runLength_append (startsWith_of_subset h.words hsub) x

lemma chain?_append (hne : x ≠ []) (hglue : Unglued x y) : chain? (x ++ y) = chain? x :=
  Harvest.chain?_append hne (h.marks _ (by simp)) (h.marks _ (by simp)) hglue

lemma relation?_append (hglue : Unglued x y) : relation? (x ++ y) = relation? x :=
  Harvest.relation?_append (h.marks _ (by simp)) (h.marks _ (by simp)) h.relation hglue

end Wall

/-! ## Verbs -/

def verbWords : List String := ["INTO", "IGNORE", "OVERWRITE", "LOW_PRIORITY", "DELAYED", "ONLY"]

def topLength (ts : List Token) : Nat :=
  if startsWith ["TOP"] ts then
    if startsWithMark "(" (ts.drop 1) then 1 + (closing? 0 (ts.drop 1)).getD 1 else 2
  else 0

variable (commas : Bool) (rounds : Nat) (c : Collector) (rules : Rules)

lemma target_eq (ts : List Token) : target c ts =
    if startsWith ["FROM"] (ts.drop (runLength (isAny verbWords) ts)) then
      (c, runLength (isAny verbWords) ts) else
      match relation? ((ts.drop (runLength (isAny verbWords) ts)).drop
        (topLength (ts.drop (runLength (isAny verbWords) ts)))) with
      | some (name, k) => (c.addRelation name, runLength (isAny verbWords) ts +
          topLength (ts.drop (runLength (isAny verbWords) ts)) + k)
      | none => (c, runLength (isAny verbWords) ts +
          topLength (ts.drop (runLength (isAny verbWords) ts))) := rfl

/-- If the last of some tokens is `TOP`, which reads one more token, no relation stands behind it.
-/
def TopFree (x y : List Token) : Prop :=
  ∀ t ∈ x.getLast?, isAny ["TOP"] t → relation? (y.drop 1) = none

section Verb

variable {x y : List Token}

lemma TopFree.drop (h : TopFree x y) (n : Nat) : TopFree (x.drop n) y := fun t ht =>
  h t (mem_getLast?_of_drop ht)

lemma topLength_le (ts : List Token) :
    topLength ts ≤ ts.length ∨ ∃ t, ts = [t] ∧ isAny ["TOP"] t ∧ topLength ts = 2 := by
  unfold topLength
  cases htop : startsWith ["TOP"] ts with
  | false => simp
  | true =>
    rcases ts with _ | ⟨t, _ | ⟨u, ts⟩⟩
    · cases htop
    · exact .inr ⟨t, rfl, htop, rfl⟩
    · refine .inl ?_
      rw [drop_one, tail_cons]
      simp only [if_true, length_cons]
      split_ifs
      · cases hn : closing? 0 (u :: ts) with
        | none => simp
        | some n =>
          have hle := (closing?_spec hn).1
          rw [length_cons] at hle
          rw [getD_some]
          omega
      · omega

lemma Wall.group_append (h : Wall y) (hclosed : Closed x) :
    startsWithMark "(" (x ++ y) = startsWithMark "(" x ∧
      (startsWithMark "(" x → closing? 0 (x ++ y) = closing? 0 x) := by
  refine ⟨h.startsWithMark_append (by simp) x, fun hparen => ?_⟩
  obtain ⟨n, hn, hn', -⟩ := hclosed.closing?_append hparen y
  rw [hn, hn']

lemma Wall.topLength_append (h : Wall y) (hclosed : Closed x) :
    topLength (x ++ y) = topLength x := by
  unfold topLength
  rw [h.startsWith_append (by decide)]
  cases x with
  | nil => rfl
  | cons t x =>
    obtain ⟨hparen, hclosing⟩ := h.group_append (x := x) (hclosed.drop 1)
    rw [cons_append, drop_one, drop_one, tail_cons, tail_cons, hparen]
    split_ifs with _ hx
    · rw [hclosing hx]
    all_goals rfl

/-- **What a verb is applied to** is read in front of a wall, unless `TOP` reads over it. -/
lemma Wall.target_append (h : Wall y) (hclosed : Closed x) (hglue : Unglued x y)
    (htop : TopFree x y) (c : Collector) : target c (x ++ y) = target c x := by
  have hn : runLength (isAny verbWords) x ≤ x.length := runLength_le _ _
  have hrelation (x : List Token) (hclosed : Closed x) (hglue : Unglued x y) (htop : TopFree x y) :
      relation? ((x ++ y).drop (topLength x)) = relation? (x.drop (topLength x)) := by
    rcases topLength_le x with hle | ⟨t, rfl, ht, htwo⟩
    · rw [drop_append_of_le_length hle, h.relation?_append (hglue.drop _)]
    · rw [htwo]
      exact htop t rfl ht
  rw [target_eq, target_eq, h.runLength_append (by decide), drop_append_of_le_length hn,
    h.startsWith_append (by decide), h.topLength_append (hclosed.drop _),
    hrelation _ (hclosed.drop _) (hglue.drop _) (htop.drop _)]

lemma snd_target_le (ts : List Token)
    (htop : ∀ t ∈ ts.getLast?, isAny ["TOP"] t = false) : (target c ts).2 ≤ ts.length := by
  have hn : runLength (isAny verbWords) ts ≤ ts.length := runLength_le _ _
  have hlimit : topLength (ts.drop (runLength (isAny verbWords) ts)) ≤
      ts.length - runLength (isAny verbWords) ts := by
    rcases topLength_le (ts.drop (runLength (isAny verbWords) ts)) with hle | ⟨t, ht, htops, -⟩
    · rwa [length_drop] at hle
    · have hlast : t ∈ ts.getLast? := mem_getLast?_of_drop (congrArg getLast? ht)
      rw [htop t hlast] at htops
      cases htops
  rw [target_eq]
  split_ifs
  · exact hn
  · split
    · rename_i name k hk
      have hle := (of_relation?_eq_some hk).2
      simp only [length_drop] at hle
      dsimp only
      omega
    · dsimp only
      omega

end Verb

def resultLength : List Token → Nat
  | .word w :: rest => if startsWithMark "=" rest && w.value.toList.head? == some '@' then 2 else 0
  | _ => 0

lemma execute_eq (ts : List Token) : execute c ts = if startsWith ["IMMEDIATE", "AS"] ts then (c, 1)
    else if startsWith ["FUNCTION", "PROCEDURE"] ts then
      match chain? (ts.drop 1) with
      | some (name, n) =>
        (if startsWith ["FUNCTION"] ts then c.addFunction name else c.addProcedure name, n + 1)
      | none => (c, 1) else if !c.executeIsCall then (c, resultLength ts) else
      match chain? (ts.drop (resultLength ts)) with
      | some (name, n) => if name.head? == some '@' then (c, resultLength ts)
          else (c.addProcedure name, resultLength ts + n)
      | none => (c, resultLength ts) := by
  unfold execute resultLength
  rcases ts with _ | ⟨t, ts⟩
  · rfl
  · cases t <;> rfl

lemma resultLength_le (ts : List Token) : resultLength ts ≤ ts.length := by
  rcases ts with _ | ⟨t, _ | ⟨u, ts⟩⟩
  · exact Nat.le_refl 0
  · cases t <;> simp [resultLength, startsWithMark]
  · cases t with
    | word w =>
      simp only [resultLength]
      split_ifs
      · simp
      · exact Nat.zero_le _
    | _ => exact Nat.zero_le _

lemma one_le_length_of_head {p : Token → Bool} (h : ts.head?.any p) : 1 ≤ ts.length := by
  cases ts with
  | nil => cases h
  | cons t ts => simp

lemma snd_execute_le (ts : List Token) : (execute c ts).2 ≤ ts.length := by
  have hresult := resultLength_le ts
  have hchain {m : Nat} (hm : m ≤ ts.length) {name : Text} {n : Nat}
      (h : chain? (ts.drop m) = some (name, n)) : m + n ≤ ts.length := by
    have hle := (of_chain?_eq_some h).2
    rw [length_drop] at hle
    omega
  rw [execute_eq]
  by_cases has : startsWith ["IMMEDIATE", "AS"] ts
  · rw [if_pos has]
    exact one_le_length_of_head has
  rw [if_neg has]
  by_cases hkind : startsWith ["FUNCTION", "PROCEDURE"] ts
  · have hone := one_le_length_of_head hkind
    rw [if_pos hkind]
    split
    · rename_i name n hn
      have hle := hchain hone hn
      dsimp only
      omega
    · exact hone
  rw [if_neg hkind]
  by_cases hcall : (!c.executeIsCall)
  · rw [if_pos hcall]
    exact hresult
  rw [if_neg hcall]
  split
  · rename_i name n hn
    split_ifs
    · exact hresult
    · exact hchain hresult hn
  · exact hresult

lemma snd_call (c : Collector) (before : Option Token) (t : Token) (ts : List Token) :
    (call rules c before t ts).2 = (chain? (t :: ts)).elim 0 (·.2 - 1) := by
  unfold call
  cases chain? (t :: ts) with
  | none => rfl
  | some found =>
    dsimp only [Option.elim]
    split_ifs <;> rfl

lemma snd_call_le (c : Collector) (before : Option Token) (t : Token)
    (ts : List Token) : (call rules c before t ts).2 ≤ ts.length := by
  rw [snd_call]
  cases hn : chain? (t :: ts) with
  | none => exact Nat.zero_le _
  | some found =>
    have hle := (of_chain?_eq_some hn).2
    rw [length_cons] at hle
    exact Nat.sub_le_of_le_add hle

end SqlOutline.Harvest
