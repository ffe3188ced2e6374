import SqlOutline.Proofs.Pattern.Spell

/-!
# Successive matches in a text

Patterns that never match the empty text, behind which the search would stand still.

## Main definitions

* `Proper` — such a pattern, which does not ask for the ends of the text either.

## Main results

* `Proper.pairwise_findAllFrom` — matches stand one behind the other.
* `Proper.exists_mem_findAllFrom` — nothing is left out.
* `findAll_eq_nil_of_append` — what is not found in a text is not found in its parts.
-/

namespace SqlOutline

open Option List Text

variable {k l : Cursor} {x y : Text}

lemma Cursor.Reaches.of_append {m : Cursor} (h : k.Reaches (x ++ y) m)
    (hl : k.Reaches x l) : l.Reaches y m where
  rest := hl.rest_eq (by rw [h.rest, append_assoc])
  before := by rw [h.before, hl.before, getLast?_append, Option.or_assoc]
  offset := by rw [h.offset, hl.offset, byteLength_append, Nat.add_assoc]

lemma Cursor.Reaches.of_offset_le {m : Cursor} (hl : k.Reaches x l)
    (hm : k.Reaches y m) (hle : l.offset ≤ m.offset) : ∃ z, l.Reaches z m ∧ y = x ++ z := by
  have hsplit : x ++ l.rest = y ++ m.rest := hl.rest.symm.trans hm.rest
  rcases append_eq_append_iff.mp hsplit with ⟨z, rfl, -⟩ | ⟨z, rfl, hz⟩
  · exact ⟨z, hm.of_append hl, rfl⟩
  · -- no text can stand between a place and one that is not behind it
    have hz' : m.Reaches z l := hl.of_append hm
    have hnil : z = [] := by
      by_contra hne
      exact absurd hle (Nat.not_le.mpr (hz'.offset_lt hne))
    subst hnil
    rw [append_nil] at hl ⊢
    exact ⟨[], of_append (by rwa [append_nil]) hl, (append_nil y).symm⟩

namespace Pattern

variable {p : Pattern} {b : Option Char} {n : Nat} {t : Text}

/-! ## The leftmost match -/

lemma matchAt?_of_reaches_nil (h : k.Reaches [] l) : p.matchAt? l = p.matchAt? k := by
  have hl : l = { k with groups := l.groups } := by
    obtain ⟨before, rest, offset, groups⟩ := l
    have hrest := h.rest
    have hbefore := h.before
    have hoffset := h.offset
    simp only [nil_append, getLast?_nil, none_or, byteLength_nil,
      Nat.add_zero] at hrest hbefore hoffset
    simp [hrest, hbefore, hoffset]
  rw [hl]
  rfl

lemma matchAt?_eq_none_of_findFrom?_eq_none (h : p.findFrom? b n t = none)
    (hk : Cursor.Reaches ⟨b, t, n, []⟩ y k) : p.matchAt? k = none := by
  induction t generalizing b n y with
  | nil =>
    obtain ⟨rfl, -⟩ := append_eq_nil_iff.mp hk.rest.symm
    rw [matchAt?_of_reaches_nil hk]
    exact map_eq_none_iff.mp h
  | cons c t ih =>
    rw [findFrom?] at h
    split at h
    · cases h
    case h_2 hnone =>
      cases y with
      | nil => rw [matchAt?_of_reaches_nil hk, hnone]
      | cons d y =>
        obtain ⟨rfl, -⟩ := cons.inj hk.rest
        exact ih h (Cursor.Reaches.of_append (x := [c]) hk (.next rfl))

/-- **The leftmost match**: the pattern matches where it is found, and at no place before. -/
lemma of_findFrom?_eq_some {m : Found} (h : p.findFrom? b n t = some m) :
    (∃ x, Cursor.Reaches ⟨b, t, n, []⟩ x m.start) ∧ p.matchAt? m.start = some m.stop ∧
      ∀ (y : Text) (k : Cursor), Cursor.Reaches ⟨b, t, n, []⟩ y k → k.offset < m.start.offset →
        p.matchAt? k = none := by
  induction t generalizing b n with
  | nil =>
    obtain ⟨l, hl, rfl⟩ := map_eq_some_iff.mp h
    refine ⟨⟨[], .refl _⟩, hl, fun y k hk hlt => ?_⟩
    have hle : n + byteLength y < n := hk.offset ▸ hlt
    omega
  | cons c t ih =>
    rw [findFrom?] at h
    split at h
    case h_1 l hl =>
      obtain rfl := some.inj h
      refine ⟨⟨[], .refl _⟩, hl, fun y k hk hlt => ?_⟩
      have hle : n + byteLength y < n := hk.offset ▸ hlt
      omega
    case h_2 hnone =>
      obtain ⟨⟨x, hx⟩, hmatch, hleft⟩ := ih h
      have hnext : Cursor.Reaches ⟨b, c :: t, n, []⟩ [c] ⟨some c, t, n + c.utf8Size, []⟩ :=
        .next (k := ⟨b, c :: t, n, []⟩) rfl
      refine ⟨⟨[c] ++ x, hnext.trans hx⟩, hmatch, fun y k hk hlt => ?_⟩
      cases y with
      | nil => rw [matchAt?_of_reaches_nil hk, hnone]
      | cons d y =>
        obtain ⟨rfl, -⟩ := cons.inj hk.rest
        exact hleft y k (Cursor.Reaches.of_append (x := [c]) hk hnext) hlt

/-! ## Parts of a text -/

/-- **What is spelled in a text** is spelled in a larger one that does not lengthen a word at its
ends. -/
lemma Spells.append {r : Text} (h : Spells p b x r) (hy : y.head?.any isWordChar = false)
    {b' : Option Char} (hb : b'.any isWordChar = b.any isWordChar) : Spells p b' x (r ++ y) := by
  have hlast {b b' : Option Char} (hb : b'.any isWordChar = b.any isWordChar) (x : Text) :
      (x.getLast?.or b').any isWordChar = (x.getLast?.or b).any isWordChar := by
    cases x.getLast? with
    | none => exact hb
    | some c => rfl
  induction h generalizing b' with
  | empty => exact .empty
  | one hc => exact .one hc
  | @boundary b r h =>
    have hhead : (r ++ y).head?.any isWordChar = r.head?.any isWordChar := by
      cases r with
      | nil => exact hy
      | cons c t => rfl
    rw [isWordBoundary] at h
    exact .boundary (by rw [isWordBoundary, hb, hhead, h])
  | seq _ _ ihp ihq => exact .seq (by rw [← append_assoc]; exact ihp hb) (ihq (hlast hb _))
  | altLeft _ ih => exact .altLeft (ih hb)
  | altRight _ ih => exact .altRight (ih hb)
  | stop => exact .stop
  | round hx _ _ ihp ihq =>
    exact .round hx (by rw [← append_assoc]; exact ihp hb) (ihq (hlast hb _))
  | group _ ih => exact .group (ih hb)

lemma findAll_eq_nil_iff (p : Pattern) (t : Text) : p.findAll t = [] ↔ p.find? t = none := by
  rw [findAll, findAllFrom, find?]
  cases p.findFrom? none 0 t with
  | none => simp
  | some m =>
    dsimp only
    split_ifs <;> simp

/-- **A pattern that is not found in a text is not found in its parts**, if the part does not cut
through a word. -/
lemma findAll_eq_nil_of_append (hp : p.floats) {u : Text}
    (hx : x.getLast?.any isWordChar = false) (hy : y.head?.any isWordChar = false)
    (h : p.findAll (x ++ (u ++ y)) = []) : p.findAll u = [] := by
  rw [findAll_eq_nil_iff] at h ⊢
  by_contra hsome
  obtain ⟨m, hm⟩ := ne_none_iff_exists'.mp hsome
  obtain ⟨⟨z, hz⟩, hmatch, -⟩ := of_findFrom?_eq_some hm
  obtain ⟨w, hw, hspells⟩ := exists_spells_of_matchAt? hp hmatch
  -- the match of the part, as a place of the text
  let k : Cursor := ⟨(x ++ z).getLast?.or none, m.start.rest ++ y, 0 + byteLength (x ++ z), []⟩
  have hrest : u = z ++ m.start.rest := hz.rest
  have hk : Cursor.Reaches ⟨none, x ++ (u ++ y), 0, []⟩ (x ++ z) k :=
    ⟨by simp [k, hrest], rfl, rfl⟩
  have hbefore : k.before.any isWordChar = m.start.before.any isWordChar := by
    simp only [k, hz.before, getLast?_append, or_none]
    cases z.getLast? with
    | none => exact hx
    | some c => rfl
  have hfound : (p.matchAt? k).isSome :=
    isSome_matchAt?_of_spells (hspells.append hy hbefore) (by simp [k, hw.rest])
  rw [matchAt?_eq_none_of_findFrom?_eq_none h hk] at hfound
  cases hfound

/-! ## Successive matches -/

/-- A pattern that does not ask for the ends of the text and does not match the empty text. -/
structure Proper (p : Pattern) : Prop where
  floats : p.floats
  not_spells_nil : ∀ b r, ¬ Spells p b [] r

lemma Proper.exists_of_matchAt? (hp : p.Proper) (h : p.matchAt? k = some l) :
    ∃ x, x ≠ [] ∧ k.Reaches x l ∧ Spells p k.before x l.rest := by
  obtain ⟨x, hl, hx⟩ := exists_spells_of_matchAt? hp.floats h
  refine ⟨x, ?_, hl, hx⟩
  rintro rfl
  exact hp.not_spells_nil _ _ hx

section FindAllFrom

variable (hp : p.Proper) {m : Found}
include hp

lemma Proper.length_lt_of_findFrom? (h : p.findFrom? b n t = some m) :
    m.stop.rest.length < t.length := by
  obtain ⟨⟨x, hx⟩, hmatch, -⟩ := of_findFrom?_eq_some h
  obtain ⟨w, hne, hw, -⟩ := hp.exists_of_matchAt? hmatch
  have hrest : t = x ++ w ++ m.stop.rest := (hx.trans hw).rest
  have hpos := length_pos_of_ne_nil hne
  rw [hrest, length_append, length_append]
  omega

lemma Proper.findAllFrom_of_some (h : p.findFrom? b n t = some m) :
    p.findAllFrom b n t = m :: p.findAllFrom m.stop.before m.stop.offset m.stop.rest := by
  rw [findAllFrom, h]
  exact if_pos (hp.length_lt_of_findFrom? h)

/-- **A match in a text** stands at a place of the text where the pattern matches. -/
lemma Proper.of_mem_findAllFrom (h : m ∈ p.findAllFrom b n t) :
    (∃ x, Cursor.Reaches ⟨b, t, n, []⟩ x m.start) ∧ p.matchAt? m.start = some m.stop := by
  induction b, n, t using findAllFrom.induct p with
  | case1 b n t hfind =>
    rw [findAllFrom, hfind] at h
    cases h
  | case2 b n t f hfind _ ih =>
    obtain ⟨⟨x, hx⟩, hmatch, -⟩ := of_findFrom?_eq_some hfind
    rw [hp.findAllFrom_of_some hfind] at h
    rcases mem_cons.mp h with rfl | h
    · exact ⟨⟨x, hx⟩, hmatch⟩
    · obtain ⟨w, -, hw, -⟩ := hp.exists_of_matchAt? hmatch
      obtain ⟨⟨y, hy⟩, hm⟩ := ih h
      exact ⟨⟨_, (hx.trans hw).trans ⟨hy.rest, hy.before, hy.offset⟩⟩, hm⟩
  | case3 b n t f hfind hnot => exact absurd (hp.length_lt_of_findFrom? hfind) hnot

/-- **Matches stand one behind the other.** -/
lemma Proper.pairwise_findAllFrom (b : Option Char) (n : Nat) (t : Text) :
    (p.findAllFrom b n t).Pairwise fun f m => f.stop.offset ≤ m.start.offset := by
  induction b, n, t using findAllFrom.induct p with
  | case1 b n t hfind =>
    rw [findAllFrom, hfind]
    exact .nil
  | case2 b n t f hfind _ ih =>
    rw [hp.findAllFrom_of_some hfind]
    refine .cons (fun m hm => ?_) ih
    obtain ⟨⟨x, hx⟩, -⟩ := hp.of_mem_findAllFrom hm
    exact hx.offset ▸ Nat.le_add_right _ _
  | case3 b n t f hfind hnot => exact absurd (hp.length_lt_of_findFrom? hfind) hnot

/-- **Nothing is left out**: where the pattern matches, a match lies over the place. -/
lemma Proper.exists_mem_findAllFrom
    (hk : Cursor.Reaches ⟨b, t, n, []⟩ y k) (hmatch : (p.matchAt? k).isSome) :
    ∃ f ∈ p.findAllFrom b n t, f.start.offset ≤ k.offset ∧ k.offset < f.stop.offset := by
  induction b, n, t using findAllFrom.induct p generalizing y with
  | case1 b n t hfind =>
    rw [matchAt?_eq_none_of_findFrom?_eq_none hfind hk] at hmatch
    cases hmatch
  | case2 b n t f hfind _ ih =>
    obtain ⟨⟨x, hx⟩, hf, hleft⟩ := of_findFrom?_eq_some hfind
    obtain ⟨w, -, hw, -⟩ := hp.exists_of_matchAt? hf
    rw [hp.findAllFrom_of_some hfind]
    have hle : f.start.offset ≤ k.offset := by
      by_contra hlt
      rw [hleft y k hk (Nat.not_le.mp hlt)] at hmatch
      cases hmatch
    by_cases hlt : k.offset < f.stop.offset
    · exact ⟨f, mem_cons_self, hle, hlt⟩
    · obtain ⟨z, hz, -⟩ := (hx.trans hw).of_offset_le hk (Nat.not_lt.mp hlt)
      obtain ⟨g, hg, hcover⟩ := ih (y := z) ⟨hz.rest, hz.before, hz.offset⟩
      exact ⟨g, mem_cons_of_mem f hg, hcover⟩
  | case3 b n t f hfind hnot => exact absurd (hp.length_lt_of_findFrom? hfind) hnot

/-- **Two matches** do not lie over each other. -/
lemma Proper.stop_le_start {f : Found} (hf : f ∈ p.findAllFrom b n t) (hm : m ∈ p.findAllFrom b n t)
    (hlt : f.start.offset < m.start.offset) : f.stop.offset ≤ m.start.offset := by
  have hpairs := hp.pairwise_findAllFrom b n t
  obtain ⟨-, hmatch⟩ := hp.of_mem_findAllFrom hm
  obtain ⟨x, hx, hreach, -⟩ := hp.exists_of_matchAt? hmatch
  have hmove := hreach.offset_lt hx
  obtain ⟨l, r, hsplit⟩ := append_of_mem hf
  rw [hsplit] at hpairs hm
  obtain ⟨-, hright, hleft⟩ := pairwise_append.mp hpairs
  rcases mem_append.mp hm with hm | hm
  · have hback := hleft m hm f mem_cons_self
    omega
  · rcases mem_cons.mp hm with rfl | hm
    · exact absurd hlt (Nat.lt_irrefl _)
    · exact (pairwise_cons.mp hright).1 m hm

end FindAllFrom

end Pattern

end SqlOutline
