import SqlOutline.Name
import SqlOutline.Proofs.Text.Trim

/-!
# Normal forms of names

Removing quotes and white space adds no character, and the parts of a chain that are left are put
together with dots. The name of an object is split at its last dot again.

## Main definitions

* `ofValues`, `IsBare` — the object of identifiers, and those that are read as they stand.

## Main results

* `of_normalizeCallee?` — the normal form of a called routine or a relation.
* `ofText?_join_eq_iff` — which identifiers survive being put together with dots.
-/

namespace SqlOutline

open List

namespace Text

lemma trim_subset (t : Text) : trim t ⊆ t := (trim_sublist t).subset

lemma mem_of_mem_join {glue : Text} {pieces : List Text} {c : Char} (h : c ∈ join glue pieces) :
    c ∈ glue ∨ ∃ p ∈ pieces, c ∈ p := by
  fun_induction join glue pieces with
  | case1 => cases h
  | case2 p => exact .inr ⟨p, mem_singleton_self p, h⟩
  | case3 p ps hne ih =>
    rw [mem_append, mem_append] at h
    rcases h with (h | h) | h
    · exact .inr ⟨p, mem_cons_self, h⟩
    · exact .inl h
    · obtain h | ⟨q, hq, hc⟩ := ih h
      · exact .inl h
      · exact .inr ⟨q, mem_cons_of_mem p hq, hc⟩

lemma exists_join_cons (glue p : Text) (ps : List Text) : ∃ t, join glue (p :: ps) = p ++ t := by
  cases ps with
  | nil => exact ⟨[], (append_nil p).symm⟩
  | cons q qs => exact ⟨glue ++ join glue (q :: qs), append_assoc _ _ _⟩

lemma join_concat (glue : Text) {ps : List Text} (hps : ps ≠ []) (p : Text) :
    join glue (ps ++ [p]) = join glue ps ++ glue ++ p := by
  induction ps with
  | nil => exact absurd rfl hps
  | cons q ps ih =>
    cases ps with
    | nil => rfl
    | cons r ps =>
      have htail : join glue (r :: (ps ++ [p])) = join glue (r :: ps) ++ glue ++ p := ih (by simp)
      show q ++ glue ++ join glue (r :: (ps ++ [p])) = q ++ glue ++ join glue (r :: ps) ++ glue ++ p
      simp [htail]

lemma join_dot_cons (p : Text) (ps : List Text) :
    join ['.'] (p :: ps) = p ++ ps.flatMap ('.' :: ·) := by
  induction ps generalizing p with
  | nil => simp [join]
  | cons q ps ih => rw [join_cons_cons, ih, flatMap_cons, cons_append]

lemma trim_eq_self {t : Text} (hfirst : ∀ c ∈ t.head?, isBlank c = false)
    (hlast : ∀ c ∈ t.getLast?, isBlank c = false) : trim t = t := by
  have hkeep {u : Text} (hu : ∀ c ∈ u.head?, isBlank c = false) : u.dropWhile isBlank = u := by
    cases u with
    | nil => rfl
    | cons c u => rw [dropWhile_cons_of_neg (by simp [hu c rfl])]
  rw [trim, trimStart, hkeep hfirst, trimEnd, hkeep (by simpa using hlast), reverse_reverse]

lemma trim_of_not_blank {t : Text} (h : ∀ c ∈ t, isBlank c = false) : trim t = t :=
  trim_eq_self (fun c hc => h c (mem_of_mem_head? hc)) fun c hc =>
    h c (mem_of_getLast? hc)

lemma join_eq_intercalate (glue : Text) (ps : List Text) : join glue ps = glue.intercalate ps := by
  induction ps with
  | nil => rfl
  | cons p ps ih =>
    cases ps with
    | nil => simp [join]
    | cons q ps => simp [join, ih, intercalate_cons_cons]

end Text

variable {t last : Text} {ps before : List Text}

namespace Name

open Text

lemma sublist_of_stripQuotes? {t u : Text} (h : stripQuotes? t = some u) : u.Sublist t := by
  refine List.Sublist.trans ?_ (trim_sublist t)
  unfold stripQuotes? at h
  split at h
  · cases h
  · rename_i htrim
    rw [htrim, ← Option.some.inj h]
  · rename_i first rest _ htrim
    rw [htrim]
    split_ifs at h
    · rw [← Option.some.inj h]
      exact (dropLast_sublist rest).trans (sublist_cons_self first rest)
    · rw [← Option.some.inj h]

lemma ne_nil_of_joinDotted? {parts : List Text} {n : Text} (h : joinDotted? parts = some n) :
    n ≠ [] := by
  unfold joinDotted? at h
  split at h
  · cases h
  · rename_i p ps hparts
    have hp : p ∈ parts.filter (!·.isEmpty) := hparts ▸ mem_cons_self
    have hne : p ≠ [] := by simpa using (mem_filter.mp hp).2
    obtain ⟨t, ht⟩ := exists_join_cons ['.'] p ps
    rw [← Option.some.inj h, ht]
    exact append_ne_nil_of_left_ne_nil hne t

lemma mem_of_mem_joinDotted? {parts : List Text} {n : Text} (h : joinDotted? parts = some n)
    {c : Char} (hc : c ∈ n) : c = '.' ∨ ∃ p ∈ parts, c ∈ p := by
  unfold joinDotted? at h
  split at h
  · cases h
  · rename_i p ps hparts
    rw [← Option.some.inj h, ← hparts] at hc
    obtain hdot | ⟨q, hq, hcq⟩ := mem_of_mem_join hc
    · exact .inl (mem_singleton.mp hdot)
    · exact .inr ⟨q, (mem_filter.mp hq).1, hcq⟩

/-- **The normal form of a called routine or a relation** is not empty and has no `@`. -/
lemma of_normalizeCallee? {t n : Text} (h : normalizeCallee? t = some n) : n ≠ [] ∧ '@' ∉ n := by
  refine ⟨ne_nil_of_joinDotted? h, fun hat => ?_⟩
  obtain hdot | ⟨p, hp, hpat⟩ := mem_of_mem_joinDotted? h hat
  · simp at hdot
  · obtain ⟨s, -, hs⟩ := mem_filterMap.mp hp
    simpa using mem_takeWhile_imp ((sublist_of_stripQuotes? hs).subset hpat)

def isQuoteMark (c : Char) : Bool := c == '"' || c == '`' || c == '[' || c == ']'

lemma isQuoteMark_of_isQuotePair {first last : Char} (h : isQuotePair first last) :
    isQuoteMark first := by
  simp only [isQuotePair, Bool.or_eq_true, Bool.and_eq_true, beq_iff_eq] at h
  rcases h with (⟨rfl, -⟩ | ⟨rfl, -⟩) | ⟨rfl, -⟩ <;> decide

lemma stripQuotes?_of_no_quotes (hne : trim t ≠ []) (h : ∀ c ∈ trim t, isQuoteMark c = false) :
    stripQuotes? t = some (trim t) := by
  unfold stripQuotes?
  split
  · exact absurd ‹_› hne
  · rw [‹trim t = _›]
  · rename_i first rest _ htrim
    have hfirst : isQuoteMark first = false := h first (htrim ▸ mem_cons_self)
    have hpair : rest.getLast?.any (isQuotePair first) = false := by
      rw [Option.any_eq_false]
      intro last _
      by_contra hlast
      rw [isQuoteMark_of_isQuotePair (Bool.not_eq_false _ ▸ hlast)] at hfirst
      cases hfirst
    rw [hpair, htrim]
    rfl

lemma joinDotted?_of_ne_nil (hne : ps ≠ []) (h : ∀ p ∈ ps, p ≠ []) :
    joinDotted? ps = some (join ['.'] ps) := by
  have hfilter : ps.filter (!·.isEmpty) = ps :=
    filter_eq_self.mpr fun p hp => by simpa using h p hp
  obtain ⟨p, ps, rfl⟩ := exists_cons_of_ne_nil hne
  rw [joinDotted?, hfilter]

end Name

namespace QualifiedName

open Text Name

/-! ## Names split at their last dot -/

lemma bne_dot_of_mem_reverse (hlast : '.' ∉ last) : ∀ c ∈ last.reverse, (c != '.') := by
  intro c hc
  simpa using fun hdot : c = '.' => hlast (hdot ▸ mem_reverse.mp hc)

lemma splitLastDot_append (hlast : '.' ∉ last) (t : Text) :
    splitLastDot (t ++ '.' :: last) = (some t, last) := by
  have hbehind : ((t ++ '.' :: last).reverse.takeWhile (· != '.')).reverse = last := by
    rw [reverse_append, reverse_cons, append_assoc,
      takeWhile_append_of_pos (bne_dot_of_mem_reverse hlast)]
    simp
  have hlength : last.length < (t ++ '.' :: last).length := by
    rw [length_append, length_cons]
    omega
  have hbefore : (t ++ '.' :: last).length - last.length - 1 = t.length := by
    rw [length_append, length_cons]
    omega
  rw [splitLastDot, hbehind, if_pos hlength, hbefore, take_left]

lemma splitLastDot_eq_self (hlast : '.' ∉ last) : splitLastDot last = (none, last) := by
  rw [splitLastDot, takeWhile_eq_self_iff.mpr (bne_dot_of_mem_reverse hlast), reverse_reverse]
  simp

lemma splitLastDot_cases (t : Text) : ('.' ∉ t ∧ splitLastDot t = (none, t)) ∨
      ∃ a b, t = a ++ '.' :: b ∧ '.' ∉ b ∧ splitLastDot t = (some a, b) := by
  by_cases hdot : '.' ∈ t
  · obtain ⟨b, a, ht, hb⟩ := eq_append_cons_of_mem (mem_reverse.mpr hdot)
    have ht' : t = a.reverse ++ '.' :: b.reverse := by
      rw [← reverse_reverse t, ht]
      simp
    have hb' : '.' ∉ b.reverse := by rwa [mem_reverse]
    exact .inr ⟨a.reverse, b.reverse, ht', hb', by rw [ht', splitLastDot_append hb']⟩
  · exact .inl ⟨hdot, splitLastDot_eq_self hdot⟩

lemma ofText?_eq {before : Option Text} (hne : trim t ≠ [])
    (h : splitLastDot (trim t) = (before, last)) : ofText? t = (stripQuotes? last).map fun name =>
      ⟨(before.bind stripQuotes?).map String.ofList, String.ofList name⟩ := by
  unfold ofText?
  split
  · exact absurd ‹_› hne
  · rename_i c r htrim
    rw [← htrim, h]

def chars (q : QualifiedName) : Text :=
  join ['.'] (q.schema.toList.map String.toList ++ [q.name.toList])

lemma of_ofText? {q : QualifiedName} (h : ofText? t = some q) :
    q.chars.Sublist t ∧ '.' ∉ q.name.toList := by
  have htrim := trim_sublist t
  have hne : trim t ≠ [] := by
    intro hnil
    rw [ofText?, hnil] at h
    cases h
  rcases splitLastDot_cases (trim t) with ⟨hdot, hsplit⟩ | ⟨a, b, hab, hdot, hsplit⟩
  · rw [ofText?_eq hne hsplit] at h
    obtain ⟨name, hname, rfl⟩ := Option.map_eq_some_iff.mp h
    have hsub := sublist_of_stripQuotes? hname
    refine ⟨?_, fun hmem => hdot (hsub.subset (by simpa using hmem))⟩
    simpa [chars, join] using hsub.trans htrim
  · rw [ofText?_eq hne hsplit] at h
    obtain ⟨name, hname, rfl⟩ := Option.map_eq_some_iff.mp h
    have hsub := sublist_of_stripQuotes? hname
    refine ⟨?_, fun hmem => hdot (hsub.subset (by simpa using hmem))⟩
    rw [hab] at htrim
    refine List.Sublist.trans ?_ htrim
    cases hschema : stripQuotes? a with
    | none =>
      have hbehind : name.Sublist (a ++ '.' :: b) :=
        (hsub.cons '.').trans (sublist_append_right a _)
      simpa [chars, join, hschema] using hbehind
    | some schema =>
      have hboth : (schema ++ '.' :: name).Sublist (a ++ '.' :: b) :=
        (sublist_of_stripQuotes? hschema).append (hsub.cons_cons '.')
      simpa [chars, join, hschema] using hboth

/-! ## Identifiers put together with dots -/

def solid (t : Text) : Nat := t.countP (!isBlank ·)

@[simp]
lemma solid_append (s t : Text) : solid (s ++ t) = solid s + solid t := countP_append

@[simp]
lemma solid_dot (t : Text) : solid ('.' :: t) = solid t + 1 := countP_cons_of_pos rfl

@[simp]
lemma solid_trim (t : Text) : solid (trim t) = solid t := by
  have hdrop (u : Text) : solid (u.dropWhile isBlank) = solid u := by
    unfold solid
    induction u with
    | nil => rfl
    | cons c u ih =>
      by_cases hc : isBlank c
      · simpa [hc] using ih
      · simp [hc]
  have hreverse (u : Text) : solid u.reverse = solid u := countP_reverse
  rw [trim, trimEnd, hreverse, hdrop, hreverse, trimStart, hdrop]

lemma solid_join_trim (ps : List Text) :
    solid (join ['.'] (ps.map trim)) = solid (join ['.'] ps) := by
  induction ps with
  | nil => rfl
  | cons p ps ih =>
    cases ps with
    | nil => exact solid_trim p
    | cons q ps =>
      rw [map_cons] at ih
      simp [join_cons_cons, ih]

lemma solid_join_lt (hps : ps ≠ []) (q : Text) (qs : List Text) :
    solid (join ['.'] ps) < solid (join ['.'] (ps ++ q :: qs)) := by
  induction ps with
  | nil => exact absurd rfl hps
  | cons p ps ih =>
    cases ps with
    | nil =>
      show solid p < solid (join ['.'] (p :: q :: qs))
      rw [join_cons_cons, solid_append, solid_dot]
      omega
    | cons r ps =>
      have hrest := ih (by simp)
      rw [cons_append] at hrest
      rw [cons_append, cons_append, join_cons_cons, join_cons_cons, solid_append,
        solid_append, solid_dot, solid_dot]
      omega

lemma trim_join_ne_nil {vs : List Text} (hne : vs ≠ []) (h : ∀ v ∈ vs, trim v ≠ []) :
    trim (join ['.'] vs) ≠ [] := by
  match vs, hne with
  | [v], _ => exact h v mem_cons_self
  | v :: w :: vs, _ =>
    rw [join_cons_cons, trim_append_cons rfl]
    simp

def ofValues (before : List Text) (last : Text) : QualifiedName :=
  ⟨if before.isEmpty then none else some (String.ofList (join ['.'] (before.map trim))),
    String.ofList (trim last)⟩

lemma ofParts?_eq_ofValues (h : ∀ v ∈ before ++ [last], trim v ≠ []) :
    ofParts? ((before ++ [last]).map String.ofList) = some (ofValues before last) := by
  have hvalues : (((before ++ [last]).map String.ofList).map (trim ·.toList)).filter (!·.isEmpty) =
      before.map trim ++ [trim last] := by
    rw [map_map, filter_eq_self.mpr]
    · simp
    · intro v hv
      obtain ⟨u, hu, rfl⟩ := mem_map.mp hv
      simpa using h u hu
  rw [ofParts?, hvalues, getLast?_concat, dropLast_concat]
  simp [ofValues]

lemma chars_ofValues (before : List Text) (last : Text) :
    (ofValues before last).chars = join ['.'] ((before ++ [last]).map trim) := by
  cases before with
  | nil => simp [chars, ofValues, join]
  | cons v before =>
    rw [map_append, map_singleton, join_concat _ (by simp)]
    simp [chars, ofValues, join]

/-- **Identifiers survive being put together with dots** exactly if there is no dot in the last and
no white space where the others meet.

**Proof sketch.** If there is no dot in the last identifier, the last dot stands before it: what is
behind is that identifier, and what is before are the others, put together
(`Text.trim_join_eq_iff`). If there is one, what stands behind the last dot cannot be the whole
identifier. -/
lemma ofText?_join_eq_iff (hblank : ∀ v ∈ before ++ [last], trim v ≠ [])
    (hquote : ∀ v ∈ before ++ [last], ∀ c ∈ v, isQuoteMark c = false) :
    ofText? (join ['.'] (before ++ [last])) = some (ofValues before last) ↔
      '.' ∉ last ∧ Tight before := by
  have hjoin := trim_join_ne_nil (by simp) hblank
  rw [forall_mem_append, forall_mem_singleton] at hblank hquote
  by_cases hdot : '.' ∈ last
  · refine iff_of_false (fun h => ?_) fun h => h.1 hdot
    apply (of_ofText? h).2
    obtain ⟨a, b, rfl⟩ := append_of_mem hdot
    simp [ofValues, trim_append_cons (show isBlank '.' = false from rfl)]
  · have hname {u : Text} (hu : u.Sublist last) (htrim : trim u = trim last) :
        stripQuotes? u = some (trim last) := by
      rw [← htrim]
      exact stripQuotes?_of_no_quotes (htrim ▸ hblank.2) fun c hc =>
        hquote.2 c (hu.subset (trim_subset u hc))
    rcases eq_or_ne before [] with rfl | hne
    · have hsplit : splitLastDot (trim (join ['.'] ([] ++ [last]))) = (none, trim last) :=
        splitLastDot_eq_self fun hmem => hdot (trim_subset last hmem)
      rw [ofText?_eq hjoin hsplit, hname (trim_sublist last) (trim_trim hblank.2)]
      simp [ofValues, hdot, Tight]
    · have hglue : isBlank '.' = false := rfl
      have hsplit : splitLastDot (trim (join ['.'] (before ++ [last]))) =
          (some (trimStart (join ['.'] before)), trimEnd last) := by
        rw [join_concat _ hne, append_assoc, singleton_append, trim_append_cons hglue]
        exact splitLastDot_append (fun hmem => hdot ((trimEnd_sublist last).subset hmem)) _
      have hschema : stripQuotes? (trimStart (join ['.'] before)) =
          some (trim (join ['.'] before)) := by
        rw [← trim_trimStart]
        refine stripQuotes?_of_no_quotes ?_ fun c hc => ?_
        · rw [trim_trimStart]
          exact trim_join_ne_nil hne hblank.1
        · rw [trim_trimStart] at hc
          rcases mem_of_mem_join (trim_subset _ hc) with hglue | ⟨v, hv, hcv⟩
          · rw [mem_singleton.mp hglue]
            rfl
          · exact hquote.1 v hv c hcv
      rw [ofText?_eq hjoin hsplit, hname (trimEnd_sublist last) (trim_trimEnd hblank.2),
        Option.bind_some, hschema, ← trim_join_eq_iff hglue hblank.1]
      simp [ofValues, hne, hdot, String.ofList_inj]

/-- An identifier that is read as it stands. -/
structure IsBare (v : Text) : Prop where
  ne_nil : v ≠ []
  trim_eq : trim v = v
  no_quotes : ∀ c ∈ v, isQuoteMark c = false

lemma IsBare.trim_ne_nil {v : Text} (h : IsBare v) : trim v ≠ [] := h.trim_eq.symm ▸ h.ne_nil

lemma ofValues_eq (h : ∀ v ∈ before ++ [last], IsBare v) : ofValues before last =
    ⟨if before.isEmpty then none else some (String.ofList (join ['.'] before)),
      String.ofList last⟩ := by
  have hmap : before.map trim = before :=
    (map_congr_left fun v hv => (h v (mem_append_left _ hv)).trim_eq).trans (map_id _)
  rw [ofValues, hmap, (h last (by simp)).trim_eq]

/-- **A chain of identifiers** that are read as they stand, the last of which has no dot. -/
lemma ofChain?_eq_ofValues (hstrip : (segments t).filterMap stripQuotes? = before ++ [last])
    (h : ∀ v ∈ before ++ [last], IsBare v) (hdot : '.' ∉ last) :
    ofChain? t = some (ofValues before last) := by
  have hblank : ∀ v ∈ before ++ [last], trim v ≠ [] := fun v hv => (h v hv).trim_ne_nil
  have hends {v : Text} (hv : v ∈ before) : trimStart v = v ∧ trimEnd v = v :=
    (eq_trim_iff (hblank v (mem_append_left _ hv))).mp (h v (mem_append_left _ hv)).trim_eq.symm
  have htight : Tight before :=
    (pairwise_of_forall_mem_list fun v hv w hw => ⟨(hends hv).2, (hends hw).1⟩).isChain
  rw [ofChain?, normalizeChain?, hstrip, joinDotted?_of_ne_nil (by simp) fun v hv =>
    (h v hv).ne_nil, Option.bind_some]
  exact (ofText?_join_eq_iff hblank fun v hv => (h v hv).no_quotes).mpr ⟨hdot, htight⟩

end QualifiedName

end SqlOutline
