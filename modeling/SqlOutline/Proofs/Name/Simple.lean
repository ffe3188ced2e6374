import Mathlib.Data.List.Basic
import SqlOutline.Proofs.Name.Chain
import SqlOutline.Proofs.Text.Classes
import SqlOutline.Sql.Tree

/-!
# Simple names

Identifiers without blanks, dots and quotes, which may be written in quotes.

## Main definitions

* `Ident.isSimple` — an identifier without blanks, dots and quotes.

## Main results

* `ofChain?_text` — a written name of simple identifiers stands for what they stand for.
-/

namespace SqlOutline

open List Text Name QualifiedName

variable {t : Text} {ps : List Text} {last : Char}

namespace Name

def isSimpleChar (c : Char) : Bool := !isBlank c && !(['.', '"', '`', '[', ']'].contains c)

/-- An identifier without blanks, dots and quotes in it. -/
def isSimple (t : Text) : Bool := !t.isEmpty && t.all isSimpleChar

section Simple

variable {c : Char} {u p : Text}

lemma ne_nil_of_isSimple (h : isSimple t = true) : t ≠ [] := by
  rintro rfl
  cases h

lemma isSimpleChar_of_mem (h : isSimple t = true) (hc : c ∈ t) : isSimpleChar c = true := by
  rw [isSimple, Bool.and_eq_true] at h
  exact all_eq_true.mp h.2 c hc

lemma not_isBlank_of_isSimpleChar (h : isSimpleChar c = true) : isBlank c = false := by
  simp only [isSimpleChar, Bool.and_eq_true, Bool.not_eq_true'] at h
  exact h.1

lemma ne_of_isSimpleChar {d : Char} (h : isSimpleChar c = true)
    (hd : d ∈ ['.', '"', '`', '[', ']']) : c ≠ d := by
  rintro rfl
  rw [isSimpleChar, contains_iff_mem.mpr hd, Bool.not_true, Bool.and_false] at h
  cases h

lemma isBare_of_isSimple (h : isSimple t) : IsBare t where
  ne_nil := ne_nil_of_isSimple h
  trim_eq := trim_of_not_blank fun _ hc => not_isBlank_of_isSimpleChar (isSimpleChar_of_mem h hc)
  no_quotes c hc := by
    have hne {d : Char} := ne_of_isSimpleChar (d := d) (isSimpleChar_of_mem h hc)
    simp [isQuoteMark, hne (d := '"'), hne (d := '`'), hne (d := '['), hne (d := ']')]

lemma dot_notMem_of_isSimple (h : isSimple t = true) : '.' ∉ t := fun hmem =>
  ne_of_isSimpleChar (isSimpleChar_of_mem h hmem) (by decide) rfl

lemma stripQuotes?_of_trim (h : isSimple (trim t) = true) : stripQuotes? t = some (trim t) :=
  stripQuotes?_of_no_quotes (ne_nil_of_isSimple h) (isBare_of_isSimple h).no_quotes

lemma stripQuotes?_of_isSimple (h : isSimple t = true) : stripQuotes? t = some t := by
  have htrim := (isBare_of_isSimple h).trim_eq
  rw [stripQuotes?_of_trim (htrim.symm ▸ h), htrim]

lemma isSimpleChar_of_isPlain (h : (isAsciiAlnum c || c == '_') = true) :
    isSimpleChar c = true := by
  have hblank : isBlank c = false := by
    by_contra hblank
    have hnone : ∀ n ∈ blankCodes,
        (isAsciiAlnum (Char.ofNat n) || Char.ofNat n == '_') = false := by
      decide
    have hc := hnone _ (toNat_mem_blankCodes (by simpa using hblank))
    rw [Char.ofNat_toNat, h] at hc
    cases hc
  have hmark : ['.', '"', '`', '[', ']'].contains c = false := by
    by_contra hmark
    rw [Bool.not_eq_false, contains_iff_mem] at hmark
    have hnone : ∀ d ∈ ['.', '"', '`', '[', ']'], (isAsciiAlnum d || d == '_') = false := by decide
    rw [hnone c hmark] at h
    cases h
  rw [isSimpleChar, hblank, hmark]
  rfl

lemma stripQuotes?_quoted {first : Char} (h : isQuotePair first last = true) (t : Text) :
    stripQuotes? (first :: (t ++ [last])) = some t := by
  have hends : isBlank first = false ∧ isBlank last = false := by
    simp only [isQuotePair, Bool.or_eq_true, Bool.and_eq_true, beq_iff_eq] at h
    rcases h with (⟨rfl, rfl⟩ | ⟨rfl, rfl⟩) | ⟨rfl, rfl⟩ <;> decide
  have htrim : trim (first :: (t ++ [last])) = first :: (t ++ [last]) := by
    refine trim_eq_self ?_ ?_
    · rintro c ⟨⟩
      exact hends.1
    · rw [← cons_append, getLast?_concat]
      rintro c ⟨⟩
      exact hends.2
  unfold stripQuotes?
  rw [htrim]
  cases t with
  | nil => simp [h]
  | cons c t =>
    show (if (c :: t ++ [last]).getLast?.any (isQuotePair first) then
      some (c :: t ++ [last]).dropLast else some (first :: (c :: t ++ [last]))) = some (c :: t)
    rw [getLast?_concat, dropLast_concat, Option.any_some, if_pos h]

/-! ## Segments -/

lemma segmentsFrom_append_of_notMem (h : ∀ c ∈ t, c ∉ ['.', '"', '`', '[', ']'])
    (hu : segmentsFrom none u = p :: ps) : segmentsFrom none (t ++ u) = (t ++ p) :: ps := by
  induction t with
  | nil => exact hu
  | cons c t ih =>
    rw [forall_mem_cons] at h
    have hc {d : Char} (hd : d ∈ ['.', '"', '`', '[', ']']) : c ≠ d := fun hcd => h.1 (hcd ▸ hd)
    simp [segmentsFrom, ih h.2, hc (d := '.'), hc (d := '"'), hc (d := '`'), hc (d := '[')]

lemma segmentsFrom_append (h : ∀ c ∈ t, isSimpleChar c)
    (hu : segmentsFrom none u = p :: ps) : segmentsFrom none (t ++ u) = (t ++ p) :: ps :=
  segmentsFrom_append_of_notMem (fun c hc hmem => ne_of_isSimpleChar (h c hc) hmem rfl) hu

lemma segmentsFrom_quoted (h : last ∉ t) (hu : segmentsFrom none u = p :: ps) :
    segmentsFrom (some last) (t ++ last :: u) = (t ++ last :: p) :: ps := by
  induction t with
  | nil => simp [segmentsFrom, hu]
  | cons c t ih =>
    rw [mem_cons, not_or] at h
    simp [segmentsFrom, ih h.2, Ne.symm h.1]

lemma segments_join {ts : List Text} (hne : ts ≠ [])
    (h : ∀ t ∈ ts, ∀ u p ps, segmentsFrom none u = p :: ps →
      segmentsFrom none (t ++ u) = (t ++ p) :: ps) : segments (join ['.'] ts) = ts := by
  unfold segments
  induction ts with
  | nil => exact absurd rfl hne
  | cons t ts ih =>
    obtain ⟨ht, h⟩ := forall_mem_cons.mp h
    cases ts with
    | nil => simpa [join] using ht [] [] [] rfl
    | cons t' ts =>
      have hdot : segmentsFrom none ('.' :: join ['.'] (t' :: ts)) = [] :: t' :: ts := by
        rw [segmentsFrom, if_pos rfl, ih (by simp) h]
      simpa [join] using ht _ _ _ hdot

end Simple

end Name

namespace Sql

/-- An identifier without blanks, dots and quotes in it, which may stand in quotes. -/
def Ident.isSimple (i : Ident) : Bool :=
  Name.isSimple i.value.toList && i.quote.all ['"', '`', '['].contains

lemma doubleQuotes_eq_self {quote : Char} {paired : Bool}
    (h : quote ∉ t) : doubleQuotes quote paired last t = t := by
  induction t generalizing paired last with
  | nil => rfl
  | cons c t ih =>
    rw [mem_cons, not_or] at h
    rw [doubleQuotes, if_neg (Ne.symm h.1), ih h.2]

namespace Ident

variable {i : Ident}

lemma isSimple_value (h : i.isSimple = true) : Name.isSimple i.value.toList = true := by
  rw [isSimple, Bool.and_eq_true] at h
  exact h.1

lemma toList_text (h : i.isSimple = true) :
    i.text.toList = i.value.toList ∨ ∃ first last, isQuotePair first last = true ∧
      last ∉ i.value.toList ∧ i.text.toList = first :: (i.value.toList ++ [last]) := by
  have hvalue {d : Char} (hd : d ∈ ['.', '"', '`', '[', ']']) : d ∉ i.value.toList := fun hmem =>
    ne_of_isSimpleChar (isSimpleChar_of_mem (isSimple_value h) hmem) hd rfl
  obtain ⟨value, quote⟩ := i
  cases quote with
  | none => exact .inl rfl
  | some q =>
    have hq : q = '"' ∨ q = '`' ∨ q = '[' := by
      simpa using (Bool.and_eq_true_iff.mp h).2
    rcases hq with rfl | rfl | rfl
    · refine .inr ⟨'"', '"', rfl, hvalue (by decide), ?_⟩
      simp [text, quoteWith, doubleQuotes_eq_self (hvalue (d := '"') (by decide))]
    · refine .inr ⟨'`', '`', rfl, hvalue (by decide), ?_⟩
      simp [text, quoteWith, doubleQuotes_eq_self (hvalue (d := '`') (by decide))]
    · refine .inr ⟨'[', ']', rfl, hvalue (by decide), ?_⟩
      simp [text]

lemma stripQuotes?_text (h : i.isSimple) :
    stripQuotes? i.text.toList = some i.value.toList := by
  rcases toList_text h with htext | ⟨first, last, hpair, -, htext⟩
  · rw [htext, stripQuotes?_of_isSimple (isSimple_value h)]
  · rw [htext, stripQuotes?_quoted hpair]

lemma segmentsFrom_text_append (h : i.isSimple) {u p : Text}
    (hu : segmentsFrom none u = p :: ps) :
    segmentsFrom none (i.text.toList ++ u) = (i.text.toList ++ p) :: ps := by
  rcases toList_text h with htext | ⟨first, last, hpair, hlast, htext⟩
  · rw [htext]
    exact segmentsFrom_append (fun c hc => isSimpleChar_of_mem (isSimple_value h) hc) hu
  · have hquoted := segmentsFrom_quoted hlast hu
    simp only [isQuotePair, Bool.or_eq_true, Bool.and_eq_true, beq_iff_eq] at hpair
    rcases hpair with (⟨rfl, rfl⟩ | ⟨rfl, rfl⟩) | ⟨rfl, rfl⟩ <;>
      simp [htext, segmentsFrom, hquoted]

end Ident

lemma segments_text {n : ObjectName} (hne : n ≠ []) (h : ∀ i ∈ n, i.isSimple) :
    segments (ObjectName.text n).toList = n.map (·.text.toList) := by
  have hjoin : (ObjectName.text n).toList = join ['.'] (n.map (·.text.toList)) := by
    rw [ObjectName.text, String.toList_intercalate, map_map, join_eq_intercalate]
    rfl
  rw [hjoin]
  exact segments_join (by simpa using hne) (forall_mem_map.mpr fun i hi _ _ _ hu =>
    Ident.segmentsFrom_text_append (h i hi) hu)

end Sql

lemma Name.not_isBlank_of_mem_join (h : ∀ p ∈ ps, isSimple p) {c : Char}
    (hc : c ∈ join ['.'] ps) : isBlank c = false := by
  rcases mem_of_mem_join hc with hdot | ⟨p, hp, hc⟩
  · rw [mem_singleton.mp hdot]
    decide
  · exact not_isBlank_of_isSimpleChar (isSimpleChar_of_mem (h p hp) hc)

/-- **A written name of simple identifiers** stands for what its identifiers stand for. -/
lemma ofChain?_text {n : Sql.ObjectName} (hne : n ≠ []) (h : ∀ i ∈ n, i.isSimple) :
    ∃ q, ofChain? (Sql.ObjectName.text n).toList = some q ∧
      ofParts? (n.map (·.value)) = some q := by
  obtain ⟨is, i, rfl⟩ : ∃ is i, n = is ++ [i] := ⟨_, _, (dropLast_append_getLast hne).symm⟩
  have hvalues : ∀ v ∈ is.map (·.value.toList) ++ [i.value.toList], isSimple v := by
    have hall : ∀ v ∈ (is ++ [i]).map (·.value.toList), isSimple v :=
      forall_mem_map.mpr fun i hi => Sql.Ident.isSimple_value (h i hi)
    rwa [map_append] at hall
  have hstrip : (segments (Sql.ObjectName.text (is ++ [i])).toList).filterMap stripQuotes? =
      is.map (·.value.toList) ++ [i.value.toList] := by
    rw [Sql.segments_text hne h, filterMap_map]
    exact (filterMap_eq_map_iff_forall_eq_some.mpr fun i hi =>
      Sql.Ident.stripQuotes?_text (h i hi)).trans map_append
  have hbare := fun v hv => isBare_of_isSimple (hvalues v hv)
  have hparts := ofParts?_eq_ofValues fun v hv => (hbare v hv).trim_ne_nil
  have hdot := dot_notMem_of_isSimple (hvalues i.value.toList (by simp))
  exact ⟨_, ofChain?_eq_ofValues hstrip hbare hdot, by simpa [Function.comp_def] using hparts⟩

end SqlOutline
