import SqlOutline.Analysis
import SqlOutline.Proofs.Trigger.Shape

/-!
# Headers that start inside headers

The body of a MySQL trigger is looked for between its header and the next one, which starts inside
the header if that breaks off before the name of its table.

## Main results

* `exists_create_of_header_inside` — where a header can start inside another.
* `scanTriggers?_eq_none_iff` — texts without a scan.
-/

namespace SqlOutline

open List Text Pattern

namespace TriggerScan

/-! ## Searches for headers -/

lemma proper_of_create {ps : List Pattern}
    (h : (all (.boundary :: lit "CREATE" :: ps)).floats) :
    (all (.boundary :: lit "CREATE" :: ps)).Proper := by
  refine ⟨h, fun b r hnil => ?_⟩
  obtain ⟨y, z, hyz, -, hz⟩ := spells_all_cons_iff.mp hnil
  obtain ⟨-, rfl⟩ := append_eq_nil_iff.mp hyz.symm
  obtain ⟨w, z, hwz, hw, -⟩ := spells_all_cons_iff.mp hz
  obtain ⟨rfl, -⟩ := append_eq_nil_iff.mp hwz.symm
  exact absurd (List.Forall₂.length_eq (spells_lit_iff.mp hw)) (by decide)

lemma proper_mysqlHeader : mysqlHeader.Proper := proper_of_create rfl

lemma proper_anyHeader : anyHeader.Proper := proper_of_create rfl

section Inside

variable {t : Text} {m h : Found}

lemma exists_of_mem_anyHeader (hh : h ∈ anyHeader.findAll t) :
    ∃ a w s o d k u, (Cursor.ofText t).Reaches a h.start ∧
      h.start.Reaches (w ++ (s ++ (o ++ (d ++ (k ++ u))))) h.stop ∧
      IsAnyStart w s o d k u h.stop.rest := by
  obtain ⟨⟨a, ha⟩, hmatch⟩ := proper_anyHeader.of_mem_findAllFrom hh
  obtain ⟨x, -, hx, hspells⟩ := proper_anyHeader.exists_of_matchAt? hmatch
  obtain ⟨w, s, o, d, k, u, rfl, hstart⟩ := of_spells_anyHeader hspells
  exact ⟨a, w, s, o, d, k, u, ha, hx, hstart⟩

/-- **The next header starts behind the account**: at the start of a header with an account, a
header of any trigger with the same account is found. -/
lemma exists_append_of_isDefiner {a w s d u z p : Text}
    (hplace : (Cursor.ofText t).Reaches a m.start)
    (hrest : m.start.rest = w ++ (s ++ (d ++ (u ++ z)))) (hstart : IsStart w s d u)
    (hd : IsDefiner d) (hb : isWordBoundary m.start.before m.start.rest.head?)
    (hz : z.head?.any isWordChar = false) (hh : h ∈ anyHeader.findAll t)
    (hp : m.start.Reaches p h.start) (hlt : m.start.offset < h.start.offset) :
    ∃ b, p = w ++ (s ++ (d ++ b)) := by
  have hany : Pattern.Spells anyHeader m.start.before (w ++ (s ++ (d ++ u))) z :=
    hstart.spells_anyHeader (by simpa [hrest] using hb) hz
  have hrest' : m.start.rest = w ++ (s ++ (d ++ u)) ++ z := by simp [hrest]
  obtain ⟨g, hg, hle, hover⟩ :=
    proper_anyHeader.exists_mem_findAllFrom hplace (isSome_matchAt?_of_spells hany hrest')
  obtain ⟨a', w', s', o', d', k', u', ha', hx', hgstart⟩ := exists_of_mem_anyHeader hg
  obtain ⟨e, he, rfl⟩ := ha'.of_offset_le hplace hle
  obtain ⟨f, hf, hsplit⟩ := hplace.of_offset_le (ha'.trans hx') (Nat.le_of_lt hover)
  rw [append_assoc] at hsplit
  have hparts := append_cancel_left hsplit
  have hplaces : f ++ g.stop.rest = w ++ (s ++ (d ++ (u ++ z))) := by rw [← hf.rest, hrest]
  obtain rfl := hgstart.eq_nil_of_isDefiner hparts (hf.ne_nil hover) hstart hd hplaces
  obtain ⟨y, hy⟩ := hgstart.exists_of_isDefiner hstart hd (by rw [hparts, nil_append, hplaces])
  have hstop : g.stop.offset ≤ h.start.offset :=
    proper_anyHeader.stop_le_start hg hh (Nat.lt_of_le_of_lt hle hlt)
  obtain ⟨b, -, rfl⟩ := hf.of_offset_le hp hstop
  obtain rfl : _ = f := hy.symm.trans hparts
  exact ⟨y ++ b, by simp⟩

/-- **Where a header can start inside another** in a text without quotes: at the word `CREATE` with
which the other ends. -/
lemma exists_create_of_header_inside (ht : Unquoted t) (hm : m ∈ mysqlHeader.findAll t)
    (hh : h ∈ anyHeader.findAll t) (hstart : m.start.offset < h.start.offset)
    (hstop : h.start.offset < m.stop.offset) :
    ∃ x, Spelled "CREATE" x ∧ h.start.Reaches x m.stop := by
  obtain ⟨⟨a, ha⟩, hmatch⟩ := proper_mysqlHeader.of_mem_findAllFrom hm
  obtain ⟨x, -, hx, hspells⟩ := proper_mysqlHeader.exists_of_matchAt? hmatch
  obtain ⟨a', w', s', o', d', k', u', ha', hx', hany⟩ := exists_of_mem_anyHeader hh
  -- the place of the inner header
  obtain ⟨p, hp, rfl⟩ := ha.of_offset_le ha' (Nat.le_of_lt hstart)
  obtain ⟨q, hq, hsplit⟩ := ha'.of_offset_le (ha.trans hx) (Nat.le_of_lt hstop)
  rw [append_assoc] at hsplit
  obtain rfl := append_cancel_left hsplit
  have hannounced : Announces (q ++ m.stop.rest) := by
    rw [← hq.rest, hx'.rest]
    exact hany.announces
  -- the parts of the outer header
  have hunquoted : Unquoted m.start.rest := Unquoted.of_reaches (k := Cursor.ofText t) ht ha
  have hend := not_isIdentChar_of_matchAt? hunquoted hmatch
  obtain ⟨hb, w, s, d, u, y, v, hparts, hheader⟩ := of_spells_mysqlHeader
    (fun c hc => hunquoted c (by rw [hx.rest]; exact mem_append_left _ hc)) hspells
  suffices hbehind : ∃ b, u ++ (y ++ v) = b ++ q by
    obtain ⟨b, hb⟩ := hbehind
    exact ⟨q, hheader.spelled_of_announces hend hb hannounced, hq⟩
  rcases hheader.account with rfl | hd
  · obtain ⟨b, -, hb⟩ := exists_of_announces_of_create hheader.create hheader.blank hparts.symm
      (hp.ne_nil hstart) hannounced
    exact ⟨b, hb⟩
  · obtain ⟨c, z, rfl, hc⟩ := hheader.gap
    have hrest : m.start.rest = w ++ (s ++ (d ++ (u ++ (c :: z ++ v ++ m.stop.rest)))) := by
      rw [hx.rest, hparts]
      simp
    rw [← hx.rest] at hb
    obtain ⟨b, rfl⟩ := exists_append_of_isDefiner ha hrest hheader.toIsStart hd hb
      (by simp [isWordChar_eq_false_of_isBlank hc]) hh hp hstart
    exact ⟨b, by simpa using hparts.symm⟩

lemma add_six_lt_of_mem_mysqlHeader (hm : m ∈ mysqlHeader.findAll t) :
    m.start.offset + 6 < m.stop.offset := by
  obtain ⟨-, hmatch⟩ := proper_mysqlHeader.of_mem_findAllFrom hm
  obtain ⟨x, -, hx, hspells⟩ := proper_mysqlHeader.exists_of_matchAt? hmatch
  obtain ⟨_, x, rfl, -, hspells⟩ := spells_all_cons_iff.mp hspells
  obtain ⟨w, x, rfl, hw, hspells⟩ := spells_all_cons_iff.mp hspells
  obtain ⟨s, x, rfl, hs, -⟩ := spells_all_cons_iff.mp hspells
  obtain ⟨c, s, rfl⟩ := exists_cons_of_ne_nil (spells_blanks_iff.mp hs).1
  have hpos := Char.utf8Size_pos c
  have hsix := byteLength_of_create (spells_lit_iff.mp hw)
  rw [hx.offset]
  simp only [byteLength_append, byteLength_cons]
  omega

end Inside

/-! ## The text behind a header -/

lemma exists_find?_le {l : List Nat} (hl : l.Pairwise (· ≤ ·)) {f : Nat → Bool} {n : Nat}
    (hn : n ∈ l) (hf : f n) : ∃ k, l.find? f = some k ∧ k ≤ n := by
  induction hl with
  | nil => cases hn
  | @cons a l ha _ ih =>
    by_cases hfa : f a
    · refine ⟨a, find?_cons_of_pos hfa, ?_⟩
      rcases mem_cons.mp hn with rfl | hn
      · exact Nat.le_refl n
      · exact ha n hn
    · rcases mem_cons.mp hn with rfl | hn
      · exact absurd hf hfa
      · rw [find?_cons_of_neg hfa]
        exact ih hn

/-- **Headers without a text behind them** are those inside which another header starts. -/
lemma tail?_eq_none_iff {t : Text} {m : Found} (hm : m ∈ mysqlHeader.findAll t) :
    tail? (byteLength t) ((anyHeader.findAll t).map (·.start.offset)) m = none ↔
      ∃ h ∈ anyHeader.findAll t, m.start.offset < h.start.offset ∧
        h.start.offset < m.stop.offset := by
  have hsorted : ((anyHeader.findAll t).map (·.start.offset)).Pairwise (· ≤ ·) := by
    rw [pairwise_map]
    refine (proper_anyHeader.pairwise_findAllFrom none 0 t).imp_of_mem fun {f g} hf _ hle => ?_
    obtain ⟨_, _, _, _, _, _, _, -, hx, -⟩ := exists_of_mem_anyHeader hf
    exact Nat.le_trans (hx.offset ▸ Nat.le_add_right _ _) hle
  have hend : m.stop.offset ≤ byteLength t := by
    obtain ⟨⟨a, ha⟩, hmatch⟩ := proper_mysqlHeader.of_mem_findAllFrom hm
    obtain ⟨x, -, hx, -⟩ := proper_mysqlHeader.exists_of_matchAt? hmatch
    have hrest : t = a ++ x ++ m.stop.rest := (ha.trans hx).rest
    have hoffset : m.stop.offset = 0 + byteLength (a ++ x) := (ha.trans hx).offset
    rw [hoffset, hrest, byteLength_append (a ++ x)]
    omega
  have hnone : tail? (byteLength t) ((anyHeader.findAll t).map (·.start.offset)) m = none ↔
      tailEnd (byteLength t) ((anyHeader.findAll t).map (·.start.offset)) m < m.stop.offset := by
    simp [tail?]
  rw [hnone, tailEnd]
  constructor
  · intro hlt
    cases hfind : ((anyHeader.findAll t).map (·.start.offset)).find? (m.start.offset < ·) with
    | none =>
      rw [hfind, Option.getD_none] at hlt
      exact absurd hend (Nat.not_le.mpr hlt)
    | some n =>
      rw [hfind, Option.getD_some] at hlt
      obtain ⟨h, hh, rfl⟩ := mem_map.mp (mem_of_find?_eq_some hfind)
      exact ⟨h, hh, by simpa using find?_some hfind, hlt⟩
  · rintro ⟨h, hh, hstart, hstop⟩
    obtain ⟨n, hn, hle⟩ := exists_find?_le (f := (m.start.offset < ·)) hsorted
      (mem_map_of_mem hh) (decide_eq_true hstart)
    rw [hn, Option.getD_some]
    exact Nat.lt_of_le_of_lt hle hstop

end TriggerScan

/-! ## Texts without a scan -/

open TriggerScan

lemma mapM_eq_none_iff {α β : Type} {f : α → Option β} {xs : List α} :
    xs.mapM f = none ↔ ∃ x ∈ xs, f x = none := by
  induction xs with
  | nil => simp
  | cons x xs ih =>
    rw [mapM_cons]
    cases hx : f x with
    | none => simp [hx]
    | some y =>
      cases hxs : xs.mapM f <;> simp_all

lemma scanTriggers?_eq_none_iff_tail? (t : Text) : scanTriggers? t = none ↔
      ∃ m ∈ mysqlHeader.findAll t,
        m.start.offset ∉ (postgresHeader.findAll t).map (·.start.offset) ∧
          tail? (byteLength t) ((anyHeader.findAll t).map (·.start.offset)) m = none := by
  rw [scanTriggers?]
  dsimp only
  have hmissing : ∀ {α : Type} {o : Option α} {f : α → TriggerScan},
      (o >>= fun a => pure (f a)) = none ↔ o = none := by
    intro α o f
    cases o <;> simp
  rw [hmissing, mapM_eq_none_iff]
  constructor
  · rintro ⟨m, hm, htail⟩
    obtain ⟨hm, hfree⟩ := mem_filter.mp hm
    exact ⟨m, hm, by simpa using hfree, htail⟩
  · rintro ⟨m, hm, hfree, htail⟩
    exact ⟨m, mem_filter.mpr ⟨hm, by simpa using hfree⟩, htail⟩

lemma analyzeFile?_eq_none_iff (path : String) (t : Text) (hide : Bool) :
    analyzeFile? path t hide = none ↔ scanTriggers? t = none := by
  rw [analyzeFile?]
  cases scanTriggers? t with
  | none => simp
  | some scan => simp

/-- **Texts without a scan**: a text without quotes has neither a scan nor a report exactly if a
header of a MySQL trigger, which is none of PostgreSQL, ends with the word `CREATE` of another
header. -/
theorem scanTriggers?_eq_none_iff {t : Text} (ht : Unquoted t) :
    (scanTriggers? t = none ↔
      ∃ m ∈ mysqlHeader.findAll t,
        m.start.offset ∉ (postgresHeader.findAll t).map (·.start.offset) ∧
          ∃ h ∈ anyHeader.findAll t, ∃ x, Spelled "CREATE" x ∧ h.start.Reaches x m.stop) ∧
      ∀ path hide, analyzeFile? path t hide = none ↔ scanTriggers? t = none := by
  refine ⟨?_, fun path hide => analyzeFile?_eq_none_iff path t hide⟩
  rw [scanTriggers?_eq_none_iff_tail?]
  constructor
  · rintro ⟨m, hm, hfree, htail⟩
    obtain ⟨h, hh, hstart, hstop⟩ := (tail?_eq_none_iff hm).mp htail
    exact ⟨m, hm, hfree, h, hh, exists_create_of_header_inside ht hm hh hstart hstop⟩
  · rintro ⟨m, hm, hfree, h, hh, x, hx, hreach⟩
    have hlong := add_six_lt_of_mem_mysqlHeader hm
    have hoffset := hreach.offset
    rw [byteLength_of_create hx] at hoffset
    exact ⟨m, hm, hfree, (tail?_eq_none_iff hm).mpr ⟨h, hh, by omega, by omega⟩⟩

/-- An account may have the name `CREATE`. -/
theorem scanTriggers?_ne_none_account :
    let t := "CREATE DEFINER = CREATE TRIGGER a BEFORE INSERT ON b CREATE TRIGGER".toList
    Unquoted t ∧ scanTriggers? t ≠ none ∧
      ¬ ∃ m ∈ mysqlHeader.findAll t,
        m.start.offset ∉ (postgresHeader.findAll t).map (·.start.offset) ∧
          ∃ h ∈ anyHeader.findAll t, ∃ x, Spelled "CREATE" x ∧ h.start.Reaches x m.stop := by
  intro t
  have ht : Unquoted t := by decide
  have hscan : scanTriggers? t ≠ none := by decide +kernel
  exact ⟨ht, hscan, fun hinside => hscan ((scanTriggers?_eq_none_iff ht).1.mpr hinside)⟩

/-- A header that breaks off before the name of its table takes the first word of the next one. -/
theorem scanTriggers?_eq_none_truncated :
    let t := "CREATE TRIGGER a BEFORE INSERT ON CREATE TRIGGER".toList
    Unquoted t ∧ scanTriggers? t = none ∧ analyzeFile? "input.sql" t false = none := by
  refine ⟨by decide, by decide +kernel, by decide +kernel⟩

end SqlOutline
