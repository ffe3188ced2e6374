import SqlOutline.Proofs.Pattern.Shift
import SqlOutline.Proofs.Trigger.Overlap

/-!
# Triggers of a text that goes on

What a PostgreSQL trigger calls is looked for from its header to the end of the text, so a trigger
without a call of its own calls what the first call behind the text calls.

## Main definitions

* `Local`, `SameButCalls` — patterns that stay in a text, and triggers that differ in calls.

## Main results

* `Local.exists_findAll_append` — matches of a text that goes on.
* `scanTriggers?_append` — triggers of a text that goes on.
-/

namespace SqlOutline

open Option Bool Text Pattern
open List hiding all find?

namespace TriggerScan

/-! ## Semicolons -/

def avoids (d : Char) : Pattern → Bool
  | .empty | .boundary | .atStart | .atEnd => true
  | .one f => !f d
  | .seq p q | .alt p q => avoids d p && avoids d q
  | .many _ p | .group _ p => avoids d p

variable {d : Char} {p : Pattern} {b : Option Char} {x r y t : Text} {m : Found}

lemma not_mem_of_avoids (hp : avoids d p) (h : p.Spells b x r) : d ∉ x := by
  induction h with
  | empty | boundary | stop => exact not_mem_nil
  | one hc =>
    intro hd
    obtain rfl := mem_singleton.mp hd
    rw [avoids, hc] at hp
    cases hp
  | seq _ _ ihp ihq =>
    obtain ⟨hp, hq⟩ := and_eq_true_iff.mp hp
    exact fun hd => (mem_append.mp hd).elim (ihp hp) (ihq hq)
  | altLeft _ ih => exact ih (and_eq_true_iff.mp hp).1
  | altRight _ ih => exact ih (and_eq_true_iff.mp hp).2
  | round _ _ _ ihp ihmore => exact fun hd => (mem_append.mp hd).elim (ihp hp) (ihmore hp)
  | group _ ih => exact ih hp

def moves : Pattern → Bool
  | .empty | .boundary | .atStart | .atEnd | .many _ _ => false
  | .one _ => true
  | .seq p q => moves p || moves q
  | .alt p q => moves p && moves q
  | .group _ p => moves p

lemma ne_nil_of_moves (hp : moves p) (h : p.Spells b x r) : x ≠ [] := by
  induction h with
  | empty | boundary | stop => cases hp
  | one _ => exact cons_ne_nil _ _
  | seq _ _ ihp ihq =>
    rcases or_eq_true_iff.mp hp with hp | hq
    · exact append_ne_nil_of_left_ne_nil (ihp hp) _
    · exact append_ne_nil_of_right_ne_nil _ (ihq hq)
  | altLeft _ ih => exact ih (and_eq_true_iff.mp hp).1
  | altRight _ ih => exact ih (and_eq_true_iff.mp hp).2
  | round hx _ _ => exact append_ne_nil_of_left_ne_nil hx _
  | group _ ih => exact ih hp

def endsOff (d : Char) : Pattern → Bool
  | .empty | .boundary | .atStart | .atEnd => true
  | .one f => !f d
  | .seq p q => endsOff d q && (moves q || endsOff d p)
  | .alt p q => endsOff d p && endsOff d q
  | .many _ p | .group _ p => endsOff d p

lemma getLast?_append_ne (hy : y.getLast? ≠ some d)
    (hx : y = [] → x.getLast? ≠ some d) : (x ++ y).getLast? ≠ some d := by
  rw [getLast?_append]
  cases hlast : y.getLast? with
  | none => exact hx (getLast?_eq_none_iff.mp hlast)
  | some c => rwa [hlast] at hy

lemma getLast?_ne_of_endsOff (hp : endsOff d p) (h : p.Spells b x r) :
    x.getLast? ≠ some d := by
  induction h with
  | empty | boundary | stop => simp
  | one hc =>
    intro hlast
    rw [getLast?_singleton] at hlast
    obtain rfl := some.inj hlast
    rw [endsOff, hc] at hp
    cases hp
  | seq _ hq ihp ihq =>
    obtain ⟨hend, hp⟩ := and_eq_true_iff.mp hp
    refine getLast?_append_ne (ihq hend) fun hnil => ?_
    rcases or_eq_true_iff.mp hp with hmoves | hp
    · exact absurd hnil (ne_nil_of_moves hmoves hq)
    · exact ihp hp
  | altLeft _ ih => exact ih (and_eq_true_iff.mp hp).1
  | altRight _ ih => exact ih (and_eq_true_iff.mp hp).2
  | round _ _ _ ihp ihmore => exact getLast?_append_ne (ihmore hp) fun _ => ihp hp
  | group _ ih => exact ih hp

def Shields (p : Pattern) : Prop :=
  ∀ b x r, p.Spells b x r → ∀ u v, x = u ++ ';' :: v → ¬ Unquoted u

lemma not_unquoted_of_append {u v : Text} (hx : ∀ u v, x = u ++ ';' :: v → ¬ Unquoted u)
    (hy : ∀ u v, y = u ++ ';' :: v → ¬ Unquoted u) (h : x ++ y = u ++ ';' :: v) : ¬ Unquoted u := by
  rcases append_eq_append_iff.mp h with ⟨w, rfl, hw⟩ | ⟨w, rfl, hw⟩
  · exact fun hu => hy w v hw fun c hc => hu c (mem_append_right x hc)
  · cases w with
    | nil => exact fun hu => hy [] v hw.symm (by simp [Unquoted])
    | cons c w =>
      obtain ⟨rfl, rfl⟩ := cons.inj hw
      exact hx u w rfl

section Shields

variable {p q : Pattern}

lemma shields_of_avoids (hp : avoids ';' p) : Shields p := by
  rintro b _ r h u v rfl
  exact absurd (mem_append_right u mem_cons_self) (not_mem_of_avoids hp h)

lemma Shields.all_cons {ps : List Pattern} (hp : Shields p) (hps : Shields (all ps)) :
    Shields (all (p :: ps)) := by
  intro b x r h u v hx
  obtain ⟨y, z, rfl, hy, hz⟩ := spells_all_cons_iff.mp h
  exact not_unquoted_of_append (hp _ _ _ hy) (hps _ _ _ hz) hx

lemma Shields.alt (hp : Shields p) (hq : Shields q) : Shields (.alt p q) := by
  intro b x r h
  rcases spells_alt_iff.mp h with h | h
  · exact hp b x r h
  · exact hq b x r h

lemma Shields.group (hp : Shields p) (n : Nat) : Shields (.group n p) :=
  fun b x r h => hp b x r (spells_group_iff.mp h)

lemma Shields.many (hp : Shields p) (greedy : Bool) : Shields (.many greedy p) := by
  intro b x r h
  generalize hq : Pattern.many greedy p = q at h
  induction h with
  | stop => simp
  | round _ hx _ _ ih =>
    obtain ⟨rfl, rfl⟩ := many.inj hq
    exact fun u v => not_unquoted_of_append (hp _ _ _ hx) (ih rfl)
  | _ => cases hq

lemma shields_quoted {c : Char} (hc : ¬ Unquoted [c]) (hsemi : c ≠ ';') (ps : List Pattern) :
    Shields (all (char c :: ps)) := by
  intro b x r h u v hx
  obtain ⟨y, z, rfl, hy, -⟩ := spells_all_cons_iff.mp h
  obtain rfl := spells_char_iff.mp hy
  cases u with
  | nil => exact absurd (cons.inj hx).1 hsemi
  | cons d u =>
    obtain ⟨rfl, -⟩ := cons.inj hx
    exact fun hu => hc fun e he => hu e (mem_singleton.mp he ▸ mem_cons_self)

lemma shields_qualified : Shields qualified := by
  have hident : Shields ident :=
    (shields_quoted (by decide) (by decide) _).alt <|
      (shields_quoted (by decide) (by decide) _).alt <|
        (shields_quoted (by decide) (by decide) _).alt (shields_of_avoids rfl)
  have hdotted : Shields (all [blanks0, char '.', blanks0, ident]) :=
    (shields_of_avoids rfl).all_cons <| (shields_of_avoids rfl).all_cons <|
      (shields_of_avoids rfl).all_cons hident
  have hqualified : Shields (all [ident, .many true (all [blanks0, char '.', blanks0, ident])]) :=
    hident.all_cons (hdotted.many true)
  exact hqualified

end Shields

/-- A pattern that neither ends in a semicolon nor passes one outside quotes. -/
structure Local (p : Pattern) : Prop where
  proper : p.Proper
  shields : Shields p
  last : ∀ b x r, p.Spells b x r → x.getLast? ≠ some ';'

lemma local_postgresHeader : Local postgresHeader where
  proper := proper_of_create rfl
  shields := by
    unfold postgresHeader
    iterate 7 refine (shields_of_avoids rfl).all_cons ?_
    refine (shields_qualified.group 2).all_cons ?_
    iterate 7 refine (shields_of_avoids rfl).all_cons ?_
    refine (shields_qualified.group 5).all_cons ?_
    exact shields_of_avoids rfl
  last := fun _ _ _ h => getLast?_ne_of_endsOff rfl h

lemma local_triggerCall : Local triggerCall where
  proper := ⟨rfl, fun _ _ h => ne_nil_of_moves rfl h rfl⟩
  shields := by
    unfold triggerCall
    iterate 5 refine (shields_of_avoids rfl).all_cons ?_
    refine (shields_qualified.group 2).all_cons ?_
    exact shields_of_avoids rfl
  last := fun _ _ _ h => getLast?_ne_of_endsOff rfl h

/-! ## Texts with a semicolon at the end -/

section Semicolon

variable {p : Pattern} {t y : Text}

lemma extends_ofText (ht : t.getLast? = some ';') (y : Text) :
    Cursor.Extends t y (byteLength t) ⟨none, t, 0, []⟩ ⟨none, t ++ y, 0, []⟩ where
  rest := rfl
  before := rfl
  offset := rfl
  groups := rfl
  suffix := suffix_rfl
  end_eq := Nat.zero_add _
  last := by
    rw [ht]
    rfl

lemma Local.offset_ne (hp : Local p) (ht : t.getLast? = some ';') {a : Text} {k l : Cursor}
    (hk : (Cursor.ofText (t ++ y)).Reaches a k) (h : p.matchAt? k = some l) :
    l.offset ≠ byteLength t := by
  intro hend
  obtain ⟨x, hne, hl, hspells⟩ := hp.proper.exists_of_matchAt? h
  have hreach := hk.trans hl
  have hoffset : l.offset = 0 + byteLength (a ++ x) := hreach.offset
  have hrest : t ++ y = a ++ x ++ l.rest := hreach.rest
  obtain ⟨rfl, -⟩ := append_inj_of_byteLength hrest (by omega)
  rw [getLast?_append_of_ne_nil _ hne] at ht
  exact hp.last _ _ _ hspells ht

lemma Local.offset_lt (hp : Local p) (ht : t.getLast? = some ';') (hquote : Unquoted t) {a : Text}
    {k l : Cursor} (hk : (Cursor.ofText (t ++ y)).Reaches a k) (h : p.matchAt? k = some l)
    (hstart : k.offset < byteLength t) : l.offset < byteLength t := by
  refine lt_of_le_of_ne (Nat.not_lt.mp fun hlt => ?_) (hp.offset_ne ht hk h)
  obtain ⟨x, -, hl, hspells⟩ := hp.proper.exists_of_matchAt? h
  have hoffset : k.offset = 0 + byteLength a := hk.offset
  have hoffset' := hl.offset
  have hrest : t ++ y = a ++ k.rest := hk.rest
  -- The text ends behind the start of the match, and the match behind the end of the text.
  rcases append_eq_append_iff.mp hrest with ⟨w, rfl, -⟩ | ⟨u, rfl, hu⟩
  · rw [byteLength_append] at hoffset
    omega
  · rw [hl.rest] at hu
    rcases append_eq_append_iff.mp hu with ⟨v, rfl, -⟩ | ⟨v, rfl, -⟩
    · rw [byteLength_append, byteLength_append] at *
      omega
    · have hne : u ≠ [] := by
        rintro rfl
        rw [append_nil] at hstart
        omega
      rw [getLast?_append_of_ne_nil _ hne] at ht
      obtain ⟨w, rfl⟩ := getLast?_eq_some_iff.mp ht
      refine hp.shields _ _ _ hspells w v (by simp) fun c hc => hquote c ?_
      exact mem_append_right a (mem_append_left _ hc)

/-- **Matches of a text that goes on**: those that lie in the text are the first matches of the
text, and all of them if the text is unquoted. -/
lemma Local.exists_findAll_append (hp : Local p) (ht : t.getLast? = some ';') (y : Text) :
    ∃ ms ms', ms <+: p.findAll t ∧ ms' <+: p.findAll (t ++ y) ∧
      ms' = (p.findAll (t ++ y)).filter (·.stop.offset ≤ byteLength t) ∧
      List.Forall₂ (Found.Extends t y (byteLength t)) ms ms' ∧
      (Unquoted t → ms = p.findAll t) := by
  obtain ⟨ms, ms', more, more', hms, hms', hsame, hout, hmore⟩ :=
    hp.proper.exists_findAllFrom_append (extends_ofText ht y)
  have hin : ∀ m' ∈ ms', m'.stop.offset ≤ byteLength t := by
    clear hms hms'
    induction hsame with
    | nil => simp
    | cons hm _ ih =>
      have hend := hm.stop.end_eq
      have hoffset := hm.stop.offset
      exact forall_mem_cons.mpr ⟨by omega, ih⟩
  have hplace : ∀ m' ∈ more', m' ∈ p.findAll (t ++ y) := by
    intro m' hm'
    rw [findAll, hms']
    exact mem_append_right ms' hm'
  have hfilter : ms' = (p.findAll (t ++ y)).filter (·.stop.offset ≤ byteLength t) := by
    have hnone : more'.filter (·.stop.offset ≤ byteLength t) = [] := by
      refine filter_eq_nil_iff.mpr fun m' hm' => ?_
      obtain ⟨⟨a, ha⟩, hmatch⟩ := hp.proper.of_mem_findAllFrom (hplace m' hm')
      have hne := hp.offset_ne ht ha hmatch
      have hle := hout m' hm'
      simp only [decide_eq_true_eq]
      omega
    have hall : ms'.filter (·.stop.offset ≤ byteLength t) = ms' :=
      filter_eq_self.mpr fun m' hm' => decide_eq_true (hin m' hm')
    rw [findAll, hms', filter_append, hnone, hall, append_nil]
  refine ⟨ms, ms', ⟨more, hms.symm⟩, ⟨more', hms'.symm⟩, hfilter, hsame, fun hquote => ?_⟩
  rw [findAll, hms]
  cases more with
  | nil => rw [append_nil]
  | cons m more =>
    obtain ⟨m', hm', hstart⟩ := hmore (cons_ne_nil _ _)
    obtain ⟨⟨a, ha⟩, hmatch⟩ := hp.proper.of_mem_findAllFrom (hplace m' hm')
    have hlt := hp.offset_lt ht hquote ha hmatch hstart
    have hle := hout m' hm'
    omega

end Semicolon

/-! ## Calls -/

lemma calledUsage_congr {u : Text}
    (h : Option.Rel (fun m m' => ∀ n, Found.text? m' n = m.text? n) (triggerCall.find? t)
      (triggerCall.find? u)) : calledUsage u = calledUsage t := by
  rw [calledUsage, calledUsage]
  generalize triggerCall.find? t = o at h ⊢
  generalize triggerCall.find? u = o' at h ⊢
  cases h with
  | none => rfl
  | some h => simp only [h]

section Calls

variable {x : Text}

lemma calledUsage_append_of_le (hx : x.getLast? = some ';') {y : Text} {f : Found}
    (hf : triggerCall.find? (x ++ y) = some f) (hle : f.stop.offset ≤ byteLength x) :
    calledUsage (x ++ y) = calledUsage x := by
  obtain ⟨⟨a, ha⟩, hmatch, -⟩ := of_findFrom?_eq_some hf
  have hne := local_triggerCall.offset_ne hx ha hmatch
  obtain ⟨m, hm, hext⟩ := (findFrom?_of_extends local_triggerCall.proper.floats
    (extends_ofText hx y)).1 f hf (by omega)
  have hm : triggerCall.find? x = some m := hm
  apply calledUsage_congr
  rw [hf, hm]
  exact .some hext.text?_eq

lemma findFrom?_triggerCall_append (hx : x.getLast? = some ';') (hquote : Unquoted x)
    (hnone : triggerCall.find? x = none) (y : Text) :
    triggerCall.find? (x ++ y) = triggerCall.findFrom? (some ';') (0 + byteLength x) y := by
  rw [find?, findFrom?_append, hx, some_or]
  intro z k hk hlt
  rw [Nat.zero_add] at hlt
  cases hfind : triggerCall.findFrom? none 0 (x ++ y) with
  | none => exact matchAt?_eq_none_of_findFrom?_eq_none hfind hk
  | some f =>
    obtain ⟨⟨a, ha⟩, hmatch, hleft⟩ := of_findFrom?_eq_some hfind
    refine hleft z k hk (Nat.not_le.mp fun hle => ?_)
    have hin := local_triggerCall.offset_lt hx hquote ha hmatch (by omega)
    obtain ⟨m, hm, -⟩ := (findFrom?_of_extends local_triggerCall.proper.floats
      (extends_ofText hx y)).1 f hfind hin
    rw [find?, hm] at hnone
    cases hnone

/-- **What is called in an unquoted text that goes on**: what its first call calls, or without a
call what is called behind it. -/
lemma calledUsage_append (hx : x.getLast? = some ';') (hquote : Unquoted x) (y : Text) :
    calledUsage (x ++ y) = if triggerCall.isIn x then calledUsage x else calledUsage y := by
  have hfloats := local_triggerCall.proper.floats
  cases hfind : triggerCall.find? x with
  | some m =>
    rw [isIn, hfind, if_pos (by rfl)]
    obtain ⟨m', hm', hle⟩ := (findFrom?_of_extends hfloats (extends_ofText hx y)).2 m hfind
    obtain ⟨⟨a, ha⟩, hmatch, -⟩ := of_findFrom?_eq_some hm'
    have hstart := local_triggerCall.proper.start_lt_of_findFrom? hfind
    have hlt := local_triggerCall.offset_lt hx hquote ha hmatch (by omega)
    exact calledUsage_append_of_le hx hm' (Nat.le_of_lt hlt)
  | none =>
    rw [isIn, hfind, if_neg (by simp)]
    apply calledUsage_congr
    rw [findFrom?_triggerCall_append hx hquote hfind y]
    have hshift : Cursor.Shifts (0 + byteLength x) ⟨none, y, 0, []⟩
        ⟨some ';', y, 0 + byteLength x, []⟩ := ⟨rfl, rfl, rfl, rfl⟩
    have hrel := shifts_findFrom? hfloats hshift
    rw [find?]
    generalize triggerCall.findFrom? none 0 y = o at hrel ⊢
    generalize triggerCall.findFrom? (some ';') (0 + byteLength x) y = o' at hrel ⊢
    cases hrel with
    | none => exact .none
    | some h => exact .some h.text?_eq

end Calls

/-! ## Triggers -/

/-- What the header `m` of a text yields, and what the same header `m'` yields if the text goes on
with `y`: the same trigger, except that the call is looked for in the longer text. -/
structure SameButCalls (y : Text) (m m' : Found) : Prop where
  start : m'.start.offset = m.start.offset
  stop : m'.stop.offset = m.stop.offset
  trigger : postgresTrigger? m' = (postgresTrigger? m).map fun trigger =>
    { trigger with usage := calledUsage (m.start.rest ++ y) }
  /-- A first call that lies in the text is found in both. -/
  calls_inside : ∀ f, triggerCall.find? (m.start.rest ++ y) = some f →
    f.stop.offset ≤ byteLength m.start.rest → postgresTrigger? m' = postgresTrigger? m
  /-- Behind the header of an unquoted text, only a missing call is looked for in what follows. -/
  calls_unquoted : Unquoted m.start.rest → calledUsage (m.start.rest ++ y) =
    if triggerCall.isIn m.start.rest then calledUsage m.start.rest else calledUsage y
  eq_iff : postgresTrigger? m' = postgresTrigger? m ↔
    postgresTrigger? m = none ∨ calledUsage (m.start.rest ++ y) = calledUsage m.start.rest

lemma usage_of_postgresTrigger? {trigger : Trigger}
    (h : postgresTrigger? m = some trigger) : trigger.usage = calledUsage m.start.rest := by
  rw [postgresTrigger?] at h
  obtain ⟨header, -, h⟩ := bind_eq_some_iff.mp h
  obtain ⟨events, -, h⟩ := bind_eq_some_iff.mp h
  obtain rfl := some.inj h
  rfl

lemma postgresTrigger?_of_text? {m' : Found} (h : ∀ n, m'.text? n = m.text? n) :
    postgresTrigger? m' = (postgresTrigger? m).map fun trigger =>
      { trigger with usage := calledUsage m'.start.rest } := by
  have hheader : headerTrigger? m' 2 3 5 = headerTrigger? m 2 3 5 := by
    simp only [headerTrigger?, h]
  rw [postgresTrigger?, postgresTrigger?, hheader, h 1, h 4]
  cases headerTrigger? m 2 3 5 with
  | none => rfl
  | some header =>
    cases m.text? 4 with
    | none => rfl
    | some events => rfl

lemma sameButCalls_of_extends {stop : Nat} {m' : Found}
    (h : m.Extends t y stop m') (hlast : m.start.rest.getLast? = some ';') :
    SameButCalls y m m' := by
  have htrigger := postgresTrigger?_of_text? h.text?_eq
  rw [h.start.rest] at htrigger
  have heq : postgresTrigger? m' = postgresTrigger? m ↔
      postgresTrigger? m = none ∨ calledUsage (m.start.rest ++ y) = calledUsage m.start.rest := by
    rw [htrigger]
    cases hm : postgresTrigger? m with
    | none => simp
    | some trigger =>
      have husage := usage_of_postgresTrigger? hm
      rw [map_some, some_inj, ← husage]
      constructor
      · intro h
        exact .inr (congrArg Trigger.usage h)
      · rintro (h | h)
        · cases h
        · rw [h]
  refine ⟨h.start.offset, h.stop.offset, htrigger, fun f hf hle => ?_,
    fun hquote => calledUsage_append hlast hquote y, heq⟩
  exact heq.mpr (.inr (calledUsage_append_of_le hlast hf hle))

lemma filterMap_prefix_triggers {scan : TriggerScan} (h : scanTriggers? t = some scan) :
    (postgresHeader.findAll t).filterMap postgresTrigger? <+: scan.triggers := by
  rw [scanTriggers?] at h
  obtain ⟨tails, -, h⟩ := bind_eq_some_iff.mp h
  obtain rfl := some.inj h
  exact prefix_append _ _

end TriggerScan

open TriggerScan

/-- **Triggers of a text that goes on.** The PostgreSQL headers that lie in a text with a semicolon
at its end are the first headers of the text, and all of them if the text is unquoted. They yield
the same triggers, except for what the triggers call. -/
theorem scanTriggers?_append {t y : Text} {scan scan' : TriggerScan} (ht : t.getLast? = some ';')
    (hscan : scanTriggers? t = some scan) (hscan' : scanTriggers? (t ++ y) = some scan') :
    ∃ ms ms', ms <+: postgresHeader.findAll t ∧
      ms' = (postgresHeader.findAll (t ++ y)).filter (·.stop.offset ≤ byteLength t) ∧
      ms.filterMap postgresTrigger? <+: scan.triggers ∧
      ms'.filterMap postgresTrigger? <+: scan'.triggers ∧
      List.Forall₂ (SameButCalls y) ms ms' ∧ (Unquoted t → ms = postgresHeader.findAll t) := by
  obtain ⟨ms, ms', hms, hms', hfilter, hsame, hall⟩ :=
    local_postgresHeader.exists_findAll_append ht y
  refine ⟨ms, ms', hms, hfilter, (hms.filterMap _).trans (filterMap_prefix_triggers hscan),
    (hms'.filterMap _).trans (filterMap_prefix_triggers hscan'), ?_, hall⟩
  have hstart : ∀ m ∈ ms, m.start.rest.getLast? = some ';' := by
    intro m hm
    obtain ⟨⟨a, ha⟩, hmatch⟩ := local_postgresHeader.proper.of_mem_findAllFrom (hms.subset hm)
    obtain ⟨x, hx, hreach, -⟩ := local_postgresHeader.proper.exists_of_matchAt? hmatch
    have hrest : t = a ++ m.start.rest := ha.rest
    rw [hrest, getLast?_append_of_ne_nil] at ht
    · exact ht
    · rw [hreach.rest]
      exact append_ne_nil_of_left_ne_nil hx _
  clear hms hms' hfilter hall
  induction hsame with
  | nil => exact .nil
  | cons hm _ ih =>
    obtain ⟨hlast, hstart⟩ := forall_mem_cons.mp hstart
    exact .cons (sameButCalls_of_extends hm hlast) (ih hstart)

/-- A trigger with a call of its own and one without. -/
theorem scanTriggers?_append_two_headers :
    let t :=
      "CREATE TRIGGER a AFTER UPDATE OF b OR DELETE ON s.c EXECUTE PROCEDURE s.d ();".toList ++
      "CREATE OR REPLACE TRIGGER e BEFORE INSERT ON f EXECUTE FUNCTION g;".toList
    let y := "EXECUTE FUNCTION h()".toList
    ∃ scan scan', t.getLast? = some ';' ∧ scanTriggers? t = some scan ∧
      scanTriggers? (t ++ y) = some scan' ∧
      ∃ ms ms', ms <+: postgresHeader.findAll t ∧
        ms' = (postgresHeader.findAll (t ++ y)).filter (·.stop.offset ≤ byteLength t) ∧
        ms.filterMap postgresTrigger? <+: scan.triggers ∧
        ms'.filterMap postgresTrigger? <+: scan'.triggers ∧
        List.Forall₂ (SameButCalls y) ms ms' ∧ (Unquoted t → ms = postgresHeader.findAll t) := by
  intro t y
  have ht : t.getLast? = some ';' := by decide
  have hscan : (scanTriggers? t).isSome := by decide +kernel
  have hscan' : (scanTriggers? (t ++ y)).isSome := by decide +kernel
  obtain ⟨scan, hscan⟩ := isSome_iff_exists.mp hscan
  obtain ⟨scan', hscan'⟩ := isSome_iff_exists.mp hscan'
  exact ⟨scan, scan', ht, hscan, hscan', scanTriggers?_append ht hscan hscan'⟩

/-- A trigger without a call of its own calls what the next trigger calls. -/
theorem scanTriggers?_append_missing_call :
    let t := "CREATE TRIGGER t AFTER INSERT ON x FOR EACH ROW EXECUTE FUNCTION f;".toList
    let y := "\nCREATE TRIGGER u AFTER INSERT ON y FOR EACH ROW EXECUTE FUNCTION g();".toList
    (scanTriggers? t).map (·.triggers.map (·.usage)) = some [{}] ∧
      (scanTriggers? (t ++ y)).map (·.triggers.map (·.usage)) =
        some [{ functions := NameSet.insert {} "g" }, { functions := NameSet.insert {} "g" }] := by
  refine ⟨by decide +kernel, by decide +kernel⟩

end SqlOutline
