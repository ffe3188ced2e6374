import Mathlib.Data.List.Induction
import SqlOutline.Proofs.Name.Chain
import SqlOutline.Proofs.Reference.Merge

/-!
# Runs of a collector

An entry of a collector that hides names does so wherever it stands.

## Main definitions

* `Step`, `Replays` — what a collector can be made to do, and entries that do the same.

## Main results

* `exists_replays` — every run is a list of entries.
* `finish_run` — what is reported at the end of a run.
-/

namespace SqlOutline

open List Sql NameSet

lemma eraseDups_filter {α : Type} [DecidableEq α] (p : α → Bool) (l : List α) :
    (l.filter p).eraseDups = l.eraseDups.filter p := by
  induction h : l.length using Nat.strongRecOn generalizing l with
  | ind n ih =>
    cases l with
    | nil => rfl
    | cons a as =>
      have hlt : (as.filter fun b => !b == a).length < n := by
        have := length_filter_le (fun b => !b == a) as
        rw [length_cons] at h
        omega
      rw [eraseDups_cons, filter_cons, filter_cons, ← ih _ hlt _ rfl, filter_filter]
      split_ifs with ha
      · rw [eraseDups_cons, filter_filter]
        simp only [Bool.and_comm]
      · congr 1
        refine filter_congr fun b _ => ?_
        have hne : p b → b ≠ a := fun hb heq => ha (heq ▸ hb)
        cases hb : p b <;> simp_all

namespace NameSet

lemma names_insertAll_empty (ns : List String) : (insertAll {} ns).names = ns.eraseDups := by
  induction ns using reverseRecOn with
  | nil => rfl
  | append_singleton ns n ih =>
    have hconcat : insertAll {} (ns ++ [n]) = (insertAll {} ns).insert n := foldl_concat ..
    rw [hconcat, eraseDups_append, ← ih]
    by_cases h : n ∈ ns
    · rw [insert_of_mem ((mem_insertAll {} ns n).mpr (.inr h))]
      simp [removeAll, h]
    · rw [insert_of_not_mem fun hn => h (by simpa using (mem_insertAll {} ns n).mp hn)]
      simp [removeAll, h, eraseDups_cons]

end NameSet

namespace Collector

lemma hides_enterAll (c : Collector) (es : List Entry) (name : String) :
    (c.enterAll es).hides name ↔ c.hides name ∨ ∃ e ∈ es, e.Hides name := by
  induction es generalizing c with
  | nil => simp [enterAll]
  | cons e es ih =>
    have henter : (c.enter e).hides name ↔ c.hides name ∨ e.Hides name := by
      rw [enter_eq]
      simp only [hides, Entry.Hides, contains_append, Bool.or_eq_true,
        contains_iff_mem, Option.mem_toList]
      tauto
    rw [enterAll_cons, ih, henter, exists_mem_cons_iff, or_assoc]

/-! ## Collectors that are reached by entries -/

/-- A collector is reached from another by entries that do not change how `EXECUTE` is read. -/
def Reaches (c d : Collector) : Prop :=
  ∃ es : List Entry, (∀ e ∈ es, e.isDynamic = false) ∧ d = c.enterAll es

end Collector

/-- **Tokens** make entries, one token after the other. -/
lemma Harvest.reaches_run (rules : Rules) (st : State) (before : Option Token) (flags : List Bool)
    (ts : List Token) : st.collector.Reaches (run rules st before flags ts).collector := by
  obtain ⟨es, hes, h⟩ := (enters_run rules st.inMerge before flags ts).exists_enterAll
    st.collector.executeIsCall
  exact ⟨es, hes, h st.collector rfl⟩

namespace Collector

/-! ## Steps and runs -/

/-- What a collector can be made to do. -/
inductive Step where
  | entry (e : Entry)
  | harvest (rules : Harvest.Rules) (tokens : List Token)
  | statement (s : Sql.Statement)

def perform (c : Collector) : Step → Collector
  | .entry e => c.enter e
  | .harvest rules tokens => SqlOutline.harvest rules c tokens
  | .statement s => c.addUses s.uses

/-- A collector after steps, one after the other. -/
def run (c : Collector) (steps : List Step) : Collector := steps.foldl perform c

/-- Entries do what steps do to every collector that reads `EXECUTE` in the given way. -/
def Replays (executeIsCall : Bool) (steps : List Step) (es : List Entry) : Prop :=
  ∀ c : Collector, c.executeIsCall = executeIsCall → c.run steps = c.enterAll es

lemma exists_replays_step (isCall : Bool) (s : Step) :
    ∃ es, ∀ c : Collector, c.executeIsCall = isCall → c.perform s = c.enterAll es := by
  have henters : ∀ {f : Collector → Collector}, Enters f →
      ∃ es, ∀ c : Collector, c.executeIsCall = isCall → f c = c.enterAll es := by
    intro f hf
    obtain ⟨es, -, h⟩ := hf.exists_enterAll isCall
    exact ⟨es, h⟩
  cases s with
  | entry e => exact ⟨[e], fun _ _ => rfl⟩
  | harvest rules tokens => exact henters (enters_harvest rules tokens)
  | statement s => exact henters (enters_addUses s.uses)

namespace Replays

variable {isCall : Bool} {steps rest : List Step} {es fs : List Entry}

lemma executeIsCall_run (h : Replays isCall steps es) {c : Collector}
    (hc : c.executeIsCall = isCall) :
    (c.run steps).executeIsCall = (isCall && es.all (!·.isDynamic)) := by
  rw [h c hc, executeIsCall_enterAll, hc]

lemma append (h : Replays isCall steps es)
    (hrest : Replays (isCall && es.all (!·.isDynamic)) rest fs) :
    Replays isCall (steps ++ rest) (es ++ fs) := by
  intro c hc
  have happend : c.run (steps ++ rest) = (c.run steps).run rest := foldl_append
  rw [happend, hrest _ (h.executeIsCall_run hc), h c hc, enterAll_append]

lemma entry (isCall : Bool) (e : Entry) : Replays isCall [.entry e] [e] := fun _ _ => rfl

end Replays

/-- **Every run is a list of entries.** -/
lemma exists_replays (isCall : Bool) (steps : List Step) : ∃ es, Replays isCall steps es := by
  induction steps generalizing isCall with
  | nil => exact ⟨[], fun _ _ => rfl⟩
  | cons s steps ih =>
    obtain ⟨es, hes⟩ := exists_replays_step isCall s
    have hs : Replays isCall [s] es := hes
    obtain ⟨fs, hfs⟩ := ih (isCall && es.all (!·.isDynamic))
    exact ⟨es ++ fs, hs.append hfs⟩

lemma exists_replays_cte (before between behind : List Step) (name : Text) : ∃ es fs gs,
      Replays true (before ++ [.entry (.cte name)] ++ between ++ behind)
        (es ++ [.cte name] ++ fs ++ gs) ∧
      Replays true (before ++ between ++ [.entry (.cte name)] ++ behind)
        (es ++ fs ++ [.cte name] ++ gs) := by
  obtain ⟨es, hes⟩ := exists_replays true before
  obtain ⟨fs, hfs⟩ := exists_replays (true && es.all (!·.isDynamic)) between
  obtain ⟨gs, hgs⟩ := exists_replays (true && (es ++ fs).all (!·.isDynamic)) behind
  have hcte : Entry.isDynamic (.cte name) = false := rfl
  refine ⟨es, fs, gs, ?_, ?_⟩
  · refine ((hes.append (.entry _ _)).append ?_).append ?_
    · simpa [hcte] using hfs
    · simpa [hcte] using hgs
  · refine ((hes.append hfs).append (.entry _ _)).append ?_
    simpa [hcte] using hgs

/-! ## What is reported -/

lemma of_normal? {chain : Text} {n : String} (h : normal? chain = some n) :
    n ≠ "" ∧ '@' ∉ n.toList := by
  obtain ⟨name, hname, rfl⟩ := Option.map_eq_some_iff.mp h
  obtain ⟨hne, hat⟩ := Name.of_normalizeCallee? hname
  refine ⟨fun hempty => hne ?_, by rwa [String.toList_ofList]⟩
  rw [← String.toList_ofList (l := name), hempty]
  rfl

lemma Entry.exists_normal? {e : Entry} {n : String}
    (h : e.relation? = some n ∨ e.function? = some n ∨ e.procedure? = some n) :
    ∃ chain, normal? chain = some n := by
  cases e with
  | relation chain =>
    simp only [relation?, function?, procedure?, reduceCtorEq, or_false] at h
    split_ifs at h
    exact ⟨_, h⟩
  | procedure chain =>
    simp only [relation?, function?, procedure?, reduceCtorEq, false_or] at h
    split_ifs at h
    exact ⟨_, h⟩
  | function chain | tableFunction chain =>
    simp only [relation?, function?, procedure?, reduceCtorEq, or_false, false_or] at h
    exact ⟨_, h⟩
  | cte | dynamicExecute => simp [relation?, function?, procedure?] at h

section Finish

variable (es : List Entry)

lemma mem_finish_enterAll {n : String}
    (h : n ∈ (enterAll {} es).finish.relations.names ∨ n ∈ (enterAll {} es).finish.functions.names ∨
      n ∈ (enterAll {} es).finish.procedures.names) :
    ∃ e ∈ es, e.relation? = some n ∨ e.function? = some n ∨ e.procedure? = some n := by
  have hmem : ∀ {name? : Entry → Option String},
      n ∈ (insertAll {} (es.filterMap name?)).names → ∃ e ∈ es, name? e = some n := by
    intro name? hn
    rcases (mem_insertAll _ _ _).mp hn with hn | hn
    · cases hn
    · exact mem_filterMap.mp hn
  rcases h with h | h | h
  · rw [names_relations_finish, relations_enterAll] at h
    obtain ⟨e, he, hn⟩ := hmem (mem_filter.mp h).1
    exact ⟨e, he, .inl hn⟩
  · rw [finish, functions_enterAll] at h
    obtain ⟨e, he, hn⟩ := hmem h
    exact ⟨e, he, .inr (.inl hn)⟩
  · rw [finish, procedures_enterAll] at h
    obtain ⟨e, he, hn⟩ := hmem h
    exact ⟨e, he, .inr (.inr hn)⟩

lemma nodup_finish_enterAll : (enterAll {} es).finish.Nodup := by
  constructor
  · rw [names_relations_finish, relations_enterAll]
    exact (nodup_insertAll .nil _).filter _
  · rw [finish, functions_enterAll]
    exact nodup_insertAll .nil _
  · rw [finish, procedures_enterAll]
    exact nodup_insertAll .nil _

/-- **The relations that are reported** are the first occurrences of those that are entered and not
hidden. -/
lemma relations_finish_enterAll : (enterAll {} es).finish.relations.names =
      ((es.filterMap Entry.relation?).filter fun n => ∀ e ∈ es, ¬ e.Hides n).eraseDups := by
  rw [names_relations_finish, relations_enterAll, names_insertAll_empty, eraseDups_filter]
  refine filter_congr fun n _ => ?_
  rw [Bool.eq_iff_iff, Bool.not_eq_true', ← Bool.not_eq_true, hides_enterAll]
  simp [hides]

end Finish

lemma finish_congr {c d : Collector} (hrelations : c.relations = d.relations)
    (hfunctions : c.functions = d.functions) (hprocedures : c.procedures = d.procedures)
    (hhides : ∀ n, c.hides n = d.hides n) : c.finish = d.finish := by
  have hshown : c.finish.relations = d.finish.relations := by
    refine congrArg NameSet.mk ?_
    change c.finish.relations.names = d.finish.relations.names
    rw [names_relations_finish, names_relations_finish, hrelations]
    simp only [hhides]
  rw [Usage.mk.injEq]
  exact ⟨hshown, hfunctions, hprocedures⟩

/-- **An entry for a common table expression can stand anywhere.** -/
lemma finish_enterAll_cte (es fs gs : List Entry) (name : Text) :
    (enterAll {} (es ++ [.cte name] ++ fs ++ gs)).finish =
      (enterAll {} (es ++ fs ++ [.cte name] ++ gs)).finish := by
  have hname : ∀ {name? : Entry → Option String}, name? (.cte name) = none →
      (es ++ [Entry.cte name] ++ fs ++ gs).filterMap name? =
        (es ++ fs ++ [Entry.cte name] ++ gs).filterMap name? := by
    intro name? h
    simp [filterMap_append, h]
  apply finish_congr
  · rw [relations_enterAll, relations_enterAll, @hname Entry.relation? rfl]
  · rw [functions_enterAll, functions_enterAll, @hname Entry.function? rfl]
  · rw [procedures_enterAll, procedures_enterAll, @hname Entry.procedure? rfl]
  · intro n
    rw [Bool.eq_iff_iff, hides_enterAll, hides_enterAll]
    have hmem : ∀ e, e ∈ es ++ [.cte name] ++ fs ++ gs ↔ e ∈ es ++ fs ++ [.cte name] ++ gs := by
      intro e
      simp only [mem_append]
      tauto
    simp only [hmem]

/-- **What is reported at the end of a run.** Whatever a new collector is made to do, no name is
reported twice, and every name is not empty and has no `@`. A run makes entries, and whichever
entries do what it does, the relations that are reported are the first occurrences, in the order of
the entries, of the normal forms of those that are entered and that no entry hides, be it before or
behind; functions and procedures are the first occurrences of all that are entered. A common table
expression can be recorded earlier or later.

**Proof sketch.** Which entries a step makes does not depend on the collector (`exists_replays`), so
the report can be read off the entries of the run. An entry for a common table expression records no
name, and it hides wherever it stands. -/
theorem finish_run (steps : List Step) :
    let usage := (run {} steps).finish
    usage.Nodup ∧
    (∀ n ∈ usage.relations.names ++ usage.functions.names ++ usage.procedures.names,
      n ≠ "" ∧ '@' ∉ n.toList) ∧
    (∃ es, Replays true steps es) ∧
    (∀ es, Replays true steps es →
      (∀ n ∈ usage.relations.names, ∀ e ∈ es, ¬ e.Hides n) ∧
      usage.relations.names =
        ((es.filterMap Entry.relation?).filter fun n => ∀ e ∈ es, ¬ e.Hides n).eraseDups ∧
      usage.functions.names = (es.filterMap Entry.function?).eraseDups ∧
      usage.procedures.names = (es.filterMap Entry.procedure?).eraseDups) ∧
    ∀ before between behind name,
      (run {} (before ++ [.entry (.cte name)] ++ between ++ behind)).finish =
        (run {} (before ++ between ++ [.entry (.cte name)] ++ behind)).finish := by
  intro usage
  have husage : ∀ es, Replays true steps es → usage = (enterAll {} es).finish := by
    intro es hes
    exact congrArg finish (hes {} rfl)
  obtain ⟨es, hes⟩ := exists_replays true steps
  refine ⟨?_, ?_, ⟨es, hes⟩, ?_, ?_⟩
  · rw [husage es hes]
    exact nodup_finish_enterAll es
  · intro n hn
    rw [husage es hes, mem_append, mem_append, or_assoc] at hn
    obtain ⟨e, -, he⟩ := mem_finish_enterAll es hn
    obtain ⟨chain, hchain⟩ := Entry.exists_normal? he
    exact of_normal? hchain
  · intro es hes
    have hrelations : usage.relations.names =
        ((es.filterMap Entry.relation?).filter fun n => ∀ e ∈ es, ¬ e.Hides n).eraseDups := by
      rw [husage es hes, relations_finish_enterAll]
    refine ⟨fun n hn => ?_, hrelations, ?_, ?_⟩
    · rw [hrelations, mem_eraseDups, mem_filter] at hn
      exact of_decide_eq_true hn.2
    · rw [husage es hes, finish, functions_enterAll, names_insertAll_empty]
    · rw [husage es hes, finish, procedures_enterAll, names_insertAll_empty]
  · intro before between behind name
    obtain ⟨es, fs, gs, hearly, hlate⟩ := exists_replays_cte before between behind name
    rw [hearly {} rfl, hlate {} rfl]
    exact finish_enterAll_cte es fs gs name

end Collector

end SqlOutline
