import SqlOutline.Proofs.Usage.Union
import SqlOutline.Reference.Harvest
import SqlOutline.Reference.Tree

/-!
# Collectors that are put together

What a piece of SQL adds to a collector does not depend on what the collector has met before. Only
what is left out in the end does: a common table expression hides a name wherever it is met.

## Main definitions

* `merge`, `Entry` — what two collectors have met, and what is entered at once.
* `Enters` — a function that makes the same entries in every collector.

## Main results

* `enters_addStatements`, `enters_harvest` — parsed statements and harvested tokens.
-/

namespace SqlOutline

open List Sql NameSet

variable {f : Collector → Collector}

namespace Collector

/-- A collector that has met nothing and reads `EXECUTE` like the given one. -/
def blank (c : Collector) : Collector := { executeIsCall := c.executeIsCall }

/-- What two collectors have met; the names of the first come first. -/
def merge (c d : Collector) : Collector where
  relations := c.relations.insertAll d.relations.names
  functions := c.functions.insertAll d.functions.names
  procedures := c.procedures.insertAll d.procedures.names
  ctes := d.ctes ++ c.ctes
  tableFunctions := d.tableFunctions ++ c.tableFunctions
  executeIsCall := c.executeIsCall

variable (c d : Collector)

@[simp]
lemma blank_blank : c.blank.blank = c.blank := rfl

@[simp]
lemma blank_merge : (c.merge d).blank = c.blank := rfl

lemma merge_assoc (e : Collector) : (c.merge d).merge e = c.merge (d.merge e) := by
  simp only [merge, insertAll_insertAll, append_assoc]

/-! ## Entries -/

/-- What is entered into a collector at once. -/
inductive Entry where
  | relation (chain : Text)
  | function (chain : Text)
  | procedure (chain : Text)
  | cte (name : Text)
  | tableFunction (name : Text)
  /-- From now on `EXECUTE` runs a text as SQL. -/
  | dynamicExecute
  deriving DecidableEq

def normal? (chain : Text) : Option String := (Name.normalizeCallee? chain).map String.ofList

namespace Entry

def relation? : Entry → Option String
  | .relation chain =>
    let name := Text.trim chain
    if name.head? == some '@' || name.head? == some ':' then none else normal? name
  | _ => none

def function? : Entry → Option String
  | .function chain | .tableFunction chain => normal? chain
  | _ => none

def procedure? : Entry → Option String
  | .procedure chain => if (Text.trim chain).head? == some '@' then none else normal? chain
  | _ => none

def cte? : Entry → Option String
  | .cte name => (Name.stripQuotes? name).map fun n => fold (String.ofList n)
  | _ => none

def tableFunction? : Entry → Option String
  | .tableFunction name => some (fold (String.ofList name))
  | _ => none

def isDynamic : Entry → Bool
  | .dynamicExecute => true
  | _ => false

/-- An entry says that a name is no relation: in lower case, it is that of a common table expression
or of a function in place of a table. -/
def Hides (e : Entry) (name : String) : Prop :=
  e.cte? = some (fold name) ∨ e.tableFunction? = some (fold name)

instance (e : Entry) (name : String) : Decidable (e.Hides name) :=
  inferInstanceAs (Decidable (_ ∨ _))

end Entry

def enter (c : Collector) : Entry → Collector
  | .relation chain => c.addRelation chain
  | .function chain => c.addFunction chain
  | .procedure chain => c.addProcedure chain
  | .cte name => c.addCte name
  | .tableFunction name => c.addTableFunction name
  | .dynamicExecute => c.dynamicExecute

def enterAll (c : Collector) (es : List Entry) : Collector := es.foldl enter c

variable (e : Entry) (es : List Entry)

lemma enterAll_append (fs : List Entry) :
    c.enterAll (es ++ fs) = (c.enterAll es).enterAll fs := foldl_append

lemma enterAll_cons : c.enterAll (e :: es) = (c.enter e).enterAll es := rfl

/-! ## What entries record -/

lemma insertChain_eq_insertAll (s : NameSet) (chain : Text) :
    insertChain s chain = s.insertAll (normal? chain).toList := by
  unfold insertChain normal?
  cases Name.normalizeCallee? chain <;> rfl

/-- **What an entry changes.** -/
lemma enter_eq : c.enter e =
    { relations := c.relations.insertAll e.relation?.toList
      functions := c.functions.insertAll e.function?.toList
      procedures := c.procedures.insertAll e.procedure?.toList
      ctes := e.cte?.toList ++ c.ctes
      tableFunctions := e.tableFunction?.toList ++ c.tableFunctions
      executeIsCall := !e.isDynamic && c.executeIsCall } := by
  cases e with
  | relation chain =>
    simp only [enter, addRelation, Entry.relation?, insertChain_eq_insertAll]
    split_ifs <;> rfl
  | procedure chain =>
    simp only [enter, addProcedure, Entry.procedure?, insertChain_eq_insertAll]
    split_ifs <;> rfl
  | function chain =>
    simp only [enter, addFunction, insertChain_eq_insertAll]
    rfl
  | tableFunction name =>
    simp only [enter, addTableFunction, addFunction, insertChain_eq_insertAll]
    rfl
  | cte name =>
    simp only [enter, addCte, Entry.cte?]
    cases Name.stripQuotes? name <;> rfl
  | dynamicExecute => rfl

lemma names_enterAll {set : Collector → NameSet} {name? : Entry → Option String}
    (henter : ∀ c e, set (c.enter e) = (set c).insertAll (name? e).toList) (c : Collector)
    (es : List Entry) : set (c.enterAll es) = (set c).insertAll (es.filterMap name?) := by
  induction es generalizing c with
  | nil => rfl
  | cons e es ih =>
    rw [enterAll_cons, ih, henter, filterMap_cons]
    cases name? e <;> rfl

lemma relations_enterAll :
    (c.enterAll es).relations = c.relations.insertAll (es.filterMap Entry.relation?) :=
  names_enterAll (fun c e => congrArg relations (enter_eq c e)) c es

lemma functions_enterAll :
    (c.enterAll es).functions = c.functions.insertAll (es.filterMap Entry.function?) :=
  names_enterAll (fun c e => congrArg functions (enter_eq c e)) c es

lemma procedures_enterAll :
    (c.enterAll es).procedures = c.procedures.insertAll (es.filterMap Entry.procedure?) :=
  names_enterAll (fun c e => congrArg procedures (enter_eq c e)) c es

lemma executeIsCall_enterAll :
    (c.enterAll es).executeIsCall = (c.executeIsCall && es.all (!·.isDynamic)) := by
  induction es generalizing c with
  | nil => simp [enterAll]
  | cons e es ih =>
    rw [enterAll_cons, ih, enter_eq, all_cons]
    dsimp only
    ac_rfl

/-! ## What is added to a collector -/

/-- A function that adds the same to every collector. -/
def Adds (f : Collector → Collector) : Prop := ∀ c, f c = c.merge (f c.blank)

namespace Adds

variable {f g : Collector → Collector}

lemma blank_eq (h : Adds f) (c : Collector) : (f c).blank = c.blank := by
  rw [h c, blank_merge]

/-- **Two pieces, one after the other.** -/
lemma comp (hg : Adds g) (hf : Adds f) : Adds fun c => g (f c) := by
  intro c
  calc g (f c)
      = (f c).merge (g (f c).blank) := hg (f c)
    _ = (c.merge (f c.blank)).merge (g c.blank) := by rw [hf.blank_eq, ← hf c]
    _ = c.merge ((f c.blank).merge (g c.blank)) := merge_assoc _ _ _
    _ = c.merge (g (f c.blank)) := by rw [hg (f c.blank), hf.blank_eq, blank_blank]

lemma apply_eq (hf : Adds f) (hg : Adds g) (c : Collector) :
    g (f c.blank) = (f c.blank).merge (g c.blank) := by
  rw [hg (f c.blank), hf.blank_eq, blank_blank]

end Adds

lemma adds_enterAll {es : List Entry} (h : ∀ e ∈ es, e.isDynamic = false) :
    Adds (enterAll · es) := by
  induction es with
  | nil => exact fun _ => rfl
  | cons e es ih =>
    have hnames : ∀ n? : Option String, (insertAll {} n?.toList).names = n?.toList := by
      intro n?
      cases n? <;> rfl
    have henter : Adds (enter · e) := by
      intro c
      simp only [enter_eq, merge, blank, hnames, h e mem_cons_self, append_nil,
        Bool.not_false, Bool.true_and]
    exact (ih fun f hf => h f (mem_cons_of_mem e hf)).comp henter

/-- A function makes the same entries in every collector that reads `EXECUTE` in the same way, and
it gives the same result. -/
def EntersWith {β : Type} (f : Collector → Collector × β) : Prop :=
  ∀ isCall, ∃ es b, (∀ e ∈ es, e.isDynamic = false) ∧
    ∀ c : Collector, c.executeIsCall = isCall → f c = (c.enterAll es, b)

def Enters (f : Collector → Collector) : Prop := EntersWith fun c => (f c, ())

lemma Enters.exists_enterAll (h : Enters f) (isCall : Bool) :
    ∃ es, (∀ e ∈ es, e.isDynamic = false) ∧
      ∀ c : Collector, c.executeIsCall = isCall → f c = c.enterAll es := by
  obtain ⟨es, _, hes, h⟩ := h isCall
  exact ⟨es, hes, fun c hc => congrArg Prod.fst (h c hc)⟩

namespace EntersWith

variable {β γ : Type} {f g : Collector → Collector × β}

lemma of_enters {f : Collector → Collector} (h : Enters f) (b : β) :
    EntersWith fun c => (f c, b) := by
  intro isCall
  obtain ⟨es, hes, h⟩ := h.exists_enterAll isCall
  exact ⟨es, b, hes, fun c hc => Prod.ext (h c hc) rfl⟩

lemma pure (b : β) : EntersWith fun c => (c, b) := fun _ => ⟨[], b, by simp, fun _ _ => rfl⟩

/-- **Two pieces, one after the other.** -/
lemma bind {g : β → Collector → Collector × γ} (hf : EntersWith f) (hg : ∀ b, EntersWith (g b)) :
    EntersWith fun c => g (f c).2 (f c).1 := by
  intro isCall
  obtain ⟨es, b, hes, hf⟩ := hf isCall
  obtain ⟨fs, d, hfs, hg⟩ := hg b isCall
  refine ⟨es ++ fs, d, fun e he => (mem_append.mp he).elim (hes e) (hfs e), fun c hc => ?_⟩
  have hcall : (c.enterAll es).executeIsCall = isCall := by
    rw [executeIsCall_enterAll, hc, all_eq_true.mpr fun e he => by rw [hes e he]; rfl,
      Bool.and_true]
  dsimp only
  rw [hf c hc, hg _ hcall, enterAll_append]

lemma map (hf : EntersWith f) (g : β → γ) : EntersWith fun c => ((f c).1, g (f c).2) :=
  hf.bind fun b => pure (g b)

lemma comp {g : Collector → Collector} (hf : EntersWith f) (hg : Enters g) :
    EntersWith fun c => f (g c) :=
  hg.bind fun _ => hf

lemma ite {p : Prop} [Decidable p] (hf : EntersWith f) (hg : EntersWith g) :
    EntersWith fun c => if p then f c else g c := by
  split_ifs
  · exact hf
  · exact hg

lemma of_executeIsCall {f : Bool → Collector → Collector × β} (h : ∀ b, EntersWith (f b)) :
    EntersWith fun c => f c.executeIsCall c := by
  intro isCall
  obtain ⟨es, b, hes, h⟩ := h isCall isCall
  refine ⟨es, b, hes, fun c hc => ?_⟩
  dsimp only
  rw [hc]
  exact h c hc

lemma ite_executeIsCall (hf : EntersWith f) (hg : EntersWith g) :
    EntersWith fun c => if !c.executeIsCall then f c else g c :=
  of_executeIsCall (f := fun isCall c => if !isCall then f c else g c) fun _ => .ite hf hg

end EntersWith

namespace Enters

variable {f : Collector → Collector}

lemma id : Enters fun c => c := .pure ()

lemma entry (e : Entry) (h : e.isDynamic = false) : Enters (enter · e) :=
  fun _ => ⟨[e], (), fun _ he => mem_singleton.mp he ▸ h, fun _ _ => rfl⟩

lemma foldl {α : Type} {f : Collector → α → Collector} (h : ∀ a, Enters (f · a)) (as : List α) :
    Enters fun c => as.foldl f c := by
  induction as with
  | nil => exact .id
  | cons a as ih => exact ih.comp (h a)

lemma adds (h : Enters f) : Adds f := by
  intro c
  obtain ⟨es, hes, h⟩ := h.exists_enterAll c.executeIsCall
  rw [h c rfl, h c.blank rfl]
  exact adds_enterAll hes c

end Enters

/-! ## Names -/

lemma enters_addRelation (chain : Text) : Enters (addRelation · chain) :=
  .entry (.relation chain) rfl

lemma enters_addFunction (chain : Text) : Enters (addFunction · chain) :=
  .entry (.function chain) rfl

lemma enters_addProcedure (chain : Text) : Enters (addProcedure · chain) :=
  .entry (.procedure chain) rfl

lemma enters_addCte (name : Text) : Enters (addCte · name) := .entry (.cte name) rfl

lemma enters_addTableFunction (name : Text) : Enters (addTableFunction · name) :=
  .entry (.tableFunction name) rfl

/-! ## Parsed statements -/

lemma enters_withChain (n : ObjectName) {add : Collector → Text → Collector}
    (h : ∀ chain, Enters (add · chain)) : Enters (withChain · n add) := by
  unfold withChain
  cases ObjectName.chain? n with
  | none => exact .id
  | some name => exact h name.toList

lemma enters_addUse (u : Use) : Enters (addUse · u) := by
  cases u with
  | relation n => exact enters_withChain n enters_addRelation
  | function n => exact enters_withChain n enters_addFunction
  | tableFunction n => exact enters_withChain n enters_addTableFunction
  | cte name => exact enters_addCte name.toList
  | call n => exact enters_withChain n enters_addProcedure
  | execute n =>
    refine EntersWith.of_executeIsCall (f := fun isCall c =>
      (if !isCall || Text.eqIgnoreCase (ObjectName.text n).toList "IMMEDIATE".toList then c
      else c.addProcedure (ObjectName.text n).toList, ())) fun isCall => ?_
    split_ifs
    · exact Enters.id
    · exact enters_addProcedure _

lemma enters_addUses (uses : List Use) : Enters (addUses · uses) := .foldl enters_addUse uses

/-- **Parsed statements** make the same entries in every collector. -/
lemma enters_addStatements (statements : List Sql.Statement) :
    Enters (addStatements · statements) := by
  unfold addStatements
  exact .foldl (fun s => enters_addUses s.uses) statements

end Collector

/-! ## Harvested tokens -/

namespace Harvest

open Collector

variable (ts : List Token)

lemma enters_cte : Enters (cte · ts) := by
  unfold cte
  dsimp only
  split
  · split_ifs
    · exact enters_addCte _
    · exact .id
  · exact .id

/-- Lists of tables make the same entries in every collector. -/
lemma entersWith_tableList (commas : Bool) (rounds : Nat) :
    EntersWith (tableList commas rounds · ts) := by
  induction rounds generalizing ts with
  | zero => exact .pure 0
  | succ rounds ih =>
    simp only [tableList]
    cases relation? (ts.drop (runLength (isAny ["LATERAL", "ONLY"]) ts)) with
    | none => exact .pure _
    | some table =>
      obtain ⟨name, n⟩ := table
      dsimp only
      by_cases hcall : startsWithMark "("
          ((ts.drop (runLength (isAny ["LATERAL", "ONLY"]) ts)).drop n)
      · simp only [hcall, if_true]
        exact .ite (((ih _).map _).comp (enters_addFunction name))
          (.of_enters (enters_addFunction name) _)
      · simp only [hcall, Bool.false_eq_true, if_false]
        exact .ite (((ih _).map _).comp (enters_addRelation name))
          (.of_enters (enters_addRelation name) _)

lemma entersWith_relation (n : Nat) (found : Option (Text × Nat)) : EntersWith fun c =>
      match found with
      | some (name, k) => (c.addRelation name, n + k)
      | none => (c, n) := by
  cases found with
  | none => exact .pure n
  | some found => exact .of_enters (enters_addRelation found.1) _

lemma entersWith_target : EntersWith (target · ts) := by
  unfold target
  exact .ite (.pure _) (entersWith_relation _ _)

lemma entersWith_execute : EntersWith (execute · ts) := by
  unfold execute
  refine .ite (.pure _) (.ite ?_ (.ite_executeIsCall (.pure _) ?_))
  · cases chain? (ts.drop 1) with
    | none => exact .pure _
    | some name =>
      refine .of_enters ?_ _
      split_ifs
      · exact enters_addFunction _
      · exact enters_addProcedure _
  · split
    · exact .ite (.pure _) (.of_enters (enters_addProcedure _) _)
    · exact .pure _

lemma entersWith_call (rules : Rules) (before : Option Token) (t : Token) :
    EntersWith (call rules · before t ts) := by
  unfold call
  cases chain? (t :: ts) with
  | none => exact .pure _
  | some name =>
    exact .ite (.of_enters (enters_addProcedure _) _)
      (.ite (.of_enters (enters_addFunction _) _) (.pure _))

def StepEnters (f : Collector → State × Nat) : Prop :=
  EntersWith fun c => ((f c).1.collector, (f c).1.inMerge, (f c).2)

namespace StepEnters

lemma of_entersWith {f : Collector → Collector × Nat} (h : EntersWith f) (inMerge : Bool) :
    StepEnters fun c => (⟨(f c).1, inMerge⟩, (f c).2) :=
  h.map fun n => (inMerge, n)

lemma pure (inMerge : Bool) (n : Nat) : StepEnters fun c => (⟨c, inMerge⟩, n) :=
  of_entersWith (.pure n) inMerge

lemma of_enters (h : Enters f) (inMerge : Bool) (n : Nat) :
    StepEnters fun c => (⟨f c, inMerge⟩, n) :=
  of_entersWith (.of_enters h n) inMerge

lemma ite {f g : Collector → State × Nat} {p : Prop} [Decidable p] (hf : StepEnters f)
    (hg : StepEnters g) : StepEnters fun c => if p then f c else g c := by
  split_ifs
  · exact hf
  · exact hg

end StepEnters

/-- **A token** makes the same entries in every collector. -/
lemma stepEnters_step (rules : Rules) (inMerge : Bool) (before : Option Token) (plain : Bool)
    (t : Token) (ts : List Token) :
    StepEnters fun c => step rules ⟨c, inMerge⟩ before plain t ts := by
  unfold step
  refine .ite (.pure _ _) (.ite (.of_enters (enters_cte ts) _ _) ?_)
  cases t.plainWord? with
  | none => exact .pure _ _
  | some w =>
    dsimp only
    split
    -- `FROM` and `JOIN`
    case h_1 => exact .ite (.pure _ _) (.of_entersWith (entersWith_tableList _ _ _) _)
    case h_2 => exact .of_entersWith (entersWith_tableList _ _ _) _
    -- `CALL`
    case h_8 =>
      cases chain? ts with
      | none => exact .pure _ _
      | some name => exact .of_enters (enters_addProcedure name.1) _ _
    -- `EXEC`, `EXECUTE` and `WITH`
    case h_9 | h_10 => exact .of_entersWith (entersWith_execute _) _
    case h_11 => exact .of_enters (enters_cte ts) _ _
    -- words that are no verbs
    case h_12 =>
      split_ifs
      · exact .of_entersWith (entersWith_tableList _ _ _) _
      · exact .pure _ _
      · exact .of_entersWith (entersWith_call _ _ _ _) _
    -- verbs that change data
    all_goals exact .ite (.pure _ _) (.of_entersWith (entersWith_target _) _)

/-- **Tokens** make the same entries in every collector: the tokens behind one that is read do so,
whatever it adds. -/
lemma enters_run (rules : Rules) (inMerge : Bool) (before : Option Token) (flags : List Bool) :
    (ts : List Token) → Enters fun c => (run rules ⟨c, inMerge⟩ before flags ts).collector
  | [] => by
    simp only [run]
    exact .id
  | t :: ts => by
    simp only [run]
    have hrest : ∀ b : Bool × Nat, EntersWith fun c =>
        ((run rules ⟨c, b.1⟩ (some ((ts.take b.2).getLast?.getD t)) (flags.drop (b.2 + 1))
          (ts.drop b.2)).collector, ()) :=
      fun b => .of_enters (enters_run rules b.1 _ _ (ts.drop b.2)) ()
    exact (stepEnters_step rules inMerge before (flags.headD false) t ts).bind hrest
termination_by ts => ts.length
decreasing_by simp only [length_drop, length_cons]; omega

end Harvest

/-- **Harvested tokens** make the same entries in every collector. -/
lemma enters_harvest (rules : Harvest.Rules) (ts : List Token) :
    Collector.Enters (harvest rules · ts) :=
  Harvest.enters_run rules false none _ _

/-! ## What is left out in the end -/

namespace Collector

/-- Whether a name is left out of the relations in the end: it was met as the name of a common table
expression or of a function in place of a table. -/
def hides (c : Collector) (name : String) : Bool :=
  c.ctes.contains (fold name) || c.tableFunctions.contains (fold name)

/-- No name was recorded twice. -/
structure Nodup (c : Collector) : Prop where
  relations : c.relations.names.Nodup
  functions : c.functions.names.Nodup
  procedures : c.procedures.names.Nodup

variable {c d : Collector}

lemma hides_merge (c d : Collector) (name : String) :
    (c.merge d).hides name = (c.hides name || d.hides name) := by
  simp only [hides, merge, contains_append]
  ac_rfl

lemma names_relations_finish (c : Collector) :
    c.finish.relations.names = c.relations.names.filter (!c.hides ·) := by
  simp only [finish, NameSet.filter, hides, Bool.not_or]

lemma Adds.nodup (h : Adds f) (c : Collector) : (f c.blank).Nodup := by
  rw [h c.blank]
  exact ⟨nodup_insertAll .nil _, nodup_insertAll .nil _,
    nodup_insertAll .nil _⟩

lemma relations_finish_merge (hc : c.Nodup) (hd : d.Nodup) :
    (c.merge d).finish.relations.IsUnion (c.finish.relations.filter (!d.hides ·))
      (d.finish.relations.filter (!c.hides ·)) := by
  have hunion : (c.merge d).relations.IsUnion c.relations d.relations :=
    isUnion_insertAll hc.relations hd.relations
  constructor
  · rw [names_relations_finish]
    exact hunion.nodup.filter _
  · simp only [NameSet.filter, names_relations_finish, hunion.names_eq, filter_append,
      filter_filter]
    congr 1
    · refine filter_congr fun n _ => ?_
      rw [hides_merge, Bool.not_or, Bool.and_comm]
    · refine filter_congr fun n _ => ?_
      rw [hides_merge]
      cases hcn : c.hides n <;> cases hdn : d.hides n <;> simp [hcn, hdn]

lemma relations_finish_merge_iff (hc : c.Nodup) (hd : d.Nodup) :
    (c.merge d).finish.relations.IsUnion c.finish.relations d.finish.relations ↔
      (∀ n ∈ c.finish.relations.names, d.hides n = false) ∧
        ∀ n ∈ d.finish.relations.names, c.hides n = false := by
  constructor
  · intro h
    have hshown : ∀ n ∈ (c.merge d).finish.relations.names,
        c.hides n = false ∧ d.hides n = false := by
      intro n hn
      rw [names_relations_finish, mem_filter, hides_merge] at hn
      simpa using hn.2
    refine ⟨fun n hn => (hshown n ?_).2, fun n hn => (hshown n ?_).1⟩
    · rw [h.names_eq]
      exact mem_append_left _ hn
    · rw [h.names_eq, mem_append, mem_filter]
      by_cases hmem : n ∈ c.finish.relations.names
      · exact .inl hmem
      · exact .inr ⟨hn, by simp [hmem]⟩
  · rintro ⟨hleft, hright⟩
    have hfilter : ∀ {s : NameSet} {p : String → Bool}, (∀ n ∈ s.names, p n = false) →
        s.filter (!p ·) = s := by
      intro s p h
      exact congrArg NameSet.mk (filter_eq_self.mpr fun n hn => by rw [h n hn]; rfl)
    have h := relations_finish_merge hc hd
    rwa [hfilter hleft, hfilter hright] at h

end Collector

end SqlOutline
