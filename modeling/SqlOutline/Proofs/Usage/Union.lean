import Mathlib.Data.List.Basic
import SqlOutline.Usage

/-!
# Unions of usages

Names are kept in the order in which they are first met.

## Main definitions

* `Usage.IsUnion` — a usage is the union of two and keeps this order.

## Main results

* `insertAll_insertAll` — adding names is associative.
* `isUnion_merge` — putting two usages together gives their union.
-/

namespace SqlOutline

open List NameSet

namespace NameSet

/-- A set of names is the union of two: it has the names of the first and behind them those of the
second that are not in the first, each in their order, and none twice. -/
structure IsUnion (u s t : NameSet) : Prop where
  nodup : u.names.Nodup
  names_eq : u.names = s.names ++ t.names.filter fun n => !s.names.contains n

variable {s t : NameSet} {ns : List String}

lemma insert_of_mem {n : String} (h : n ∈ s.names) : s.insert n = s := by
  rw [insert, if_pos (contains_iff_mem.mpr h)]

lemma insert_of_not_mem {n : String} (h : n ∉ s.names) : s.insert n = ⟨s.names ++ [n]⟩ := by
  rw [insert, if_neg (fun hc => h (contains_iff_mem.mp hc))]

lemma mem_insertAll (s : NameSet) (ns : List String) (n : String) :
    n ∈ (s.insertAll ns).names ↔ n ∈ s.names ∨ n ∈ ns := by
  induction ns generalizing s with
  | nil => simp [insertAll]
  | cons m ns ih =>
    have hcons : s.insertAll (m :: ns) = (s.insert m).insertAll ns := rfl
    rw [hcons, ih, mem_insert, mem_cons, or_assoc]

lemma nodup_insertAll (h : s.names.Nodup) (ns : List String) : (s.insertAll ns).names.Nodup := by
  induction ns generalizing s with
  | nil => exact h
  | cons n ns ih => exact ih (nodup_insert h n)

lemma insertAll_insert (s t : NameSet) (n : String) :
    s.insertAll (t.insert n).names = (s.insertAll t.names).insert n := by
  by_cases h : n ∈ t.names
  · rw [insert_of_mem h, insert_of_mem ((mem_insertAll s _ n).mpr (Or.inr h))]
  · rw [insert_of_not_mem h, insertAll, foldl_append]
    rfl

/-- **Adding names is associative.** -/
lemma insertAll_insertAll (s t : NameSet) (ns : List String) :
    s.insertAll (t.insertAll ns).names = (s.insertAll t.names).insertAll ns := by
  induction ns generalizing t with
  | nil => rfl
  | cons n ns ih =>
    have hcons : ∀ r : NameSet, r.insertAll (n :: ns) = (r.insert n).insertAll ns := fun _ => rfl
    rw [hcons, hcons, ih, insertAll_insert]

lemma names_insertAll (s : NameSet) (h : ns.Nodup) :
    (s.insertAll ns).names = s.names ++ ns.filter fun n => !s.names.contains n := by
  induction ns generalizing s with
  | nil => simp [insertAll]
  | cons n ns ih =>
    obtain ⟨hn, h⟩ := nodup_cons.mp h
    have hcons : s.insertAll (n :: ns) = (s.insert n).insertAll ns := rfl
    rw [hcons, ih _ h]
    by_cases hmem : n ∈ s.names
    · rw [insert_of_mem hmem, filter_cons_of_neg (by simp [hmem])]
    · have hfilter : (ns.filter fun m => !(s.names ++ [n]).contains m) =
          ns.filter fun m => !s.names.contains m := by
        refine filter_congr fun m hm => ?_
        have hne : m ≠ n := fun h => hn (h ▸ hm)
        simp [hne]
      rw [insert_of_not_mem hmem, hfilter, filter_cons_of_pos (by simp [hmem]),
        append_assoc, singleton_append]

lemma isUnion_insertAll (hs : s.names.Nodup) (ht : t.names.Nodup) :
    IsUnion (s.insertAll t.names) s t :=
  ⟨nodup_insertAll hs _, names_insertAll s ht⟩

end NameSet

namespace Usage

/-- No name occurs twice among the relations, the functions or the procedures. -/
structure Nodup (u : Usage) : Prop where
  relations : u.relations.names.Nodup
  functions : u.functions.names.Nodup
  procedures : u.procedures.names.Nodup

/-- A usage is the union of two in its relations, functions and procedures. -/
structure IsUnion (w u v : Usage) : Prop where
  relations : w.relations.IsUnion u.relations v.relations
  functions : w.functions.IsUnion u.functions v.functions
  procedures : w.procedures.IsUnion u.procedures v.procedures

variable {u v : Usage}

lemma nodup_empty : Nodup {} := ⟨.nil, .nil, .nil⟩

lemma Nodup.merge (h : u.Nodup) (v : Usage) : (u.merge v).Nodup :=
  ⟨nodup_insertAll h.relations _, nodup_insertAll h.functions _,
    nodup_insertAll h.procedures _⟩

lemma Nodup.foldl_merge (h : u.Nodup) (us : List Usage) : (us.foldl Usage.merge u).Nodup := by
  induction us generalizing u with
  | nil => exact h
  | cons v us ih => exact ih (h.merge v)

lemma merge_empty (u : Usage) : u.merge {} = u := rfl

lemma merge_assoc (u v w : Usage) : (u.merge v).merge w = u.merge (v.merge w) := by
  simp only [merge, insertAll_insertAll]

/-- **Usages can be put together from any place on.** -/
lemma foldl_merge (u : Usage) (us : List Usage) :
    us.foldl merge u = u.merge (us.foldl merge {}) := by
  induction us generalizing u with
  | nil => rfl
  | cons v us ih =>
    calc (v :: us).foldl merge u
        = (u.merge v).merge (us.foldl merge {}) := ih (u.merge v)
      _ = u.merge ((merge {} v).merge (us.foldl merge {})) := by
          rw [← merge_assoc u, ← merge_assoc u, merge_empty]
      _ = u.merge ((v :: us).foldl merge {}) := by rw [← ih (merge {} v)]; rfl

/-- **Putting two usages together gives their union.** -/
lemma isUnion_merge (hu : u.Nodup) (hv : v.Nodup) : IsUnion (u.merge v) u v :=
  ⟨isUnion_insertAll hu.relations hv.relations,
    isUnion_insertAll hu.functions hv.functions,
    isUnion_insertAll hu.procedures hv.procedures⟩

end Usage

end SqlOutline
