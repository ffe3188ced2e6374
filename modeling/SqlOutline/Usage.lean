/-!
# What a body uses

The relations that a piece of SQL reads or writes and the routines it calls, as sets of names in
the order in which the names are first met.

## Main definitions

* `NameSet` — a set of names with the order of insertion.
* `Usage` — the relations, functions and procedures that a body uses.
* `Usage.merge` — the usage of two bodies together.

## Main results

* `NameSet.mem_insert` — insertion adds exactly the given name.
* `NameSet.nodup_insert` — no name occurs twice.
-/

namespace SqlOutline

/-- A set of names, listed in the order in which they were added. -/
structure NameSet where
  names : List String := []
  deriving Repr, DecidableEq

namespace NameSet

def insert (s : NameSet) (name : String) : NameSet :=
  if s.names.contains name then s else ⟨s.names ++ [name]⟩

def insertAll (s : NameSet) (names : List String) : NameSet := names.foldl insert s

def isEmpty (s : NameSet) : Bool := s.names.isEmpty

def filter (p : String → Bool) (s : NameSet) : NameSet := ⟨s.names.filter p⟩

@[simp]
theorem mem_insert (s : NameSet) (a b : String) :
    b ∈ (s.insert a).names ↔ b ∈ s.names ∨ b = a := by
  unfold insert
  by_cases h : a ∈ s.names
  · simp only [List.contains_iff_mem, h, if_true]
    exact ⟨Or.inl, fun hb => hb.elim id fun e => e ▸ h⟩
  · simp [h]

theorem nodup_insert {s : NameSet} (h : s.names.Nodup) (a : String) :
    (s.insert a).names.Nodup := by
  unfold insert
  by_cases ha : a ∈ s.names
  · simpa [ha] using h
  · simp only [List.contains_iff_mem, ha, if_false]
    exact List.nodup_append.2 ⟨h, by simp, by
      intro x hx y hy e
      rw [List.mem_singleton] at hy
      exact ha (hy ▸ e ▸ hx)⟩

end NameSet

/-- The relations, functions and procedures that a body uses. -/
structure Usage where
  relations : NameSet := {}
  functions : NameSet := {}
  procedures : NameSet := {}
  deriving Repr, DecidableEq

namespace Usage

def isEmpty (u : Usage) : Bool :=
  u.relations.isEmpty && u.functions.isEmpty && u.procedures.isEmpty

def merge (u v : Usage) : Usage :=
  ⟨u.relations.insertAll v.relations.names, u.functions.insertAll v.functions.names,
    u.procedures.insertAll v.procedures.names⟩

end Usage

end SqlOutline
