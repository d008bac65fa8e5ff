import Clearance.Sorted

/-!
# Sets of names

A `NameSet` lists its members in increasing order, each once, so that two sets with the same
members are equal (`NameSet.ext`) and the size is the number of distinct names put in.
-/

namespace Clearance

/-- A finite set of names. -/
structure NameSet where
  /-- The members in increasing order. -/
  toList : List String
  /-- No member is repeated or out of order. -/
  increasing : Increasing id toList
  deriving DecidableEq

namespace NameSet

instance : Membership String NameSet := ⟨fun s name => name ∈ s.toList⟩

instance (name : String) (s : NameSet) : Decidable (name ∈ s) :=
  inferInstanceAs (Decidable (name ∈ s.toList))

/-- The set without members. -/
def empty : NameSet := ⟨[], increasing_nil⟩

instance : EmptyCollection NameSet := ⟨empty⟩

instance : Inhabited NameSet := ⟨empty⟩

/-- Adds a name. -/
def insert (s : NameSet) (name : String) : NameSet :=
  ⟨insertByKey id name s.toList, s.increasing.insertByKey⟩

/-- The names of a list, in any order and however often repeated. -/
def ofList (names : List String) : NameSet := names.foldl insert empty

/-- The number of members. -/
def size (s : NameSet) : Nat := s.toList.length

/-- There is no member. -/
def isEmpty (s : NameSet) : Bool := s.toList.isEmpty

theorem mem_def {name : String} {s : NameSet} : name ∈ s ↔ name ∈ s.toList := Iff.rfl

@[simp]
theorem notMem_empty (name : String) : name ∉ (∅ : NameSet) := List.not_mem_nil

/-- Sets with the same members are equal. -/
@[ext]
theorem ext {s t : NameSet} (same : ∀ name, name ∈ s ↔ name ∈ t) : s = t := by
  obtain ⟨l, hl⟩ := s
  obtain ⟨m, hm⟩ := t
  obtain rfl : l = m := hl.ext hm same
  rfl

@[simp]
theorem mem_insert {s : NameSet} {a b : String} : b ∈ s.insert a ↔ b = a ∨ b ∈ s := by
  rw [mem_def, insert, mem_insertByKey s.increasing, mem_def]
  by_cases h : b = a <;> simp [h]

theorem mem_foldl_insert {names : List String} {s : NameSet} {a : String} :
    a ∈ names.foldl insert s ↔ a ∈ names ∨ a ∈ s := by
  induction names generalizing s with
  | nil => simp
  | cons b names ih => rw [List.foldl_cons, ih, mem_insert, List.mem_cons]; grind

@[simp]
theorem mem_ofList {names : List String} {a : String} : a ∈ ofList names ↔ a ∈ names := by
  rw [ofList, mem_foldl_insert]
  exact ⟨fun h => h.resolve_right (notMem_empty a), .inl⟩

theorem isEmpty_iff {s : NameSet} : s.isEmpty = true ↔ s.size = 0 := by
  simp [isEmpty, size]

end NameSet

end Clearance
