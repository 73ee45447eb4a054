import Std.Data.HashSet

/-!
Search along a successor relation. The elements found are kept in the order of their first visit,
beside a hash set that answers membership.
-/

namespace PermissionGuard

/-- The number of all items of some lists together. -/
def totalLength {α : Type} (lists : List (List α)) : Nat :=
  lists.foldl (fun count list => count + list.length) 0

variable {α : Type} [BEq α] [LawfulBEq α] [Hashable α]

/-- A set that remembers the order in which its elements were added. -/
structure Visited (α : Type) [BEq α] [LawfulBEq α] [Hashable α] where
  newestFirst : List α
  marks : Std.HashSet α
  mem_marks : ∀ a, a ∈ marks ↔ a ∈ newestFirst

namespace Visited

def empty : Visited α where
  newestFirst := []
  marks := ∅
  mem_marks := by simp

instance : Inhabited (Visited α) := ⟨empty⟩

instance : Membership α (Visited α) := ⟨fun visited a => a ∈ visited.newestFirst⟩

def contains (visited : Visited α) (a : α) : Bool := visited.marks.contains a

theorem contains_iff (visited : Visited α) (a : α) : visited.contains a = true ↔ a ∈ visited :=
  Std.HashSet.contains_iff_mem.trans (visited.mem_marks a)

instance (visited : Visited α) (a : α) : Decidable (a ∈ visited) :=
  decidable_of_iff _ (visited.contains_iff a)

/-- Adds an element that was not visited before; a second visit changes nothing. -/
def insert (visited : Visited α) (a : α) : Visited α :=
  if visited.contains a then visited
  else {
    newestFirst := a :: visited.newestFirst
    marks := visited.marks.insert a
    mem_marks := by
      intro b
      rw [Std.HashSet.mem_insert, visited.mem_marks, List.mem_cons, beq_iff_eq, eq_comm] }

/-- The elements in the order in which they were added. -/
def toList (visited : Visited α) : List α := visited.newestFirst.reverse

def size (visited : Visited α) : Nat := visited.newestFirst.length

end Visited

/-- Visits the pending elements first come, first served, adding the successors of every element
at its first visit. The budget bounds the number of pending elements that are looked at. -/
def explore (next : α → List α) : Nat → List α → Visited α → Visited α
  | 0, _, visited => visited
  | _ + 1, [], visited => visited
  | budget + 1, a :: pending, visited =>
      if visited.contains a then explore next budget pending visited
      else explore next budget (pending ++ next a) (visited.insert a)

/-- The elements reached from the roots, in the order of their first visit, when `edges` bounds
the number of successors of all of them together. -/
def reach (next : α → List α) (edges : Nat) (roots : List α) : Visited α :=
  explore next (roots.length + edges) roots Visited.empty

end PermissionGuard
