import PermissionGuard.Hierarchy
import PermissionGuard.Proofs.Ordered
import PermissionGuard.Proofs.Reachability
import Mathlib.Data.List.Nodup

/-!
Subtypes are what the recorded edges lead to: every edge is a successor of one type only, so the
number of edges is enough for the search, in whatever order it takes the supertypes of a type.
-/

namespace PermissionGuard.Hierarchy

variable {h h' : Hierarchy} {type super : Text}

theorem mem_supertypes : super ∈ h.supertypes type ↔ (type, super) ∈ h.edges := by
  simp only [supertypes, List.mem_filterMap, Prod.exists]
  constructor
  · rintro ⟨child, parent, recorded, found⟩
    split at found
    · rename_i same
      cases found
      exact same ▸ recorded
    · cases found
  · intro recorded
    exact ⟨type, super, recorded, if_pos rfl⟩

theorem length_flatMap_supertypes (child parent : Text) (edges : List (Text × Text))
    (found : List Text) :
    (found.flatMap (supertypes ⟨(child, parent) :: edges⟩)).length =
      found.count child + (found.flatMap (supertypes ⟨edges⟩)).length := by
  induction found with
  | nil => rfl
  | cons type found ih =>
      rw [List.flatMap_cons, List.length_append, ih, List.flatMap_cons, List.length_append,
        List.count_cons]
      by_cases same : child = type
      · simp [supertypes, same]
        omega
      · have other : ¬ type = child := fun equal => same equal.symm
        simp [supertypes, same, other]
        omega

/-- Every edge starts at one type, so different types share no edges. -/
theorem successorsWithin_edges (h : Hierarchy) (kind : Text → Prop) :
    SuccessorsWithin h.supertypes kind h.edges.length := by
  intro found distinct _
  obtain ⟨edges⟩ := h
  induction edges with
  | nil => simp [supertypes]
  | cons edge edges ih =>
      have once := List.nodup_iff_count_le_one.mp distinct edge.1
      simp only [length_flatMap_supertypes edge.1 edge.2, List.length_cons] at ih ⊢
      omega

theorem isSubtype_iff : h.isSubtype type super = true ↔ Reaches h.supertypes type super := by
  rw [isSubtype, Visited.contains_iff, mem_reach_iff (h.successorsWithin_edges _)]
  simp [ReachedFrom]

theorem mem_parents : super ∈ h.parents type ↔ super ∈ h.supertypes type :=
  mem_dropAdjacent.trans List.mem_mergeSort

theorem length_parents_le (h : Hierarchy) (type : Text) :
    (h.parents type).length ≤ (h.supertypes type).length := by
  have shorter := (dropAdjacent_sublist (Text.sorted (h.supertypes type))).length_le
  rwa [Text.sorted, List.length_mergeSort] at shorter

/-- The direct supertypes of every type, each once, in some order. -/
def Orders (h : Hierarchy) (order : Text → List Text) : Prop :=
  ∀ type, (order type).Perm (h.parents type)

theorem Orders.reaches_iff {order : Text → List Text} (orders : h.Orders order) :
    Reaches order type super ↔ Reaches h.supertypes type super :=
  reaches_congr fun type _ => (orders type).mem_iff.trans mem_parents

theorem Orders.successorsWithin {order : Text → List Text} (orders : h.Orders order)
    (kind : Text → Prop) : SuccessorsWithin order kind h.edges.length := by
  refine (h.successorsWithin_edges kind).of_length_le fun type => ?_
  rw [(orders type).length_eq]
  exact h.length_parents_le type

/-- What a search finds with any budget is a supertype. -/
theorem Orders.isSubtype_of_found {order : Text → List Text} (orders : h.Orders order)
    {budget : Nat} (found : super ∈ reach order budget [type]) : h.isSubtype type super = true := by
  obtain ⟨root, isRoot, path⟩ := (explore_sound found).resolve_left (Visited.not_mem_empty super)
  obtain rfl := List.mem_singleton.mp isRoot
  exact isSubtype_iff.mpr (orders.reaches_iff.mp path)

/-- A budget for all edges is enough for every order. -/
theorem Orders.found_of_isSubtype {order : Text → List Text} (orders : h.Orders order)
    {budget : Nat} (enough : h.edges.length ≤ budget) (below : h.isSubtype type super = true) :
    super ∈ reach order budget [type] := by
  refine (mem_reach_iff fun found distinct inside => ?_).mpr
    ⟨type, List.mem_singleton_self type, orders.reaches_iff.mpr (isSubtype_iff.mp below)⟩
  exact Nat.le_trans (orders.successorsWithin _ found distinct inside) enough

/-- More edges only add subtypes. -/
theorem isSubtype_mono (more : h.edges ⊆ h'.edges) (below : h.isSubtype type super = true) :
    h'.isSubtype type super = true := by
  rw [isSubtype_iff] at below ⊢
  exact Relation.ReflTransGen.mono
    (fun child parent edge => mem_supertypes.mpr (more (mem_supertypes.mp edge))) _ _ below

end PermissionGuard.Hierarchy
