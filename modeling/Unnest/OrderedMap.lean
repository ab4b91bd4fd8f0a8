/-!
# Ordered maps

A finite map kept as the list of its entries, keys strictly ascending.  The entries are the map: to
walk it in key order is to walk the list.  Well-formedness is the predicate `IsOrdered`; `insert`
and `erase` keep it, and the two laws of `find?` say what they do.
-/

namespace Unnest

/-- The entries of a map, keys strictly ascending. -/
abbrev OrderedMap (κ : Type) (α : Type) := List (κ × α)

namespace OrderedMap

variable {κ α : Type} [Ord κ]

/-- Add an entry, or replace the one under the same key. -/
def insert (key : κ) (value : α) : OrderedMap κ α → OrderedMap κ α
  | [] => [(key, value)]
  | (otherKey, otherValue) :: rest =>
      match compare key otherKey with
      | .lt => (key, value) :: (otherKey, otherValue) :: rest
      | .eq => (key, value) :: rest
      | .gt => (otherKey, otherValue) :: insert key value rest

/-- The value under a key. -/
def find? (key : κ) : OrderedMap κ α → Option α
  | [] => none
  | (otherKey, value) :: rest =>
      if compare key otherKey = .eq then some value else find? key rest

/-- Remove the entry under a key. -/
def erase (key : κ) : OrderedMap κ α → OrderedMap κ α
  | [] => []
  | (otherKey, value) :: rest =>
      if compare key otherKey = .eq then rest else (otherKey, value) :: erase key rest

def contains (key : κ) (map : OrderedMap κ α) : Bool :=
  (find? key map).isSome

/-- Of several entries with the same key the last one stays. -/
def ofEntries (entries : List (κ × α)) : OrderedMap κ α :=
  entries.foldl (fun map entry => insert entry.1 entry.2 map) []

def keys (map : OrderedMap κ α) : List κ :=
  map.map (·.1)

/-- The keys are strictly ascending. -/
def IsOrdered (map : OrderedMap κ α) : Prop :=
  map.Pairwise fun left right => compare left.1 right.1 = .lt

/-! ## Laws -/

@[simp]
theorem find?_nil (key : κ) : find? key ([] : OrderedMap κ α) = none := rfl

theorem find?_insert [Std.LawfulEqOrd κ] [Std.TransOrd κ] (key wanted : κ) (value : α)
    (map : OrderedMap κ α) :
    find? wanted (insert key value map) =
      if compare wanted key = .eq then some value else find? wanted map := by
  induction map with
  | nil => simp [insert, find?]
  | cons entry rest inductionHypothesis =>
      obtain ⟨otherKey, otherValue⟩ := entry
      cases order : compare key otherKey with
      | lt => simp [insert, find?, order]
      | eq =>
          have sameKey : key = otherKey := Std.LawfulEqCmp.eq_of_compare order
          subst sameKey
          by_cases found : compare wanted key = .eq <;>
            simp [insert, find?, found]
      | gt =>
          by_cases found : compare wanted key = .eq
          · have sameKey : wanted = key := Std.LawfulEqCmp.eq_of_compare found
            subst sameKey
            simp [insert, find?, order, inductionHypothesis]
          · simp [insert, find?, order, inductionHypothesis, found]

theorem mem_keys_insert [Std.LawfulEqOrd κ] (key wanted : κ) (value : α)
    (map : OrderedMap κ α) :
    wanted ∈ keys (insert key value map) ↔ wanted = key ∨ wanted ∈ keys map := by
  induction map with
  | nil => simp [insert, keys]
  | cons entry rest inductionHypothesis =>
      obtain ⟨otherKey, otherValue⟩ := entry
      simp only [keys] at inductionHypothesis
      cases order : compare key otherKey with
      | lt => simp [insert, keys, order]
      | eq =>
          have sameKey : key = otherKey := Std.LawfulEqCmp.eq_of_compare order
          subst sameKey
          simp [insert, keys]
      | gt =>
          simp only [insert, keys, order, List.map_cons, List.mem_cons, inductionHypothesis]
          grind

theorem isOrdered_insert [Std.TransOrd κ] [Std.LawfulEqOrd κ] (key : κ) (value : α)
    {map : OrderedMap κ α} (ordered : IsOrdered map) :
    IsOrdered (insert key value map) := by
  induction map with
  | nil => simp [insert, IsOrdered]
  | cons entry rest inductionHypothesis =>
      obtain ⟨otherKey, otherValue⟩ := entry
      simp only [IsOrdered, List.pairwise_cons] at ordered
      cases order : compare key otherKey with
      | lt =>
          simp only [insert, order, IsOrdered, List.pairwise_cons]
          refine ⟨?_, ordered.1, ordered.2⟩
          intro later isLater
          rcases List.mem_cons.mp isLater with rfl | inRest
          · exact order
          · exact Std.TransCmp.lt_trans order (ordered.1 later inRest)
      | eq =>
          have sameKey : key = otherKey := Std.LawfulEqCmp.eq_of_compare order
          subst sameKey
          simp only [insert, order, IsOrdered, List.pairwise_cons]
          exact ⟨ordered.1, ordered.2⟩
      | gt =>
          simp only [insert, order, IsOrdered, List.pairwise_cons]
          refine ⟨?_, inductionHypothesis ordered.2⟩
          intro later isLater
          have laterKey : later.1 ∈ keys (insert key value rest) :=
            List.mem_map_of_mem isLater
          rcases (mem_keys_insert key later.1 value rest).mp laterKey with isKey | inRest
          · rw [isKey]
            exact Std.OrientedCmp.lt_of_gt order
          · obtain ⟨found, inList, sameKey⟩ := List.mem_map.mp inRest
            rw [← sameKey]
            exact ordered.1 found inList

end OrderedMap

end Unnest
