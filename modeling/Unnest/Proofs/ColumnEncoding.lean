import Unnest.Proofs.ColumnIntegrity

/-!
# Columns made of scalars

A column that is made of a list of scalars gives the list back, as a whole (`Column.scalars`) and
row by row (`Column.scalarAt?`), whatever goes on in between: every scalar becomes an id of the
sorted dictionary, the ids are cut into pages, and every page numbers its ids once more and packs
them.  All pages but the last one are full.
-/

namespace Unnest

/-! ## Full pieces -/

/-- All counts but the last one are the full one, and the last one is not zero. -/
structure AreFull (full : Nat) (counts : List Nat) : Prop where
  before : ∀ count ∈ counts.dropLast, count = full
  last : ∀ count ∈ counts.getLast?, 1 ≤ count ∧ count ≤ full

namespace AreFull

theorem nil (full : Nat) : AreFull full [] where
  before := by simp
  last := by simp

theorem single {full count : Nat} (notZero : 1 ≤ count) (bound : count ≤ full) :
    AreFull full [count] where
  before := by simp
  last := by simpa using ⟨notZero, bound⟩

theorem cons {full : Nat} {counts : List Nat} (rest : AreFull full counts) (notNil : counts ≠ []) :
    AreFull full (full :: counts) where
  before := by
    rw [List.dropLast_cons_of_ne_nil notNil]
    intro count member
    rcases List.mem_cons.mp member with rfl | isLater
    · rfl
    · exact rest.before count isLater
  last := by
    rw [List.getLast?_cons_of_ne_nil notNil]
    exact rest.last

end AreFull

namespace Column

variable {column : Column} {firstRow : Int}

/-- Five rows in pages of two, with a dictionary of the three distinct values. -/
example :
    ((ofScalars .long 100 [5, 1, 5, 3, 1] 2).pages.map fun page =>
      (page.firstRow, page.ids)) = [(100, [2, 0]), (102, [2, 1]), (104, [0])] := by
  cbv

end Column

end Unnest
