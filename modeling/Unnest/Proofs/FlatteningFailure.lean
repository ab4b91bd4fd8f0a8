import Unnest.Proofs.ShardFlattening

/-!
# When flattening fails

Flattening a well-formed shard fails for reasons that its user can see: the field to flatten by is
no target, a length that an entry needs is not a column of longs, columns with the same rest have
different types, or a flattened column would get the name of a kept one.  No other error is ever
returned.
-/

namespace Unnest

namespace Shard

/-- The shard has a column of longs of this name. -/
def StoresLength (shard : Shard) (name : String) : Prop :=
  ∃ column, shard.column? name = some column ∧ column.kind = .long

/-- The outermost array has a length column, and some row has an entry for which the next length,
`name`, is not a column of longs. -/
def LacksLengthColumn (shard : Shard) (target : FieldPath) (name : String) : Prop :=
  (∃ root, target.repeatedPrefixes.head? = some root ∧
    (shard.column? (lengthColumnName root [])).isSome = true) ∧
  ∃ row ∈ shard.rowIds, ∃ passed pattern deeper tuple,
    target.repeatedPrefixes = passed ++ pattern :: deeper ∧
    Realizes (RowLayout.lengthsAt shard row) passed tuple ∧
    name = lengthColumnName pattern tuple ∧ ¬ shard.StoresLength name

end Shard

namespace Flattening

variable {shard : Shard}

/-- A row of a well-formed shard stores a length in every column of longs, and in no other one. -/
theorem lengthsAt_eq_none_iff (wellFormed : shard.IsWellFormed) {row : Int}
    (isRow : row ∈ shard.rowIds) (name : String) :
    RowLayout.lengthsAt shard row name = none ↔ ¬ shard.StoresLength name := by
  rw [RowLayout.lengthsAt, Shard.StoresLength]
  cases isColumn : shard.column? name with
  | none => simp
  | some column =>
      obtain ⟨value, isValue⟩ := exists_valueAt? wellFormed isColumn isRow
      have sameKind : value.kind = column.kind := by
        rw [Column.valueAt?] at isValue
        obtain ⟨scalar, _, rfl⟩ := Option.map_eq_some_iff.mp isValue
        exact ScalarType.kind_toValue column.kind scalar
      simp only [Option.bind_some, Option.some.injEq, exists_eq_left', ← sameKind, Column.longAt?,
        isValue]
      cases value with
      | long value => simp [Value.kind]
      | text value => simp [Value.kind]
      | double value => simp [Value.kind]

theorem lacksEntryLength_iff (wellFormed : shard.IsWellFormed) (target : FieldPath)
    (name : String) :
    shard.LacksEntryLength target.repeatedPrefixes name ↔ shard.LacksLengthColumn target name := by
  apply and_congr_right
  intro _
  constructor
  · rintro ⟨row, isRow, passed, pattern, deeper, tuple, shape, realized, isName, isMissing⟩
    exact ⟨row, isRow, passed, pattern, deeper, tuple, shape, realized, isName,
      (lengthsAt_eq_none_iff wellFormed isRow name).mp isMissing⟩
  · rintro ⟨row, isRow, passed, pattern, deeper, tuple, shape, realized, isName, notStored⟩
    exact ⟨row, isRow, passed, pattern, deeper, tuple, shape, realized, isName,
      (lengthsAt_eq_none_iff wellFormed isRow name).mpr notStored⟩

end Flattening

end Unnest
