import Unnest.Proofs.ColumnIntegrity

/-!
# Ids of dictionaries keep the order of values

The ids of an ascending dictionary are the numbers below its size, and they determine the values,
are determined by them, and are ordered like them (`Dictionary.Numbers`).  This is so for the
dictionary of any list of values, for one of values that are ascending already, and for one that is
built push by push, where a value that does not lie above the last one is refused and changes
nothing (`DictionaryBuilder.Answers`).
-/

namespace Unnest

theorem Ascending.concat {α : Type} [Ord α] [Std.TransOrd α] {items : List α}
    (ascending : Ascending items) {item : α}
    (above : ∀ last ∈ items.getLast?, compare last item = .lt) : Ascending (items ++ [item]) := by
  refine List.pairwise_append.mpr ⟨ascending, List.pairwise_singleton _ _, ?_⟩
  intro other isOther added isAdded
  obtain rfl := List.mem_singleton.mp isAdded
  obtain ⟨earlier, last, isConcat⟩ :=
    (List.eq_nil_or_concat items).resolve_left (List.ne_nil_of_mem isOther)
  rw [List.concat_eq_append] at isConcat
  subst isConcat
  have lastBelow : compare last added = .lt := above last (by simp)
  rcases List.mem_append.mp isOther with isEarlier | isLast
  · have below := (List.pairwise_append.mp ascending).2.2 other isEarlier last List.mem_cons_self
    exact Std.TransCmp.lt_trans below lastBelow
  · rwa [List.mem_singleton.mp isLast]

/-! ## Ascending dictionaries -/

namespace Dictionary

/-- The dictionary holds these values, and its ids number them in their order. -/
structure Numbers {α : Type} [Ord α] (dictionary : Dictionary α) (values : List α) : Prop where
  holds : dictionary.toList = values
  /-- Finding an id and decoding it are inverse to each other. -/
  idOf?_eq_some_iff : ∀ value id,
    dictionary.idOf? value = some id ↔ dictionary.decode? id = some value
  isId_iff : ∀ id, (dictionary.decode? id).isSome = true ↔ 0 ≤ id ∧ id < values.length
  lt_iff : ∀ left right leftId rightId, dictionary.idOf? left = some leftId →
    dictionary.idOf? right = some rightId → (leftId < rightId ↔ compare left right = .lt)

variable {α : Type} [Ord α] {dictionary : Dictionary α}

theorem decode?_of_idOf? [Std.LawfulEqOrd α] {value : α} {id : Int}
    (found : dictionary.idOf? value = some id) : dictionary.decode? id = some value := by
  simp only [idOf?] at found
  split at found
  · rename_i isThere
    obtain ⟨other, isOther, same⟩ := (Option.any_eq_true _ _).mp isThere
    cases found
    rw [decode?, if_pos (Int.natCast_nonneg _), Int.toNat_natCast, isOther]
    exact congrArg some (Std.LawfulEqCmp.eq_of_compare (beq_iff_eq.mp same))
  · cases found

theorem idOf?_eq_some_iff_decode? [Std.TransOrd α] [Std.LawfulEqOrd α] [DecidableEq α]
    (ascending : dictionary.IsAscending) (value : α) (id : Int) :
    dictionary.idOf? value = some id ↔ dictionary.decode? id = some value := by
  refine ⟨decode?_of_idOf?, ?_⟩
  intro decoded
  rw [idOf?_eq_idxOf ascending (mem_of_decode? decoded), idxOf_eq_of_decode? ascending decoded]

/-- Of two values, the one with the lower id is lower, and the other way round. -/
theorem lt_iff_compare_decode? [Std.TransOrd α] (ascending : dictionary.IsAscending)
    {left right : α} {leftId rightId : Int} (leftDecoded : dictionary.decode? leftId = some left)
    (rightDecoded : dictionary.decode? rightId = some right) :
    leftId < rightId ↔ compare left right = .lt := by
  refine ⟨fun below => compare_decode? ascending below leftDecoded rightDecoded, ?_⟩
  intro below
  rcases Int.lt_trichotomy leftId rightId with less | same | greater
  · exact less
  · rw [same, rightDecoded] at leftDecoded
    rw [Option.some.inj leftDecoded] at below
    exact absurd below (compare_self_ne_lt left)
  · have above := compare_decode? ascending greater rightDecoded leftDecoded
    exact absurd above (Std.OrientedCmp.not_lt_of_lt below)

theorem numbers_of_ascending [Std.TransOrd α] [Std.LawfulEqOrd α] [DecidableEq α]
    {values : List α} (holds : dictionary.toList = values) (ascending : Ascending values) :
    dictionary.Numbers values := by
  subst holds
  constructor
  case holds => rfl
  case idOf?_eq_some_iff => exact idOf?_eq_some_iff_decode? ascending
  case isId_iff =>
      intro id
      rw [isSome_decode?_iff, size_eq_length]
  case lt_iff =>
      intro left right leftId rightId leftFound rightFound
      exact lt_iff_compare_decode? ascending (decode?_of_idOf? leftFound)
        (decode?_of_idOf? rightFound)

end Dictionary

/-! ## Pushing values -/

namespace DictionaryBuilder

variable {kind : ScalarType}

/-- Push values one after the other, whether they are accepted or not. -/
def pushEach (builder : DictionaryBuilder kind) :
    List kind.Carrier → List (Outcome Int) × DictionaryBuilder kind
  | [] => ([], builder)
  | value :: rest =>
      match builder.push value with
      | .ok (id, extended) => (.ok id :: (extended.pushEach rest).1, (extended.pushEach rest).2)
      | .error error => (.error error :: (builder.pushEach rest).1, (builder.pushEach rest).2)

/-- The values whose push was answered with an id. -/
def accepted : List kind.Carrier → List (Outcome Int) → List kind.Carrier
  | value :: values, .ok _ :: answers => value :: accepted values answers
  | _ :: values, .error _ :: answers => accepted values answers
  | _, _ => []

/-- What is answered to the push of a value, given the builder before and after it, and the one that
is left in the end. -/
inductive Answers (before after final : DictionaryBuilder kind) (value : kind.Carrier) :
    Outcome Int → Prop
  | accepted {id : Int} (above : ∀ last ∈ before.last?, compare last value = .lt)
      (isFinal : final.build.idOf? value = some id) : Answers before after final value (.ok id)
  | refused {last : kind.Carrier} (isLast : before.last? = some last)
      (notAbove : compare last value ≠ .lt) (sameSize : after.size = before.size)
      (sameLast : after.last? = before.last?) :
      Answers before after final value (.error (outOfOrder kind last value))

theorem toList_build (builder : DictionaryBuilder kind) :
    builder.build.toList = builder.values.toList := rfl

/-- A value is appended if it lies above the last one, and refused otherwise. -/
theorem push_outcome (builder : DictionaryBuilder kind) (value : kind.Carrier) :
    ((∀ last ∈ builder.last?, compare last value = .lt) ∧
      builder.push value = .ok ((builder.size : Int), ⟨builder.values.push value⟩)) ∨
    ∃ last, builder.last? = some last ∧ compare last value ≠ .lt ∧
      builder.push value = .error (outOfOrder kind last value) := by
  by_cases above : ∀ last ∈ builder.last?, compare last value = .lt
  · exact Or.inl ⟨above, push_eq_ok builder value above⟩
  · push Not at above
    obtain ⟨last, isLast, notAbove⟩ := above
    refine Or.inr ⟨last, isLast, notAbove, ?_⟩
    simp [push, Option.mem_def.mp isLast, notAbove]

theorem ascending_push (builder : DictionaryBuilder kind) {value : kind.Carrier}
    (ascending : Ascending builder.values.toList)
    (above : ∀ last ∈ builder.last?, compare last value = .lt) :
    Ascending (builder.values.push value).toList := by
  rw [Array.toList_push]
  apply ascending.concat
  rwa [Array.getLast?_toList]

/-- The values that are accepted come behind those that are there, and all of them ascend. -/
theorem values_pushEach (builder : DictionaryBuilder kind) (values : List kind.Carrier)
    (ascending : Ascending builder.values.toList) :
    (builder.pushEach values).2.values.toList =
        builder.values.toList ++ accepted values (builder.pushEach values).1 ∧
      Ascending (builder.pushEach values).2.values.toList := by
  induction values generalizing builder with
  | nil => simpa [pushEach, accepted] using ascending
  | cons value rest inductionHypothesis =>
      rcases builder.push_outcome value with ⟨above, isPushed⟩ | ⟨last, _, _, isRefused⟩
      · have extended := inductionHypothesis ⟨builder.values.push value⟩
          (builder.ascending_push ascending above)
        simpa [pushEach, isPushed, accepted] using extended
      · simpa [pushEach, isRefused, accepted] using inductionHypothesis builder ascending

theorem pushEach_append (builder : DictionaryBuilder kind) (first second : List kind.Carrier) :
    builder.pushEach (first ++ second) =
      ((builder.pushEach first).1 ++ ((builder.pushEach first).2.pushEach second).1,
        ((builder.pushEach first).2.pushEach second).2) := by
  induction first generalizing builder with
  | nil => rfl
  | cons value rest inductionHypothesis =>
      rcases builder.push_outcome value with ⟨_, isPushed⟩ | ⟨last, _, _, isRefused⟩
      · simp [pushEach, isPushed, inductionHypothesis]
      · simp [pushEach, isRefused, inductionHypothesis]

theorem length_pushEach (builder : DictionaryBuilder kind) (values : List kind.Carrier) :
    (builder.pushEach values).1.length = values.length := by
  induction values generalizing builder with
  | nil => rfl
  | cons value rest inductionHypothesis =>
      rcases builder.push_outcome value with ⟨_, isPushed⟩ | ⟨last, _, _, isRefused⟩
      · simp [pushEach, isPushed, inductionHypothesis]
      · simp [pushEach, isRefused, inductionHypothesis]

/-- A value that is accepted gets the number of the values before it, which stays its id. -/
theorem idOf?_of_push {before : DictionaryBuilder kind} {value : kind.Carrier}
    (ascending : Ascending before.values.toList)
    (above : ∀ last ∈ before.last?, compare last value = .lt) (later : List kind.Carrier) :
    ((⟨before.values.push value⟩ : DictionaryBuilder kind).pushEach later).2.build.idOf? value =
      some (before.size : Int) := by
  obtain ⟨isAppended, finalAscending⟩ := values_pushEach ⟨before.values.push value⟩ later
    (before.ascending_push ascending above)
  have numbers := Dictionary.numbers_of_ascending (toList_build _) finalAscending
  rw [numbers.idOf?_eq_some_iff, Dictionary.decode?_eq, if_pos (Int.natCast_nonneg _),
    Int.toNat_natCast, numbers.holds, isAppended]
  simp [size]

/-- Every push is answered with the final id of its value, or else the value does not lie above the
last one and nothing changes. -/
theorem answers_pushEach {builder : DictionaryBuilder kind}
    (ascending : Ascending builder.values.toList) (earlier later : List kind.Carrier)
    (value : kind.Carrier) :
    ∃ answer, (builder.pushEach (earlier ++ value :: later)).1[earlier.length]? = some answer ∧
      Answers (builder.pushEach earlier).2 (builder.pushEach (earlier ++ [value])).2
        (builder.pushEach (earlier ++ value :: later)).2 value answer := by
  have beforeAscending := (values_pushEach builder earlier ascending).2
  have isNext : (builder.pushEach (earlier ++ value :: later)).1[earlier.length]? =
      ((builder.pushEach earlier).2.pushEach (value :: later)).1[0]? := by
    rw [pushEach_append, ← length_pushEach builder earlier,
      List.getElem?_append_right (Nat.le_refl _), Nat.sub_self]
  rw [isNext, pushEach_append, pushEach_append]
  generalize (builder.pushEach earlier).2 = before at *
  rcases before.push_outcome value with ⟨above, isPushed⟩ | ⟨last, isLast, notAbove, isRefused⟩
  · refine ⟨.ok before.size, by simp [pushEach, isPushed], .accepted above ?_⟩
    simpa only [pushEach, isPushed] using idOf?_of_push beforeAscending above later
  · exact ⟨.error (outOfOrder kind last value), by simp [pushEach, isRefused],
      .refused isLast notAbove (by simp [pushEach, isRefused]) (by simp [pushEach, isRefused])⟩

end DictionaryBuilder

/-! ## What the dictionaries hold -/

namespace Dictionary

theorem ascending_of_pushAll {kind : ScalarType} (builder : DictionaryBuilder kind)
    {built : DictionaryBuilder kind} {values : List kind.Carrier}
    (ascending : Ascending builder.values.toList)
    (isBuilt : builder.pushAll values = .ok built) :
    Ascending (builder.values.toList ++ values) := by
  induction values generalizing builder with
  | nil => simpa using ascending
  | cons value rest inductionHypothesis =>
      rw [DictionaryBuilder.pushAll] at isBuilt
      rcases builder.push_outcome value with ⟨above, isPushed⟩ | ⟨last, _, _, isRefused⟩
      · rw [isPushed] at isBuilt
        have extended := inductionHypothesis _ (builder.ascending_push ascending above) isBuilt
        simpa using extended
      · rw [isRefused] at isBuilt
        cases isBuilt

/-- Values make a dictionary without being sorted only if they ascend, and it holds just them. -/
theorem ofAscending_eq_ok_iff {kind : ScalarType} {values : List kind.Carrier}
    {dictionary : Dictionary kind.Carrier} :
    ofAscending kind values = .ok dictionary ↔
      Ascending values ∧ dictionary = .array values.toArray := by
  constructor
  · intro isBuilt
    have ascending : Ascending values := by
      rw [ofAscending] at isBuilt
      split at isBuilt
      · cases isBuilt
      · rename_i builder isBuilder
        simpa using ascending_of_pushAll {} List.Pairwise.nil isBuilder
    rw [ofAscending_eq_ok ascending] at isBuilt
    exact ⟨ascending, (Except.ok.inj isBuilt).symm⟩
  · rintro ⟨ascending, rfl⟩
    exact ofAscending_eq_ok ascending

/-- The dictionary of a list holds its distinct values; a list makes a dictionary as it is exactly
if it ascends; and pushes one after the other build the dictionary of the accepted values, whose ids
were the answers.  The ids of each of these dictionaries number its values in their order. -/
theorem ids_keep_order (kind : ScalarType) (values : List kind.Carrier) :
    (∃ distinct, Ascending distinct ∧ (∀ value, value ∈ distinct ↔ value ∈ values) ∧
      (ofList values).Numbers distinct) ∧
    ((∃ dictionary, ofAscending kind values = .ok dictionary) ↔ Ascending values) ∧
    (∀ dictionary, ofAscending kind values = .ok dictionary → dictionary.Numbers values) ∧
    (({} : DictionaryBuilder kind).pushEach values).2.build.Numbers
      (DictionaryBuilder.accepted values (({} : DictionaryBuilder kind).pushEach values).1) ∧
    ∀ earlier value later, values = earlier ++ value :: later →
      ∃ answer,
        (({} : DictionaryBuilder kind).pushEach values).1[earlier.length]? = some answer ∧
        DictionaryBuilder.Answers (({} : DictionaryBuilder kind).pushEach earlier).2
          (({} : DictionaryBuilder kind).pushEach (earlier ++ [value])).2
          (({} : DictionaryBuilder kind).pushEach values).2 value answer := by
  have noValues : Ascending ({} : DictionaryBuilder kind).values.toList := List.Pairwise.nil
  refine ⟨?_, ?_, ?_, ?_, ?_⟩
  · exact ⟨(ofList values).toList, isAscending_ofList values,
      fun value => mem_ofList value values, numbers_of_ascending rfl (isAscending_ofList values)⟩
  · simp only [ofAscending_eq_ok_iff, exists_and_left, exists_eq, and_true]
  · intro dictionary isBuilt
    obtain ⟨ascending, rfl⟩ := ofAscending_eq_ok_iff.mp isBuilt
    exact numbers_of_ascending rfl ascending
  · obtain ⟨sameValues, ascending⟩ := DictionaryBuilder.values_pushEach {} values noValues
    rw [sameValues] at ascending
    exact numbers_of_ascending sameValues ascending
  · rintro earlier value later rfl
    exact DictionaryBuilder.answers_pushEach noValues earlier later value

end Dictionary

end Unnest
