import Mathlib.Data.List.Induction
import Unnest.OrderedMap
import Unnest.Proofs.Ascending

/-!
# Laws of ordered maps

An ordered map is determined by what is found in it.  Beside that, this module says what is found
after the values of a map are changed or dropped, after an entry is erased, and in the map of a list
of entries, of which the last one under a key stays.
-/

namespace Unnest.OrderedMap

variable {κ α β : Type} [Ord κ]

theorem IsOrdered.tail {entry : κ × α} {rest : OrderedMap κ α}
    (ordered : IsOrdered (entry :: rest)) : IsOrdered rest :=
  (List.pairwise_cons.mp ordered).2

theorem IsOrdered.head_lt {entry later : κ × α} {rest : OrderedMap κ α}
    (ordered : IsOrdered (entry :: rest)) (isLater : later ∈ rest) :
    compare entry.1 later.1 = .lt :=
  (List.pairwise_cons.mp ordered).1 later isLater

theorem IsOrdered.ascending_keys {map : OrderedMap κ α} (ordered : IsOrdered map) :
    Ascending map.keys :=
  List.pairwise_map.mpr ordered

theorem mem_of_find? [Std.LawfulEqOrd κ] {key : κ} {value : α} {map : OrderedMap κ α}
    (found : find? key map = some value) : (key, value) ∈ map := by
  induction map with
  | nil => cases found
  | cons entry rest inductionHypothesis =>
      obtain ⟨otherKey, otherValue⟩ := entry
      by_cases same : compare key otherKey = .eq
      · have sameKey : key = otherKey := Std.LawfulEqCmp.eq_of_compare same
        simp only [find?, same, if_true, Option.some.injEq] at found
        subst sameKey found
        exact List.mem_cons_self
      · simp only [find?, same, if_false] at found
        exact List.mem_cons_of_mem _ (inductionHypothesis found)

theorem find?_eq_some_iff_mem [Std.TransOrd κ] [Std.LawfulEqOrd κ] {map : OrderedMap κ α}
    (ordered : IsOrdered map) (key : κ) (value : α) :
    find? key map = some value ↔ (key, value) ∈ map := by
  refine ⟨mem_of_find?, ?_⟩
  intro member
  induction map with
  | nil => cases member
  | cons entry rest inductionHypothesis =>
      obtain ⟨otherKey, otherValue⟩ := entry
      rcases List.mem_cons.mp member with isHead | inRest
      · cases isHead
        simp [find?]
      · have below : compare otherKey key = .lt := ordered.head_lt inRest
        have different : compare key otherKey ≠ .eq := by
          rw [Std.OrientedOrd.eq_swap, below]
          decide
        simp only [find?, different, if_false]
        exact inductionHypothesis ordered.tail inRest

theorem isSome_find?_iff [Std.TransOrd κ] [Std.LawfulEqOrd κ] {map : OrderedMap κ α}
    (ordered : IsOrdered map) (key : κ) :
    (find? key map).isSome = true ↔ key ∈ keys map := by
  simp [Option.isSome_iff_exists, find?_eq_some_iff_mem ordered, keys]

/-- A map is determined by what is found in it. -/
theorem ext_find? [Std.TransOrd κ] [Std.LawfulEqOrd κ] {left right : OrderedMap κ α}
    (leftOrdered : IsOrdered left) (rightOrdered : IsOrdered right)
    (sameValues : ∀ key, find? key left = find? key right) : left = right := by
  have irreflexive : Std.Irrefl fun first second : κ × α => compare first.1 second.1 = .lt :=
    ⟨fun entry => compare_self_ne_lt entry.1⟩
  have antisymmetric : Std.Antisymm fun first second : κ × α => compare first.1 second.1 = .lt :=
    ⟨fun _ _ below above => absurd above (Std.OrientedCmp.not_lt_of_lt below)⟩
  apply List.Pairwise.eq_of_mem_iff leftOrdered rightOrdered
  rintro ⟨key, value⟩
  rw [← find?_eq_some_iff_mem leftOrdered, ← find?_eq_some_iff_mem rightOrdered, sameValues]

/-! ## Changing values -/

/-- Dropping entries and changing values, but no keys, keeps the order. -/
theorem isOrdered_filterMap (change : κ × α → Option β) {map : OrderedMap κ α}
    (ordered : IsOrdered map) :
    IsOrdered (map.filterMap fun entry => (change entry).map fun value => (entry.1, value)) := by
  apply List.Pairwise.filterMap _ _ ordered
  intro first second below firstChanged firstFound secondChanged secondFound
  obtain ⟨_, _, rfl⟩ := Option.map_eq_some_iff.mp firstFound
  obtain ⟨_, _, rfl⟩ := Option.map_eq_some_iff.mp secondFound
  exact below

theorem find?_filterMap [Std.TransOrd κ] [Std.LawfulEqOrd κ] (change : κ × α → Option β)
    {map : OrderedMap κ α} (ordered : IsOrdered map) (key : κ) :
    find? key (map.filterMap fun entry => (change entry).map fun value => (entry.1, value)) =
      (find? key map).bind fun value => change (key, value) := by
  apply Option.ext
  intro changed
  rw [find?_eq_some_iff_mem (isOrdered_filterMap change ordered), List.mem_filterMap]
  simp only [Option.map_eq_some_iff, Prod.mk.injEq, Option.bind_eq_some_iff]
  constructor
  · rintro ⟨⟨otherKey, value⟩, member, _, isChanged, rfl, rfl⟩
    exact ⟨value, (find?_eq_some_iff_mem ordered _ _).mpr member, isChanged⟩
  · rintro ⟨value, found, isChanged⟩
    exact ⟨(key, value), mem_of_find? found, changed, isChanged, rfl, rfl⟩

theorem find?_map (change : κ × α → β) (map : OrderedMap κ α) (key : κ)
    [Std.LawfulEqOrd κ] :
    find? key (map.map fun entry => (entry.1, change entry)) =
      (find? key map).map fun value => change (key, value) := by
  induction map with
  | nil => rfl
  | cons entry rest inductionHypothesis =>
      obtain ⟨otherKey, otherValue⟩ := entry
      by_cases same : compare key otherKey = .eq
      · have sameKey : key = otherKey := Std.LawfulEqCmp.eq_of_compare same
        subst sameKey
        simp [find?]
      · simp only [List.map_cons, find?, same, if_false, inductionHypothesis]

/-! ## Inserting and erasing -/

theorem find?_insert_self [Std.LawfulEqOrd κ] [Std.TransOrd κ] (key : κ) (value : α)
    (map : OrderedMap κ α) : find? key (insert key value map) = some value := by
  rw [find?_insert, if_pos Std.ReflCmp.compare_self]

theorem find?_insert_of_ne [Std.LawfulEqOrd κ] [Std.TransOrd κ] {key wanted : κ}
    (different : wanted ≠ key) (value : α) (map : OrderedMap κ α) :
    find? wanted (insert key value map) = find? wanted map := by
  rw [find?_insert, if_neg fun same => different (Std.LawfulEqCmp.eq_of_compare same)]

/-- What is inserted last under a key is what counts. -/
theorem insert_insert [Std.LawfulEqOrd κ] [Std.TransOrd κ] (key : κ) (first last : α)
    (map : OrderedMap κ α) : insert key last (insert key first map) = insert key last map := by
  induction map with
  | nil => simp [insert]
  | cons entry rest inductionHypothesis =>
      obtain ⟨otherKey, otherValue⟩ := entry
      cases order : compare key otherKey with
      | lt => simp [insert, order]
      | eq => simp [insert, order]
      | gt => simp [insert, order, inductionHypothesis]

theorem mem_insert {key : κ} {value : α} {map : OrderedMap κ α}
    {entry : κ × α} (isEntry : entry ∈ insert key value map) :
    entry = (key, value) ∨ entry ∈ map := by
  induction map with
  | nil => exact Or.inl (List.mem_singleton.mp isEntry)
  | cons first rest inductionHypothesis =>
      obtain ⟨otherKey, otherValue⟩ := first
      cases order : compare key otherKey with
      | lt =>
          simp only [insert, order] at isEntry
          exact List.mem_cons.mp isEntry
      | eq =>
          simp only [insert, order] at isEntry
          rcases List.mem_cons.mp isEntry with isNew | inRest
          · exact Or.inl isNew
          · exact Or.inr (List.mem_cons_of_mem _ inRest)
      | gt =>
          simp only [insert, order] at isEntry
          rcases List.mem_cons.mp isEntry with isFirst | isLater
          · exact Or.inr (isFirst ▸ List.mem_cons_self)
          · rcases inductionHypothesis isLater with isNew | inRest
            · exact Or.inl isNew
            · exact Or.inr (List.mem_cons_of_mem _ inRest)

theorem erase_sublist (key : κ) (map : OrderedMap κ α) : (erase key map).Sublist map := by
  induction map with
  | nil => exact List.Sublist.refl []
  | cons entry rest inductionHypothesis =>
      obtain ⟨otherKey, otherValue⟩ := entry
      by_cases same : compare key otherKey = .eq
      · simp only [erase, same, if_true]
        exact List.sublist_cons_self (otherKey, otherValue) rest
      · simp only [erase, same, if_false]
        exact inductionHypothesis.cons_cons (otherKey, otherValue)

theorem isOrdered_erase (key : κ) {map : OrderedMap κ α} (ordered : IsOrdered map) :
    IsOrdered (erase key map) :=
  List.Pairwise.sublist (erase_sublist key map) ordered

/-- What is found under a key stands in front of the entries that are left without it. -/
theorem perm_of_find? [Std.LawfulEqOrd κ] {key : κ} {value : α} {map : OrderedMap κ α}
    (found : find? key map = some value) : map.Perm ((key, value) :: erase key map) := by
  induction map with
  | nil => cases found
  | cons entry rest inductionHypothesis =>
      obtain ⟨otherKey, otherValue⟩ := entry
      by_cases same : compare key otherKey = .eq
      · have sameKey : key = otherKey := Std.LawfulEqCmp.eq_of_compare same
        simp only [find?, same, if_true, Option.some.injEq] at found
        simp only [erase, same, if_true]
        rw [sameKey, found]
      · simp only [find?, same, if_false] at found
        simp only [erase, same, if_false]
        have later := (inductionHypothesis found).cons (otherKey, otherValue)
        exact later.trans (List.Perm.swap _ _ _)

theorem erase_of_find?_eq_none {key : κ} {map : OrderedMap κ α} (absent : find? key map = none) :
    erase key map = map := by
  induction map with
  | nil => rfl
  | cons entry rest inductionHypothesis =>
      obtain ⟨otherKey, otherValue⟩ := entry
      by_cases same : compare key otherKey = .eq
      · simp [find?, same] at absent
      · simp only [find?, same, if_false] at absent
        simp only [erase, same, if_false]
        rw [inductionHypothesis absent]

theorem find?_erase_of_ne [Std.LawfulEqOrd κ] [Std.TransOrd κ] {key wanted : κ}
    (different : wanted ≠ key) (map : OrderedMap κ α) :
    find? wanted (erase key map) = find? wanted map := by
  induction map with
  | nil => rfl
  | cons entry rest inductionHypothesis =>
      obtain ⟨otherKey, otherValue⟩ := entry
      by_cases same : compare key otherKey = .eq
      · have sameKey : key = otherKey := Std.LawfulEqCmp.eq_of_compare same
        have notHead : compare wanted otherKey ≠ .eq := by
          intro isHead
          exact different ((Std.LawfulEqCmp.eq_of_compare isHead).trans sameKey.symm)
        simp only [erase, same, if_true, find?, notHead, if_false]
      · simp only [erase, same, if_false, find?, inductionHypothesis]

theorem find?_erase_self [Std.LawfulEqOrd κ] [Std.TransOrd κ] (key : κ) {map : OrderedMap κ α}
    (ordered : IsOrdered map) : find? key (erase key map) = none := by
  induction map with
  | nil => rfl
  | cons entry rest inductionHypothesis =>
      obtain ⟨otherKey, otherValue⟩ := entry
      by_cases same : compare key otherKey = .eq
      · have sameKey : key = otherKey := Std.LawfulEqCmp.eq_of_compare same
        simp only [erase, same, if_true]
        cases found : find? key rest with
        | none => rfl
        | some value =>
            have below := ordered.head_lt (mem_of_find? found)
            rw [sameKey] at below
            exact absurd below (compare_self_ne_lt otherKey)
      · simp only [erase, same, if_false, find?, inductionHypothesis ordered.tail]

theorem contains_insert_self [Std.LawfulEqOrd κ] [Std.TransOrd κ] (key : κ) (value : α)
    (map : OrderedMap κ α) : contains key (insert key value map) = true := by
  rw [contains, find?_insert_self]
  rfl

theorem contains_insert_of_ne [Std.LawfulEqOrd κ] [Std.TransOrd κ] {key wanted : κ}
    (different : wanted ≠ key) (value : α) (map : OrderedMap κ α) :
    contains wanted (insert key value map) = contains wanted map := by
  rw [contains, contains, find?_insert_of_ne different]

theorem contains_erase_self [Std.LawfulEqOrd κ] [Std.TransOrd κ] (key : κ)
    {map : OrderedMap κ α} (ordered : IsOrdered map) : contains key (erase key map) = false := by
  rw [contains, find?_erase_self key ordered]
  rfl

theorem contains_erase_of_ne [Std.LawfulEqOrd κ] [Std.TransOrd κ] {key wanted : κ}
    (different : wanted ≠ key) (map : OrderedMap κ α) :
    contains wanted (erase key map) = contains wanted map := by
  rw [contains, contains, find?_erase_of_ne different]

/-- What stands under a key after it is inserted, beside the entries that were there without it. -/
theorem insert_perm [Std.LawfulEqOrd κ] [Std.TransOrd κ] (key : κ) (value : α)
    {map : OrderedMap κ α} (ordered : IsOrdered map) :
    (insert key value map).Perm ((key, value) :: erase key map) := by
  have erased : erase key (insert key value map) = erase key map := by
    apply ext_find? (isOrdered_erase key (isOrdered_insert key value ordered))
      (isOrdered_erase key ordered)
    intro wanted
    by_cases same : wanted = key
    · rw [same, find?_erase_self key (isOrdered_insert key value ordered),
        find?_erase_self key ordered]
    · rw [find?_erase_of_ne same, find?_erase_of_ne same, find?_insert_of_ne same]
  rw [← erased]
  exact perm_of_find? (find?_insert_self key value map)

/-- Beside the keys of a map a list of as many items is a map as well. -/
theorem find?_zip_keys {β : Type} {map : OrderedMap κ α} {items : List β}
    (sameLength : items.length = map.length) {key : κ} {value : α}
    (found : find? key map = some value) :
    ∃ (place : Nat) (entry : κ × α) (item : β),
      map[place]? = some entry ∧ entry.2 = value ∧ items[place]? = some item ∧
      find? key ((map.map (·.1)).zip items) = some item := by
  induction map generalizing items with
  | nil => cases found
  | cons entry rest inductionHypothesis =>
      cases items with
      | nil => cases sameLength
      | cons item others =>
          rw [find?] at found
          by_cases isHere : compare key entry.1 = .eq
          · rw [if_pos isHere] at found
            refine ⟨0, entry, item, rfl, Option.some.inj found, rfl, ?_⟩
            rw [List.map_cons, List.zip_cons_cons, find?, if_pos isHere]
          · rw [if_neg isHere] at found
            rcases inductionHypothesis (Nat.succ.inj sameLength) found with
              ⟨place, later, laterItem, isLater, sameValue, isItem, isFound⟩
            refine ⟨place + 1, later, laterItem, isLater, sameValue, isItem, ?_⟩
            rw [List.map_cons, List.zip_cons_cons, find?, if_neg isHere]
            exact isFound

/-! ## Maps of lists of entries -/

theorem ofEntries_append_singleton (entries : List (κ × α)) (key : κ) (value : α) :
    ofEntries (entries ++ [(key, value)]) = insert key value (ofEntries entries) := by
  simp [ofEntries]

variable [Std.TransOrd κ] [Std.LawfulEqOrd κ]

theorem isOrdered_ofEntries (entries : List (κ × α)) : IsOrdered (ofEntries entries) := by
  unfold ofEntries
  suffices general : ∀ map : OrderedMap κ α, IsOrdered map →
      IsOrdered (entries.foldl (fun map entry => insert entry.1 entry.2 map) map) from
    general [] List.Pairwise.nil
  induction entries with
  | nil => exact fun map ordered => ordered
  | cons entry rest inductionHypothesis =>
      intro map ordered
      exact inductionHypothesis _ (isOrdered_insert entry.1 entry.2 ordered)

/-- A key of the entries is found with one of their values, and no other key is found. -/
theorem find?_ofEntries_cases (key : κ) (entries : List (κ × α)) :
    (∃ value, (key, value) ∈ entries ∧ find? key (ofEntries entries) = some value) ∨
    (∀ value, (key, value) ∉ entries) ∧ find? key (ofEntries entries) = none := by
  induction entries using List.reverseRecOn with
  | nil => exact Or.inr ⟨by simp, rfl⟩
  | append_singleton earlier last inductionHypothesis =>
      obtain ⟨lastKey, lastValue⟩ := last
      rw [ofEntries_append_singleton, find?_insert]
      by_cases same : compare key lastKey = .eq
      · have sameKey : key = lastKey := Std.LawfulEqCmp.eq_of_compare same
        subst sameKey
        exact Or.inl ⟨lastValue, by simp, if_pos same⟩
      · have different : key ≠ lastKey := fun sameKey => same (by rw [sameKey]; simp)
        rw [if_neg same]
        rcases inductionHypothesis with ⟨value, isEarlier, isFound⟩ | ⟨isAbsent, notFound⟩
        · exact Or.inl ⟨value, List.mem_append_left _ isEarlier, isFound⟩
        · refine Or.inr ⟨?_, notFound⟩
          intro value member
          rcases List.mem_append.mp member with isEarlier | isLast
          · exact isAbsent value isEarlier
          · cases List.mem_singleton.mp isLast
            exact different rfl

/-- If the entries agree on the value of a key, that value is found. -/
theorem find?_ofEntries_of_mem {entries : List (κ × α)} {key : κ} {value : α}
    (member : (key, value) ∈ entries)
    (agree : ∀ other, (key, other) ∈ entries → other = value) :
    find? key (ofEntries entries) = some value := by
  rcases find?_ofEntries_cases key entries with ⟨other, isEntry, isFound⟩ | ⟨isAbsent, _⟩
  · rw [isFound, agree other isEntry]
  · exact absurd member (isAbsent value)

theorem find?_ofEntries_of_not_mem {entries : List (κ × α)} {key : κ}
    (absent : ∀ value, (key, value) ∉ entries) : find? key (ofEntries entries) = none := by
  rcases find?_ofEntries_cases key entries with ⟨value, isEntry, _⟩ | ⟨_, notFound⟩
  · exact absurd isEntry (absent value)
  · exact notFound

theorem mem_of_mem_ofEntries {entries : List (κ × α)} {entry : κ × α}
    (member : entry ∈ ofEntries entries) : entry ∈ entries := by
  have isFound := (find?_eq_some_iff_mem (isOrdered_ofEntries entries) entry.1 entry.2).mpr member
  rcases find?_ofEntries_cases entry.1 entries with ⟨value, isEntry, isThere⟩ | ⟨_, notFound⟩
  · rw [isThere] at isFound
    rwa [Option.some.inj isFound] at isEntry
  · rw [notFound] at isFound
    cases isFound

theorem mem_keys_ofEntries (entries : List (κ × α)) (key : κ) :
    key ∈ keys (ofEntries entries) ↔ ∃ value, (key, value) ∈ entries := by
  rw [← isSome_find?_iff (isOrdered_ofEntries entries)]
  rcases find?_ofEntries_cases key entries with ⟨value, isEntry, isFound⟩ | ⟨isAbsent, notFound⟩
  · simp only [isFound, Option.isSome_some, true_iff]
    exact ⟨value, isEntry⟩
  · simp [notFound, isAbsent]

theorem ofEntries_eq_nil_iff (entries : List (κ × α)) : ofEntries entries = [] ↔ entries = [] := by
  constructor
  · intro isEmpty
    apply List.eq_nil_iff_forall_not_mem.mpr
    intro entry isEntry
    rcases find?_ofEntries_cases entry.1 entries with ⟨value, _, isFound⟩ | ⟨isAbsent, _⟩
    · rw [isEmpty, find?_nil] at isFound
      cases isFound
    · exact isAbsent entry.2 isEntry
  · rintro rfl
    rfl

theorem ofEntries_eq_self {map : OrderedMap κ α} (ordered : IsOrdered map) :
    ofEntries map = map := by
  apply ext_find? (isOrdered_ofEntries map) ordered
  intro key
  rcases find?_ofEntries_cases key map with ⟨value, isEntry, isFound⟩ | ⟨isAbsent, notFound⟩
  · rw [isFound, (find?_eq_some_iff_mem ordered key value).mpr isEntry]
  · rw [notFound]
    cases found : find? key map with
    | none => rfl
    | some value => exact absurd (mem_of_find? found) (isAbsent value)

end Unnest.OrderedMap
