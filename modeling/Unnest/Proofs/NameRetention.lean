import Unnest.Proofs.CacheTransparency
import Unnest.Proofs.NodeFreshness

/-!
# How long names resolve

A registry lists the recent tables of each source and field, and apart from that it knows a bounded
number of names: those that were registered last (`Registry.HoldsNames`).  What is listed need not
be known by its name any more.  So the name of a valid table resolves exactly as long as not too
many others have been handed out since, for whatever source and field:
`CacheHistory.flattened?_validId?`.
-/

namespace Unnest

/-! ## Names of registered tables -/

namespace Registry

/-- The names of tables, the latest table first: each name stands where it was registered last. -/
def latestNames : List FlattenedTable → List FlattenId
  | [] => []
  | table :: earlier => table.id :: (latestNames earlier).filter (· != table.id)

/-- The registry knows the latest names of these tables, the latest first, by their last tables. -/
structure HoldsNames (registry : Registry) (tables : List FlattenedTable) : Prop where
  ordered : OrderedMap.IsOrdered registry.byName
  order : registry.nameOrder.reverse = (latestNames tables).take registry.nameBound
  names : ∀ id, (OrderedMap.find? id registry.byName).map RegisteredTable.table =
    if id ∈ registry.nameOrder then tables.find? (·.id == id) else none

theorem nodup_latestNames (tables : List FlattenedTable) : (latestNames tables).Nodup := by
  induction tables with
  | nil => exact List.nodup_nil
  | cons table earlier inductionHypothesis =>
      refine List.nodup_cons.mpr ⟨?_, inductionHypothesis.filter _⟩
      simp

theorem latestNames_eq_map {tables : List FlattenedTable}
    (distinct : (tables.map FlattenedTable.id).Nodup) :
    latestNames tables = tables.map FlattenedTable.id := by
  induction tables with
  | nil => rfl
  | cons table earlier inductionHypothesis =>
      obtain ⟨isNew, restDistinct⟩ := List.nodup_cons.mp distinct
      rw [latestNames, inductionHypothesis restDistinct, List.map_cons]
      congr 1
      apply List.filter_eq_self.mpr
      intro id member
      have different : id ≠ table.id := by
        rintro rfl
        exact isNew member
      simpa using different

theorem take_filter_ne {α : Type} [BEq α] [LawfulBEq α] {items : List α} (distinct : items.Nodup)
    (item : α) (bound : Nat) :
    ((items.take (bound + 1)).filter (· != item)).take bound =
      (items.filter (· != item)).take bound := by
  induction items generalizing bound with
  | nil => rfl
  | cons first rest inductionHypothesis =>
      obtain ⟨notLater, restDistinct⟩ := List.nodup_cons.mp distinct
      rw [List.take_succ_cons]
      by_cases isFirst : first = item
      · subst isFirst
        have keepsRest : ∀ kept : List α, (∀ other ∈ kept, other ∈ rest) →
            kept.filter (· != first) = kept := by
          intro kept contained
          apply List.filter_eq_self.mpr
          intro other member
          have different : other ≠ first := by
            rintro rfl
            exact notLater (contained other member)
          simpa using different
        rw [List.filter_cons_of_neg (by simp), List.filter_cons_of_neg (by simp),
          keepsRest _ fun _ member => List.mem_of_mem_take member,
          keepsRest _ fun _ member => member, List.take_take, Nat.min_self]
      · rw [List.filter_cons_of_pos (by simpa using isFirst),
          List.filter_cons_of_pos (by simpa using isFirst)]
        cases bound with
        | zero => rfl
        | succ bound => rw [List.take_succ_cons, List.take_succ_cons,
            inductionHypothesis restDistinct]

/-! ## Dropping names -/

theorem reverse_dropOldest (bound : Nat) (byName : OrderedMap FlattenId RegisteredTable)
    (ids : List FlattenId) :
    (dropOldest bound byName ids).2.reverse = ids.reverse.take bound := by
  induction ids generalizing byName with
  | nil => simp [dropOldest]
  | cons oldest later inductionHypothesis =>
      rw [dropOldest]
      by_cases beyond : bound < later.length + 1
      · have fits : bound ≤ later.reverse.length := by
          rw [List.length_reverse]
          omega
        rw [if_pos beyond, inductionHypothesis, List.reverse_cons,
          List.take_append_of_le_length fits]
      · have fits : (oldest :: later).reverse.length ≤ bound := by
          rw [List.length_reverse, List.length_cons]
          omega
        rw [if_neg beyond, List.take_of_length_le fits]

theorem mem_of_mem_dropOldest {bound : Nat} {byName : OrderedMap FlattenId RegisteredTable}
    {ids : List FlattenId} {id : FlattenId} (member : id ∈ (dropOldest bound byName ids).2) :
    id ∈ ids := by
  have isKept := List.mem_reverse.mpr member
  rw [reverse_dropOldest] at isKept
  exact List.mem_reverse.mp (List.mem_of_mem_take isKept)

/-- Exactly the names that are dropped are forgotten. -/
theorem find?_dropOldest_eq (bound : Nat) {byName : OrderedMap FlattenId RegisteredTable}
    (ordered : OrderedMap.IsOrdered byName) {ids : List FlattenId} (distinct : ids.Nodup)
    (id : FlattenId) :
    OrderedMap.find? id (dropOldest bound byName ids).1 =
      if id ∈ ids ∧ id ∉ (dropOldest bound byName ids).2 then none
      else OrderedMap.find? id byName := by
  induction ids generalizing byName with
  | nil => simp [dropOldest]
  | cons oldest later inductionHypothesis =>
      obtain ⟨notLater, restDistinct⟩ := List.nodup_cons.mp distinct
      by_cases beyond : bound < later.length + 1
      · have dropped : dropOldest bound byName (oldest :: later) =
            dropOldest bound (OrderedMap.erase oldest byName) later := by
          rw [dropOldest, if_pos beyond]
        rw [dropped, inductionHypothesis (OrderedMap.isOrdered_erase oldest ordered) restDistinct]
        by_cases isOldest : id = oldest
        · subst isOldest
          have notKept : id ∉ (dropOldest bound (OrderedMap.erase id byName) later).2 :=
            fun isKept => notLater (mem_of_mem_dropOldest isKept)
          rw [if_neg fun both => notLater both.1, if_pos ⟨List.mem_cons_self, notKept⟩,
            OrderedMap.find?_erase_self id ordered]
        · rw [OrderedMap.find?_erase_of_ne isOldest]
          simp only [List.mem_cons, isOldest, false_or]
      · have unchanged : dropOldest bound byName (oldest :: later) = (byName, oldest :: later) := by
          rw [dropOldest, if_neg beyond]
        rw [unchanged, if_neg fun both => both.2 both.1]

/-! ## Registering -/

namespace HoldsNames

variable {registry : Registry} {tables : List FlattenedTable}

theorem nodup_nameOrder (holds : registry.HoldsNames tables) : registry.nameOrder.Nodup := by
  have distinct := (nodup_latestNames tables).sublist (List.take_sublist registry.nameBound _)
  rw [← holds.order] at distinct
  exact List.nodup_reverse.mp distinct

theorem empty (listBound nameBound : Nat) (ageBound : Option Nat) :
    (Registry.empty listBound nameBound ageBound).HoldsNames [] where
  ordered := List.Pairwise.nil
  order := by simp [Registry.empty, latestNames]
  names := by simp [Registry.empty]

theorem of_registersNothing {after : Registry} (holds : registry.HoldsNames tables)
    (registersNothing : registry.RegistersNothing after) : after.HoldsNames tables where
  ordered := by
    rw [registersNothing.byName]
    exact holds.ordered
  order := by
    rw [registersNothing.nameOrder, registersNothing.nameBound]
    exact holds.order
  names := by
    rw [registersNothing.byName, registersNothing.nameOrder]
    exact holds.names

theorem register (holds : registry.HoldsNames tables) (positive : 1 ≤ registry.nameBound)
    (now : Nat) (table : FlattenedTable) :
    (registry.register now table).HoldsNames (table :: tables) := by
  let inserted := OrderedMap.insert table.id (⟨table, now⟩ : RegisteredTable) registry.byName
  let ids := registry.nameOrder.filter (· != table.id) ++ [table.id]
  have insertedOrdered : OrderedMap.IsOrdered inserted :=
    OrderedMap.isOrdered_insert _ _ holds.ordered
  have idsDistinct : ids.Nodup := by
    rw [← List.nodup_reverse, List.reverse_append, List.reverse_singleton, List.singleton_append,
      List.nodup_cons, List.nodup_reverse]
    exact ⟨by simp, holds.nodup_nameOrder.filter _⟩
  constructor
  · exact insertedOrdered.sublist (dropOldest_sublist _ _ _)
  · obtain ⟨bound, isBound⟩ := Nat.exists_eq_add_of_le' positive
    change (dropOldest registry.nameBound inserted ids).2.reverse =
      (latestNames (table :: tables)).take registry.nameBound
    rw [reverse_dropOldest, isBound, latestNames, List.take_succ_cons, List.reverse_append,
      List.reverse_singleton, List.singleton_append, List.take_succ_cons, ← List.filter_reverse,
      holds.order, isBound, take_filter_ne (nodup_latestNames tables)]
  · intro id
    change (OrderedMap.find? id (dropOldest registry.nameBound inserted ids).1).map
        RegisteredTable.table =
      if id ∈ (dropOldest registry.nameBound inserted ids).2 then
        (table :: tables).find? (·.id == id) else none
    rw [find?_dropOldest_eq _ insertedOrdered idsDistinct]
    by_cases isKept : id ∈ (dropOldest registry.nameBound inserted ids).2
    · rw [if_neg fun both => both.2 isKept, if_pos isKept]
      by_cases isNew : id = table.id
      · subst isNew
        rw [OrderedMap.find?_insert_self]
        simp
      · have wasKnown : id ∈ registry.nameOrder := by
          have isName := mem_of_mem_dropOldest isKept
          simpa [ids, isNew] using isName
        rw [OrderedMap.find?_insert_of_ne isNew, holds.names, if_pos wasKnown,
          List.find?_cons_of_neg (by simpa using fun same => isNew same.symm)]
    · rw [if_neg isKept]
      by_cases isName : id ∈ ids
      · rw [if_pos ⟨isName, isKept⟩, Option.map_none]
      · have isOther : id ≠ table.id := by
          rintro rfl
          exact isName (by simp [ids])
        have notKnown : id ∉ registry.nameOrder := by
          intro wasKnown
          exact isName (by simp [ids, wasKnown, isOther])
        rw [if_neg fun both => isName both.1, OrderedMap.find?_insert_of_ne isOther, holds.names,
          if_neg notKnown]

/-- Without a bound on the age, the latest names resolve to their last tables, and no others do. -/
theorem get_eq (holds : registry.HoldsNames tables) (ageless : registry.ageBound = none)
    (now : Nat) (id : FlattenId) :
    (registry.get now id).1 =
      if id ∈ (latestNames tables).take registry.nameBound then tables.find? (·.id == id)
      else none := by
  have isKnown : id ∈ (latestNames tables).take registry.nameBound ↔ id ∈ registry.nameOrder := by
    rw [← holds.order, List.mem_reverse]
  have neverExpired : ∀ entry, registry.isExpired now entry = false := by
    intro entry
    rw [isExpired, ageless]
  simp only [isKnown, ← holds.names id, Registry.get]
  cases OrderedMap.find? id registry.byName with
  | none => rfl
  | some entry => simp [neverExpired]

end HoldsNames

end Registry

/-! ## Tables that a cache has handed out -/

/-- The table that a call hands out, if it is not refused. -/
def CacheCall.handsOut? {σ : Type} (call : CacheCall σ) (cache : FlattenCache) :
    Option FlattenedTable :=
  (call.answer cache).1.toOption.map HandedOut.table

namespace CacheHistory

variable {σ : Type} {bounds : CacheSettings}

/-- The tables that calls made one after the other hand out, the latest first. -/
def handedOut (history : CacheHistory) : List (CacheCall σ) → List FlattenedTable
  | [] => []
  | call :: later =>
      (history.after call).handedOut later ++ (call.handsOut? history.cache).toList

/-- The cache holds the names of these tables, the latest first, and lists only some of them. -/
structure HoldsTables (bounds : CacheSettings) (history : CacheHistory)
    (tables : List FlattenedTable) : Prop where
  ageBound : history.cache.registry.ageBound = bounds.memoryBound
  nameBound : history.cache.registry.nameBound = max bounds.maxFlattenIds 1
  names : history.cache.registry.HoldsNames tables
  listed : ∀ key, ∀ entry ∈ history.cache.registry.listOf key,
    entry.table ∈ tables ∧ entry.table.key = key

theorem handedOut_append_singleton (history : CacheHistory) (made : List (CacheCall σ))
    (call : CacheCall σ) :
    history.handedOut (made ++ [call]) =
      (call.handsOut? (history.run made).cache).toList ++ history.handedOut made := by
  induction made generalizing history with
  | nil => simp [handedOut, run]
  | cons first later inductionHypothesis =>
      rw [List.cons_append, handedOut, inductionHypothesis, List.append_assoc]
      rfl

theorem holdsTables_new (settings : FlattenSettings) (bounds : CacheSettings) :
    (new settings bounds).HoldsTables bounds [] where
  ageBound := rfl
  nameBound := rfl
  names := Registry.HoldsNames.empty _ _ _
  listed := by
    intro key entry isListed
    cases isListed

/-- What is registered is held, and what was listed before may still be. -/
theorem HoldsTables.register {history after : CacheHistory} {tables : List FlattenedTable}
    (holds : history.HoldsTables bounds tables) {pruned : Registry}
    (registersNothing : history.cache.registry.RegistersNothing pruned) {now : Nat}
    {table : FlattenedTable} (registered : after.cache.registry = pruned.register now table) :
    after.HoldsTables bounds (table :: tables) := by
  have samePruned : pruned.nameBound = max bounds.maxFlattenIds 1 :=
    registersNothing.nameBound.trans holds.nameBound
  refine ⟨?_, ?_, ?_, ?_⟩
  · rw [registered]
    exact registersNothing.ageBound.trans holds.ageBound
  · rw [registered]
    exact samePruned
  · rw [registered]
    apply (holds.names.of_registersNothing registersNothing).register
    rw [samePruned]
    exact Nat.le_max_right _ _
  · intro key entry isListed
    rw [registered] at isListed
    rcases Registry.mem_listOf_register isListed with ⟨isNew, sameKey⟩ | wasListed
    · exact ⟨isNew ▸ List.mem_cons_self, isNew ▸ sameKey.symm⟩
    · have before := holds.listed key entry ((registersNothing.shorter key).subset wasListed)
      exact ⟨List.mem_cons_of_mem _ before.1, before.2⟩

theorem HoldsTables.of_registersNothing {history after : CacheHistory}
    {tables : List FlattenedTable} (holds : history.HoldsTables bounds tables)
    (registersNothing : history.cache.registry.RegistersNothing after.cache.registry) :
    after.HoldsTables bounds tables where
  ageBound := registersNothing.ageBound.trans holds.ageBound
  nameBound := registersNothing.nameBound.trans holds.nameBound
  names := holds.names.of_registersNothing registersNothing
  listed key entry isListed :=
    holds.listed key entry ((registersNothing.shorter key).subset isListed)

/-- A call hands out a table under its own name and adds it to what is held. -/
theorem HoldsTables.after {history : CacheHistory} {tables : List FlattenedTable}
    (holds : history.HoldsTables bounds tables) (call : CacheCall σ) :
    (history.after call).HoldsTables bounds
        ((call.handsOut? history.cache).toList ++ tables) ∧
      ∀ table, call.handsOut? history.cache = some table → table.id = call.id := by
  obtain ⟨answer, cache, left, isAnswer, _, answers⟩ := FlattenCache.answers_flatten call.store
    call.now history.cache call.content call.table call.flattenBy call.id
  have isCache : (history.after call).cache = cache :=
    (after_cache history call).trans (congrArg (fun result => result.2.1) isAnswer)
  have handsOut : call.handsOut? history.cache = answer.toOption.map HandedOut.table :=
    congrArg (fun result => result.1.toOption.map HandedOut.table) isAnswer
  rw [handsOut]
  generalize isRegistry : cache.registry = registry at answers
  have isRegistered : (history.after call).cache.registry = registry := by
    rw [isCache, isRegistry]
  cases answers with
  | refused fails registersNothing =>
      exact ⟨holds.of_registersNothing (isRegistered ▸ registersNothing), by simp [Except.toOption]⟩
  | recalled isLoaded accepted remembers registersNothing =>
      exact ⟨holds.register registersNothing isRegistered, by simp [Except.toOption]⟩
  | computed succeeds registersNothing =>
      have sameId := (Flattening.flattenTable_eq_ok succeeds).2
      obtain ⟨_, _, _, isId, _⟩ := sameId
      exact ⟨holds.register registersNothing isRegistered, by simpa [Except.toOption] using isId⟩

theorem holdsTables_run (settings : FlattenSettings) (bounds : CacheSettings)
    (calls : List (CacheCall σ)) :
    ((new settings bounds).run calls).HoldsTables bounds ((new settings bounds).handedOut calls) ∧
      (((new settings bounds).handedOut calls).map FlattenedTable.id).Sublist
        (calls.map CacheCall.id).reverse := by
  induction calls using List.reverseRecOn with
  | nil => exact ⟨holdsTables_new settings bounds, List.Sublist.refl _⟩
  | append_singleton made call inductionHypothesis =>
      obtain ⟨holds, namesSublist⟩ := inductionHypothesis
      obtain ⟨holdsAfter, sameId⟩ := holds.after call
      rw [run_append_singleton, handedOut_append_singleton]
      refine ⟨holdsAfter, ?_⟩
      rw [List.map_append, List.map_append, List.reverse_append, List.map_singleton,
        List.reverse_singleton, List.singleton_append]
      cases isHandedOut : call.handsOut? ((new settings bounds).run made).cache with
      | none => exact namesSublist.cons _
      | some table =>
          have isId := sameId table isHandedOut
          rw [Option.toList_some, List.map_singleton, List.singleton_append, isId]
          exact namesSublist.cons_cons _

theorem find?_of_nodup_ids {tables : List FlattenedTable}
    (distinct : (tables.map FlattenedTable.id).Nodup) {table : FlattenedTable}
    (member : table ∈ tables) : tables.find? (·.id == table.id) = some table := by
  induction tables with
  | nil => cases member
  | cons first rest inductionHypothesis =>
      obtain ⟨isNew, restDistinct⟩ := List.nodup_cons.mp distinct
      rcases List.mem_cons.mp member with rfl | inRest
      · rw [List.find?_cons_of_pos (by simp)]
      · have different : first.id ≠ table.id := by
          intro same
          exact isNew (same ▸ List.mem_map_of_mem inRest)
        rw [List.find?_cons_of_neg (by simpa using different),
          inductionHypothesis restDistinct inRest]

/-- The name of a valid table is that of a flattening that was handed out for this table and field
and that fits the current shards.  It resolves to that flattening if it is among the latest names
that were handed out, as many as the bound says, and otherwise it does not resolve. -/
theorem flattened?_validId? (settings : FlattenSettings) {bounds : CacheSettings}
    (ageless : bounds.memoryBound = none) {calls : List (CacheCall σ)}
    (distinct : (calls.map CacheCall.id).Nodup) {now : Nat} {table : Table}
    {flattenBy : String} {id : FlattenId} {probed : FlattenCache}
    (isValid : ((new settings bounds).run calls).cache.validId? now table flattenBy =
      (some id, probed)) (later : Nat) :
    ∃ target flattening, readTarget flattenBy = .ok target ∧
      flattening ∈ (new settings bounds).handedOut calls ∧ flattening.id = id ∧
      flattening.key = ⟨table.name, target.toText⟩ ∧
      flattening.isValidFor table.firstRows = true ∧
      (probed.flattened? later id).1 =
        if id ∈ (((new settings bounds).handedOut calls).map FlattenedTable.id).take
            (max bounds.maxFlattenIds 1) then some flattening
        else none := by
  obtain ⟨holds, namesSublist⟩ := holdsTables_run settings bounds calls
  have distinctNames := (List.nodup_reverse.mpr distinct).sublist namesSublist
  rw [FlattenCache.validId?] at isValid
  cases accepted : readTarget flattenBy with
  | error cause => simp [accepted] at isValid
  | ok target =>
      let key : FlattenKey := ⟨table.name, target.toText⟩
      obtain ⟨_, registersNothing, listed⟩ :=
        ((new settings bounds).run calls).cache.findRecent_outcome now key table.firstRows
      simp only [accepted, Prod.mk.injEq, Option.map_eq_some_iff] at isValid
      obtain ⟨⟨hit, isHit, rfl⟩, rfl⟩ := isValid
      obtain ⟨entry, isListed, rfl, fits⟩ := listed hit isHit
      obtain ⟨isHandedOut, sameKey⟩ := holds.listed key entry isListed
      refine ⟨target, entry.table, rfl, isHandedOut, rfl, sameKey, fits, ?_⟩
      have sameBound := registersNothing.nameBound.trans holds.nameBound
      have resolved := (holds.names.of_registersNothing registersNothing).get_eq
        ((registersNothing.ageBound.trans holds.ageBound).trans ageless) later entry.table.id
      rw [sameBound, Registry.latestNames_eq_map distinctNames,
        find?_of_nodup_ids distinctNames isHandedOut] at resolved
      exact resolved

/-- One row with an entry in each of two arrays. -/
def pairedTable : Table :=
  ⟨"t", [⟨"t", 0, 1, [
    ("a[0]", ⟨.long, .array #[1], [Page.constant 0 1 0]⟩),
    ("a[length]", ⟨.long, .array #[1], [Page.constant 0 1 0]⟩),
    ("b[0]", ⟨.long, .array #[2], [Page.constant 0 1 0]⟩),
    ("b[length]", ⟨.long, .array #[1], [Page.constant 0 1 0]⟩)]⟩], .loaded⟩

def pairedCall (flattenBy : String) (id : Nat) : CacheCall Unit :=
  ⟨none, (), 0, pairedTable, flattenBy, Identifier.ofNat id⟩

/-- A cache that knows one name, after flattenings by both arrays. -/
def oneName : CacheHistory :=
  (new {} { maxFlattenIds := 1, memorySeconds := 0 }).run [pairedCall "a[*]" 1, pairedCall "b[*]" 2]

theorem flattened?_validId?_oneName :
    ∃ probed flattening,
      oneName.cache.validId? 0 pairedTable "b[*]" = (some (Identifier.ofNat 2), probed) ∧
      flattening.key = ⟨"t", "b[*]"⟩ ∧ flattening.originalFirstRows = [0] ∧
      (probed.flattened? 0 (Identifier.ofNat 2)).1 = some flattening := by
  have isProbed : (oneName.cache.validId? 0 pairedTable "b[*]").1 = some (Identifier.ofNat 2) := by
    decide +kernel
  have isLatest : Identifier.ofNat 2 ∈
      (((new {} { maxFlattenIds := 1, memorySeconds := 0 }).handedOut
        [pairedCall "a[*]" 1, pairedCall "b[*]" 2]).map FlattenedTable.id).take (max 1 1) := by
    decide +kernel
  have isValid : oneName.cache.validId? 0 pairedTable "b[*]" =
      (some (Identifier.ofNat 2), (oneName.cache.validId? 0 pairedTable "b[*]").2) :=
    Prod.ext isProbed rfl
  obtain ⟨target, flattening, accepted, _, _, sameKey, fits, resolves⟩ :=
    flattened?_validId? {} rfl (by decide +kernel) isValid 0
  have isTarget : readTarget "b[*]" = .ok [⟨"b", .all⟩] := by decide +kernel
  rw [isTarget] at accepted
  cases accepted
  rw [if_pos isLatest] at resolves
  refine ⟨_, flattening, isValid, sameKey.trans (by decide +kernel), ?_, resolves⟩
  exact (beq_iff_eq.mp fits).trans (by decide +kernel)

/-- The name of a valid table need not resolve: the flattening by the first array is still listed,
but the only name that is known is that of the flattening by the second one. -/
theorem validId?_can_be_forgotten :
    (oneName.cache.validId? 0 pairedTable "a[*]").1 = some (Identifier.ofNat 1) ∧
      ((oneName.cache.validId? 0 pairedTable "a[*]").2.flattened? 0 (Identifier.ofNat 1)).1 =
        none := by
  have isForgotten : ((oneName.cache.validId? 0 pairedTable "a[*]").2.flattened? 0
      (Identifier.ofNat 1)).1.isNone = true := by
    decide +kernel
  exact ⟨by decide +kernel, Option.isNone_iff_eq_none.mp isForgotten⟩

end CacheHistory

end Unnest
