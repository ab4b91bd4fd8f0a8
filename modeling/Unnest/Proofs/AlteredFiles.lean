import Unnest.Proofs.Checksum
import Unnest.Proofs.CommandFlattening
import Unnest.Proofs.DirectoryHistory

/-!
# Altered files are noticed

The file of a table starts with four bytes that are always the same, and with the checksum of all
that follow.  So another byte in any one place makes looking for the table an error; the file is
never taken for a table, nor for one of another key.  A cache counts the error and computes the
table (`DirectoryStore.altered_byte_is_noticed`).
-/

namespace Unnest

theorem set_ne_self {α : Type} {items : List α} {place : Nat} (inside : place < items.length)
    {item : α} (different : item ≠ items[place]) : items.set place item ≠ items := by
  intro same
  have isThere := congrArg (fun items => items[place]?) same
  simp [inside] at isThere
  exact different isThere

/-! ## Bytes of a file -/

theorem Bytes.ofUInt32_injective : Function.Injective Bytes.ofUInt32 := by
  intro first second same
  have readBack : ∀ value : UInt32, Bytes.readNat 4 (Bytes.ofUInt32 value ++ []) =
      some (value.toNat, []) := fun value => Bytes.isReadBack_ofNat value.toNat_lt []
  have sameNumber := readBack first
  rw [same, readBack second] at sameNumber
  apply UInt32.toNat_inj.mp
  simpa using sameNumber.symm

namespace StoredTable

theorem withoutHeader_set (path : String) (payload : Bytes) {offset : Nat}
    (inside : offset < (withHeader payload).length) {byte : UInt8}
    (different : byte ≠ (withHeader payload)[offset]) :
    ∃ reason, withoutHeader path ((withHeader payload).set offset byte) =
      .error (.corruptEntry path reason) := by
  have storedLength := Bytes.length_ofUInt32 (Checksum.ofBytes payload)
  have magicLength : magic.length = 4 := rfl
  -- The byte is one of the first four, of the checksum, or of the bytes the checksum is made from.
  simp only [withHeader, List.append_assoc] at inside different ⊢
  rw [List.set_append]
  split
  case isTrue inMagic =>
    rw [List.getElem_append_left inMagic] at different
    rw [withoutHeader_parts path payload (by simp [magicLength]) storedLength,
      if_pos (set_ne_self inMagic different)]
    exact ⟨_, rfl⟩
  case isFalse behindMagic =>
    rw [List.getElem_append_right (Nat.le_of_not_lt behindMagic)] at different
    simp only [List.length_append] at inside
    rw [List.set_append]
    split
    case isTrue inStored =>
      rw [List.getElem_append_left inStored] at different
      rw [withoutHeader_parts path payload magicLength (by simp [storedLength]),
        if_neg (not_not_intro rfl), if_neg (set_ne_self inStored different)]
      exact ⟨_, rfl⟩
    case isFalse behindStored =>
      rw [List.getElem_append_right (Nat.le_of_not_lt behindStored)] at different
      have otherChecksum := Checksum.ofBytes_set_ne (by omega) different
      rw [withoutHeader_parts path _ magicLength storedLength, if_neg (not_not_intro rfl),
        if_neg fun same => otherChecksum (Bytes.ofUInt32_injective same).symm]
      exact ⟨_, rfl⟩

end StoredTable

/-! ## Files in a directory -/

namespace Directory

/-- The names are in order. -/
def IsOrdered (directory : Directory) : Prop :=
  ∀ entries, directory = .present entries → OrderedMap.IsOrdered entries

/-- Put another byte in one place of a file. -/
def alterByte (directory : Directory) (name : String) (offset : Nat) (byte : UInt8) : Directory :=
  match directory, directory.entry? name with
  | .present entries, some (.file content) =>
      .present (OrderedMap.insert name (.file (content.set offset byte)) entries)
  | _, _ => directory

/-- The file of a table is there, and nothing has the name of its draft. -/
def Keeps (directory : Directory) (made : TableOffer) (content : Bytes) : Prop :=
  ∃ entries, directory = .present entries ∧
    OrderedMap.find? made.fileName entries = some (.file content) ∧
    OrderedMap.find? made.draftName entries = none

theorem Keeps.entry?_fileName {directory : Directory} {made : TableOffer} {content : Bytes}
    (keeps : directory.Keeps made content) :
    directory.entry? made.fileName = some (.file content) := by
  obtain ⟨entries, rfl, isFile, _⟩ := keeps
  exact isFile

theorem Keeps.alterByte {directory : Directory} {made : TableOffer} {content : Bytes}
    (keeps : directory.Keeps made content) (offset : Nat) (byte : UInt8) :
    (directory.alterByte made.fileName offset byte).Keeps made (content.set offset byte) := by
  obtain ⟨entries, rfl, isFile, noDraft⟩ := keeps
  have isAltered : (Directory.present entries).alterByte made.fileName offset byte =
      .present (OrderedMap.insert made.fileName (.file (content.set offset byte)) entries) := by
    simp [Directory.alterByte, entry?, isFile]
  refine ⟨_, isAltered, OrderedMap.find?_insert_self _ _ _, ?_⟩
  rw [OrderedMap.find?_insert_of_ne (made.draftName_ne_fileName made), noDraft]

end Directory

namespace DirectoryStore

variable {directory left : Directory} {made : TableOffer}

theorem HoldsOffers.isOrdered {offers : List TableOffer} (holds : HoldsOffers offers directory) :
    directory.IsOrdered := by
  obtain ⟨entries, rfl, ordered, _⟩ := holds
  intro _ same
  cases same
  exact ordered

/-- An offer that succeeds leaves the file and removes its draft. -/
theorem keeps_of_offer (ordered : directory.IsOrdered)
    (isOffered : offer made.now directory made.table = (.ok (), left)) :
    left.Keeps made made.content := by
  obtain ⟨entries, rfl, _, _, rfl⟩ := offer_eq_ok_iff.mp isOffered
  refine ⟨_, rfl, OrderedMap.find?_insert_self _ _ _, ?_⟩
  rw [OrderedMap.find?_insert_of_ne (made.draftName_ne_fileName made)]
  exact OrderedMap.find?_erase_self _ (OrderedMap.isOrdered_insert _ _ (ordered entries rfl))

/-- What is offered for the same key goes to the same file. -/
theorem offer_of_keeps {content : Bytes} (keeps : directory.Keeps made content)
    (again : TableOffer) (isFor : again.IsFor made.table.source made.table.flattenBy
      made.table.originalFirstRows) :
    (offer again.now directory again.table).1 = .ok () := by
  obtain ⟨entries, rfl, isFile, noDraft⟩ := keeps
  obtain ⟨sameSource, sameField, sameRows⟩ := isFor
  have sameFile : again.fileName = made.fileName := by
    simp only [TableOffer.fileName, sameSource, sameField, sameRows]
  have sameDraft : again.draftName = made.draftName := by
    simp only [TableOffer.draftName, sameSource, sameField, sameRows]
  have draftFree : OrderedMap.find? again.draftName entries ≠ some .directory := by
    simp [sameDraft, noDraft]
  have fileFree : OrderedMap.find? again.fileName entries ≠ some .directory := by
    simp [sameFile, isFile]
  rw [offer_eq_ok_iff.mpr ⟨entries, rfl, draftFree, fileFree, rfl⟩]

theorem load_alterByte (keeps : directory.Keeps made made.content) {offset : Nat}
    (inside : offset < made.content.length) {byte : UInt8} (different : byte ≠ made.content[offset])
    (store : DirectoryStore) (now : Nat) :
    ∃ reason, store.load now (directory.alterByte made.fileName offset byte) made.table.source
        made.table.flattenBy made.table.originalFirstRows =
      .error (.corruptEntry (store.path ++ "/" ++ made.fileName) reason) := by
  have isAltered := (keeps.alterByte offset byte).entry?_fileName
  obtain ⟨reason, isRefused⟩ := StoredTable.withoutHeader_set
    (store.path ++ "/" ++ made.fileName) _ inside different
  rw [← TableOffer.content] at isRefused
  rw [TableOffer.fileName] at isAltered isRefused ⊢
  exact ⟨reason, by simp only [load, isAltered, StoredTable.read, isRefused]⟩

end DirectoryStore

/-! ## Caches -/

namespace FlattenCache

/-- The cache is asked for the table that was offered, and lists none that fits. -/
structure Misses (cache : FlattenCache) (now : Nat) (table : Table) (flattenBy : String)
    (made : TableOffer) : Prop where
  isLoaded : table.isFlattened = false
  isFor : ∃ target, readTarget flattenBy = .ok target ∧
    made.IsFor table.name target.toText table.firstRows
  notListed : (cache.findRecent now made.table.key table.firstRows).1 = none

namespace Misses

variable {σ : Type} {now : Nat} {cache : FlattenCache} {content : σ} {table : Table}
  {flattenBy : String} {made : TableOffer}

theorem flattenTable_flattenBy (misses : cache.Misses now table flattenBy made)
    (settings : FlattenSettings) (id : FlattenId) :
    Flattening.flattenTable settings table none made.table.flattenBy id =
      Flattening.flattenTable settings table none flattenBy id := by
  obtain ⟨target, accepted, _, sameField, _⟩ := misses.isFor
  rw [sameField, Flattening.flattenTable_toText settings table accepted]

/-- What is computed has the key of what was offered. -/
theorem isFor_of_flattenTable (misses : cache.Misses now table flattenBy made)
    {settings : FlattenSettings} {id : FlattenId} {fresh : FlattenedTable}
    (succeeds : Flattening.flattenTable settings table none flattenBy id = .ok fresh) :
    (TableOffer.mk now fresh).IsFor made.table.source made.table.flattenBy
      made.table.originalFirstRows := by
  obtain ⟨target, accepted, sameSource, sameField, sameRows⟩ := misses.isFor
  obtain ⟨_, again, acceptedAgain, sameKey, _, freshRows, _⟩ :=
    Flattening.flattenTable_eq_ok succeeds
  cases accepted.symm.trans acceptedAgain
  have freshSource : fresh.source = table.name := congrArg FlattenKey.source sameKey
  have freshField : fresh.flattenBy = target.toText := congrArg FlattenKey.flattenBy sameKey
  exact ⟨freshSource.trans sameSource.symm, freshField.trans sameField.symm,
    freshRows.trans sameRows.symm⟩

/-- Where the store fails, the failure is counted, and the table is computed. -/
theorem flatten_of_load_error (misses : cache.Misses now table flattenBy made)
    (store : TableStore σ) {cause : Error}
    (fails : store.load now content made.table.source made.table.flattenBy
      made.table.originalFirstRows = .error cause) (id : FlattenId) :
    ∃ counted : FlattenCache, counted.settings = cache.settings ∧
      counted.statistics.diskErrors = cache.statistics.diskErrors + 1 ∧
      cache.flatten (some store) now content table flattenBy id =
        compute (some store) now counted content table made.table.flattenBy id := by
  obtain ⟨isLoaded, ⟨target, accepted, sameSource, sameField, sameRows⟩, notListed⟩ := misses
  rw [FlattenedTable.key, sameSource, sameField] at notListed
  rw [sameSource, sameField, sameRows] at fails
  rw [sameField]
  let pruned := (cache.findRecent now ⟨table.name, target.toText⟩ table.firstRows).2
  have isSearched : cache.findRecent now ⟨table.name, target.toText⟩ table.firstRows =
      (none, pruned) := Prod.ext notListed rfl
  refine ⟨{ pruned with
    statistics := pruned.statistics.countFailure (.error cause : Outcome Unit) }, rfl, rfl, ?_⟩
  simp [flatten, isLoaded, accepted, isSearched, lookUp, fails, CacheStatistics.countFailure]

end Misses

/-- A table that the store takes is computed without a failure of the store. -/
theorem compute_of_taken {σ : Type} (store : TableStore σ) {now : Nat} {cache : FlattenCache}
    {content : σ} {table : Table} {flattenBy : String} {id : FlattenId}
    (taken : ∀ fresh, Flattening.flattenTable cache.settings table none flattenBy id = .ok fresh →
      (store.offer now content fresh).1 = .ok ()) :
    (compute (some store) now cache content table flattenBy id).1 =
        (Flattening.flattenTable cache.settings table none flattenBy id).map (⟨·, .computed⟩) ∧
      (compute (some store) now cache content table flattenBy id).2.1.statistics.diskErrors =
        cache.statistics.diskErrors := by
  cases computed : Flattening.flattenTable cache.settings table none flattenBy id with
  | error cause => simp [compute, computed, Except.map]
  | ok fresh =>
      have isTaken := taken fresh computed
      simp only [compute, computed, offer, handOut, isTaken]
      exact ⟨rfl, rfl⟩

end FlattenCache

/-! ## The main statement -/

namespace DirectoryStore

/-- Whatever byte of the file of a table is another one, looking for the table fails, and a cache
that would have taken it from there computes it and counts one failure. -/
theorem altered_byte_is_noticed {directory left : Directory} {made : TableOffer}
    (ordered : directory.IsOrdered)
    (isOffered : offer made.now directory made.table = (.ok (), left)) :
    left.entry? made.fileName = some (.file made.content) ∧
    ∀ (offset : Nat) (inside : offset < made.content.length) (byte : UInt8),
      byte ≠ made.content[offset] →
      ∀ (store : DirectoryStore) (now : Nat),
        (∃ reason, store.load now (left.alterByte made.fileName offset byte) made.table.source
            made.table.flattenBy made.table.originalFirstRows =
          .error (.corruptEntry (store.path ++ "/" ++ made.fileName) reason)) ∧
        ∀ (cache : FlattenCache) (table : Table) (flattenBy : String) (id : FlattenId),
          cache.Misses now table flattenBy made →
          let (answer, after, _) := cache.flatten (some store.toStore) now
            (left.alterByte made.fileName offset byte) table flattenBy id
          answer = (Flattening.flattenTable cache.settings table none flattenBy id).map
              (⟨·, .computed⟩) ∧
            after.statistics.diskErrors = cache.statistics.diskErrors + 1 := by
  have keeps := keeps_of_offer ordered isOffered
  refine ⟨keeps.entry?_fileName, ?_⟩
  intro offset inside byte different store now
  have isNoticed := load_alterByte keeps inside different store now
  refine ⟨isNoticed, ?_⟩
  intro cache table flattenBy id misses
  obtain ⟨reason, fails⟩ := isNoticed
  obtain ⟨counted, sameSettings, isCounted, isComputed⟩ :=
    misses.flatten_of_load_error store.toStore fails id
  -- What is computed has the key of the altered file, and takes its place.
  have taken : ∀ fresh,
      Flattening.flattenTable counted.settings table none made.table.flattenBy id = .ok fresh →
      (offer now (left.alterByte made.fileName offset byte) fresh).1 = .ok () := by
    intro fresh succeeds
    rw [misses.flattenTable_flattenBy] at succeeds
    exact offer_of_keeps (keeps.alterByte offset byte) ⟨now, fresh⟩
      (misses.isFor_of_flattenTable succeeds)
  obtain ⟨isFresh, noOther⟩ := FlattenCache.compute_of_taken store.toStore taken
  rw [sameSettings, misses.flattenTable_flattenBy] at isFresh
  rw [isComputed]
  exact ⟨isFresh, noOther.trans isCounted⟩

/-- A table under the key of the flattening of `CacheHistory.raggedTable`. -/
def storedOffer : TableOffer :=
  ⟨1000, { adaptedTable with flattenBy := "a[*]" }⟩

theorem altered_byte_is_noticed_storedOffer :
    ∃ left, offer 1000 (afterOffers adaptedOffers) storedOffer.table = (.ok (), left) ∧
      let altered := left.alterByte storedOffer.fileName 40 255
      (∃ reason, load ⟨"/cache", none⟩ 2000 altered "t" "a[*]" [10] =
        .error (.corruptEntry ("/cache" ++ "/" ++ storedOffer.fileName) reason)) ∧
      ∃ fresh after repaired,
        (FlattenCache.ofSettings {} {}).flatten (some (toStore ⟨"/cache", none⟩)) 2000 altered
            CacheHistory.raggedTable "a[*]" (Identifier.ofNat 1) =
          (.ok ⟨fresh, .computed⟩, after, repaired) ∧
        fresh.shards.map Shard.rows =
          [[[("a", .long 5), ("d", .text "x")], [("a", .long 8), ("d", .text "y")],
            [("a", .long 6), ("d", .text "x")]]] ∧
        after.statistics.diskErrors = 1 := by
  have holds := holdsOffers_afterOffers adaptedOffers
  have succeeds : (offer 1000 (afterOffers adaptedOffers) storedOffer.table).1 = .ok () :=
    (holds.offer storedOffer).1
  rcases isOffered : offer 1000 (afterOffers adaptedOffers) storedOffer.table with ⟨_, left⟩
  rw [isOffered] at succeeds
  cases succeeds
  have isOther : storedOffer.content[40]? ≠ some 255 := by decide +kernel
  have inside : 40 < storedOffer.content.length := by decide +kernel
  have different : (255 : UInt8) ≠ storedOffer.content[40] := fun same =>
    isOther (List.getElem?_eq_some_iff.mpr ⟨inside, same.symm⟩)
  have accepted : readTarget "a[*]" = .ok [⟨"a", .all⟩] := by decide +kernel
  have isTarget : FieldPath.toText [⟨"a", .all⟩] = "a[*]" := by decide +kernel
  have sameRows : CacheHistory.raggedTable.firstRows = [10] := by decide +kernel
  have misses : (FlattenCache.ofSettings {} {}).Misses 2000 CacheHistory.raggedTable "a[*]"
      storedOffer :=
    ⟨rfl, ⟨_, accepted, rfl, isTarget.symm, sameRows.symm⟩, rfl⟩
  obtain ⟨_, notices⟩ := @altered_byte_is_noticed _ _ storedOffer holds.isOrdered isOffered
  obtain ⟨isNoticed, isComputed⟩ := notices 40 inside 255 different ⟨"/cache", none⟩ 2000
  have computes := isComputed _ _ _ (Identifier.ofNat 1) misses
  rcases isCalled : (FlattenCache.ofSettings {} {}).flatten (some (toStore ⟨"/cache", none⟩)) 2000
    (left.alterByte storedOffer.fileName 40 255) CacheHistory.raggedTable "a[*]"
    (Identifier.ofNat 1) with ⟨answer, after, repaired⟩
  rw [isCalled] at computes
  obtain ⟨isAnswer, isCounted⟩ := computes
  obtain ⟨fresh, flattens, rows⟩ := CacheHistory.raggedTable_flattens (Identifier.ofNat 1)
  have isFresh : answer = .ok ⟨fresh, .computed⟩ := by
    rw [isAnswer, FlattenCache.ofSettings, flattens]
    rfl
  rw [isFresh] at isCalled
  exact ⟨left, rfl, isNoticed, fresh, after, repaired, isCalled, rows, isCounted⟩

end DirectoryStore

end Unnest
