import Unnest.Cache.Directory
import Unnest.Proofs.CacheTransparency
import Unnest.Proofs.SnapshotBytes
import Unnest.Proofs.SnapshotRoundTrip

/-!
# What a directory gives back

Tables are offered to a directory one after the other.  At every name stands what was last offered
to it (`DirectoryStore.HoldsOffers`), also where several keys share a file; the snapshot in a file
says whose it is, so a key is either given the table that was last offered for it or nothing
(`DirectoryStore.load_afterOffers`).
-/

namespace Unnest

/-! ## Files -/

theorem Bytes.length_ofNat (width value : Nat) : (Bytes.ofNat width value).length = width := by
  induction width generalizing value with
  | zero => rfl
  | succ width inductionHypothesis => simp [ofNat, inductionHypothesis]

theorem Bytes.length_ofUInt32 (value : UInt32) : (Bytes.ofUInt32 value).length = 4 :=
  Bytes.length_ofNat 4 _

namespace Directory

variable {directory after : Directory}

theorem write_eq_ok_iff {name : String} {content : Bytes} :
    directory.write name content = .ok after ↔
      ∃ entries, directory = .present entries ∧
        OrderedMap.find? name entries ≠ some .directory ∧
        after = .present (OrderedMap.insert name (.file content) entries) := by
  cases directory with
  | missing => simp [write]
  | blocked => simp [write]
  | present entries =>
      rcases isThere : OrderedMap.find? name entries with _ | _ | _ <;>
        simp [write, entry?, isThere, eq_comm]

theorem moveFile_eq_ok_iff {source target : String} :
    directory.moveFile source target = .ok after ↔
      ∃ entries moved, directory = .present entries ∧
        OrderedMap.find? source entries = some moved ∧
        OrderedMap.find? target entries ≠ some .directory ∧
        after = .present (OrderedMap.insert target moved (OrderedMap.erase source entries)) := by
  cases directory with
  | missing => simp [moveFile]
  | blocked => simp [moveFile]
  | present entries =>
      cases isSource : OrderedMap.find? source entries with
      | none =>
          rcases isThere : OrderedMap.find? target entries with _ | _ | _ <;>
            simp [moveFile, entry?, isSource, isThere]
      | some moved =>
          rcases isThere : OrderedMap.find? target entries with _ | _ | _ <;>
            simp [moveFile, entry?, isSource, isThere, eq_comm]

end Directory

namespace StoredTable

/-- A file is read as its first four bytes, the next four, and the rest. -/
theorem withoutHeader_parts (path : String) {start stored : Bytes} (payload : Bytes)
    (startLength : start.length = 4) (storedLength : stored.length = 4) :
    withoutHeader path (start ++ (stored ++ payload)) =
      if start ≠ magic then .error (.corruptEntry path "bad header")
      else if stored = Bytes.ofUInt32 (Checksum.ofBytes payload) then .ok payload
      else .error (.corruptEntry path "checksum mismatch") := by
  have isLongEnough : ¬ (start ++ (stored ++ payload)).length < 8 := by
    simp only [List.length_append, startLength, storedLength]
    omega
  have isStart : (start ++ (stored ++ payload)).take 4 = start := List.take_left' startLength
  have behindStart : (start ++ (stored ++ payload)).drop 4 = stored ++ payload :=
    List.drop_left' startLength
  have isPayload : (start ++ (stored ++ payload)).drop 8 = payload := by
    rw [← List.append_assoc]
    apply List.drop_left'
    rw [List.length_append, startLength, storedLength]
  simp only [withoutHeader, isLongEnough, isStart, behindStart, isPayload, false_or,
    List.take_left' storedLength]

theorem withoutHeader_withHeader (path : String) (payload : Bytes) :
    withoutHeader path (withHeader payload) = .ok payload := by
  rw [withHeader, List.append_assoc,
    withoutHeader_parts path payload rfl (Bytes.length_ofUInt32 _), if_neg (not_not_intro rfl),
    if_pos rfl]

/-- A draft is never written where a table is found. -/
theorem draftName_ne_fileName (source flattenBy otherSource otherFlattenBy : String)
    (firstRows otherRows : FirstRows) :
    draftName source flattenBy firstRows ≠ fileName otherSource otherFlattenBy otherRows := by
  intro same
  have sameEnding := congrArg (fun name : String => name.toList.getLast?) same
  simp [draftName, fileName] at sameEnding

theorem isOf_capture_iff (table : FlattenedTable) (createdSeconds : UInt64)
    (source flattenBy : String) (firstRows : FirstRows) :
    (Snapshot.capture table createdSeconds).isOf source flattenBy firstRows = true ↔
      table.source = source ∧ table.flattenBy = flattenBy ∧
        table.originalFirstRows = firstRows := by
  simp [Snapshot.isOf, Snapshot.capture, and_assoc]

end StoredTable

/-- The numbers of the table, and the lengths of its texts and lists, fit into 64 bits. -/
def FlattenedTable.Fits (table : FlattenedTable) : Prop :=
  (Snapshot.capture table 0).Fits

instance (table : FlattenedTable) : Decidable table.Fits :=
  inferInstanceAs (Decidable (Snapshot.capture table 0).Fits)

theorem FlattenedTable.Fits.capture {table : FlattenedTable} (fits : table.Fits)
    (createdSeconds : UInt64) : (Snapshot.capture table createdSeconds).Fits := by
  obtain ⟨name, source, flattenBy, count, rows, shardCount, shards⟩ := fits
  exact ⟨name, source, flattenBy, count, rows, shardCount, shards⟩

/-- A table that is offered at a time, in milliseconds since 1970. -/
structure TableOffer where
  now : Nat
  table : FlattenedTable

namespace TableOffer

def fileName (made : TableOffer) : String :=
  StoredTable.fileName made.table.source made.table.flattenBy made.table.originalFirstRows

/-- The name under which the table is written before it is moved to its file. -/
def draftName (made : TableOffer) : String :=
  StoredTable.draftName made.table.source made.table.flattenBy made.table.originalFirstRows

theorem draftName_ne_fileName (made other : TableOffer) : made.draftName ≠ other.fileName :=
  StoredTable.draftName_ne_fileName _ _ _ _ _ _

/-- What is written of the table. -/
def content (made : TableOffer) : Bytes :=
  StoredTable.withHeader
    (Snapshot.capture made.table (UInt64.ofNat (made.now / 1000))).toBytes

/-- The table is the one of this source, field and first rows. -/
def IsFor (made : TableOffer) (source flattenBy : String) (firstRows : FirstRows) : Prop :=
  made.table.source = source ∧ made.table.flattenBy = flattenBy ∧
    made.table.originalFirstRows = firstRows

end TableOffer

namespace DirectoryStore

/-! ## Offers -/

/-- A directory that was empty, after tables were offered to it one after the other. -/
def afterOffers (offers : List TableOffer) : Directory :=
  offers.foldl (fun directory made => (offer made.now directory made.table).2) (.present [])

theorem afterOffers_append_singleton (offers : List TableOffer) (made : TableOffer) :
    afterOffers (offers ++ [made]) = (offer made.now (afterOffers offers) made.table).2 := by
  simp [afterOffers]

/-- The last offer that went to a file. -/
def lastOfferTo? (offers : List TableOffer) (name : String) : Option TableOffer :=
  offers.reverse.find? fun made => made.fileName == name

theorem lastOfferTo?_append_singleton (offers : List TableOffer) (made : TableOffer)
    (name : String) :
    lastOfferTo? (offers ++ [made]) name =
      if name = made.fileName then some made else lastOfferTo? offers name := by
  by_cases same : name = made.fileName
  · simp [lastOfferTo?, same]
  · have different : (made.fileName == name) = false := beq_false_of_ne (Ne.symm same)
    simp [lastOfferTo?, same, different]

theorem mem_of_lastOfferTo? {offers : List TableOffer} {name : String} {made : TableOffer}
    (isLast : lastOfferTo? offers name = some made) : made ∈ offers :=
  List.mem_reverse.mp (List.mem_of_find?_eq_some isLast)

/-- At every name stands what was last offered to it, and nothing else is there. -/
def HoldsOffers (offers : List TableOffer) (directory : Directory) : Prop :=
  ∃ entries, directory = .present entries ∧ OrderedMap.IsOrdered entries ∧
    ∀ name, OrderedMap.find? name entries =
      (lastOfferTo? offers name).map fun made => .file made.content

theorem lastOfferTo?_draftName (offers : List TableOffer) (source flattenBy : String)
    (firstRows : FirstRows) :
    lastOfferTo? offers (StoredTable.draftName source flattenBy firstRows) = none := by
  apply List.find?_eq_none.mpr
  intro made _
  have different := StoredTable.draftName_ne_fileName source flattenBy made.table.source
    made.table.flattenBy firstRows made.table.originalFirstRows
  simpa [TableOffer.fileName] using different.symm

/-- Where no directory is in the way, a table is written as a draft and moved to its file. -/
theorem offer_eq_ok_iff {directory left : Directory} {made : TableOffer} :
    offer made.now directory made.table = (.ok (), left) ↔
      ∃ entries, directory = .present entries ∧
        OrderedMap.find? made.draftName entries ≠ some .directory ∧
        OrderedMap.find? made.fileName entries ≠ some .directory ∧
        left = .present (OrderedMap.insert made.fileName (.file made.content)
          (OrderedMap.erase made.draftName
            (OrderedMap.insert made.draftName (.file made.content) entries))) := by
  have isOther := (made.draftName_ne_fileName made).symm
  constructor
  · intro isOffered
    simp only [offer] at isOffered
    split at isOffered
    · cases isOffered
    rename_i drafted isWritten
    split at isOffered
    · cases isOffered
    rename_i stored isMoved
    have written : directory.write made.draftName made.content = .ok drafted := isWritten
    have moved : drafted.moveFile made.draftName made.fileName = .ok stored := isMoved
    obtain ⟨entries, rfl, draftFree, rfl⟩ := Directory.write_eq_ok_iff.mp written
    obtain ⟨_, file, isSame, isThere, fileFree, rfl⟩ := Directory.moveFile_eq_ok_iff.mp moved
    cases isSame
    rw [OrderedMap.find?_insert_self] at isThere
    rw [OrderedMap.find?_insert_of_ne isOther] at fileFree
    cases isThere
    exact ⟨entries, rfl, draftFree, fileFree, (Prod.mk.inj isOffered).2.symm⟩
  · rintro ⟨entries, rfl, draftFree, fileFree, rfl⟩
    have written : (Directory.present entries).write made.draftName made.content =
        .ok (.present (OrderedMap.insert made.draftName (.file made.content) entries)) :=
      Directory.write_eq_ok_iff.mpr ⟨entries, rfl, draftFree, rfl⟩
    rw [← OrderedMap.find?_insert_of_ne isOther] at fileFree
    have moved := Directory.moveFile_eq_ok_iff.mpr
      ⟨_, _, rfl, OrderedMap.find?_insert_self made.draftName (.file made.content) entries,
        fileFree, rfl⟩
    simp only [TableOffer.content, TableOffer.fileName, TableOffer.draftName] at written moved ⊢
    simp only [offer, written, moved]

/-- An offer succeeds, and replaces what stood at its name. -/
theorem HoldsOffers.offer {offers : List TableOffer} {directory : Directory}
    (holds : HoldsOffers offers directory) (made : TableOffer) :
    (offer made.now directory made.table).1 = .ok () ∧
      HoldsOffers (offers ++ [made]) (offer made.now directory made.table).2 := by
  obtain ⟨entries, rfl, ordered, found⟩ := holds
  have noDraft : OrderedMap.find? made.draftName entries = none := by
    rw [found, TableOffer.draftName, lastOfferTo?_draftName]
    rfl
  have draftFree : OrderedMap.find? made.draftName entries ≠ some .directory := by
    simp [noDraft]
  have fileFree : OrderedMap.find? made.fileName entries ≠ some .directory := by
    rw [found]
    cases lastOfferTo? offers made.fileName <;> simp
  have drafted := OrderedMap.isOrdered_insert made.draftName (DirectoryEntry.file made.content)
    ordered
  have erased := OrderedMap.isOrdered_erase made.draftName drafted
  rw [offer_eq_ok_iff.mpr ⟨entries, rfl, draftFree, fileFree, rfl⟩]
  refine ⟨rfl, _, rfl, OrderedMap.isOrdered_insert _ _ erased, ?_⟩
  intro name
  rw [lastOfferTo?_append_singleton]
  by_cases isTarget : name = made.fileName
  · rw [if_pos isTarget, isTarget, OrderedMap.find?_insert_self]
    rfl
  · rw [if_neg isTarget, OrderedMap.find?_insert_of_ne isTarget, ← found]
    by_cases isDraft : name = made.draftName
    · rw [isDraft, noDraft, OrderedMap.find?_erase_self _ drafted]
    · rw [OrderedMap.find?_erase_of_ne isDraft, OrderedMap.find?_insert_of_ne isDraft]

theorem holdsOffers_afterOffers (offers : List TableOffer) :
    HoldsOffers offers (afterOffers offers) := by
  induction offers using List.reverseRecOn with
  | nil => exact ⟨[], rfl, List.Pairwise.nil, fun _ => rfl⟩
  | append_singleton earlier made inductionHypothesis =>
      rw [afterOffers_append_singleton]
      exact (inductionHypothesis.offer made).2

/-! ## Looking for a table -/

/-- The last offer that went to a file, if it was for a key of this file, was the last one for this
key. -/
theorem lastOffered?_of_lastOfferTo? {offers : List TableOffer} {made : TableOffer}
    {source flattenBy : String} {firstRows : FirstRows}
    (isLast : lastOfferTo? offers (StoredTable.fileName source flattenBy firstRows) = some made)
    (isFor : made.IsFor source flattenBy firstRows) :
    lastOffered? (offers.reverse.map TableOffer.table) source flattenBy firstRows =
      some made.table := by
  obtain ⟨_, earlier, later, isSplit, others⟩ := List.find?_eq_some_iff_append.mp isLast
  have isHead : lastOffered? ((made :: later).map TableOffer.table) source flattenBy firstRows =
      some made.table := by
    obtain ⟨rfl, rfl, rfl⟩ := isFor
    simp [lastOffered?]
  have noneBefore : lastOffered? (earlier.map TableOffer.table) source flattenBy firstRows =
      none := by
    apply List.find?_eq_none.mpr
    intro table isTable isSame
    obtain ⟨other, isOther, rfl⟩ := List.mem_map.mp isTable
    have otherFile := others other isOther
    simp only [Bool.and_eq_true, beq_iff_eq] at isSame
    obtain ⟨⟨rfl, rfl⟩, rfl⟩ := isSame
    simp [TableOffer.fileName] at otherFile
  rw [lastOffered?] at isHead noneBefore ⊢
  rw [isSplit, List.map_append, List.find?_append, noneBefore, Option.none_or, isHead]

/-- What is found in a file is the table that was last offered to it, unless this was offered for
another key or is too old. -/
theorem load_outcome (store : DirectoryStore) {offers : List TableOffer}
    (suitable : ∀ made ∈ offers, made.table.IsReadable ∧ made.table.Fits) (now : Nat)
    (source flattenBy : String) (firstRows : FirstRows) :
    (∃ made found,
      lastOfferTo? offers (StoredTable.fileName source flattenBy firstRows) = some made ∧
      made.IsFor source flattenBy firstRows ∧
      store.load now (afterOffers offers) source flattenBy firstRows = .ok (some found) ∧
      found.AgreesWith made.table) ∨
    store.load now (afterOffers offers) source flattenBy firstRows = .ok none ∧
      ∀ made,
        lastOfferTo? offers (StoredTable.fileName source flattenBy firstRows) = some made →
        made.IsFor source flattenBy firstRows → store.maxAgeMillis ≠ none := by
  obtain ⟨entries, isPresent, _, found⟩ := holdsOffers_afterOffers offers
  have isEntry := found (StoredTable.fileName source flattenBy firstRows)
  cases isLast : lastOfferTo? offers (StoredTable.fileName source flattenBy firstRows) with
  | none =>
      rw [isLast] at isEntry
      refine Or.inr ⟨?_, fun made isMade => nomatch isMade⟩
      simp [load, isPresent, Directory.entry?, isEntry]
  | some made =>
      rw [isLast] at isEntry
      obtain ⟨readable, fits⟩ := suitable made (mem_of_lastOfferTo? isLast)
      let seconds := UInt64.ofNat (made.now / 1000)
      have payload : StoredTable.withoutHeader
            (store.path ++ "/" ++ StoredTable.fileName source flattenBy firstRows) made.content =
          .ok (Snapshot.capture made.table seconds).toBytes :=
        StoredTable.withoutHeader_withHeader _ _
      have isSnapshot := Snapshot.ofBytes_toBytes (fits.capture seconds)
      have isRestored := Snapshot.restore_capture_eq_ok readable seconds
      have isLoaded : store.load now (afterOffers offers) source flattenBy firstRows =
          if !(Snapshot.capture made.table seconds).isOf source flattenBy firstRows then .ok none
          else if StoredTable.isTooOld store.maxAgeMillis now
              (Snapshot.capture made.table seconds) then .ok none
          else .ok (some made.table.encodedAgain) := by
        simp only [load, isPresent, Directory.entry?, isEntry, Option.map_some, StoredTable.read,
          payload, isSnapshot, isRestored]
      have isOf := StoredTable.isOf_capture_iff made.table seconds source flattenBy firstRows
      by_cases isFor : made.IsFor source flattenBy firstRows
      · rw [isOf.mpr isFor, Bool.not_true, if_neg Bool.false_ne_true] at isLoaded
        by_cases isOld : StoredTable.isTooOld store.maxAgeMillis now
            (Snapshot.capture made.table seconds) = true
        · rw [if_pos isOld] at isLoaded
          refine Or.inr ⟨isLoaded, ?_⟩
          intro _ _ _ noLimit
          rw [noLimit] at isOld
          cases isOld
        · rw [if_neg isOld] at isLoaded
          exact Or.inl ⟨made, _, rfl, isFor, isLoaded, readable.encodedAgain_agreesWith⟩
      · have isOther : (Snapshot.capture made.table seconds).isOf source flattenBy firstRows =
            false := Bool.eq_false_iff.mpr fun same => isFor (isOf.mp same)
        rw [isOther, Bool.not_false, if_pos rfl] at isLoaded
        refine Or.inr ⟨isLoaded, ?_⟩
        intro last isMade lastIsFor
        cases isMade
        exact absurd lastIsFor isFor

/-- Every offer of a readable table to a directory succeeds.  Whatever was offered, looking for a
key never fails: what is found is the table that was last offered for this key, and it is found when
nothing was offered to its file since. -/
theorem load_afterOffers (path : String) {offers : List TableOffer}
    (suitable : ∀ made ∈ offers, made.table.IsReadable ∧ made.table.Fits) (now : Nat)
    (source flattenBy : String) (firstRows : FirstRows) :
    (∀ earlier made later, offers = earlier ++ made :: later →
      (offer made.now (afterOffers earlier) made.table).1 = .ok ()) ∧
    ((∃ kept found,
        lastOffered? (offers.reverse.map TableOffer.table) source flattenBy firstRows =
          some kept ∧
        load ⟨path, none⟩ now (afterOffers offers) source flattenBy firstRows =
          .ok (some found) ∧
        found.id = kept.id ∧ found.ShowsSameAs kept) ∨
      load ⟨path, none⟩ now (afterOffers offers) source flattenBy firstRows = .ok none) ∧
    ∀ last, lastOfferTo? offers (StoredTable.fileName source flattenBy firstRows) = some last →
      last.IsFor source flattenBy firstRows →
      ∃ found, load ⟨path, none⟩ now (afterOffers offers) source flattenBy firstRows =
        .ok (some found) := by
  have outcome := load_outcome ⟨path, none⟩ suitable now source flattenBy firstRows
  refine ⟨?_, ?_, ?_⟩
  · intro earlier made _ _
    exact ((holdsOffers_afterOffers earlier).offer made).1
  · rcases outcome with ⟨made, found, isLast, isFor, isLoaded, agrees⟩ | ⟨isNone, _⟩
    · exact Or.inl ⟨made.table, found, lastOffered?_of_lastOfferTo? isLast isFor, isLoaded,
        agrees.id, agrees.showsSameAs⟩
    · exact Or.inr isNone
  · intro last isLast isFor
    rcases outcome with ⟨_, found, _, _, isLoaded, _⟩ | ⟨_, onlyByAge⟩
    · exact ⟨found, isLoaded⟩
    · exact absurd rfl (onlyByAge last isLast isFor)

/-- A table, another field of its source, and the table under another name. -/
def adaptedOffers : List TableOffer :=
  [⟨1000, adaptedTable⟩, ⟨2000, { adaptedTable with flattenBy := "b" }⟩,
    ⟨3000, { adaptedTable with id := Identifier.ofNat 7 }⟩]

theorem load_afterOffers_adaptedOffers :
    ∃ found,
      load ⟨"/cache", none⟩ 9000 (afterOffers adaptedOffers) "t" "a" [10] = .ok (some found) ∧
      found.id = Identifier.ofNat 7 ∧ found.ShowsSameAs adaptedTable := by
  have readable := isReadable_adaptedTable
  have suitable : ∀ made ∈ adaptedOffers, made.table.IsReadable ∧ made.table.Fits := by
    intro made isMade
    simp only [adaptedOffers, List.mem_cons, List.not_mem_nil, or_false] at isMade
    rcases isMade with rfl | rfl | rfl
    · exact ⟨readable, by decide +kernel⟩
    · exact ⟨⟨readable.shards, readable.inRowOrder, readable.ascending⟩, by decide +kernel⟩
    · exact ⟨⟨readable.shards, readable.inRowOrder, readable.ascending⟩, by decide +kernel⟩
  obtain ⟨_, outcome, isFound⟩ := load_afterOffers "/cache" suitable 9000 "t" "a" [10]
  obtain ⟨loaded, isLoaded⟩ := isFound ⟨3000, { adaptedTable with id := Identifier.ofNat 7 }⟩
    (by simp [lastOfferTo?, adaptedOffers, TableOffer.fileName, adaptedTable]) ⟨rfl, rfl, rfl⟩
  rcases outcome with ⟨kept, found, isKept, isThere, sameId, shows⟩ | isNone
  · have isLast : kept = { adaptedTable with id := Identifier.ofNat 7 } := by
      simpa [lastOffered?, adaptedOffers, adaptedTable] using isKept.symm
    rw [isLast] at sameId shows
    exact ⟨found, isThere, sameId, shows.trans ⟨rfl, rfl, rfl, rfl, rfl, rfl⟩⟩
  · rw [isLoaded] at isNone
    cases isNone

end DirectoryStore

end Unnest
