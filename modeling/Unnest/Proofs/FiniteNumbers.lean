import Unnest.CommandLine.Lines
import Unnest.Json.Reader
import Unnest.Proofs.DocumentCells
import Unnest.Proofs.Rounding

/-!
# The numbers of documents are finite

A number that is read from a text is finite as a double, whether it is kept as one or as an integer;
a text that comes to no finite double is no number.  So the cells of documents are finite wherever
JSON texts are read in such a way (`CommandLine.ReadsFinite`).
-/

namespace Unnest

namespace Json

/-- A number is a finite double, or the nearest double is. -/
def HasFiniteNumber : Json → Prop
  | .integer value => (Double.ofInt value).isFinite = true
  | .double number => number.isFinite = true
  | _ => True

/-- All numbers in the value are finite as doubles. -/
def IsFinite (value : Json) : Prop :=
  value.Everywhere HasFiniteNumber

theorem isFinite_null : Json.null.IsFinite :=
  everywhere_flat (by simp) (by simp) trivial

theorem isFinite_bool (value : Bool) : (Json.bool value).IsFinite :=
  everywhere_flat (by simp) (by simp) trivial

theorem isFinite_text (content : String) : (Json.text content).IsFinite :=
  everywhere_flat (by simp) (by simp) trivial

theorem isFinite_integer {value : Int} (isFinite : (Double.ofInt value).isFinite = true) :
    (Json.integer value).IsFinite :=
  everywhere_flat (by simp) (by simp) isFinite

theorem isFinite_double {number : Double} (isFinite : number.isFinite = true) :
    (Json.double number).IsFinite :=
  everywhere_flat (by simp) (by simp) isFinite

theorem isFinite_array {items : List Json} (each : ∀ item ∈ items, item.IsFinite) :
    (Json.array items).IsFinite :=
  (everywhere_array _ _).mpr ⟨trivial, each⟩

theorem isFinite_object {fields : List (String × Json)}
    (each : ∀ entry ∈ fields, entry.2.IsFinite) : (Json.object fields).IsFinite :=
  (everywhere_object _ _).mpr ⟨trivial, each⟩

/-! ## Numbers of sixty-four bits -/

theorem takeSignificand_lt {significand : Nat} (below : significand < 2 ^ 64)
    (digits : List Char) : (takeSignificand significand digits).1 < 2 ^ 64 := by
  induction digits generalizing significand with
  | nil => exact below
  | cons digit rest inductionHypothesis =>
      rw [takeSignificand]
      dsimp only
      split
      · rename_i fits
        exact inductionHypothesis fits
      · exact below

theorem isFinite_withSign {number : Double} (isNegative : Bool)
    (isFinite : number.isFinite = true) : (withSign isNegative number).isFinite = true :=
  Double.isFinite_ofMagnitude isNegative ((Double.isFinite_iff number).mp isFinite)

/-- The reader finds only finite numbers. -/
def NumberReader.FindsFinite (readNumber : NumberReader) : Prop :=
  ∀ isNegative numeral number, readNumber isNegative numeral = some number → number.IsFinite

theorem findsFinite_scaledNumber? : NumberReader.FindsFinite scaledNumber? := by
  intro isNegative numeral number isNumber
  have isSmall := takeSignificand_lt (by decide : 0 < 2 ^ 64) numeral.whole
  have ofMagnitude {value : Int}
      (same : value.natAbs = (takeSignificand 0 numeral.whole).1) : (Json.integer value).IsFinite :=
    isFinite_integer (Double.isFinite_ofRatio_one _ (by rw [same]; exact isSmall))
  rw [scaledNumber?] at isNumber
  dsimp only at isNumber
  split at isNumber
  · cases isNumber
    exact ofMagnitude (Int.natAbs_natCast _)
  · split at isNumber
    · cases isNumber
      exact ofMagnitude (by rw [Int.natAbs_neg, Int.natAbs_natCast])
    · split at isNumber
      · cases isNumber
      · split at isNumber
        · rename_i isFinite
          cases isNumber
          exact isFinite_double (isFinite_withSign isNegative isFinite)
        · cases isNumber

/-! ## Reading -/

/-- A scalar token has a finite number, if it has one. -/
def Token.IsFinite : Token → Prop
  | .scalar value => value.IsFinite
  | _ => True

section Reading

variable {readNumber : NumberReader} (findsFinite : readNumber.FindsFinite)

include findsFinite

theorem isFinite_of_takeNumber {isNegative : Bool} {input rest : List Char} {number : Json}
    (isTaken : takeNumber readNumber isNegative input = some (number, rest)) :
    number.IsFinite := by
  rw [takeNumber] at isTaken
  split at isTaken
  · cases isTaken
  · split at isTaken
    all_goals
      split at isTaken
      · cases isTaken
      · split at isTaken
        · cases isTaken
        · split at isTaken
          · cases isTaken
          · rename_i isNumber
            cases isTaken
            exact findsFinite _ _ _ isNumber

theorem isFinite_of_takeToken {input rest : List Char} {token : Token}
    (isTaken : takeToken readNumber input = some (token, rest)) : token.IsFinite := by
  have ofNumber {isNegative : Bool} {digits : List Char}
      (isNumber : (takeNumber readNumber isNegative digits).map
        (fun found => (Token.scalar found.1, found.2)) = some (token, rest)) : token.IsFinite := by
    rcases Option.map_eq_some_iff.mp isNumber with ⟨found, isFound, same⟩
    cases same
    exact isFinite_of_takeNumber findsFinite isFound
  rw [takeToken.eq_def] at isTaken
  split at isTaken
  case h_8 | h_9 =>
      cases isTaken
      exact isFinite_bool _
  case h_10 =>
      cases isTaken
      exact isFinite_null
  case h_7 =>
      rcases Option.map_eq_some_iff.mp isTaken with ⟨found, _, same⟩
      cases same
      trivial
  case h_11 | h_12 => exact ofNumber isTaken
  all_goals
    cases isTaken
    trivial

theorem isFinite_of_tokensWithin {fuel : Nat} {input : List Char} {found : List Token}
    (areTokens : tokensWithin readNumber fuel input = some found) :
    ∀ token ∈ found, token.IsFinite := by
  induction fuel generalizing input found with
  | zero =>
      rw [tokensWithin.eq_def] at areTokens
      dsimp only at areTokens
      split at areTokens
      · cases areTokens
        simp
      · cases areTokens
  | succ fuel inductionHypothesis =>
      rw [tokensWithin.eq_def] at areTokens
      dsimp only at areTokens
      split at areTokens
      · cases areTokens
        simp
      · split at areTokens
        · cases areTokens
        · rename_i isTaken
          rcases Option.map_eq_some_iff.mp areTokens with ⟨others, areOthers, same⟩
          cases same
          exact List.forall_mem_cons.mpr
            ⟨isFinite_of_takeToken findsFinite isTaken, inductionHypothesis areOthers⟩

end Reading

/-- The values that an open container holds so far are finite. -/
def OpenContainer.IsFinite : OpenContainer → Prop
  | .array reversedItems => ∀ item ∈ reversedItems, item.IsFinite
  | .object fields _ => ∀ entry ∈ fields, entry.2.IsFinite

/-- The values that were read last are finite. -/
def Expected.IsFinite : Expected → Prop
  | .value .. => True
  | .name fields _ => ∀ entry ∈ fields, entry.2.IsFinite
  | .colon fields _ => ∀ entry ∈ fields, entry.2.IsFinite
  | .separator last => last.IsFinite

theorem isFinite_insert {fields : OrderedMap String Json} {name : String} {value : Json}
    (each : ∀ entry ∈ fields, entry.2.IsFinite) (isFinite : value.IsFinite) :
    ∀ entry ∈ OrderedMap.insert name value fields, entry.2.IsFinite := by
  intro entry member
  rcases OrderedMap.mem_insert member with isNew | isOld
  · rw [isNew]
    exact isFinite
  · exact each entry isOld

/-- One token after the other, what is open and what was read last stay finite. -/
theorem isFinite_of_readTokens {containers : List OpenContainer} {expected : Expected}
    {given : List Token} {value : Json}
    (containersFinite : ∀ container ∈ containers, container.IsFinite)
    (expectedFinite : expected.IsFinite) (givenFinite : ∀ token ∈ given, token.IsFinite)
    (isRead : readTokens containers expected given = some value) : value.IsFinite := by
  fun_induction readTokens containers expected given with
  | case1 last =>
      cases isRead
      exact expectedFinite
  | case3 containers mayClose rest scalar inductionHypothesis =>
      rcases List.forall_mem_cons.mp givenFinite with ⟨isFinite, restFinite⟩
      exact inductionHypothesis containersFinite isFinite restFinite isRead
  | case4 containers mayClose rest content inductionHypothesis =>
      exact inductionHypothesis containersFinite (isFinite_text content)
        (List.forall_mem_cons.mp givenFinite).2 isRead
  | case5 containers mayClose rest fits inductionHypothesis =>
      have opened : (OpenContainer.array []).IsFinite := fun _ member => nomatch member
      exact inductionHypothesis (List.forall_mem_cons.mpr ⟨opened, containersFinite⟩) trivial
        (List.forall_mem_cons.mp givenFinite).2 isRead
  | case7 containers mayClose rest fits inductionHypothesis =>
      have opened : (Expected.name [] true).IsFinite := fun _ isEntry => nomatch isEntry
      exact inductionHypothesis containersFinite opened (List.forall_mem_cons.mp givenFinite).2
        isRead
  | case9 rest reversedItems outer inductionHypothesis =>
      exact inductionHypothesis (List.forall_mem_cons.mp containersFinite).2
        (isFinite_array (by simp)) (List.forall_mem_cons.mp givenFinite).2
        isRead
  | case12 containers fields mayClose rest name inductionHypothesis =>
      exact inductionHypothesis containersFinite expectedFinite
        (List.forall_mem_cons.mp givenFinite).2 isRead
  | case13 containers fields rest inductionHypothesis =>
      exact inductionHypothesis containersFinite (isFinite_object expectedFinite)
        (List.forall_mem_cons.mp givenFinite).2 isRead
  | case16 containers fields name rest inductionHypothesis =>
      exact inductionHypothesis (List.forall_mem_cons.mpr ⟨expectedFinite, containersFinite⟩)
        trivial (List.forall_mem_cons.mp givenFinite).2 isRead
  | case18 last rest reversedItems outer inductionHypothesis =>
      rcases List.forall_mem_cons.mp containersFinite with ⟨itemsFinite, outerFinite⟩
      have extended : (OpenContainer.array (last :: reversedItems)).IsFinite :=
        List.forall_mem_cons.mpr ⟨expectedFinite, itemsFinite⟩
      exact inductionHypothesis (List.forall_mem_cons.mpr ⟨extended, outerFinite⟩) trivial
        (List.forall_mem_cons.mp givenFinite).2 isRead
  | case19 last rest reversedItems outer inductionHypothesis =>
      rcases List.forall_mem_cons.mp containersFinite with ⟨itemsFinite, outerFinite⟩
      have allFinite : ∀ item ∈ last :: reversedItems, item.IsFinite :=
        List.forall_mem_cons.mpr ⟨expectedFinite, itemsFinite⟩
      have closed : (Json.array (last :: reversedItems).reverse).IsFinite :=
        isFinite_array fun item member => allFinite item (List.mem_reverse.mp member)
      exact inductionHypothesis outerFinite closed (List.forall_mem_cons.mp givenFinite).2 isRead
  | case20 last rest fields name outer inductionHypothesis =>
      rcases List.forall_mem_cons.mp containersFinite with ⟨fieldsFinite, outerFinite⟩
      exact inductionHypothesis outerFinite (isFinite_insert fieldsFinite expectedFinite)
        (List.forall_mem_cons.mp givenFinite).2 isRead
  | case21 last rest fields name outer inductionHypothesis =>
      rcases List.forall_mem_cons.mp containersFinite with ⟨fieldsFinite, outerFinite⟩
      exact inductionHypothesis outerFinite
        (isFinite_object (isFinite_insert fieldsFinite expectedFinite))
        (List.forall_mem_cons.mp givenFinite).2 isRead
  | case2 | case6 | case8 | case10 | case11 | case14 | case15 | case17 | case22 => cases isRead

theorem isFinite_of_readBy {readNumber : NumberReader} (findsFinite : readNumber.FindsFinite)
    {text : String} {value : Json} (isRead : readBy readNumber text = some value) :
    value.IsFinite := by
  rcases Option.bind_eq_some_iff.mp isRead with ⟨found, areTokens, isValue⟩
  have nothingOpen : ∀ container ∈ ([] : List OpenContainer), container.IsFinite := by simp
  have starts : (Expected.value false).IsFinite := trivial
  exact isFinite_of_readTokens nothingOpen starts
    (isFinite_of_tokensWithin findsFinite areTokens) isValue

end Json

namespace CommandLine

/-- The numbers in what is read from texts are finite. -/
def ReadsFinite (readJson : String → Option Json) : Prop :=
  ∀ text value, readJson text = some value → value.IsFinite

theorem readsFinite_read? : ReadsFinite Json.read? :=
  fun _ _ isRead => Json.isFinite_of_readBy Json.findsFinite_scaledNumber? isRead

section Documents

variable {readJson : String → Option Json} (readsFinite : ReadsFinite readJson)

include readsFinite

theorem isFinite_of_readLines {number : Nat} {lines : List (List Char)} {documents : List Json}
    (areRead : readLines readJson number lines = .ok documents) :
    ∀ document ∈ documents, document.IsFinite := by
  induction lines generalizing number documents with
  | nil =>
      cases areRead
      simp
  | cons line rest inductionHypothesis =>
      rw [readLines] at areRead
      split at areRead
      · exact inductionHypothesis areRead
      · split at areRead
        · cases areRead
        · rename_i isRead
          split at areRead
          · cases areRead
          · rename_i areOthers
            cases areRead
            exact List.forall_mem_cons.mpr
              ⟨readsFinite _ _ isRead, inductionHypothesis areOthers⟩

theorem isFinite_of_readDocuments {contents : Option String} {documents : List Json}
    (areRead : readDocuments readJson contents = .ok documents) :
    ∀ document ∈ documents, document.IsFinite := by
  rw [readDocuments.eq_def] at areRead
  split at areRead
  · cases areRead
  · split at areRead
    · split at areRead
      · rename_i isRead
        cases areRead
        exact ((Json.everywhere_array _ _).mp (readsFinite _ _ isRead)).2
      · cases areRead
    · exact isFinite_of_readLines readsFinite areRead

end Documents

end CommandLine

/-! ## Cells -/

/-- The value is no infinity and no NaN. -/
def Value.IsFinite : Value → Prop
  | .double number => number.isFinite = true
  | _ => True

theorem isFinite_integerValue {integer : Int} (isFinite : (Double.ofInt integer).isFinite = true) :
    (integerValue integer).IsFinite := by
  rw [integerValue]
  split
  · trivial
  · exact isFinite

namespace Document

theorem isFinite_of_cellsOfFields {path : FieldPath} {fields : List (String × Json)}
    (each : ∀ entry ∈ fields, ∀ path isEntry cells, cellsAt path isEntry entry.2 = .ok cells →
      ∀ cell ∈ cells, cell.value.IsFinite)
    {cells : List Cell} (areCells : cellsOfFields path fields = .ok cells) :
    ∀ cell ∈ cells, cell.value.IsFinite := by
  induction fields generalizing cells with
  | nil =>
      cases areCells
      simp
  | cons entry rest inductionHypothesis =>
      rcases List.forall_mem_cons.mp each with ⟨entryFinite, restFinite⟩
      rw [cellsOfFields] at areCells
      split at areCells
      · split at areCells
        · cases areCells
        · rename_i isFirst
          split at areCells
          · cases areCells
          · rename_i areOthers
            cases areCells
            exact List.forall_mem_append.mpr
              ⟨entryFinite _ _ _ isFirst, inductionHypothesis restFinite areOthers⟩
      · cases areCells

theorem isFinite_of_cellsOfItems {path : FieldPath} {position : Nat} {items : List Json}
    (each : ∀ item ∈ items, ∀ path isEntry cells, cellsAt path isEntry item = .ok cells →
      ∀ cell ∈ cells, cell.value.IsFinite)
    {cells : List Cell} (areCells : cellsOfItems path position items = .ok cells) :
    ∀ cell ∈ cells, cell.value.IsFinite := by
  induction items generalizing position cells with
  | nil =>
      cases areCells
      simp
  | cons item rest inductionHypothesis =>
      rcases List.forall_mem_cons.mp each with ⟨itemFinite, restFinite⟩
      rw [cellsOfItems] at areCells
      split at areCells
      · cases areCells
      · rename_i isFirst
        split at areCells
        · cases areCells
        · rename_i areOthers
          cases areCells
          exact List.forall_mem_append.mpr
            ⟨itemFinite _ _ _ isFirst, inductionHypothesis restFinite areOthers⟩

/-- The cells of a value are its numbers, its texts and the lengths of its arrays. -/
theorem isFinite_of_cellsAt (value : Json) : value.IsFinite → ∀ path isEntry cells,
    cellsAt path isEntry value = .ok cells → ∀ cell ∈ cells, cell.value.IsFinite := by
  induction value using Json.induction with
  | null =>
      intro _ path isEntry cells areCells
      cases areCells
      simp
  | bool value | text value =>
      intro _ path isEntry cells areCells
      cases areCells
      exact List.forall_mem_singleton.mpr trivial
  | integer value =>
      intro isFinite path isEntry cells areCells
      cases areCells
      exact List.forall_mem_singleton.mpr (isFinite_integerValue (isFinite _ (.self _)))
  | double value =>
      intro isFinite path isEntry cells areCells
      cases areCells
      exact List.forall_mem_singleton.mpr (isFinite _ (.self _))
  | array items each =>
      intro isFinite path isEntry cells areCells
      have itemsFinite := ((Json.everywhere_array _ _).mp isFinite).2
      rw [cellsAt] at areCells
      split at areCells
      · cases areCells
      · split at areCells
        · cases areCells
        · rename_i areInside
          cases areCells
          refine List.forall_mem_cons.mpr ⟨trivial, ?_⟩
          exact isFinite_of_cellsOfItems
            (fun item isItem => each item isItem (itemsFinite item isItem)) areInside
  | object fields each =>
      intro isFinite path isEntry cells areCells
      have fieldsFinite := ((Json.everywhere_object _ _).mp isFinite).2
      rw [cellsAt] at areCells
      exact isFinite_of_cellsOfFields
        (fun entry isField => each entry isField (fieldsFinite entry isField)) areCells

theorem isFinite_of_cellsOfAll {firstRow : Int} {documents : List Json}
    (each : ∀ document ∈ documents, document.IsFinite) {rows : List (List Cell)}
    (areRows : cellsOfAll firstRow documents = .ok rows) :
    ∀ cells ∈ rows, ∀ cell ∈ cells, cell.value.IsFinite := by
  induction documents generalizing firstRow rows with
  | nil =>
      cases areRows
      simp
  | cons document rest inductionHypothesis =>
      rcases List.forall_mem_cons.mp each with ⟨isFinite, restFinite⟩
      rw [cellsOfAll] at areRows
      split at areRows
      · cases areRows
      · rename_i areCells
        split at areRows
        · cases areRows
        · rename_i areOthers
          cases areRows
          refine List.forall_mem_cons.mpr ⟨?_, inductionHypothesis restFinite areOthers⟩
          cases document with
          | object fields =>
              refine isFinite_of_cellsAt (.object fields) isFinite [] false _ ?_
              rw [cellsAt]
              exact areCells
          | _ => cases areCells

end Document

end Unnest
