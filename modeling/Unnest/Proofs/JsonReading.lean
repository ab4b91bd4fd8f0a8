import Unnest.Json
import Unnest.Json.Reader
import Unnest.Proofs.NumberText
import Unnest.Proofs.OrderedMap

/-!
# Reading back what was written

A value is legible if its numbers are finite, the fields of its objects are in order and it is not
nested too deeply (`Json.IsLegible`).  The text that is written for a legible value is read as the
value again (`Json.readExactly?_write`), if numerals are read as the nearest doubles.
-/

namespace Unnest

namespace Json

/-! ## Texts -/

theorem hexDigit?_hexDigit {value : Nat} (isSmall : value < 16) :
    Text.hexDigit? (hexDigit value) = some value := by
  decide +revert

/-- What stands for a character is read as the character. -/
theorem takeText_escapeCharacter (reversed : List Char) (character : Char) (rest : List Char) :
    takeText reversed (escapeCharacter character ++ rest) =
      takeText (character :: reversed) rest := by
  rw [escapeCharacter.eq_def]
  split
  case h_8 notQuote notBackslash _ _ _ _ _ =>
    split
    · rename_i isControl
      have isCode : Text.hexValue? ['0', '0', hexDigit (character.toNat / 16),
          hexDigit (character.toNat % 16)] = some character.toNat := by
        have high := hexDigit?_hexDigit (by omega : character.toNat / 16 < 16)
        have low := hexDigit?_hexDigit (by omega : character.toNat % 16 < 16)
        have zero : Text.hexDigit? '0' = some 0 := rfl
        simp [Text.hexValue?, zero, high, low]
        omega
      have notHigh : isHighSurrogate character.toNat = false := by
        simp [isHighSurrogate]
        omega
      have notLow : isLowSurrogate character.toNat = false := by
        simp [isLowSurrogate]
        omega
      simp [takeText, isCode, notHigh, notLow, Char.ofNat_toNat]
    · rename_i notControl
      have isPlain : character ≠ '"' ∧ character ≠ '\\' := ⟨notQuote, notBackslash⟩
      simp [takeText, isPlain, notControl]
  all_goals simp [takeText, shortEscape?]

theorem takeText_flatMap (reversed content rest : List Char) :
    takeText reversed (content.flatMap escapeCharacter ++ '"' :: rest) =
      some (String.ofList (reversed.reverse ++ content), rest) := by
  induction content generalizing reversed with
  | nil => simp [takeText]
  | cons character others inductionHypothesis =>
      rw [List.flatMap_cons, List.append_assoc, takeText_escapeCharacter, inductionHypothesis,
        List.reverse_cons, List.append_assoc, List.singleton_append]

theorem toList_quote (content : String) :
    (quote content).toList = '"' :: (content.toList.flatMap escapeCharacter ++ ['"']) := by
  simp [quote, String.toList_append]

theorem takeToken_quote (content : String) (rest : List Char) :
    takeToken nearestNumber? ((quote content).toList ++ rest) = some (.text content, rest) := by
  rw [toList_quote, List.cons_append, List.append_assoc, List.singleton_append]
  simp [takeToken, takeText_flatMap]

/-! ## Tokens -/

/-- The text falls into the tokens, one after the other. -/
inductive Lexes : List Char → List Token → Prop where
  | nil : Lexes [] []
  | cons {text rest : List Char} {token : Token} {tokens : List Token}
      (isVisible : text.dropWhile isBlank = text) (isShorter : rest.length < text.length)
      (isTaken : takeToken nearestNumber? text = some (token, rest)) (lexes : Lexes rest tokens) :
      Lexes text (token :: tokens)

theorem Lexes.length_le {text : List Char} {tokens : List Token} (lexes : Lexes text tokens) :
    tokens.length ≤ text.length := by
  induction lexes with
  | nil => exact le_rfl
  | cons _ isShorter _ _ inductionHypothesis =>
      rw [List.length_cons]
      omega

theorem Lexes.tokensWithin_eq {text : List Char} {tokens : List Token} (lexes : Lexes text tokens)
    {fuel : Nat} (enough : tokens.length ≤ fuel) :
    tokensWithin nearestNumber? fuel text = some tokens := by
  induction lexes generalizing fuel with
  | nil => cases fuel <;> rfl
  | cons isVisible isShorter isTaken _ inductionHypothesis =>
      rename_i text rest token tokens _
      cases fuel with
      | zero => cases enough
      | succ fuel =>
          have isRead := inductionHypothesis (Nat.le_of_succ_le_succ enough)
          rw [tokensWithin, isVisible]
          cases text with
          | nil => cases isShorter
          | cons character others => simp [isTaken, isRead]

/-! ## Values -/

section Expectations

variable (containers : List OpenContainer) (rest : List Token)

theorem readTokens_scalar (mayClose : Bool) (value : Json) :
    readTokens containers (.value mayClose) (.scalar value :: rest) =
      readTokens containers (.separator value) rest := by
  cases containers <;> rfl

theorem readTokens_text (mayClose : Bool) (content : String) :
    readTokens containers (.value mayClose) (.text content :: rest) =
      readTokens containers (.separator (.text content)) rest := by
  cases containers <;> rfl

theorem readTokens_openArray (within : containers.length < deepest) (mayClose : Bool) :
    readTokens containers (.value mayClose) (.openArray :: rest) =
      readTokens (.array [] :: containers) (.value true) rest := by
  cases containers <;> simp only [readTokens, within, if_true]

theorem readTokens_openObject (within : containers.length < deepest) (mayClose : Bool) :
    readTokens containers (.value mayClose) (.openObject :: rest) =
      readTokens containers (.name [] true) rest := by
  cases containers <;> simp only [readTokens, within, if_true]

theorem readTokens_name (fields : OrderedMap String Json) (mayClose : Bool) (name : String) :
    readTokens containers (.name fields mayClose) (.text name :: rest) =
      readTokens containers (.colon fields name) rest := by
  cases containers <;> rfl

theorem readTokens_colon (fields : OrderedMap String Json) (name : String) :
    readTokens containers (.colon fields name) (.colon :: rest) =
      readTokens (.object fields name :: containers) (.value false) rest := by
  cases containers <;> rfl

theorem readTokens_emptyObject (fields : OrderedMap String Json) :
    readTokens containers (.name fields true) (.closeObject :: rest) =
      readTokens containers (.separator (.object fields)) rest := by
  cases containers <;> rfl

end Expectations

/-- The value written in a text; its numbers are the integers and the nearest doubles. -/
def readExactly? : String → Option Json :=
  readBy nearestNumber?

/-- The tokens of the text are read to the result. -/
def ReadsTo (containers : List OpenContainer) (expected : Expected) (text : List Char)
    (result : Json) : Prop :=
  ∃ tokens, Lexes text tokens ∧ readTokens containers expected tokens = some result

theorem ReadsTo.readExactly?_eq {text : String} {result : Json}
    (reads : ReadsTo [] (.value false) text.toList result) :
    readExactly? text = some result := by
  rcases reads with ⟨found, lexes, isRead⟩
  have enough : found.length ≤ text.length := by
    rw [← String.length_toList]
    exact lexes.length_le
  rw [readExactly?, readBy, tokens, lexes.tokensWithin_eq enough]
  exact isRead

section Steps

variable {containers after : List OpenContainer} {expected next : Expected} {rest : List Char}
  {result : Json}

/-- A token is taken, and what may come next changes. -/
theorem ReadsTo.step {character : Char} {others : List Char} {token : Token}
    (isVisible : isBlank character = false) (isShorter : rest.length ≤ others.length)
    (isTaken : takeToken nearestNumber? (character :: others) = some (token, rest))
    (moves : ∀ tokens, readTokens containers expected (token :: tokens) =
      readTokens after next tokens)
    (reads : ReadsTo after next rest result) :
    ReadsTo containers expected (character :: others) result := by
  rcases reads with ⟨tokens, lexes, isRead⟩
  refine ⟨token :: tokens, .cons ?_ (Nat.lt_succ_of_le isShorter) isTaken lexes, ?_⟩
  · rw [List.dropWhile_cons, isVisible]
    rfl
  · rw [moves]
    exact isRead

/-- A text in quotes is taken. -/
theorem ReadsTo.quoted {content : String}
    (moves : ∀ tokens, readTokens containers expected (.text content :: tokens) =
      readTokens after next tokens)
    (reads : ReadsTo after next rest result) :
    ReadsTo containers expected ((quote content).toList ++ rest) result := by
  have isTaken := takeToken_quote content rest
  rw [toList_quote, List.cons_append] at isTaken ⊢
  apply reads.step (by decide) _ isTaken moves
  simp
  omega

end Steps

/-! ## Numbers -/

theorem ne_of_isDigit {digit character : Char} (isDigit : Text.isDigit digit = true)
    (notDigit : Text.isDigit character = false) : digit ≠ character := by
  intro same
  rw [same, notDigit] at isDigit
  cases isDigit

theorem takeToken_digit {digit : Char} (isDigit : Text.isDigit digit = true) (rest : List Char) :
    takeToken nearestNumber? (digit :: rest) =
      (takeNumber nearestNumber? false (digit :: rest)).map
        fun found => (.scalar found.1, found.2) := by
  rw [takeToken.eq_def]
  split
  case h_12 => rfl
  all_goals
    rename_i same
    cases same
    exact absurd isDigit (by decide)

/-- A number is taken, behind its sign if it has one. -/
theorem ReadsTo.number {containers : List OpenContainer} {mayClose isNegative : Bool}
    {digits rest : List Char} {value result : Json}
    (startsWithDigit : StartsWithDigit digits)
    (isTaken : takeNumber nearestNumber? isNegative (digits ++ rest) = some (value, rest))
    (reads : ReadsTo containers (.separator value) rest result) :
    ReadsTo containers (.value mayClose)
      ((if isNegative then ['-'] else []) ++ digits ++ rest) result := by
  rcases startsWithDigit with ⟨digit, others, same, isDigit⟩
  rw [same, List.cons_append] at isTaken
  rw [same]
  cases isNegative with
  | true =>
      have tokenTaken : takeToken nearestNumber? ('-' :: digit :: (others ++ rest)) =
          some (.scalar value, rest) := by
        simp [takeToken, isTaken]
      exact reads.step (by decide) (by simp; omega) tokenTaken
        (fun tokens => readTokens_scalar containers tokens mayClose value)
  | false =>
      have tokenTaken : takeToken nearestNumber? (digit :: (others ++ rest)) =
          some (.scalar value, rest) := by
        simp [takeToken_digit isDigit, isTaken]
      have isVisible : isBlank digit = false := by
        simp [isBlank, ne_of_isDigit isDigit (by decide : Text.isDigit ' ' = false),
          ne_of_isDigit isDigit (by decide : Text.isDigit '\n' = false),
          ne_of_isDigit isDigit (by decide : Text.isDigit '\t' = false),
          ne_of_isDigit isDigit (by decide : Text.isDigit '\r' = false)]
      exact reads.step isVisible (by simp) tokenTaken
        (fun tokens => readTokens_scalar containers tokens mayClose value)

/-! ## Legible values -/

/-- The value can be read from its text, and is nested at most as deep as given. -/
inductive IsLegible : Nat → Json → Prop where
  | null {depth : Nat} : IsLegible depth .null
  | bool {depth : Nat} (value : Bool) : IsLegible depth (.bool value)
  | integer {depth : Nat} {value : Int} (isFinite : (Double.ofInt value).isFinite = true) :
      IsLegible depth (.integer value)
  | double {depth : Nat} {number : Double} (isFinite : number.isFinite = true) :
      IsLegible depth (.double number)
  | text {depth : Nat} (content : String) : IsLegible depth (.text content)
  | array {depth : Nat} {items : List Json} (each : ∀ item ∈ items, IsLegible depth item) :
      IsLegible (depth + 1) (.array items)
  | object {depth : Nat} {fields : OrderedMap String Json} (ordered : OrderedMap.IsOrdered fields)
      (each : ∀ entry ∈ fields, IsLegible depth entry.2) : IsLegible (depth + 1) (.object fields)

/-- Where the value is expected its text is read, and then what follows it. -/
def IsRead (depth : Nat) (value : Json) : Prop :=
  ∀ containers mayClose rest result, List.length containers + depth ≤ deepest → EndsNumber rest →
    ReadsTo containers (.separator value) rest result →
    ReadsTo containers (.value mayClose) (value.write.toList ++ rest) result

section Containers

variable {depth : Nat} {outer : List OpenContainer} {rest : List Char} {result : Json}

theorem endsNumber_cons {mark : Char} (isMark : mark = ',' ∨ mark = ']' ∨ mark = '\x7d')
    (rest : List Char) : EndsNumber (mark :: rest) := by
  intro character isHead
  cases isHead
  rcases isMark with isMark | isMark | isMark <;> rw [isMark] <;> decide

theorem ReadsTo.items {items : List Json} (areRead : ∀ item ∈ items, IsRead depth item)
    (notEmpty : items ≠ []) (within : outer.length + (depth + 1) ≤ deepest)
    {reversed : List Json} {mayClose : Bool}
    (reads : ReadsTo outer (.separator (.array (reversed.reverse ++ items))) rest result) :
    ReadsTo (.array reversed :: outer) (.value mayClose)
      ((writeItems items).toList ++ ']' :: rest) result := by
  induction items generalizing reversed mayClose with
  | nil => exact absurd rfl notEmpty
  | cons item others inductionHypothesis =>
      rcases List.forall_mem_cons.mp areRead with ⟨isRead, othersRead⟩
      have inside : (OpenContainer.array reversed :: outer).length + depth ≤ deepest := by
        rw [List.length_cons]
        omega
      cases others with
      | nil =>
          apply isRead _ _ _ _ inside (endsNumber_cons (by decide) rest)
          apply ReadsTo.step (by decide) le_rfl rfl (fun _ => rfl)
          rwa [List.reverse_cons]
      | cons following more =>
          have shown : (writeItems (item :: following :: more)).toList ++ ']' :: rest =
              item.write.toList ++
                ',' :: ((writeItems (following :: more)).toList ++ ']' :: rest) := by
            simp [writeItems, String.toList_append]
          rw [shown]
          apply isRead _ _ _ _ inside (endsNumber_cons (by decide) _)
          apply ReadsTo.step (by decide) le_rfl rfl (fun _ => rfl)
          apply inductionHypothesis othersRead (by simp)
          rwa [List.reverse_cons, List.append_assoc, List.singleton_append]

theorem ReadsTo.fields {entries : List (String × Json)}
    (areRead : ∀ entry ∈ entries, IsRead depth entry.2) (notEmpty : entries ≠ [])
    (within : outer.length + (depth + 1) ≤ deepest) {fields : OrderedMap String Json}
    {mayClose : Bool}
    (reads : ReadsTo outer (.separator (.object (entries.foldl
      (fun map entry => OrderedMap.insert entry.1 entry.2 map) fields))) rest result) :
    ReadsTo outer (.name fields mayClose) ((writeFields entries).toList ++ '\x7d' :: rest)
      result := by
  induction entries generalizing fields mayClose with
  | nil => exact absurd rfl notEmpty
  | cons entry others inductionHypothesis =>
      rcases entry with ⟨name, value⟩
      rcases List.forall_mem_cons.mp areRead with ⟨isRead, othersRead⟩
      have inside : (OpenContainer.object fields name :: outer).length + depth ≤ deepest := by
        rw [List.length_cons]
        omega
      cases others with
      | nil =>
          have shown : (writeFields [(name, value)]).toList ++ '\x7d' :: rest =
              (quote name).toList ++ ':' :: (value.write.toList ++ '\x7d' :: rest) := by
            simp [writeFields, String.toList_append]
          rw [shown]
          apply ReadsTo.quoted (fun tokens => readTokens_name outer tokens fields mayClose name)
          apply ReadsTo.step (by decide) le_rfl rfl
            (fun tokens => readTokens_colon outer tokens fields name)
          apply isRead _ _ _ _ inside (endsNumber_cons (by decide) rest)
          exact ReadsTo.step (by decide) le_rfl rfl (fun _ => rfl) reads
      | cons following more =>
          have shown : (writeFields ((name, value) :: following :: more)).toList ++ '\x7d' :: rest =
              (quote name).toList ++ ':' :: (value.write.toList ++
                ',' :: ((writeFields (following :: more)).toList ++ '\x7d' :: rest)) := by
            rcases following with ⟨nextName, nextValue⟩
            simp [writeFields, String.toList_append]
          rw [shown]
          apply ReadsTo.quoted (fun tokens => readTokens_name outer tokens fields mayClose name)
          apply ReadsTo.step (by decide) le_rfl rfl
            (fun tokens => readTokens_colon outer tokens fields name)
          apply isRead _ _ _ _ inside (endsNumber_cons (by decide) _)
          apply ReadsTo.step (by decide) le_rfl rfl (fun _ => rfl)
          exact inductionHypothesis othersRead (by simp) reads

end Containers

theorem IsLegible.isRead {depth : Nat} {value : Json} (isLegible : IsLegible depth value) :
    IsRead depth value := by
  induction isLegible with
  | null =>
      intro containers mayClose rest result _ _ reads
      exact reads.step (by decide) (by simp; omega) rfl
        (fun tokens => readTokens_scalar containers tokens mayClose _)
  | bool value =>
      intro containers mayClose rest result _ _ reads
      cases value with
      | true =>
          exact reads.step (by decide) (by simp; omega) rfl
            (fun tokens => readTokens_scalar containers tokens mayClose _)
      | false =>
          exact reads.step (by decide) (by simp; omega) rfl
            (fun tokens => readTokens_scalar containers tokens mayClose _)
  | integer isFinite =>
      intro containers mayClose rest result _ ends reads
      rcases takeNumber_integer isFinite ends with ⟨digits, isText, startsWithDigit, isTaken⟩
      rw [write, isText]
      exact reads.number startsWithDigit isTaken
  | double isFinite =>
      intro containers mayClose rest result _ ends reads
      rcases takeNumber_double isFinite ends with ⟨digits, isText, startsWithDigit, isTaken⟩
      rw [write, isText]
      exact reads.number startsWithDigit isTaken
  | text content =>
      intro containers mayClose rest result _ _ reads
      exact reads.quoted (fun tokens => readTokens_text containers tokens mayClose content)
  | array each inductionHypothesis =>
      rename_i depth items
      intro containers mayClose rest result within _ reads
      have isInside : containers.length < deepest := by omega
      have shown : (Json.array items).write.toList ++ rest =
          '[' :: ((writeItems items).toList ++ ']' :: rest) := by
        simp [write, String.toList_append]
      rw [shown]
      apply ReadsTo.step (by decide) le_rfl rfl
        (fun tokens => readTokens_openArray containers tokens isInside mayClose)
      by_cases isEmpty : items = []
      · rw [isEmpty] at reads ⊢
        exact reads.step (by decide) le_rfl rfl (fun _ => rfl)
      · have fromNone : ReadsTo containers
            (.separator (.array (([] : List Json).reverse ++ items))) rest result := reads
        exact fromNone.items inductionHypothesis isEmpty within
  | object ordered each inductionHypothesis =>
      rename_i depth fields
      intro containers mayClose rest result within _ reads
      have isInside : containers.length < deepest := by omega
      have shown : (Json.object fields).write.toList ++ rest =
          '\x7b' :: ((writeFields fields).toList ++ '\x7d' :: rest) := by
        simp [write, String.toList_append]
      rw [shown]
      apply ReadsTo.step (by decide) le_rfl rfl
        (fun tokens => readTokens_openObject containers tokens isInside mayClose)
      by_cases isEmpty : fields = []
      · rw [isEmpty] at reads ⊢
        exact reads.step (by decide) le_rfl rfl
          (fun tokens => readTokens_emptyObject containers tokens [])
      · apply ReadsTo.fields inductionHypothesis isEmpty within
        rw [← OrderedMap.ofEntries_eq_self ordered] at reads
        exact reads

/-- The text of a legible value is read as the value. -/
theorem readExactly?_write {value : Json} (isLegible : IsLegible deepest value) :
    readExactly? value.write = some value := by
  have finished : ReadsTo [] (.separator value) [] value := ⟨[], .nil, rfl⟩
  have reads := isLegible.isRead [] false [] value le_rfl (fun _ isHead => nomatch isHead) finished
  rw [List.append_nil] at reads
  exact reads.readExactly?_eq

end Json

end Unnest
