import Mathlib.Algebra.Group.Nat.Defs
import Unnest.PackedIds

/-!
# Packing loses nothing

Packed ids are read one by one or all at once, and the two agree when the ends of runs never fall.
The list that was packed is the list that is read, in either form.

The words of offsets are one large number, the lowest word first: slices read the bits from some bit
on, and storing an offset adds it up at its bits, since the words hold nothing there yet.
-/

namespace Unnest.PackedIds

/-! ## Runs -/

/-- The ends of runs never fall, as packing leaves them: the run of a position is the first one
that ends behind it.  The words of offsets may be any. -/
def IsWellFormed : PackedIds → Prop
  | .inRuns runs => runs.Pairwise fun left right => left.stop ≤ right.stop
  | .inOffsets .. => True

theorem expandFrom_runsFrom (position : Nat) (ids : List Int) :
    expandFrom position (runsFrom position ids) = ids ∧
      (∀ run ∈ runsFrom position ids, position < run.stop) ∧
      (runsFrom position ids).Pairwise fun left right => left.stop ≤ right.stop := by
  induction ids generalizing position with
  | nil => simp [runsFrom, expandFrom]
  | cons value rest inductionHypothesis =>
      obtain ⟨expanded, behind, ascending⟩ := inductionHypothesis (position + 1)
      unfold runsFrom
      cases shape : runsFrom (position + 1) rest with
      | nil =>
          rw [shape] at expanded
          simp [expandFrom] at expanded ⊢
          exact expanded
      | cons next others =>
          rw [shape] at expanded behind ascending
          have nextBehind : position + 1 < next.stop := behind next List.mem_cons_self
          by_cases same : next.value = value
          · subst same
            simp only [if_true]
            refine ⟨?_, ?_, ascending⟩
            · have oneMore : next.stop - position = next.stop - (position + 1) + 1 := by omega
              simp only [expandFrom] at expanded ⊢
              rw [oneMore, List.replicate_succ, List.cons_append, expanded]
            · intro run member
              have := behind run member
              omega
          · simp only [same, if_false]
            refine ⟨?_, ?_, ?_⟩
            · rw [expandFrom]
              simp [expanded]
            · intro run member
              rcases List.mem_cons.mp member with rfl | inRest
              · exact Nat.lt_succ_self position
              · have := behind run inRest
                omega
            · refine List.pairwise_cons.mpr ⟨?_, ascending⟩
              intro run member
              exact Nat.le_of_lt (behind run member)

theorem length_expandFrom (position : Nat) (runs : List IdRun)
    (behind : ∀ run ∈ runs, position ≤ run.stop)
    (ascending : runs.Pairwise fun left right => left.stop ≤ right.stop) :
    position + (expandFrom position runs).length =
      (runs.getLast?.map IdRun.stop).getD position := by
  induction runs generalizing position with
  | nil => simp [expandFrom]
  | cons run rest inductionHypothesis =>
      obtain ⟨headBelow, restAscending⟩ := List.pairwise_cons.mp ascending
      have runBehind := behind run List.mem_cons_self
      have later := inductionHypothesis run.stop headBelow restAscending
      have lastStop :
          (((run :: rest).getLast?).map IdRun.stop).getD position =
            (rest.getLast?.map IdRun.stop).getD run.stop := by
        cases rest with
        | nil => rfl
        | cons next others => simp [List.getLast?_cons]
      rw [lastStop, ← later, expandFrom, List.length_append, List.length_replicate]
      omega

theorem getElem?_expandFrom (position : Nat) (runs : List IdRun)
    (behind : ∀ run ∈ runs, position ≤ run.stop)
    (ascending : runs.Pairwise fun left right => left.stop ≤ right.stop)
    (index : Nat) (behindStart : position ≤ index) :
    (expandFrom position runs)[index - position]? =
      (runs.find? fun run => index < run.stop).map IdRun.value := by
  induction runs generalizing position with
  | nil => simp [expandFrom]
  | cons run rest inductionHypothesis =>
      obtain ⟨headBelow, restAscending⟩ := List.pairwise_cons.mp ascending
      have runBehind := behind run List.mem_cons_self
      rw [expandFrom]
      by_cases inside : index < run.stop
      · have inReplicate : index - position < run.stop - position := by omega
        rw [List.getElem?_append_left (by simpa using inReplicate)]
        simp [inside, inReplicate]
      · have later := inductionHypothesis run.stop headBelow restAscending (by omega)
        rw [List.getElem?_append_right (by simp; omega), List.length_replicate]
        have place : index - position - (run.stop - position) = index - run.stop := by omega
        rw [place, later]
        simp [inside]

/-! ## Words -/

/-- The number that words hold, the lowest first. -/
def wordsValue : List UInt64 → Nat
  | [] => 0
  | word :: rest => word.toNat + 2 ^ 64 * wordsValue rest

theorem toNat_getElem? (words : List UInt64) (index : Nat) :
    (words[index]?.getD 0).toNat = wordsValue words / 2 ^ (64 * index) % 2 ^ 64 := by
  induction words generalizing index with
  | nil => simp [wordsValue]
  | cons word rest inductionHypothesis =>
      have bound := word.toNat_lt
      cases index with
      | zero =>
          simp only [List.getElem?_cons_zero, Option.getD_some, wordsValue]
          omega
      | succ index =>
          have restValue : (word.toNat + 2 ^ 64 * wordsValue rest) / 2 ^ 64 = wordsValue rest := by
            omega
          rw [List.getElem?_cons_succ, inductionHypothesis, wordsValue, Nat.mul_succ,
            Nat.add_comm (64 * index) 64, Nat.pow_add, ← Nat.div_div_eq_div_mul, restValue]

/-- Slices read the bits of the words from some bit on. -/
theorem readSlices_slices (words : Array UInt64) (start width : Nat) :
    readSlices words (slices start width) =
      wordsValue words.toList / 2 ^ start % 2 ^ width := by
  fun_induction slices start width with
  | case1 start => simp [readSlices, Nat.mod_one]
  | case2 start width notEmpty taken inductionHypothesis =>
      have takenWidth : taken ≤ width := by omega
      have shiftBound : start % 64 + taken ≤ 64 := by omega
      have word : (words.getD (start / 64) 0).toNat =
          wordsValue words.toList / 2 ^ (64 * (start / 64)) % 2 ^ 64 := by
        rw [← toNat_getElem?]
        simp
      have wholeShift : 2 ^ 64 = 2 ^ (start % 64) * 2 ^ (64 - start % 64) := by
        rw [← Nat.pow_add]
        congr 1
        omega
      have inWord : 2 ^ taken ∣ 2 ^ (64 - start % 64) := Nat.pow_dvd_pow 2 (by omega)
      have startBits : 2 ^ (64 * (start / 64)) * 2 ^ (start % 64) = 2 ^ start := by
        rw [← Nat.pow_add]
        congr 1
        omega
      have widthBits : 2 ^ width = 2 ^ taken * 2 ^ (width - taken) := by
        rw [← Nat.pow_add]
        congr 1
        omega
      rw [readSlices, inductionHypothesis]
      simp only [Nat.pow_eq]
      rw [word, Nat.shiftRight_eq_div_pow, wholeShift, Nat.mod_mul_right_div_self,
        Nat.mod_mod_of_dvd _ inWord, Nat.div_div_eq_div_mul, startBits, widthBits, Nat.mod_mul,
        Nat.div_div_eq_div_mul, ← Nat.pow_add]

theorem wordsValue_replicate_zero (count : Nat) : wordsValue (List.replicate count 0) = 0 := by
  induction count with
  | zero => rfl
  | succ count inductionHypothesis => simp [List.replicate_succ, wordsValue, inductionHypothesis]

/-- Setting a word adds to the number what the word gains, at the bits of the word. -/
theorem wordsValue_set (words : List UInt64) (index gained : Nat) (word : UInt64)
    (inRange : index < words.length)
    (gains : word.toNat = (words[index]?.getD 0).toNat + gained) :
    wordsValue (words.set index word) = wordsValue words + gained * 2 ^ (64 * index) := by
  induction words generalizing index with
  | nil => cases inRange
  | cons first rest inductionHypothesis =>
      cases index with
      | zero =>
          have sum : word.toNat = first.toNat + gained := by simpa using gains
          simp only [List.set_cons_zero, wordsValue]
          omega
      | succ index =>
          have later := inductionHypothesis index (by simpa using inRange) (by simpa using gains)
          have wordBits : 2 ^ (64 * (index + 1)) = 2 ^ 64 * 2 ^ (64 * index) := by
            rw [Nat.mul_succ, Nat.add_comm, Nat.pow_add]
          rw [List.set_cons_succ, wordsValue, wordsValue, later, wordBits, Nat.mul_add,
            Nat.mul_left_comm, Nat.add_assoc]

/-- Bits that go into a word above all that it holds are added to it. -/
theorem toNat_or_shiftLeft (word : UInt64) (number shift : Nat) (inWord : shift < 64)
    (clear : word.toNat < 2 ^ shift) :
    (word ||| UInt64.ofNat number <<< UInt64.ofNat shift).toNat =
      word.toNat + number % 2 ^ (64 - shift) * 2 ^ shift := by
  have wholeWord : 2 ^ 64 = 2 ^ (64 - shift) * 2 ^ shift := by
    rw [← Nat.pow_add]
    congr 1
    omega
  have shiftValue : (UInt64.ofNat shift).toNat % 64 = shift := by
    rw [UInt64.toNat_ofNat']
    omega
  have shifted : (UInt64.ofNat number <<< UInt64.ofNat shift).toNat =
      number % 2 ^ (64 - shift) * 2 ^ shift := by
    rw [UInt64.toNat_shiftLeft, shiftValue, UInt64.toNat_ofNat', Nat.shiftLeft_eq,
      Nat.mod_mul_mod, wholeWord, Nat.mul_mod_mul_right]
  rw [UInt64.toNat_or, shifted, ← Nat.shiftLeft_eq, Nat.or_comm,
    ← Nat.shiftLeft_add_eq_or_of_lt clear, Nat.add_comm]

theorem size_storeSlices (number : Nat) (words : Array UInt64) (places : List Slice) :
    (storeSlices number words places).size = words.size := by
  induction places generalizing number words with
  | nil => rfl
  | cons slice rest inductionHypothesis => simp [storeSlices, inductionHypothesis]

/-- A number is stored at some bit by adding it there, if the words hold nothing from that bit
on. -/
theorem wordsValue_storeSlices (number start width : Nat) (words : Array UInt64)
    (clear : wordsValue words.toList < 2 ^ start) (fits : number < 2 ^ width)
    (room : start + width ≤ 64 * words.size) :
    wordsValue (storeSlices number words (slices start width)).toList =
      wordsValue words.toList + number * 2 ^ start := by
  fun_induction slices start width generalizing number words with
  | case1 start =>
      have isZero : number = 0 := by omega
      simp [storeSlices, isZero]
  | case2 start width notEmpty taken inductionHypothesis =>
      have shiftBound : start % 64 + taken ≤ 64 := by omega
      have startBits : 2 ^ (64 * (start / 64)) * 2 ^ (start % 64) = 2 ^ start := by
        rw [← Nat.pow_add]
        congr 1
        omega
      have nextBits : 2 ^ (start + taken) = 2 ^ start * 2 ^ taken := Nat.pow_add 2 start taken
      have wordClear : (words.getD (start / 64) 0).toNat < 2 ^ (start % 64) := by
        rw [Array.getD_eq_getD_getElem?, ← Array.getElem?_toList, toNat_getElem?]
        refine Nat.lt_of_le_of_lt (Nat.mod_le _ _) (Nat.div_lt_of_lt_mul ?_)
        rw [startBits]
        exact clear
      -- Either the slice takes the rest of the word, or all bits that the number has.
      have takenBits : number % 2 ^ (64 - start % 64) = number % 2 ^ taken := by
        rcases Nat.le_total width (64 - start % 64) with narrow | wide
        · have takesAll : taken = width := Nat.min_eq_left narrow
          rw [takesAll, Nat.mod_eq_of_lt fits, Nat.mod_eq_of_lt
            (Nat.lt_of_lt_of_le fits (Nat.pow_le_pow_right (by decide) narrow))]
        · rw [show taken = 64 - start % 64 from Nat.min_eq_right wide]
      have gained := toNat_or_shiftLeft (words.getD (start / 64) 0) number (start % 64)
        (Nat.mod_lt _ (by decide)) wordClear
      have stored : wordsValue (words.setIfInBounds (start / 64)
          (words.getD (start / 64) 0 |||
            UInt64.ofNat number <<< UInt64.ofNat (start % 64))).toList =
          wordsValue words.toList + number % 2 ^ taken * 2 ^ start := by
        rw [Array.toList_setIfInBounds, wordsValue_set _ _ (number % 2 ^ taken * 2 ^ (start % 64)),
          Nat.mul_assoc, Nat.mul_comm (2 ^ (start % 64)), startBits]
        · simp only [Array.length_toList]
          omega
        · rw [gained, takenBits, Array.getElem?_toList, Array.getD_eq_getD_getElem?]
      have restFits : number >>> taken < 2 ^ (width - taken) := by
        rw [Nat.shiftRight_eq_div_pow]
        apply Nat.div_lt_of_lt_mul
        rw [← Nat.pow_add, show taken + (width - taken) = width by omega]
        exact fits
      have clearLater : wordsValue words.toList + number % 2 ^ taken * 2 ^ start <
          2 ^ (start + taken) := by
        have partBound : number % 2 ^ taken < 2 ^ taken := Nat.mod_lt _ (Nat.two_pow_pos taken)
        calc wordsValue words.toList + number % 2 ^ taken * 2 ^ start
            < 2 ^ start + number % 2 ^ taken * 2 ^ start := Nat.add_lt_add_right clear _
          _ = (number % 2 ^ taken + 1) * 2 ^ start := by rw [Nat.succ_mul, Nat.add_comm]
          _ ≤ 2 ^ taken * 2 ^ start := Nat.mul_le_mul_right _ partBound
          _ = 2 ^ (start + taken) := by rw [nextBits, Nat.mul_comm]
      rw [storeSlices, inductionHypothesis _ _ (by rw [stored]; exact clearLater) restFits
          (by simp only [Array.size_setIfInBounds]; omega), stored, Nat.shiftRight_eq_div_pow,
        nextBits, Nat.add_assoc]
      congr 1
      calc number % 2 ^ taken * 2 ^ start + number / 2 ^ taken * (2 ^ start * 2 ^ taken)
          = (number % 2 ^ taken + 2 ^ taken * (number / 2 ^ taken)) * 2 ^ start := by
            rw [Nat.add_mul, Nat.mul_comm (2 ^ start), ← Nat.mul_assoc,
              Nat.mul_comm (number / 2 ^ taken)]
        _ = number * 2 ^ start := by rw [Nat.mod_add_div]

/-- The number that numbers of `width` bits make up, the lowest first. -/
def laidValue (width : Nat) : List Nat → Nat
  | [] => 0
  | number :: rest => number + 2 ^ width * laidValue width rest

theorem wordsValue_storeOffsets (width position : Nat) (words : Array UInt64) (offsets : List Nat)
    (clear : wordsValue words.toList < 2 ^ (position * width))
    (offsetsFit : ∀ offset ∈ offsets, offset < 2 ^ width)
    (room : (position + offsets.length) * width ≤ 64 * words.size) :
    wordsValue (storeOffsets width position words offsets).toList =
      wordsValue words.toList + laidValue width offsets * 2 ^ (position * width) := by
  induction offsets generalizing position words with
  | nil => simp [storeOffsets, laidValue]
  | cons offset rest inductionHypothesis =>
      have offsetFits := offsetsFit offset List.mem_cons_self
      have widthBits : 2 ^ ((position + 1) * width) = 2 ^ width * 2 ^ (position * width) := by
        rw [← Nat.pow_add, Nat.succ_mul, Nat.add_comm]
      have roomHere : position * width + width ≤ 64 * words.size := by
        refine Nat.le_trans ?_ room
        rw [← Nat.succ_mul]
        exact Nat.mul_le_mul_right width (by simp)
      have stored := wordsValue_storeSlices offset (position * width) width words clear offsetFits
        roomHere
      have clearLater : wordsValue words.toList + offset * 2 ^ (position * width) <
          2 ^ ((position + 1) * width) := by
        calc wordsValue words.toList + offset * 2 ^ (position * width)
            < 2 ^ (position * width) + offset * 2 ^ (position * width) :=
              Nat.add_lt_add_right clear _
          _ = (offset + 1) * 2 ^ (position * width) := by rw [Nat.succ_mul, Nat.add_comm]
          _ ≤ 2 ^ width * 2 ^ (position * width) := Nat.mul_le_mul_right _ offsetFits
          _ = 2 ^ ((position + 1) * width) := widthBits.symm
      have roomLater : (position + 1 + rest.length) * width ≤
          64 * (storeSlices offset words (slices (position * width) width)).size := by
        rw [size_storeSlices, Nat.add_right_comm, Nat.add_assoc]
        exact room
      rw [storeOffsets, inductionHypothesis _ _ (by rw [stored]; exact clearLater)
          (fun other member => offsetsFit other (List.mem_cons_of_mem _ member)) roomLater,
        stored, laidValue, widthBits, Nat.add_assoc, Nat.add_mul, Nat.mul_left_comm, Nat.mul_assoc]

theorem laidValue_div_mod (width : Nat) (numbers : List Nat)
    (numbersFit : ∀ number ∈ numbers, number < 2 ^ width) (index : Nat)
    (bound : index < numbers.length) :
    laidValue width numbers / 2 ^ (index * width) % 2 ^ width = numbers[index] := by
  induction numbers generalizing index with
  | nil => cases bound
  | cons number rest inductionHypothesis =>
      have numberFits := numbersFit number List.mem_cons_self
      cases index with
      | zero =>
          simp [laidValue, Nat.mod_eq_of_lt numberFits]
      | succ index =>
          have later := inductionHypothesis
            (fun other member => numbersFit other (List.mem_cons_of_mem _ member)) index
            (by simpa using bound)
          rw [laidValue, Nat.succ_mul, Nat.add_comm (index * width), Nat.pow_add,
            ← Nat.div_div_eq_div_mul, Nat.add_mul_div_left _ _ (Nat.two_pow_pos width),
            Nat.div_eq_of_lt numberFits, Nat.zero_add, later, List.getElem_cons_succ]

/-! ## Both forms -/

theorem lt_two_pow_bitWidth (number : Nat) : number < 2 ^ bitWidth number := by
  unfold bitWidth
  by_cases isZero : number = 0
  · simp [isZero]
  · simpa [isZero] using Nat.lt_log2_self

theorem isWellFormed_encode (ids : List Int) : (encode ids).IsWellFormed := by
  unfold encode
  simp only
  split
  · exact (expandFrom_runsFrom 0 ids).2.2
  · trivial

theorem getD_min?_le {ids : List Int} {id : Int} (member : id ∈ ids) : ids.min?.getD 0 ≤ id := by
  obtain ⟨least, isLeast⟩ := Option.ne_none_iff_exists'.mp
    (mt List.min?_eq_none_iff.mp (List.ne_nil_of_mem member))
  rw [isLeast, Option.getD_some]
  exact (List.min?_eq_some_iff.mp isLeast).2 id member

theorem le_getD_max? {ids : List Int} {id : Int} (member : id ∈ ids) : id ≤ ids.max?.getD 0 := by
  obtain ⟨greatest, isGreatest⟩ := Option.ne_none_iff_exists'.mp
    (mt List.max?_eq_none_iff.mp (List.ne_nil_of_mem member))
  rw [isGreatest, Option.getD_some]
  exact (List.max?_eq_some_iff.mp isGreatest).2 id member

theorem toList_packOffsets (ids : List Int) : (packOffsets ids).toList = ids := by
  let least := ids.min?.getD 0
  let greatest := ids.max?.getD 0
  let width := bitWidth (greatest - least).toNat
  let offsets := ids.map fun value => (value - least).toNat
  have offsetsFit : ∀ offset ∈ offsets, offset < 2 ^ width := by
    intro offset isOffset
    obtain ⟨value, member, rfl⟩ := List.mem_map.mp isOffset
    apply Nat.lt_of_le_of_lt _ (lt_two_pow_bitWidth _)
    have := le_getD_max? member
    omega
  let empty : Array UInt64 := Array.replicate ((ids.length * width + 63) / 64) 0
  have nothing : wordsValue empty.toList = 0 := by
    rw [Array.toList_replicate, wordsValue_replicate_zero]
  have room : (0 + offsets.length) * width ≤ 64 * empty.size := by
    simp only [offsets, empty, List.length_map, Nat.zero_add, Array.size_replicate]
    omega
  have laid : wordsValue (storeOffsets width 0 empty offsets).toList = laidValue width offsets := by
    rw [wordsValue_storeOffsets width 0 empty offsets (by simp [nothing]) offsetsFit room, nothing]
    simp
  apply List.ext_getElem
  · simp [packOffsets, toList]
  · intro index inRange inIds
    have bound : index < offsets.length := by simpa [offsets] using inIds
    have offset : offsets[index] = (ids[index] - least).toNat := by simp [offsets]
    have above : least ≤ ids[index] := getD_min?_le (List.getElem_mem inIds)
    simp only [packOffsets, toList, List.getElem_map, List.getElem_range]
    change unpack least width (storeOffsets width 0 empty offsets) index = ids[index]
    rw [unpack, readSlices_slices, laid, laidValue_div_mod width offsets offsetsFit index bound,
      offset]
    omega

/-- What is packed is what is read. -/
theorem toList_encode (ids : List Int) : (encode ids).toList = ids := by
  unfold encode
  simp only
  split
  · exact (expandFrom_runsFrom 0 ids).1
  · exact toList_packOffsets ids

/-- The length is that of the list that is read. -/
theorem length_toList {ids : PackedIds} (wellFormed : ids.IsWellFormed) :
    ids.toList.length = ids.length := by
  cases ids with
  | inRuns runs =>
      have := length_expandFrom 0 runs (fun run _ => Nat.zero_le run.stop) wellFormed
      simpa [toList, length] using this
  | inOffsets least width count words => simp [toList, length]

/-- Reading one by one agrees with reading all. -/
theorem get?_eq_getElem? {ids : PackedIds} (wellFormed : ids.IsWellFormed) (index : Nat) :
    ids.get? index = ids.toList[index]? := by
  cases ids with
  | inRuns runs =>
      have := getElem?_expandFrom 0 runs (fun run _ => Nat.zero_le run.stop) wellFormed index
        (Nat.zero_le index)
      simpa [toList, get?] using this.symm
  | inOffsets least width count words =>
      by_cases inside : index < count <;> simp [toList, get?, inside]

end Unnest.PackedIds
