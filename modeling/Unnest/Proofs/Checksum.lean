import Mathlib.Logic.Function.Basic
import Unnest.Cache.Directory

/-!
# What a checksum notices

No step of the checksum loses anything: the remainder before a bit, a byte or any number of bytes is
determined by the one behind it, because the generator has its top bit and so shows which bit was
moved out.  Hence two remainders that differ once differ for good, and bytes that differ in one
place have different checksums (`Checksum.ofBytes_set_ne`).
-/

namespace Unnest.Checksum

open Function (Injective)

/-! ## Bits -/

/-- The bit that is moved out at the bottom comes back at the top. -/
theorem getLsbD_shift_top (remainder : BitVec 32) :
    (shift remainder).getLsbD 31 = remainder.getLsbD 0 := by
  have generatorTop : polynomial.getLsbD 31 = true := by decide
  unfold shift
  cases isSet : remainder.getLsbD 0 with
  | false => simp
  | true => simp [generatorTop]

theorem shift_injective : Injective shift := by
  intro first second same
  have sameLowest : first.getLsbD 0 = second.getLsbD 0 := by
    rw [← getLsbD_shift_top, ← getLsbD_shift_top, same]
  have sameRest : first >>> 1 = second >>> 1 := by
    unfold shift at same
    rw [sameLowest] at same
    split at same
    · exact (BitVec.xor_left_inj polynomial).mp same
    · exact same
  apply BitVec.eq_of_getLsbD_eq
  intro place _
  cases place with
  | zero => exact sameLowest
  | succ before =>
      have sameBit := congrArg (fun rest => rest.getLsbD before) sameRest
      simpa [Nat.add_comm] using sameBit

/-! ## Bytes -/

theorem shifts_injective (count : Nat) : Injective (shifts count) := by
  induction count with
  | zero => exact fun _ _ same => same
  | succ count inductionHypothesis => exact inductionHypothesis.comp shift_injective

theorem add_injective_left (byte : UInt8) : Injective fun remainder => add remainder byte := by
  intro first second same
  exact (BitVec.xor_left_inj _).mp (shifts_injective 8 same)

theorem add_injective_right (remainder : BitVec 32) : Injective (add remainder) := by
  intro first second same
  have sameWide : first.toBitVec.setWidth 32 = second.toBitVec.setWidth 32 :=
    (BitVec.xor_right_inj remainder).mp (shifts_injective 8 same)
  apply UInt8.toBitVec_inj.mp
  have backAgain := congrArg (BitVec.setWidth 8) sameWide
  simpa using backAgain

theorem foldl_add_injective (bytes : Bytes) :
    Injective fun remainder => bytes.foldl add remainder := by
  induction bytes with
  | nil => exact fun _ _ same => same
  | cons byte rest inductionHypothesis =>
      exact inductionHypothesis.comp (add_injective_left byte)

/-- Remainders that differ behind a byte differ behind all the bytes after it, too. -/
theorem foldl_add_set_ne {bytes : Bytes} {offset : Nat} (inside : offset < bytes.length)
    {byte : UInt8} (different : byte ≠ bytes[offset]) (remainder : BitVec 32) :
    (bytes.set offset byte).foldl add remainder ≠ bytes.foldl add remainder := by
  induction bytes generalizing offset remainder with
  | nil => cases inside
  | cons first rest inductionHypothesis =>
      cases offset with
      | zero =>
          intro same
          have sameRemainder : add remainder byte = add remainder first :=
            foldl_add_injective rest same
          exact different (add_injective_right remainder sameRemainder)
      | succ before =>
          exact inductionHypothesis (Nat.lt_of_succ_lt_succ inside) different (add remainder first)

/-! ## Checksums -/

/-- Another byte in one place gives another checksum. -/
theorem ofBytes_set_ne {bytes : Bytes} {offset : Nat} (inside : offset < bytes.length)
    {byte : UInt8} (different : byte ≠ bytes[offset]) :
    ofBytes (bytes.set offset byte) ≠ ofBytes bytes := by
  intro same
  have sameRemainder := BitVec.not_inj.mp (congrArg UInt32.toBitVec same)
  exact foldl_add_set_ne inside different _ sameRemainder

/-- The digits from one to nine have the checksum that CRC-32 is known by, and with another digit
they have not. -/
example :
    let digits : Bytes := [0x31, 0x32, 0x33, 0x34, 0x35, 0x36, 0x37, 0x38, 0x39]
    ofBytes digits = 0xCBF43926 ∧ ofBytes (digits.set 4 0x34) ≠ 0xCBF43926 := by
  decide +kernel

end Unnest.Checksum
