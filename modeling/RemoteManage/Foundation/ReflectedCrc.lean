import Mathlib.Data.Nat.Basic
import Mathlib.Logic.Function.Iterate

/-!
# Reflected checksums

A reflected checksum is a shift register that takes the bits of a message one by one, the lowest of
each byte first. The register is linear, so that a whole byte can be put into it before it is shifted,
and what eight shifts do to the low byte can be looked up in a table.
-/

namespace RemoteManage.Foundation

variable {w : ℕ} (poly : BitVec w)

/-- One bit enters the register. -/
def feedBit (crc : BitVec w) (bit : Bool) : BitVec w :=
  if crc.getLsbD 0 = bit then crc >>> 1 else (crc >>> 1) ^^^ poly

/-- The bits of a byte, the lowest first. -/
def byteBits (data : BitVec 8) : List Bool := (List.range 8).map data.getLsbD

/-- The register after the bits of a message. -/
def reflectedCrc (crc : BitVec w) (message : List (BitVec 8)) : BitVec w :=
  (message.flatMap byteBits).foldl (feedBit poly) crc

/-- The register is shifted. -/
def shiftBit (crc : BitVec w) : BitVec w := feedBit poly crc false

/-- What eight shifts do to each byte. -/
def crcTable : List (BitVec w) := (List.range 256).map fun i => (shiftBit poly)^[8] (BitVec.ofNat w i)

/-- A message in two parts is the second part from the register after the first. -/
theorem reflectedCrc_append (crc : BitVec w) (first second : List (BitVec 8)) :
    reflectedCrc poly crc (first ++ second) = reflectedCrc poly (reflectedCrc poly crc first) second := by
  simp [reflectedCrc]

/-- A program that feeds each byte computes the register, whatever it keeps words and bytes in. -/
theorem foldl_eq_reflectedCrc {S D : Type*} (step : S → D → S) (word : S → BitVec w) (byte : D → BitVec 8)
    (hstep : ∀ s d, word (step s d) = (byteBits (byte d)).foldl (feedBit poly) (word s)) (s : S)
    (message : List D) : word (message.foldl step s) = reflectedCrc poly (word s) (message.map byte) := by
  induction message generalizing s with
  | nil => rfl
  | cons d rest ih =>
    rw [List.foldl_cons, ih, hstep, List.map_cons]
    simp [reflectedCrc]

/-- Two words are shifted together as one of them takes the lowest bit of the other. -/
theorem shiftBit_xor_feedBit (crc word : BitVec w) :
    shiftBit poly (crc ^^^ word) = feedBit poly crc (word.getLsbD 0) ^^^ (word >>> 1) := by
  simp only [shiftBit, feedBit, BitVec.getLsbD_xor, BitVec.ushiftRight_xor_distrib]
  cases crc.getLsbD 0 <;> cases word.getLsbD 0 <;> simp <;> ac_rfl

/-- The register is linear. -/
theorem shiftBit_xor (left right : BitVec w) :
    shiftBit poly (left ^^^ right) = shiftBit poly left ^^^ shiftBit poly right := by
  have hcancel : (left >>> 1 ^^^ poly) ^^^ (right >>> 1 ^^^ poly) = left >>> 1 ^^^ right >>> 1 := by
    rw [BitVec.xor_comm (right >>> 1), BitVec.xor_assoc, ← BitVec.xor_assoc poly, BitVec.xor_self,
      BitVec.zero_xor]
  rw [shiftBit_xor_feedBit]
  simp only [shiftBit, feedBit]
  cases left.getLsbD 0 <;> cases right.getLsbD 0
  case true.true => exact hcancel.symm
  all_goals simp
  all_goals ac_rfl

/-- Any number of shifts is linear. -/
theorem iterate_shiftBit_xor (n : ℕ) (left right : BitVec w) :
    (shiftBit poly)^[n] (left ^^^ right) = (shiftBit poly)^[n] left ^^^ (shiftBit poly)^[n] right := by
  induction n with
  | zero => rfl
  | succ n ih => simp only [Function.iterate_succ_apply', ih, shiftBit_xor]

/-- Shifting two words together feeds the bits of one to the other. -/
theorem iterate_shiftBit_word (n : ℕ) (crc word : BitVec w) :
    (shiftBit poly)^[n] (crc ^^^ word) =
      ((List.range n).map word.getLsbD).foldl (feedBit poly) crc ^^^ (word >>> n) := by
  induction n with
  | zero => simp
  | succ n ih =>
    rw [Function.iterate_succ_apply', ih, shiftBit_xor_feedBit, List.range_succ, List.map_append,
      List.foldl_append, BitVec.getLsbD_ushiftRight, BitVec.shiftRight_add]
    rfl

/-- A word without low bits only moves down. -/
theorem iterate_shiftBit_high (n : ℕ) {word : BitVec w} (h : ∀ i < n, word.getLsbD i = false) :
    (shiftBit poly)^[n] word = word >>> n := by
  induction n with
  | zero => simp
  | succ n ih =>
    have hlow : (word >>> n).getLsbD 0 = false := by
      rw [BitVec.getLsbD_ushiftRight]
      exact h n (Nat.lt_succ_self n)
    rw [Function.iterate_succ_apply', ih fun i hi => h i (Nat.lt_succ_of_lt hi), shiftBit, feedBit,
      if_pos hlow, BitVec.shiftRight_add]

variable (hw : 8 ≤ w)

include hw

/-- Feeding a byte is putting it into the register and shifting eight times. -/
theorem foldl_byteBits (crc : BitVec w) (data : BitVec 8) :
    (byteBits data).foldl (feedBit poly) crc = (shiftBit poly)^[8] (crc ^^^ data.setWidth w) := by
  have hbits : (List.range 8).map (data.setWidth w).getLsbD = byteBits data := by
    refine List.map_congr_left fun i hi => ?_
    have hlt : i < w := Nat.lt_of_lt_of_le (List.mem_range.mp hi) hw
    rw [BitVec.getLsbD_setWidth, decide_eq_true hlt, Bool.true_and]
  have hout : data.setWidth w >>> 8 = 0#w := by
    refine BitVec.eq_of_getLsbD_eq fun i _ => ?_
    simp
  rw [iterate_shiftBit_word, hbits, hout, BitVec.xor_zero]

/-- Feeding a byte moves the register down a byte and adds the entry of the table for what falls out. -/
theorem foldl_byteBits_table (crc : BitVec w) (data : BitVec 8) :
    (byteBits data).foldl (feedBit poly) crc =
      (crc >>> 8) ^^^ (crcTable poly).getD ((crc ^^^ data.setWidth w).setWidth 8).toNat 0 := by
  have hentry (index : BitVec 8) :
      (crcTable poly).getD index.toNat 0 = (shiftBit poly)^[8] (index.setWidth w) := by
    have hlt : index.toNat < (List.range 256).length := by
      rw [List.length_range]
      exact index.isLt
    rw [crcTable, List.getD_eq_getElem?_getD, List.getElem?_map, List.getElem?_eq_getElem hlt,
      List.getElem_range, Option.map_some, Option.getD_some, BitVec.ofNat_toNat]
  rw [foldl_byteBits poly hw, hentry]
  generalize hword : crc ^^^ data.setWidth w = word
  have hhigh : ∀ i < 8, (word ^^^ (word.setWidth 8).setWidth w).getLsbD i = false := by
    intro i hi
    have hlt : i < w := Nat.lt_of_lt_of_le hi hw
    simp [hi, hlt]
  have hmoved : (word ^^^ (word.setWidth 8).setWidth w) >>> 8 = crc >>> 8 := by
    refine BitVec.eq_of_getLsbD_eq fun i _ => ?_
    rw [← hword]
    simp
  calc (shiftBit poly)^[8] word
      = (shiftBit poly)^[8] ((word ^^^ (word.setWidth 8).setWidth w) ^^^ (word.setWidth 8).setWidth w) := by
        rw [BitVec.xor_assoc, BitVec.xor_self, BitVec.xor_zero]
    _ = crc >>> 8 ^^^ (shiftBit poly)^[8] ((word.setWidth 8).setWidth w) := by
        rw [iterate_shiftBit_xor, iterate_shiftBit_high poly 8 hhigh, hmoved]

end RemoteManage.Foundation
