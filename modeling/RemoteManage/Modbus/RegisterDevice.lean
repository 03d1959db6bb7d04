import RemoteManage.Modbus.MbFunctions
import RemoteManage.Modbus.RegisterLaws

/-!
# The device behind the function handlers

A device has two rows of bits and two rows of words. A request reads or writes some items of a row, and the
answer says what has been read, or why the request was refused. The function handlers decode a request from
the frame, work on the tables through the callbacks, and encode the answer over the frame.

The decoder and the encoder of this module keep what the handlers do with the frame: a count of holding
registers is taken from one byte, values are taken from behind the request when it is too short for
them, and the unused bits of a last byte of coils are those of the request.
-/

namespace RemoteManage.Modbus

open RemoteManage.Foundation RegisterTables

/-- The rows of bits. -/
inductive BitRow where
  | coils
  | discretes
  deriving DecidableEq, Repr

/-- The rows of words. -/
inductive WordRow where
  | holdings
  | inputs
  deriving DecidableEq, Repr

/-- What a master sees of the slave. -/
@[ext] structure Device where
  bits : BitRow → ℕ → Bool
  words : WordRow → ℕ → UInt16
  slaveId : List UInt8

/-- A request that has been decoded; items are counted from 0. -/
inductive PduRequest where
  | readBits (row : BitRow) (first count : ℕ)
  | readWords (row : WordRow) (first count : ℕ)
  | writeCoils (first : ℕ) (values : List Bool)
  | writeHoldings (first : ℕ) (values : List UInt16)
  | readWriteHoldings (first count writeFirst : ℕ) (values : List UInt16)
  | reportSlaveId
  | echo
  | reject (e : MbException)

/-- The answer to a request. -/
inductive PduReply where
  | bits (row : BitRow) (values : List Bool)
  | words (values : List UInt16)
  | written
  | slaveId (bytes : List UInt8)
  | echo
  | exception (e : MbException)

/-- How many items a row of bits has. -/
def bitRowSize : ℕ := 8 * regNregs

/-- How many items a row of words has. -/
def wordRowSize : ℕ := regNregs

/-- A row after values have been written to it. -/
def overwrite {β : Type*} (row : ℕ → β) (first : ℕ) (values : List β) : ℕ → β := fun i =>
  if first ≤ i then values.getD (i - first) (row i) else row i

namespace Device

/-- The device after values have been written to its coils. -/
def writeCoils (d : Device) (first : ℕ) (values : List Bool) : Device :=
  { d with bits := fun row => if row = .coils then overwrite (d.bits .coils) first values else d.bits row }

/-- The device after values have been written to its holding registers. -/
def writeHoldings (d : Device) (first : ℕ) (values : List UInt16) : Device :=
  { d with
    words := fun row => if row = .holdings then overwrite (d.words .holdings) first values else d.words row }

/-- The items from one on. -/
def items {β : Type*} (row : ℕ → β) (first count : ℕ) : List β :=
  (List.range count).map fun j => row (first + j)

/-- Some words of a row, or the refusal to read beyond its end. -/
def answerWords (d : Device) (row : WordRow) (first count : ℕ) : PduReply :=
  if first + count ≤ wordRowSize then .words (items (d.words row) first count)
  else .exception .illegalDataAddress

/-- What the device does with a request, and what it answers. -/
def serve (d : Device) : PduRequest → Device × PduReply
  | .readBits row first count =>
    if first + count ≤ bitRowSize then (d, .bits row (items (d.bits row) first count))
    else (d, .exception .illegalDataAddress)
  | .readWords row first count => (d, d.answerWords row first count)
  | .writeCoils first values =>
    if first + values.length ≤ bitRowSize then (d.writeCoils first values, .written)
    else (d, .exception .illegalDataAddress)
  | .writeHoldings first values =>
    if first + values.length ≤ wordRowSize then (d.writeHoldings first values, .written)
    else (d, .exception .illegalDataAddress)
  | .readWriteHoldings first count writeFirst values =>
    if writeFirst + values.length ≤ wordRowSize then
      let d := d.writeHoldings writeFirst values
      (d, d.answerWords .holdings first count)
    else (d, .exception .illegalDataAddress)
  | .reportSlaveId => (d, .slaveId d.slaveId)
  | .echo => (d, .echo)
  | .reject e => (d, .exception e)

end Device

section Decode

variable (cells : ℕ → UInt8)

/-- The big-endian word in two bytes of a frame. -/
def frameWord (i : ℕ) : ℕ := (joinBytes (cells i) (cells (i + 1))).toNat

/-- The bits in the bytes of a frame from one on. -/
def frameBits (i count : ℕ) : List Bool := (List.range count).map fun j => bitAt (fun k => cells (i + k)) j

/-- The words in the bytes of a frame from one on. -/
def frameWords (i count : ℕ) : List UInt16 :=
  (List.range count).map fun j => joinBytes (cells (i + 2 * j)) (cells (i + 2 * j + 1))

/-- A request with a condition on it, without which it is an illegal value. -/
def PduRequest.guard (p : Prop) [Decidable p] (request : PduRequest) : PduRequest :=
  if p then request else .reject .illegalDataValue

/-- The request in a frame whose PDU has the given length. -/
def PduRequest.ofFrame (usLen : ℕ) : PduRequest :=
  let first := frameWord cells 1
  let count := frameWord cells 3
  let low := (cells 4).toNat
  if cells 0 = 17 then .reportSlaveId
  else if cells 0 = 4 then guard (usLen = 5 ∧ 1 ≤ count ∧ count < 0x7D) (.readWords .inputs first count)
  else if cells 0 = 3 then guard (usLen = 5 ∧ 1 ≤ low ∧ low ≤ 0x7D) (.readWords .holdings first low)
  else if cells 0 = 16 then
    guard (6 ≤ usLen ∧ 1 ≤ count ∧ count ≤ 0x78 ∧ (cells 5).toNat = 2 * count)
      (.writeHoldings first (frameWords cells 6 count))
  else if cells 0 = 6 then guard (usLen = 5) (.writeHoldings first (frameWords cells 3 1))
  else if cells 0 = 23 then
    if 10 ≤ usLen then
      guard (1 ≤ count ∧ count ≤ 0x7D ∧ 1 ≤ frameWord cells 7 ∧ frameWord cells 7 ≤ 0x79 ∧
          (cells 9).toNat = 2 * frameWord cells 7)
        (.readWriteHoldings first count (frameWord cells 5) (frameWords cells 10 (frameWord cells 7)))
    else .echo
  else if cells 0 = 1 then guard (usLen = 5 ∧ 1 ≤ count ∧ count < 0x7D0) (.readBits .coils first count)
  else if cells 0 = 5 then
    guard (usLen = 5 ∧ cells 4 = 0 ∧ (cells 3 = 0xFF ∨ cells 3 = 0)) (.writeCoils first [cells 3 = 0xFF])
  else if cells 0 = 15 then
    guard (6 ≤ usLen ∧ 1 ≤ count ∧ count ≤ 0x7B0 ∧ (cells 5).toNat = (count + 7) / 8)
      (.writeCoils first (frameBits cells 6 count))
  else if cells 0 = 2 then guard (usLen = 5 ∧ 1 ≤ count ∧ count < 0x7D0) (.readBits .discretes first count)
  else .reject .illegalFunction

/-- A statement about what is decoded is shown for each function code, and for the codes without a
function. -/
theorem ofFrame_cases {usLen : ℕ} {motive : PduRequest → Prop}
    (reportSlaveId : cells 0 = 17 → motive .reportSlaveId)
    (readInputs : cells 0 = 4 → motive (.guard
      (usLen = 5 ∧ 1 ≤ frameWord cells 3 ∧ frameWord cells 3 < 0x7D)
      (.readWords .inputs (frameWord cells 1) (frameWord cells 3))))
    (readHoldings : cells 0 = 3 → motive (.guard
      (usLen = 5 ∧ 1 ≤ (cells 4).toNat ∧ (cells 4).toNat ≤ 0x7D)
      (.readWords .holdings (frameWord cells 1) (cells 4).toNat)))
    (writeHoldings : cells 0 = 16 → motive (.guard
      (6 ≤ usLen ∧ 1 ≤ frameWord cells 3 ∧ frameWord cells 3 ≤ 0x78 ∧
        (cells 5).toNat = 2 * frameWord cells 3)
      (.writeHoldings (frameWord cells 1) (frameWords cells 6 (frameWord cells 3)))))
    (writeHolding : cells 0 = 6 → motive (.guard (usLen = 5)
      (.writeHoldings (frameWord cells 1) (frameWords cells 3 1))))
    (readWriteHoldings : cells 0 = 23 → motive (if 10 ≤ usLen then
        .guard (1 ≤ frameWord cells 3 ∧ frameWord cells 3 ≤ 0x7D ∧ 1 ≤ frameWord cells 7 ∧
            frameWord cells 7 ≤ 0x79 ∧ (cells 9).toNat = 2 * frameWord cells 7)
          (.readWriteHoldings (frameWord cells 1) (frameWord cells 3) (frameWord cells 5)
            (frameWords cells 10 (frameWord cells 7)))
      else .echo))
    (readCoils : cells 0 = 1 → motive (.guard
      (usLen = 5 ∧ 1 ≤ frameWord cells 3 ∧ frameWord cells 3 < 0x7D0)
      (.readBits .coils (frameWord cells 1) (frameWord cells 3))))
    (writeCoil : cells 0 = 5 → motive (.guard
      (usLen = 5 ∧ cells 4 = 0 ∧ (cells 3 = 0xFF ∨ cells 3 = 0))
      (.writeCoils (frameWord cells 1) [cells 3 = 0xFF])))
    (writeCoils : cells 0 = 15 → motive (.guard
      (6 ≤ usLen ∧ 1 ≤ frameWord cells 3 ∧ frameWord cells 3 ≤ 0x7B0 ∧
        (cells 5).toNat = (frameWord cells 3 + 7) / 8)
      (.writeCoils (frameWord cells 1) (frameBits cells 6 (frameWord cells 3)))))
    (readDiscretes : cells 0 = 2 → motive (.guard
      (usLen = 5 ∧ 1 ≤ frameWord cells 3 ∧ frameWord cells 3 < 0x7D0)
      (.readBits .discretes (frameWord cells 1) (frameWord cells 3))))
    (other : cells 0 ∉ [17, 4, 3, 16, 6, 23, 1, 5, 15, 2] → motive (.reject .illegalFunction)) :
    motive (.ofFrame cells usLen) := by
  rw [PduRequest.ofFrame]
  by_cases c17 : cells 0 = 17
  · rw [if_pos c17]
    exact reportSlaveId c17
  rw [if_neg c17]
  by_cases c4 : cells 0 = 4
  · rw [if_pos c4]
    exact readInputs c4
  rw [if_neg c4]
  by_cases c3 : cells 0 = 3
  · rw [if_pos c3]
    exact readHoldings c3
  rw [if_neg c3]
  by_cases c16 : cells 0 = 16
  · rw [if_pos c16]
    exact writeHoldings c16
  rw [if_neg c16]
  by_cases c6 : cells 0 = 6
  · rw [if_pos c6]
    exact writeHolding c6
  rw [if_neg c6]
  by_cases c23 : cells 0 = 23
  · rw [if_pos c23]
    exact readWriteHoldings c23
  rw [if_neg c23]
  by_cases c1 : cells 0 = 1
  · rw [if_pos c1]
    exact readCoils c1
  rw [if_neg c1]
  by_cases c5 : cells 0 = 5
  · rw [if_pos c5]
    exact writeCoil c5
  rw [if_neg c5]
  by_cases c15 : cells 0 = 15
  · rw [if_pos c15]
    exact writeCoils c15
  rw [if_neg c15]
  by_cases c2 : cells 0 = 2
  · rw [if_pos c2]
    exact readDiscretes c2
  rw [if_neg c2]
  exact other (by simp [c17, c4, c3, c16, c6, c23, c1, c5, c15, c2])

end Decode

section Encode

/-- The byte with eight given bits, the least significant one first. -/
def byteOfBits (bit : ℕ → Bool) : UInt8 := .ofNat (Nat.ofBits fun j : Fin 8 => bit j)

/-- Some bits packed into bytes, the last one filled up with the given bits. -/
def packBits (values : List Bool) (unused : ℕ → Bool) : List UInt8 :=
  (List.range ((values.length + 7) / 8)).map fun k =>
    byteOfBits fun j => values.getD (8 * k + j) (unused (8 * k + j))

/-- Words as bytes, the high one of each first. -/
def wordsBytes (values : List UInt16) : List UInt8 := values.flatMap fun word => [highByte word, lowByte word]

/-- The unused bits of a reply: of coils they are those of the request, of discrete inputs they are off. -/
def unusedBits (cells : ℕ → UInt8) : BitRow → ℕ → Bool
  | .coils => bitAt fun k => cells (2 + k)
  | .discretes => fun _ => false

/-- The PDU that answers the request in a frame. -/
def PduReply.encode (cells : ℕ → UInt8) (usLen : ℕ) : PduReply → List UInt8
  | bits row values => cells 0 :: .ofNat ((values.length + 7) / 8) :: packBits values (unusedBits cells row)
  | words values => cells 0 :: .ofNat (2 * values.length) :: wordsBytes values
  | written => (List.range 5).map cells
  | slaveId bytes => cells 0 :: bytes
  | echo => (List.range usLen).map cells
  | exception e => [cells 0 ||| mbFuncError, e.code]

end Encode

/-- The items of the tables, with what reports the slave. -/
def MbRegisters.device (registers : MbRegisters) : Device where
  bits
    | .coils => bitAt registers.tables.usRegCoilBuf.cells
    | .discretes => bitAt registers.tables.usRegDiscreateBuf.cells
  words
    | .holdings => registers.tables.usRegHoldingBuf.cells
    | .inputs => registers.tables.usRegInputBuf.cells
  slaveId := registers.slaveId.bytes

/-- The bits of a byte that is given by them. -/
theorem testBit_byteOfBits (bit : ℕ → Bool) {j : ℕ} (hj : j < 8) :
    (byteOfBits bit).toNat.testBit j = bit j := by
  have hlt : (Nat.ofBits fun j : Fin 8 => bit j) < 2 ^ 8 := Nat.ofBits_lt_two_pow _
  rw [byteOfBits, UInt8.toNat_ofNat', Nat.mod_eq_of_lt hlt, Nat.testBit_ofBits_lt _ _ hj]

/-- A cell with given bits is the byte with these bits. -/
theorem cell_eq_byteOfBits {cells : ℕ → UInt8} {k : ℕ} {bit : ℕ → Bool}
    (h : ∀ j < 8, bitAt cells (8 * k + j) = bit j) : cells k = byteOfBits bit := by
  refine byte_eq_of_testBit fun j hj => ?_
  rw [testBit_byteOfBits bit hj, testBit_cell cells k hj]
  exact h j hj

/-- How many bytes the handlers count for so many bits. -/
theorem ucNBytes_toNat {usCount : UInt16} (h : usCount.toNat ≤ 2040) :
    (ucNBytes usCount).toNat = (usCount.toNat + 7) / 8 := by
  have hmod : (usCount &&& 0x0007).toNat = usCount.toNat % 8 := by
    rw [UInt16.toNat_and]
    exact Nat.and_two_pow_sub_one_eq_mod usCount.toNat 3
  have hdiv : (usCount / 8).toNat = usCount.toNat / 8 := UInt16.toNat_div _ _
  have hzero : usCount &&& 0x0007 = 0 ↔ usCount.toNat % 8 = 0 := by
    rw [← hmod]
    exact UInt16.toNat_inj.symm
  rw [ucNBytes]
  split
  case isTrue hpart =>
    have hpart := mt hzero.mpr hpart
    rw [UInt16.toNat_toUInt8, UInt16.toNat_add, hdiv]
    change (usCount.toNat / 8 + 1) % 2 ^ 16 % 2 ^ 8 = _
    omega
  case isFalse hfull =>
    have hfull := hzero.mp (not_not.mp hfull)
    rw [UInt16.toNat_toUInt8, hdiv]
    omega

/-- The address that the handlers compute is in range exactly when the items are in the row. -/
theorem inRange_succ_iff (size : ℕ) (hsize : size < 65535) (w count : UInt16) :
    (1 ≤ (w + 1).toNat ∧ (w + 1).toNat + count.toNat ≤ 1 + size) ↔ w.toNat + count.toNat ≤ size := by
  have hw := w.toNat_lt
  have hsucc : (w + 1).toNat = (w.toNat + 1) % 2 ^ 16 := UInt16.toNat_add w 1
  rw [hsucc]
  omega

/-- The address of an item in its row, as the callbacks see it. -/
theorem succ_toNat (size : ℕ) (hsize : size < 65535) {w : UInt16} {count : ℕ} (h : w.toNat + count ≤ size) :
    (w + 1).toNat - 1 = w.toNat := by
  have hsucc : (w + 1).toNat = (w.toNat + 1) % 2 ^ 16 := UInt16.toNat_add w 1
  rw [hsucc]
  omega

/-- The callback that reads a row of bits. -/
def BitRow.request (usAddress usCount : UInt16) : BitRow → RegRequest
  | .coils => .coils usAddress usCount .read
  | .discretes => .discrete usAddress usCount

/-- The callback that reads a row of words. -/
def WordRow.request (usAddress usCount : UInt16) : WordRow → RegRequest
  | .holdings => .holding usAddress usCount .read
  | .inputs => .input usAddress usCount

/-- A request for bits is in range exactly when the items are in the row. -/
theorem BitRow.inRange_iff (row : BitRow) (w count : UInt16) :
    (row.request (w + 1) count).InRange ↔ w.toNat + count.toNat ≤ bitRowSize := by
  cases row <;> exact inRange_succ_iff bitRowSize (by decide) w count

/-- A request for words is in range exactly when the items are in the row. -/
theorem WordRow.inRange_iff (row : WordRow) (w count : UInt16) :
    (row.request (w + 1) count).InRange ↔ w.toNat + count.toNat ≤ wordRowSize := by
  cases row <;> exact inRange_succ_iff wordRowSize (by decide) w count

/-- An item of a list that is given by its index. -/
theorem getD_map_range {β : Type*} (f : ℕ → β) (n j : ℕ) (fallback : β) :
    ((List.range n).map f).getD j fallback = if j < n then f j else fallback := by
  by_cases hj : j < n
  · rw [List.getD_eq_getElem _ _ (by simpa using hj), if_pos hj, List.getElem_map, List.getElem_range]
  · rw [List.getD_eq_default _ _ (by simpa using hj), if_neg hj]

section Callbacks

variable (registers : MbRegisters) (buffer : TracedMemory UInt8) {w count : UInt16}

/-- A callback stores items, and reads change nothing that a master sees. -/
theorem device_serve (c : RegCall) :
    ({ registers with tables := registers.tables.serve c } : MbRegisters).device =
      { bits := fun
          | .coils => fun i => (c.storedCoil i).getD (registers.device.bits .coils i)
          | .discretes => registers.device.bits .discretes
        words := fun
          | .holdings => fun i => (c.storedHolding i).getD (registers.device.words .holdings i)
          | .inputs => registers.device.words .inputs
        slaveId := registers.device.slaveId } := by
  have h := answers registers.tables c
  ext row i
  · cases row with
    | coils => exact h.coils i
    | discretes => exact congrArg (bitAt · i) h.discretes
  · cases row with
    | holdings => exact congrArg _ (h.holdings i)
    | inputs => exact congrArg _ (congrFun h.inputs i)
  · rfl

/-- A callback that stores nothing leaves the device as it is. -/
theorem device_serve_of_stored_none {c : RegCall}
    (h : ∀ i, c.storedCoil i = none ∧ c.storedHolding i = none) :
    ({ registers with tables := registers.tables.serve c } : MbRegisters).device = registers.device := by
  rw [device_serve]
  ext row i
  · cases row with
    | coils =>
      dsimp only
      rw [(h i).1, Option.getD_none]
    | discretes => rfl
  · cases row with
    | holdings =>
      dsimp only
      rw [(h i).2, Option.getD_none]
    | inputs => rfl
  · rfl

/-- The values that a write finds in its buffer, put into a row. -/
theorem getD_stored {β : Type*} (row : ℕ → β) (value : ℕ → β) (first n i : ℕ) :
    (if first ≤ i ∧ i < first + n then some (value (i - first)) else none).getD (row i) =
      overwrite row first ((List.range n).map value) i := by
  rw [overwrite]
  by_cases hfirst : first ≤ i
  · rw [if_pos hfirst, getD_map_range]
    by_cases hn : i < first + n
    · rw [if_pos ⟨hfirst, hn⟩, if_pos (by omega), Option.getD_some]
    · rw [if_neg fun h => hn h.2, if_neg (by omega), Option.getD_none]
  · rw [if_neg fun h => hfirst h.1, if_neg hfirst, Option.getD_none]

/-- What the callback for coils does with a write in range. -/
theorem call_writeCoils (h : w.toNat + count.toNat ≤ bitRowSize) :
    let c := registers.tables.call (.coils (w + 1) count .write) buffer
    c.1 = .enoerr ∧ c.2.2.cells = buffer.cells ∧
      ({ registers with tables := c.2.1 } : MbRegisters).device =
        registers.device.writeCoils w.toNat ((List.range count.toNat).map (bitAt buffer.cells)) := by
  have hin : (RegRequest.coils (w + 1) count .write).InRange :=
    (inRange_succ_iff bitRowSize (by decide) w count).mpr h
  have hfirst := succ_toNat bitRowSize (by decide) h
  have hanswers := answers registers.tables ⟨.coils (w + 1) count .write, buffer⟩
  refine ⟨hanswers.code.mpr hin, funext fun k => hanswers.beyond k (Nat.zero_le k), ?_⟩
  refine (device_serve registers ⟨.coils (w + 1) count .write, buffer⟩).trans ?_
  ext row i
  · cases row with
    | coils =>
      dsimp only [Device.writeCoils]
      rw [storedCoil_write _ hin, hfirst, getD_stored, if_pos rfl]
    | discretes => rfl
  · cases row <;> rfl
  · rfl

/-- What the callback for holding registers does with a write in range. -/
theorem call_writeHoldings (h : w.toNat + count.toNat ≤ wordRowSize) :
    let c := registers.tables.call (.holding (w + 1) count .write) buffer
    c.1 = .enoerr ∧ c.2.2.cells = buffer.cells ∧
      ({ registers with tables := c.2.1 } : MbRegisters).device =
        registers.device.writeHoldings w.toNat
          ((List.range count.toNat).map fun j =>
            joinBytes (buffer.cells (2 * j)) (buffer.cells (2 * j + 1))) := by
  have hin : (RegRequest.holding (w + 1) count .write).InRange :=
    (inRange_succ_iff wordRowSize (by decide) w count).mpr h
  have hfirst := succ_toNat wordRowSize (by decide) h
  have hanswers := answers registers.tables ⟨.holding (w + 1) count .write, buffer⟩
  refine ⟨hanswers.code.mpr hin, funext fun k => hanswers.beyond k (Nat.zero_le k), ?_⟩
  refine (device_serve registers ⟨.holding (w + 1) count .write, buffer⟩).trans ?_
  ext row i
  · cases row <;> rfl
  · cases row with
    | holdings =>
      dsimp only [Device.writeHoldings]
      rw [storedHolding_write _ hin, hfirst,
        getD_stored _ (fun j => joinBytes (buffer.cells (2 * j)) (buffer.cells (2 * j + 1))), if_pos rfl]
    | inputs => rfl
  · rfl

/-- What the callbacks do with a read of bits in range. -/
theorem call_readBits (row : BitRow) (h : w.toNat + count.toNat ≤ bitRowSize) :
    let c := registers.tables.call (row.request (w + 1) count) buffer
    c.1 = .enoerr ∧ ({ registers with tables := c.2.1 } : MbRegisters).device = registers.device ∧
      ∀ j < 8 * ((count.toNat + 7) / 8), bitAt c.2.2.cells j =
        if j < count.toNat then registers.device.bits row (w.toNat + j)
        else row = .coils && bitAt buffer.cells j := by
  have hin := (row.inRange_iff w count).mpr h
  have hfirst := succ_toNat bitRowSize (by decide) h
  refine ⟨(answers registers.tables ⟨row.request (w + 1) count, buffer⟩).code.mpr hin, ?_, fun j hj => ?_⟩
  · refine device_serve_of_stored_none registers (c := ⟨row.request (w + 1) count, buffer⟩) fun _ => ?_
    cases row <;> exact ⟨rfl, rfl⟩
  · cases row with
    | coils =>
      refine (bitAt_coilReply registers.tables buffer hin j).trans ?_
      rw [hfirst]
      rfl
    | discretes =>
      refine (bitAt_discreteReply registers.tables buffer hin j).trans ?_
      rw [hfirst, byteCount, if_pos hj]
      by_cases hcount : j < count.toNat
      · rw [if_pos hcount, decide_eq_true hcount]
        rfl
      · rw [if_neg hcount, decide_eq_false hcount]
        rfl

/-- What the callbacks do with a read of words in range. -/
theorem call_readWords (row : WordRow) (h : w.toNat + count.toNat ≤ wordRowSize) :
    let c := registers.tables.call (row.request (w + 1) count) buffer
    c.1 = .enoerr ∧ ({ registers with tables := c.2.1 } : MbRegisters).device = registers.device ∧
      ∀ k < 2 * count.toNat,
        c.2.2.cells k = registerByte (fun j => registers.device.words row (w.toNat + j)) k := by
  have hin := (row.inRange_iff w count).mpr h
  have hfirst := succ_toNat wordRowSize (by decide) h
  refine ⟨(answers registers.tables ⟨row.request (w + 1) count, buffer⟩).code.mpr hin, ?_, fun k hk => ?_⟩
  · refine device_serve_of_stored_none registers (c := ⟨row.request (w + 1) count, buffer⟩) fun _ => ?_
    cases row <;> exact ⟨rfl, rfl⟩
  · cases row with
    | holdings =>
      rw [WordRow.request, call_holding_read _ _ hin]
      dsimp only
      rw [readRegisters_cells, if_pos (by omega), hfirst]
      rfl
    | inputs =>
      rw [WordRow.request, call_input _ _ hin]
      dsimp only
      rw [readRegisters_cells, if_pos (by omega), hfirst]
      rfl

end Callbacks

section Encoding

/-- A byte of packed bits. -/
theorem getD_packBits (values : List Bool) (unused : ℕ → Bool) {k : ℕ} (hk : k < (values.length + 7) / 8) :
    (packBits values unused).getD k 0 = byteOfBits fun j => values.getD (8 * k + j) (unused (8 * k + j)) := by
  rw [packBits, getD_map_range, if_pos hk]

/-- How many bytes packed bits take. -/
theorem packBits_length (values : List Bool) (unused : ℕ → Bool) :
    (packBits values unused).length = (values.length + 7) / 8 := by
  rw [packBits, List.length_map, List.length_range]

/-- How many bytes words take. -/
theorem wordsBytes_length (values : List UInt16) : (wordsBytes values).length = 2 * values.length := by
  induction values with
  | nil => rfl
  | cons word rest ih =>
    rw [wordsBytes, List.flatMap_cons, List.length_append, List.length_cons, ← wordsBytes, ih]
    simp only [List.length_cons, List.length_nil]
    omega

/-- A byte of words that are given by their index. -/
theorem getD_wordsBytes (f : ℕ → UInt16) (n : ℕ) {k : ℕ} (hk : k < 2 * n) :
    (wordsBytes ((List.range n).map f)).getD k 0 = registerByte f k := by
  induction n generalizing f k with
  | zero => omega
  | succ n ih =>
    rw [List.range_succ_eq_map, List.map_cons, List.map_map, wordsBytes, List.flatMap_cons]
    cases k with
    | zero => rfl
    | succ k =>
      cases k with
      | zero => rfl
      | succ k =>
        have hhalf : (k + 1 + 1) / 2 = k / 2 + 1 := by omega
        have hparity : (k + 1 + 1) % 2 = k % 2 := by omega
        refine (ih (f ∘ Nat.succ) (k := k) (by omega)).trans ?_
        rw [registerByte, registerByte, hparity, hhalf]
        rfl

/-- How many bits are taken from a frame. -/
@[simp] theorem frameBits_length (cells : ℕ → UInt8) (i count : ℕ) :
    (frameBits cells i count).length = count := by
  rw [frameBits, List.length_map, List.length_range]

/-- How many words are taken from a frame. -/
@[simp] theorem frameWords_length (cells : ℕ → UInt8) (i count : ℕ) :
    (frameWords cells i count).length = count := by
  rw [frameWords, List.length_map, List.length_range]

/-- How many items are listed. -/
@[simp] theorem Device.items_length {β : Type*} (row : ℕ → β) (first count : ℕ) :
    (Device.items row first count).length = count := by
  rw [Device.items, List.length_map, List.length_range]

end Encoding

end RemoteManage.Modbus
