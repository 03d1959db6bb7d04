import RemoteManage.Foundation.Mealy
import RemoteManage.Modbus.RegisterDevice

/-!
# The function handlers refine the device

Each handler is compared with what the device does with the request in its frame, and the search of the
handler table with the decoder. What one request leaves and replies carries over to every sequence of
requests, whatever lies in the memory behind each of them.
-/

namespace RemoteManage.Modbus

open RemoteManage.Foundation RegisterTables

/-- A handler leaves what the device answers, once the error frame is built. -/
structure PduOutcome.Refines (o : PduOutcome) (cells : ℕ → UInt8) (usLen : ℕ) (served : Device × PduReply) :
    Prop where
  device : o.registers.device = served.1
  reply : (o.errorFrame (cells 0)).reply = served.2.encode cells usLen

section Refines

variable {o : PduOutcome} {cells : ℕ → UInt8} {usLen : ℕ} {d : Device}

/-- An exception is answered by its error frame, whatever the handler has left in the frame. -/
theorem refines_exception {e : MbException} (he : e ≠ .none) (hstatus : o.eStatus = e)
    (hdevice : o.registers.device = d) : o.Refines cells usLen (d, .exception e) := by
  refine ⟨hdevice, ?_⟩
  rw [PduOutcome.errorFrame, if_neg (hstatus ▸ he), hstatus]
  rfl

/-- Without an exception the reply is what the handler has left in the frame. -/
theorem refines_reply {r : PduReply} (hstatus : o.eStatus = .none) (hdevice : o.registers.device = d)
    (hreply : o.reply = r.encode cells usLen) : o.Refines cells usLen (d, r) := by
  refine ⟨hdevice, ?_⟩
  rw [PduOutcome.errorFrame, if_pos hstatus]
  exact hreply

/-- A reply with a head of two bytes and the rest behind it. -/
theorem reply_eq_of_head {head second : UInt8} {rest : List UInt8} (hlen : o.usLen.toNat = 2 + rest.length)
    (hhead : o.pucFrame.cells 0 = head) (hsecond : o.pucFrame.cells 1 = second)
    (hrest : ∀ k < rest.length, o.pucFrame.cells (2 + k) = rest.getD k 0) :
    o.reply = head :: second :: rest := by
  have htail : (List.range rest.length).map (fun k => o.pucFrame.cells (2 + k)) = rest := by
    refine List.ext_getElem (by simp) fun k hk _ => ?_
    have hk : k < rest.length := by simpa using hk
    rw [List.getElem_map, List.getElem_range, hrest k hk, List.getD_eq_getElem _ _ hk]
  rw [PduOutcome.reply, hlen, List.range_add, List.map_append, List.map_map]
  exact congrArg₂ List.cons hhead (congrArg₂ List.cons hsecond htail)

/-- A reply that is the beginning of the request. -/
theorem reply_eq_of_cells {n : ℕ} (hlen : o.usLen.toNat = n) (h : o.pucFrame.cells = cells) :
    o.reply = (List.range n).map cells := by
  rw [PduOutcome.reply, hlen, h]

end Refines

section Reads

variable {fc : UInt8} {readCount : UInt8 → UInt8 → UInt16} {valid : UInt16 → Bool}
  {usBytes : UInt16 → UInt16} {request : UInt16 → UInt16 → RegRequest}
  (registers : MbRegisters) (frame : TracedMemory UInt8) {usLen : UInt16}

/-- The frame of a read when its head has been put over the request. -/
def replyHead (frame : TracedMemory UInt8) (head second : UInt8) : TracedMemory UInt8 :=
  (((((frame.read 1).2.read 2).2.read 3).2.read 4).2.write 0 head).write 1 second

/-- Behind the head the request is still there. -/
theorem replyHead_cells_add (head second : UInt8) (k : ℕ) :
    (replyHead frame head second).cells (2 + k) = frame.cells (2 + k) := by
  have hzero : 2 + k ≠ 0 := by omega
  have hone : 2 + k ≠ 1 := by omega
  simp only [replyHead, TracedMemory.write_cells, TracedMemory.read_cells, Function.update_of_ne hzero,
    Function.update_of_ne hone]

/-- A read with another length or an invalid count is refused. -/
theorem readItems_refused
    (h : ¬ (usLen = 5 ∧ valid (readCount (frame.cells 3) (frame.cells 4)) = true)) :
    (readItems fc readCount valid usBytes request registers frame usLen).Refines frame.cells usLen.toNat
      (registers.device, .exception .illegalDataValue) := by
  rw [readItems]
  by_cases hlen : usLen = 5
  · have hinvalid : ¬ valid (readCount (frame.cells 3) (frame.cells 4)) = true :=
      fun hvalid => h ⟨hlen, hvalid⟩
    rw [if_pos hlen]
    dsimp only [readWord, TracedMemory.read]
    rw [if_neg hinvalid]
    exact refines_exception (by decide) rfl rfl
  · rw [if_neg hlen]
    exact refines_exception (by decide) rfl rfl

/-- A read that is accepted calls the callback on the frame behind the head. -/
theorem readItems_calls (hlen : usLen = 5) {count : UInt16}
    (hcount : readCount (frame.cells 3) (frame.cells 4) = count) (hvalid : valid count = true) :
    readItems fc readCount valid usBytes request registers frame usLen =
      (let c := registers.callAt (request (joinBytes (frame.cells 1) (frame.cells 2) + 1) count)
        (replyHead frame fc (usBytes count).toUInt8) 2
       if c.1 ≠ .enoerr then ⟨prveMBError2Exception c.1, c.2.1, c.2.2, 2⟩
       else ⟨.none, c.2.1, c.2.2, 2 + usBytes count⟩) := by
  subst hcount
  rw [readItems, if_pos hlen]
  dsimp only [readWord, TracedMemory.read]
  rw [if_pos hvalid]
  rfl

/-- A callback that is refused leaves the registers alone. -/
theorem callAt_of_not_inRange {r : RegRequest} (h : ¬ r.InRange) (i : ℕ) :
    (registers.callAt r frame i).1 = .enoreg ∧ (registers.callAt r frame i).2.1 = registers := by
  rw [MbRegisters.callAt, call_of_not_inRange _ _ h]
  exact ⟨rfl, rfl⟩

/-- The head that the handlers put before the items, and the items behind it. -/
theorem reply_of_callAt {c : ErrorCode × RegisterTables × TracedMemory UInt8} {usSize : UInt16}
    {rest : List UInt8} (hlen : usSize.toNat = rest.length) (hshort : rest.length < 256)
    (hrest : ∀ k < rest.length, c.2.2.cells k = rest.getD k 0) (o : PduOutcome) (hhead : frame.cells 0 = fc)
    (hsecond : frame.cells 1 = usSize.toUInt8) (hframe : o.pucFrame = frame.replaceFrom 2 c.2.2)
    (husLen : o.usLen = 2 + usSize) : o.reply = fc :: .ofNat rest.length :: rest := by
  refine reply_eq_of_head ?_ ?_ ?_ fun k hk => ?_
  · rw [husLen, UInt16.toNat_add, hlen]
    change (2 + rest.length) % 2 ^ 16 = _
    omega
  · rw [hframe, TracedMemory.replaceFrom_of_lt _ _ (by omega)]
    exact hhead
  · rw [hframe, TracedMemory.replaceFrom_of_lt _ _ (by omega), hsecond]
    apply UInt8.toNat_inj.mp
    rw [UInt16.toNat_toUInt8, hlen, UInt8.toNat_ofNat']
  · rw [hframe, TracedMemory.replaceFrom_add]
    exact hrest k hk

/-- A read that is accepted is answered with the bytes that the callback puts behind the head, or with the
refusal of the callback. -/
theorem readItems_accepted {count w : UInt16} (hlen : usLen = 5)
    (hcount : readCount (frame.cells 3) (frame.cells 4) = count) (hvalid : valid count = true)
    (hw : joinBytes (frame.cells 1) (frame.cells 2) = w) {inside : Prop} [Decidable inside]
    (hinside : (request (w + 1) count).InRange ↔ inside) {r : PduReply} {rest : List UInt8}
    (hencode : r.encode frame.cells usLen.toNat = frame.cells 0 :: .ofNat rest.length :: rest)
    (hsize : (usBytes count).toNat = rest.length) (hshort : inside → rest.length < 256)
    (hcall : inside →
      let c := registers.tables.call (request (w + 1) count)
        ((replyHead frame (frame.cells 0) (usBytes count).toUInt8).cellsFrom 2)
      c.1 = .enoerr ∧ ({ registers with tables := c.2.1 } : MbRegisters).device = registers.device ∧
        ∀ k < rest.length, c.2.2.cells k = rest.getD k 0) :
    (readItems (frame.cells 0) readCount valid usBytes request registers frame usLen).Refines frame.cells
      usLen.toNat (registers.device, if inside then r else .exception .illegalDataAddress) := by
  rw [readItems_calls registers frame hlen hcount hvalid, hw]
  dsimp only
  by_cases hin : inside
  · obtain ⟨hcode, hdevice, hbytes⟩ := hcall hin
    have hnoerr : (registers.callAt (request (w + 1) count)
      (replyHead frame (frame.cells 0) (usBytes count).toUInt8) 2).1 = .enoerr := hcode
    rw [if_pos hin, if_neg (not_not_intro hnoerr)]
    refine refines_reply rfl hdevice (Eq.trans ?_ hencode.symm)
    exact reply_of_callAt (replyHead frame (frame.cells 0) (usBytes count).toUInt8) hsize (hshort hin) hbytes
      _ rfl rfl rfl rfl
  · have hout := callAt_of_not_inRange registers
      (replyHead frame (frame.cells 0) (usBytes count).toUInt8) (mt hinside.mp hin) 2
    rw [if_neg hin, if_pos (by rw [hout.1]; decide)]
    exact refines_exception (by decide) (congrArg prveMBError2Exception hout.1)
      (congrArg MbRegisters.device hout.2)

/-- Reading bits is what the device does. -/
theorem readBits_refines (row : BitRow) (usLen : UInt16) :
    (readItems (frame.cells 0) joinBytes (fun count => decide (count ≥ 1) && decide (count < 0x07D0))
        (fun count => (ucNBytes count).toUInt16) (fun a count => row.request a count) registers frame
        usLen).Refines frame.cells usLen.toNat
      (registers.device.serve (.guard
        (usLen.toNat = 5 ∧ 1 ≤ frameWord frame.cells 3 ∧ frameWord frame.cells 3 < 0x7D0)
        (.readBits row (frameWord frame.cells 1) (frameWord frame.cells 3)))) := by
  generalize hw : joinBytes (frame.cells 1) (frame.cells 2) = w
  generalize hc : joinBytes (frame.cells 3) (frame.cells 4) = count
  have hfirst : frameWord frame.cells 1 = w.toNat := congrArg UInt16.toNat hw
  have hcount : frameWord frame.cells 3 = count.toNat := congrArg UInt16.toNat hc
  have hguard : usLen = 5 ∧ (decide (count ≥ 1) && decide (count < 0x07D0)) = true ↔
      usLen.toNat = 5 ∧ 1 ≤ count.toNat ∧ count.toNat < 0x7D0 := by
    rw [Bool.and_eq_true, decide_eq_true_iff, decide_eq_true_iff, ← UInt16.toNat_inj]
    rfl
  rw [hfirst, hcount, PduRequest.guard]
  split
  case isFalse hno =>
    exact readItems_refused registers frame (by rw [hc]; exact mt hguard.mp hno)
  case isTrue hyes =>
    obtain ⟨hlen, hvalid⟩ := hguard.mpr hyes
    have hsize : bitRowSize = 80 := rfl
    have hserve : registers.device.serve (.readBits row w.toNat count.toNat) =
        (registers.device, if w.toNat + count.toNat ≤ bitRowSize then
          .bits row (Device.items (registers.device.bits row) w.toNat count.toNat)
          else .exception .illegalDataAddress) := by
      rw [Device.serve]
      split <;> rfl
    rw [hserve]
    refine readItems_accepted registers frame hlen hc hvalid hw (row.inRange_iff w count)
      (?_ : _ = _ :: _ :: packBits (Device.items (registers.device.bits row) w.toNat count.toNat)
        (unusedBits frame.cells row)) ?_ (fun hin => ?_) fun hin => ?_
    · rw [packBits_length]
      rfl
    · rw [packBits_length, Device.items_length, UInt8.toNat_toUInt16]
      exact ucNBytes_toNat (by omega)
    · rw [packBits_length, Device.items_length]
      omega
    · obtain ⟨hcode, hdevice, hbits⟩ := call_readBits registers
        ((replyHead frame (frame.cells 0) (ucNBytes count).toUInt16.toUInt8).cellsFrom 2) row hin
      refine ⟨hcode, hdevice, fun k hk => ?_⟩
      rw [packBits_length, Device.items_length] at hk
      rw [getD_packBits _ _ (by rwa [Device.items_length])]
      refine cell_eq_byteOfBits fun j hj => ?_
      rw [hbits _ (by omega), Device.items, getD_map_range]
      refine if_congr Iff.rfl rfl ?_
      have hcells : ((replyHead frame (frame.cells 0) (ucNBytes count).toUInt16.toUInt8).cellsFrom 2).cells =
          fun k => frame.cells (2 + k) := funext fun k => replyHead_cells_add frame _ _ k
      cases row with
      | coils =>
        rw [hcells]
        rfl
      | discretes => rfl

/-- Reading words is what the device does, however the count is got and whichever counts are valid. -/
theorem readWords_refines (row : WordRow) (usLen : UInt16) {n : ℕ}
    (hcount : (readCount (frame.cells 3) (frame.cells 4)).toNat = n) {p : Prop} [Decidable p]
    (hguard : usLen = 5 ∧ valid (readCount (frame.cells 3) (frame.cells 4)) = true ↔ p)
    (hmax : p → n ≤ 0x7D) :
    (readItems (frame.cells 0) readCount valid (fun count => count * 2) (fun a count => row.request a count)
        registers frame usLen).Refines frame.cells usLen.toNat
      (registers.device.serve (.guard p (.readWords row (frameWord frame.cells 1) n))) := by
  generalize hw : joinBytes (frame.cells 1) (frame.cells 2) = w
  generalize hc : readCount (frame.cells 3) (frame.cells 4) = count at hcount hguard
  have hfirst : frameWord frame.cells 1 = w.toNat := congrArg UInt16.toNat hw
  rw [hfirst, PduRequest.guard]
  subst hcount
  split
  case isFalse hno =>
    exact readItems_refused registers frame (by rw [hc]; exact mt hguard.mp hno)
  case isTrue hyes =>
    obtain ⟨hlen, hvalid⟩ := hguard.mpr hyes
    have hle := hmax hyes
    have hsize : wordRowSize = 10 := rfl
    rw [Device.serve, Device.answerWords]
    refine readItems_accepted registers frame hlen hc hvalid hw (row.inRange_iff w count)
      (?_ : _ = _ :: _ :: wordsBytes (Device.items (registers.device.words row) w.toNat count.toNat)) ?_
      (fun hin => ?_) fun hin => ?_
    · rw [wordsBytes_length]
      rfl
    · rw [wordsBytes_length, Device.items_length, UInt16.toNat_mul]
      change count.toNat * 2 % 2 ^ 16 = _
      omega
    · rw [wordsBytes_length, Device.items_length]
      omega
    · obtain ⟨hcode, hdevice, hwords⟩ := call_readWords registers
        ((replyHead frame (frame.cells 0) (count * 2).toUInt8).cellsFrom 2) row hin
      refine ⟨hcode, hdevice, fun k hk => ?_⟩
      rw [wordsBytes_length, Device.items_length] at hk
      rw [hwords k hk, Device.items, getD_wordsBytes _ _ hk]

end Reads

section Writes

variable {valid : UInt16 → UInt8 → Bool} {request : UInt16 → UInt16 → RegRequest} (registers : MbRegisters)
  (frame : TracedMemory UInt8) {usLen : UInt16}

/-- Coils can be written exactly when they are in their row. -/
theorem coils_inRange_iff (w count : UInt16) :
    (RegRequest.coils (w + 1) count .write).InRange ↔ w.toNat + count.toNat ≤ bitRowSize :=
  inRange_succ_iff bitRowSize (by decide) w count

/-- Holding registers can be written exactly when they are in their row. -/
theorem holding_inRange_iff (w count : UInt16) :
    (RegRequest.holding (w + 1) count .write).InRange ↔ w.toNat + count.toNat ≤ wordRowSize :=
  inRange_succ_iff wordRowSize (by decide) w count

/-- A write of several items that is too short or has invalid counts is refused. -/
theorem writeItems_refused
    (h : ¬ (usLen ≥ 6 ∧ valid (joinBytes (frame.cells 3) (frame.cells 4)) (frame.cells 5) = true)) :
    (writeItems valid request registers frame usLen).Refines frame.cells usLen.toNat
      (registers.device, .exception .illegalDataValue) := by
  rw [writeItems]
  by_cases hlen : usLen ≥ 6
  · have hinvalid : ¬ valid (joinBytes (frame.cells 3) (frame.cells 4)) (frame.cells 5) = true :=
      fun hvalid => h ⟨hlen, hvalid⟩
    rw [if_pos hlen]
    dsimp only [readWord, TracedMemory.read]
    rw [if_neg hinvalid]
    exact refines_exception (by decide) rfl rfl
  · rw [if_neg hlen]
    exact refines_exception (by decide) rfl rfl

/-- A write of several items that is accepted calls the callback on the frame behind the byte count. -/
theorem writeItems_calls {count w : UInt16} (hlen : usLen ≥ 6)
    (hcount : joinBytes (frame.cells 3) (frame.cells 4) = count) (hvalid : valid count (frame.cells 5) = true)
    (hw : joinBytes (frame.cells 1) (frame.cells 2) = w) :
    ∃ read : TracedMemory UInt8, read.cells = frame.cells ∧
      (∀ k ∈ read.accesses, k < 6 ∨ k ∈ frame.accesses) ∧
      writeItems valid request registers frame usLen =
        (let c := registers.callAt (request (w + 1) count) read 6
         if c.1 ≠ .enoerr then ⟨prveMBError2Exception c.1, c.2.1, c.2.2, usLen⟩
         else ⟨.none, c.2.1, c.2.2, 5⟩) := by
  subst hcount hw
  refine ⟨⟨frame.cells, 5 :: 4 :: 3 :: 2 :: 1 :: frame.accesses⟩, rfl, by grind, ?_⟩
  rw [writeItems, if_pos hlen]
  dsimp only [readWord, TracedMemory.read]
  rw [if_pos hvalid]

/-- A callback on the frame that writes, and leaves the frame as it is. -/
theorem callAt_written {r : RegRequest} {i : ℕ} {d : Device}
    (h : let c := registers.tables.call r (frame.cellsFrom i)
      c.1 = .enoerr ∧ c.2.2.cells = (frame.cellsFrom i).cells ∧
        ({ registers with tables := c.2.1 } : MbRegisters).device = d) :
    (registers.callAt r frame i).1 = .enoerr ∧ (registers.callAt r frame i).2.2.cells = frame.cells ∧
      (registers.callAt r frame i).2.1.device = d :=
  ⟨h.1, TracedMemory.replaceFrom_cells_of_eq _ h.2.1, h.2.2⟩

/-- A write of several items that is accepted is answered with the beginning of the request. -/
theorem writeItems_accepted {count w : UInt16} (hlen : usLen ≥ 6)
    (hcount : joinBytes (frame.cells 3) (frame.cells 4) = count) (hvalid : valid count (frame.cells 5) = true)
    (hw : joinBytes (frame.cells 1) (frame.cells 2) = w) {inside : Prop} [Decidable inside]
    (hinside : (request (w + 1) count).InRange ↔ inside) {d : Device}
    (hcall : inside → ∀ buffer : TracedMemory UInt8, buffer.cells = (frame.cellsFrom 6).cells →
      let c := registers.tables.call (request (w + 1) count) buffer
      c.1 = .enoerr ∧ c.2.2.cells = buffer.cells ∧
        ({ registers with tables := c.2.1 } : MbRegisters).device = d) :
    (writeItems valid request registers frame usLen).Refines frame.cells usLen.toNat
      (if inside then (d, .written) else (registers.device, .exception .illegalDataAddress)) := by
  obtain ⟨read, hread, -, heq⟩ := writeItems_calls registers frame hlen hcount hvalid hw
  rw [heq]
  dsimp only
  by_cases hin : inside
  · obtain ⟨hcode, hcells, hdevice⟩ := callAt_written registers read (i := 6)
      (hcall hin (read.cellsFrom 6) (by funext k; exact congrFun hread (6 + k)))
    rw [if_pos hin, if_neg (not_not_intro hcode)]
    exact refines_reply rfl hdevice (reply_eq_of_cells rfl (hcells.trans hread))
  · obtain ⟨hcode, hregisters⟩ := callAt_of_not_inRange registers read (mt hinside.mp hin) 6
    rw [if_neg hin, if_pos (by rw [hcode]; decide)]
    exact refines_exception (by decide) (congrArg prveMBError2Exception hcode)
      (congrArg MbRegisters.device hregisters)

/-- Writing several coils is what the device does. -/
theorem writeMultipleCoils_refines (usLen : UInt16) :
    (eMBFuncWriteMultipleCoils registers frame usLen).Refines frame.cells usLen.toNat
      (registers.device.serve (.guard
        (6 ≤ usLen.toNat ∧ 1 ≤ frameWord frame.cells 3 ∧ frameWord frame.cells 3 ≤ 0x7B0 ∧
          (frame.cells 5).toNat = (frameWord frame.cells 3 + 7) / 8)
        (.writeCoils (frameWord frame.cells 1) (frameBits frame.cells 6 (frameWord frame.cells 3))))) := by
  generalize hw : joinBytes (frame.cells 1) (frame.cells 2) = w
  generalize hc : joinBytes (frame.cells 3) (frame.cells 4) = count
  have hfirst : frameWord frame.cells 1 = w.toNat := congrArg UInt16.toNat hw
  have hcount : frameWord frame.cells 3 = count.toNat := congrArg UInt16.toNat hc
  have hguard : usLen ≥ 6 ∧ (decide (count ≥ 1) && decide (count ≤ 0x07B0) &&
        decide (ucNBytes count = frame.cells 5)) = true ↔
      6 ≤ usLen.toNat ∧ 1 ≤ count.toNat ∧ count.toNat ≤ 0x7B0 ∧
        (frame.cells 5).toNat = (count.toNat + 7) / 8 := by
    rw [Bool.and_eq_true, Bool.and_eq_true, decide_eq_true_iff, decide_eq_true_iff, decide_eq_true_iff,
      and_assoc]
    refine and_congr UInt16.le_iff_toNat_le (and_congr UInt16.le_iff_toNat_le ?_)
    refine (and_congr_right fun hle => ?_).trans (and_congr_left' UInt16.le_iff_toNat_le)
    have hle : count.toNat ≤ 0x7B0 := UInt16.le_iff_toNat_le.mp hle
    rw [← UInt8.toNat_inj, ucNBytes_toNat (by omega)]
    exact eq_comm
  rw [hfirst, hcount, PduRequest.guard]
  split
  case isFalse hno => exact writeItems_refused registers frame (by rw [hc]; exact mt hguard.mp hno)
  case isTrue hyes =>
    obtain ⟨hlen, hvalid⟩ := hguard.mpr hyes
    rw [Device.serve, frameBits_length]
    refine writeItems_accepted registers frame hlen hc hvalid hw (coils_inRange_iff w count)
      fun hin buffer hbuffer => ?_
    obtain ⟨hcode, hcells, hdevice⟩ := call_writeCoils registers buffer hin
    refine ⟨hcode, hcells, hdevice.trans ?_⟩
    rw [hbuffer]
    rfl

/-- Writing several holding registers is what the device does. -/
theorem writeMultipleHoldingRegister_refines (usLen : UInt16) :
    (eMBFuncWriteMultipleHoldingRegister registers frame usLen).Refines frame.cells usLen.toNat
      (registers.device.serve (.guard
        (6 ≤ usLen.toNat ∧ 1 ≤ frameWord frame.cells 3 ∧ frameWord frame.cells 3 ≤ 0x78 ∧
          (frame.cells 5).toNat = 2 * frameWord frame.cells 3)
        (.writeHoldings (frameWord frame.cells 1)
          (frameWords frame.cells 6 (frameWord frame.cells 3))))) := by
  generalize hw : joinBytes (frame.cells 1) (frame.cells 2) = w
  generalize hc : joinBytes (frame.cells 3) (frame.cells 4) = count
  have hfirst : frameWord frame.cells 1 = w.toNat := congrArg UInt16.toNat hw
  have hcount : frameWord frame.cells 3 = count.toNat := congrArg UInt16.toNat hc
  have hguard : usLen ≥ 6 ∧ (decide (count ≥ 1) && decide (count ≤ 0x0078) &&
        decide (frame.cells 5 = (2 * count).toUInt8)) = true ↔
      6 ≤ usLen.toNat ∧ 1 ≤ count.toNat ∧ count.toNat ≤ 0x78 ∧ (frame.cells 5).toNat = 2 * count.toNat := by
    rw [Bool.and_eq_true, Bool.and_eq_true, decide_eq_true_iff, decide_eq_true_iff, decide_eq_true_iff,
      and_assoc]
    refine and_congr UInt16.le_iff_toNat_le (and_congr UInt16.le_iff_toNat_le ?_)
    refine (and_congr_right fun hle => ?_).trans (and_congr_left' UInt16.le_iff_toNat_le)
    have hle : count.toNat ≤ 0x78 := UInt16.le_iff_toNat_le.mp hle
    have hdouble : (2 * count).toUInt8.toNat = 2 * count.toNat := by
      rw [UInt16.toNat_toUInt8, UInt16.toNat_mul]
      change 2 * count.toNat % 2 ^ 16 % 2 ^ 8 = _
      omega
    rw [← UInt8.toNat_inj, hdouble]
  rw [hfirst, hcount, PduRequest.guard]
  split
  case isFalse hno => exact writeItems_refused registers frame (by rw [hc]; exact mt hguard.mp hno)
  case isTrue hyes =>
    obtain ⟨hlen, hvalid⟩ := hguard.mpr hyes
    rw [Device.serve, frameWords_length]
    refine writeItems_accepted registers frame hlen hc hvalid hw (holding_inRange_iff w count)
      fun hin buffer hbuffer => ?_
    obtain ⟨hcode, hcells, hdevice⟩ := call_writeHoldings registers buffer hin
    refine ⟨hcode, hcells, hdevice.trans ?_⟩
    rw [hbuffer]
    rfl

/-- Writing one coil is what the device does. -/
theorem writeCoil_refines (usLen : UInt16) :
    (eMBFuncWriteCoil registers frame usLen).Refines frame.cells usLen.toNat
      (registers.device.serve (.guard
        (usLen.toNat = 5 ∧ frame.cells 4 = 0 ∧ (frame.cells 3 = 0xFF ∨ frame.cells 3 = 0))
        (.writeCoils (frameWord frame.cells 1) [frame.cells 3 = 0xFF]))) := by
  generalize hw : joinBytes (frame.cells 1) (frame.cells 2) = w
  have hfirst : frameWord frame.cells 1 = w.toNat := congrArg UInt16.toNat hw
  have hlen : usLen.toNat = 5 ↔ usLen = 5 := UInt16.toNat_inj (b := 5)
  rw [hfirst, PduRequest.guard, eMBFuncWriteCoil]
  by_cases h5 : usLen = 5
  case neg =>
    rw [if_neg h5, if_neg fun h => h5 (hlen.mp h.1)]
    exact refines_exception (by decide) rfl rfl
  case pos =>
    rw [if_pos h5]
    dsimp only [readWord, TracedMemory.read]
    by_cases hvalue : frame.cells 4 = 0 ∧ (frame.cells 3 = 0xFF ∨ frame.cells 3 = 0)
    case neg =>
      rw [if_neg hvalue, if_neg fun h => hvalue h.2]
      exact refines_exception (by decide) rfl rfl
    case pos =>
      rw [if_pos hvalue, if_pos ⟨hlen.mpr h5, hvalue⟩, hw]
      generalize hbuf : (TracedMemory.ofCells fun k : ℕ =>
        if k = 0 ∧ frame.cells 3 = 0xFF then (1 : UInt8) else 0) = ucBuf
      have hone : (1 : UInt16).toNat = 1 := rfl
      have hbit :
          (List.range (1 : UInt16).toNat).map (bitAt ucBuf.cells) = [decide (frame.cells 3 = 0xFF)] := by
        subst hbuf
        by_cases hon : frame.cells 3 = 0xFF
        · simp [TracedMemory.ofCells, bitAt, hon]
        · simp [TracedMemory.ofCells, bitAt, hon]
      rw [Device.serve, List.length_singleton]
      by_cases hin : w.toNat + 1 ≤ bitRowSize
      · obtain ⟨hcode, -, hdevice⟩ := @call_writeCoils registers ucBuf w 1 hin
        rw [if_pos hin]
        refine refines_reply (congrArg prveMBError2Exception hcode) (hdevice.trans ?_)
          (reply_eq_of_cells (hlen.mpr h5) rfl)
        rw [hbit]
      · have hout := call_of_not_inRange registers.tables ucBuf
          (mt (coils_inRange_iff w 1).mp hin)
        rw [if_neg hin]
        refine refines_exception (by decide) ?_ ?_
        · dsimp only
          rw [hout]
          rfl
        · dsimp only
          rw [hout]

/-- Writing one holding register is what the device does. -/
theorem writeHoldingRegister_refines (usLen : UInt16) :
    (eMBFuncWriteHoldingRegister registers frame usLen).Refines frame.cells usLen.toNat
      (registers.device.serve (.guard (usLen.toNat = 5)
        (.writeHoldings (frameWord frame.cells 1) (frameWords frame.cells 3 1)))) := by
  generalize hw : joinBytes (frame.cells 1) (frame.cells 2) = w
  have hfirst : frameWord frame.cells 1 = w.toNat := congrArg UInt16.toNat hw
  have hlen : usLen.toNat = 5 ↔ usLen = 5 := UInt16.toNat_inj (b := 5)
  rw [hfirst, PduRequest.guard, eMBFuncWriteHoldingRegister]
  by_cases h5 : usLen = 5
  case neg =>
    rw [if_neg h5, if_neg (mt hlen.mp h5)]
    exact refines_exception (by decide) rfl rfl
  case pos =>
    rw [if_pos h5, if_pos (hlen.mpr h5)]
    dsimp only [readWord, TracedMemory.read]
    rw [hw, Device.serve, frameWords_length]
    generalize hread : (⟨frame.cells, (1 + 1) :: 1 :: frame.accesses⟩ : TracedMemory UInt8) = read
    have hcells : read.cells = frame.cells := hread ▸ rfl
    by_cases hin : w.toNat + 1 ≤ wordRowSize
    · obtain ⟨hcode, hsame, hdevice⟩ := callAt_written registers read (i := 3)
        (@call_writeHoldings registers (read.cellsFrom 3) w 1 hin)
      rw [if_pos hin]
      refine refines_reply (congrArg prveMBError2Exception hcode) (hdevice.trans ?_)
        (reply_eq_of_cells (hlen.mpr h5) (hsame.trans hcells))
      simp only [TracedMemory.cellsFrom_cells, hcells]
      rfl
    · obtain ⟨hcode, hregisters⟩ := callAt_of_not_inRange registers read
        (mt (holding_inRange_iff w 1).mp hin) 3
      rw [if_neg hin]
      exact refines_exception (by decide) (congrArg prveMBError2Exception hcode)
        (congrArg MbRegisters.device hregisters)

/-- The second half of a request that writes and reads: some holding registers are read into the frame. -/
theorem readBack_refines (cells : ℕ → UInt8) (hcode : cells 0 = 23) (usLen : ℕ) {r count : UInt16}
    (hcount : count.toNat ≤ 0x7D) :
    let framed := (frame.write 0 23).write 1 (count * 2).toUInt8
    let c := registers.callAt (.holding (r + 1) count .read) framed 2
    PduOutcome.Refines
      (if c.1 = .enoerr then ⟨.none, c.2.1, c.2.2, 2 + 2 * count⟩
        else ⟨prveMBError2Exception c.1, c.2.1, c.2.2, 2⟩)
      cells usLen (registers.device, registers.device.answerWords .holdings r.toNat count.toNat) := by
  dsimp only
  rw [Device.answerWords]
  by_cases hrange : r.toNat + count.toNat ≤ wordRowSize
  · obtain ⟨hgot, hkept, hwords⟩ := call_readWords registers
      (((frame.write 0 23).write 1 (count * 2).toUInt8).cellsFrom 2) .holdings hrange
    have hnoerr : (registers.callAt (.holding (r + 1) count .read)
      ((frame.write 0 23).write 1 (count * 2).toUInt8) 2).1 = .enoerr := hgot
    have hlength : (wordsBytes (Device.items (registers.device.words .holdings) r.toNat count.toNat)).length =
        2 * count.toNat := by
      rw [wordsBytes_length, Device.items_length]
    have hdouble : (count * 2).toNat = 2 * count.toNat := by
      rw [UInt16.toNat_mul]
      change count.toNat * 2 % 2 ^ 16 = _
      omega
    have hsize : wordRowSize = 10 := rfl
    rw [if_pos hrange, if_pos hnoerr]
    refine refines_reply rfl hkept ?_
    rw [PduReply.encode, hcode, ← wordsBytes_length]
    refine reply_of_callAt ((frame.write 0 23).write 1 (count * 2).toUInt8) (hdouble.trans hlength.symm)
      (by omega) (fun k hk => (hwords k (hlength ▸ hk)).trans ?_) _ rfl rfl rfl ?_
    · rw [Device.items, getD_wordsBytes _ _ (hlength ▸ hk)]
    · rw [UInt16.mul_comm]
  · obtain ⟨herror, hregisters⟩ := callAt_of_not_inRange registers
      ((frame.write 0 23).write 1 (count * 2).toUInt8) (mt (WordRow.holdings.inRange_iff r count).mp hrange) 2
    have hrefused : (registers.callAt (.holding (r + 1) count .read)
      ((frame.write 0 23).write 1 (count * 2).toUInt8) 2).1 = .enoreg := herror
    rw [if_neg hrange, if_neg (by rw [hrefused]; decide)]
    exact refines_exception (by decide) (congrArg prveMBError2Exception herror)
      (congrArg MbRegisters.device hregisters)

/-- A request to write and read whose counts are valid writes, and reads when the write is accepted. -/
theorem readWrite_calls {r count w n : UInt16} (hlen : usLen ≥ 10)
    (hr : joinBytes (frame.cells 1) (frame.cells 2) = r)
    (hc : joinBytes (frame.cells 3) (frame.cells 4) = count)
    (hw : joinBytes (frame.cells 5) (frame.cells 6) = w) (hn : joinBytes (frame.cells 7) (frame.cells 8) = n)
    (hvalid : count ≥ 1 ∧ count ≤ 0x7D ∧ n ≥ 1 ∧ n ≤ 0x79 ∧ 2 * n.toNat = (frame.cells 9).toNat) :
    ∃ read : TracedMemory UInt8, read.cells = frame.cells ∧
      (∀ k ∈ read.accesses, k < 10 ∨ k ∈ frame.accesses) ∧
      eMBFuncReadWriteMultipleHoldingRegister registers frame usLen =
        (let c := registers.callAt (.holding (w + 1) n .write) read 10
         if c.1 = .enoerr then
           let framed := (c.2.2.write 0 23).write 1 (count * 2).toUInt8
           let c := c.2.1.callAt (.holding (r + 1) count .read) framed 2
           if c.1 = .enoerr then ⟨.none, c.2.1, c.2.2, 2 + 2 * count⟩
           else ⟨prveMBError2Exception c.1, c.2.1, c.2.2, 2⟩
         else ⟨prveMBError2Exception c.1, c.2.1, c.2.2, usLen⟩) := by
  subst hr hc hw hn
  refine ⟨⟨frame.cells, 9 :: 8 :: 7 :: 6 :: 5 :: 4 :: 3 :: 2 :: 1 :: frame.accesses⟩, rfl, by grind, ?_⟩
  rw [eMBFuncReadWriteMultipleHoldingRegister, if_pos hlen]
  dsimp only [readWord, TracedMemory.read]
  rw [if_pos hvalid]

/-- A request to write and read with invalid counts is refused. -/
theorem readWrite_refused (hlen : usLen ≥ 10)
    (hinvalid : ¬ (joinBytes (frame.cells 3) (frame.cells 4) ≥ 1 ∧
      joinBytes (frame.cells 3) (frame.cells 4) ≤ 0x7D ∧ joinBytes (frame.cells 7) (frame.cells 8) ≥ 1 ∧
      joinBytes (frame.cells 7) (frame.cells 8) ≤ 0x79 ∧
      2 * (joinBytes (frame.cells 7) (frame.cells 8)).toNat = (frame.cells 9).toNat)) :
    (eMBFuncReadWriteMultipleHoldingRegister registers frame usLen).Refines frame.cells usLen.toNat
      (registers.device, .exception .illegalDataValue) := by
  rw [eMBFuncReadWriteMultipleHoldingRegister, if_pos hlen]
  dsimp only [readWord, TracedMemory.read]
  rw [if_neg hinvalid]
  exact refines_exception (by decide) rfl rfl

/-- Writing some holding registers and then reading some is what the device does. -/
theorem readWriteMultipleHoldingRegister_refines (usLen : UInt16) (hcode : frame.cells 0 = 23) :
    (eMBFuncReadWriteMultipleHoldingRegister registers frame usLen).Refines frame.cells usLen.toNat
      (registers.device.serve (if 10 ≤ usLen.toNat then
        .guard (1 ≤ frameWord frame.cells 3 ∧ frameWord frame.cells 3 ≤ 0x7D ∧ 1 ≤ frameWord frame.cells 7 ∧
            frameWord frame.cells 7 ≤ 0x79 ∧ (frame.cells 9).toNat = 2 * frameWord frame.cells 7)
          (.readWriteHoldings (frameWord frame.cells 1) (frameWord frame.cells 3) (frameWord frame.cells 5)
            (frameWords frame.cells 10 (frameWord frame.cells 7)))
        else .echo)) := by
  generalize hr : joinBytes (frame.cells 1) (frame.cells 2) = r
  generalize hc : joinBytes (frame.cells 3) (frame.cells 4) = count
  generalize hw : joinBytes (frame.cells 5) (frame.cells 6) = w
  generalize hn : joinBytes (frame.cells 7) (frame.cells 8) = n
  have hfirst : frameWord frame.cells 1 = r.toNat := congrArg UInt16.toNat hr
  have hcount : frameWord frame.cells 3 = count.toNat := congrArg UInt16.toNat hc
  have hwrite : frameWord frame.cells 5 = w.toNat := congrArg UInt16.toNat hw
  have hnumber : frameWord frame.cells 7 = n.toNat := congrArg UInt16.toNat hn
  have hguard : count ≥ 1 ∧ count ≤ 0x7D ∧ n ≥ 1 ∧ n ≤ 0x79 ∧ 2 * n.toNat = (frame.cells 9).toNat ↔
      1 ≤ count.toNat ∧ count.toNat ≤ 0x7D ∧ 1 ≤ n.toNat ∧ n.toNat ≤ 0x79 ∧
        (frame.cells 9).toNat = 2 * n.toNat :=
    and_congr UInt16.le_iff_toNat_le (and_congr UInt16.le_iff_toNat_le
      (and_congr UInt16.le_iff_toNat_le (and_congr UInt16.le_iff_toNat_le eq_comm)))
  have hten : usLen ≥ 10 ↔ 10 ≤ usLen.toNat := UInt16.le_iff_toNat_le
  rw [hfirst, hcount, hwrite, hnumber]
  by_cases hlen : 10 ≤ usLen.toNat
  case neg =>
    rw [if_neg hlen, eMBFuncReadWriteMultipleHoldingRegister, if_neg (mt hten.mp hlen)]
    exact refines_reply rfl rfl (reply_eq_of_cells rfl rfl)
  rw [if_pos hlen, PduRequest.guard]
  by_cases hvalid : 1 ≤ count.toNat ∧ count.toNat ≤ 0x7D ∧ 1 ≤ n.toNat ∧ n.toNat ≤ 0x79 ∧
      (frame.cells 9).toNat = 2 * n.toNat
  case neg =>
    rw [if_neg hvalid]
    exact readWrite_refused registers frame (hten.mpr hlen) (by rw [hc, hn]; exact mt hguard.mp hvalid)
  obtain ⟨read, hcells, -, heq⟩ :=
    readWrite_calls registers frame (hten.mpr hlen) hr hc hw hn (hguard.mpr hvalid)
  rw [if_pos hvalid, Device.serve, frameWords_length, heq]
  dsimp only
  by_cases hin : w.toNat + n.toNat ≤ wordRowSize
  · obtain ⟨hdone, -, hdevice⟩ := callAt_written registers read (i := 10)
      (call_writeHoldings registers (read.cellsFrom 10) hin)
    have hvalues : (List.range n.toNat).map (fun j => joinBytes ((read.cellsFrom 10).cells (2 * j))
        ((read.cellsFrom 10).cells (2 * j + 1))) = frameWords frame.cells 10 n.toNat := by
      simp only [TracedMemory.cellsFrom_cells, hcells]
      rfl
    rw [hvalues] at hdevice
    rw [if_pos hin, if_pos hdone, ← hdevice]
    exact readBack_refines _ _ _ hcode usLen.toNat hvalid.2.1
  · obtain ⟨herror, hregisters⟩ :=
      callAt_of_not_inRange registers read (mt (holding_inRange_iff w n).mp hin) 10
    rw [if_neg hin, if_neg (by rw [herror]; decide)]
    exact refines_exception (by decide) (congrArg prveMBError2Exception herror)
      (congrArg MbRegisters.device hregisters)

/-- The slave reports its bytes. -/
theorem reportSlaveID_refines (usLen : UInt16) :
    (eMBFuncReportSlaveID registers frame usLen).Refines frame.cells usLen.toNat
      (registers.device.serve .reportSlaveId) := by
  have hlength : registers.slaveId.bytes.length = registers.slaveId.usMBSlaveIDLen := by
    rw [SlaveId.bytes, FixedBuffer.contents_length]
    exact min_eq_left (Nat.le_of_lt registers.slaveId.length_lt)
  have hlt : registers.slaveId.usMBSlaveIDLen < 32 := registers.slaveId.length_lt
  refine refines_reply rfl rfl ?_
  have hlen :
      (UInt16.ofNat (1 + registers.slaveId.usMBSlaveIDLen)).toNat = 1 + registers.slaveId.bytes.length := by
    rw [UInt16.toNat_ofNat', hlength]
    exact Nat.mod_eq_of_lt (by omega)
  have hrest : (List.range registers.slaveId.bytes.length).map
      (fun k => (frame.writeAll 1 registers.slaveId.bytes).cells (1 + k)) = registers.slaveId.bytes := by
    refine List.ext_getElem (by simp) fun k hk _ => ?_
    have hk : k < registers.slaveId.bytes.length := by simpa using hk
    rw [List.getElem_map, List.getElem_range, TracedMemory.writeAll_cells, if_pos (by omega),
      Nat.add_sub_cancel_left, List.getD_eq_getElem _ _ hk]
  rw [PduOutcome.reply, eMBFuncReportSlaveID, hlen, List.range_add, List.map_append, List.map_map]
  refine congrArg₂ List.cons ?_ hrest
  dsimp only
  rw [TracedMemory.writeAll_cells, if_neg (by omega)]

end Writes

/-- There is no handler for a code that is not in the table. -/
theorem findHandler_eq_none {H : Type*} {ucFunctionCode : UInt8} {table : List (UInt8 × H)}
    (h : ucFunctionCode ∉ table.map Prod.fst) : findHandler ucFunctionCode table = none := by
  induction table with
  | nil => rfl
  | cons entry rest ih =>
    rw [List.map_cons, List.mem_cons, not_or] at h
    rw [findHandler, if_neg (Ne.symm h.1), ih h.2, ite_self]

/-- Whatever handler the search finds does what the device does with the request in the frame. -/
theorem callFound_refines (registers : MbRegisters) (frame : TracedMemory UInt8) (usLen : UInt16) :
    (callFound registers frame usLen (findHandler (frame.cells 0) xFuncHandlers)).Refines frame.cells
      usLen.toNat (registers.device.serve (.ofFrame frame.cells usLen.toNat)) := by
  have hlen : usLen.toNat = 5 ↔ usLen = 5 := UInt16.toNat_inj (b := 5)
  have h17 := reportSlaveID_refines registers frame usLen
  have h16 := writeMultipleHoldingRegister_refines registers frame usLen
  have h6 := writeHoldingRegister_refines registers frame usLen
  have h23 := readWriteMultipleHoldingRegister_refines registers frame usLen
  have h5 := writeCoil_refines registers frame usLen
  have h15 := writeMultipleCoils_refines registers frame usLen
  have hcoils := readBits_refines registers frame .coils usLen
  have hdiscretes := readBits_refines registers frame .discretes usLen
  have hinputs : (readItems (frame.cells 0) joinBytes
      (fun count => decide (count ≥ 1) && decide (count < 0x007D)) (fun count => count * 2)
      (fun a count => WordRow.inputs.request a count) registers frame usLen).Refines
        frame.cells usLen.toNat (registers.device.serve (.guard
          (usLen.toNat = 5 ∧ 1 ≤ frameWord frame.cells 3 ∧ frameWord frame.cells 3 < 0x7D)
          (.readWords .inputs (frameWord frame.cells 1) (frameWord frame.cells 3)))) := by
    refine readWords_refines registers frame .inputs usLen rfl ?_ fun h => Nat.le_of_lt h.2.2
    rw [Bool.and_eq_true, decide_eq_true_iff, decide_eq_true_iff, hlen]
    rfl
  have hholdings : (readItems (frame.cells 0) (fun _ low => low.toUInt16)
      (fun count => decide (count ≥ 1) && decide (count ≤ 0x007D)) (fun count => count * 2)
      (fun a count => WordRow.holdings.request a count) registers frame usLen).Refines
        frame.cells usLen.toNat (registers.device.serve (.guard
          (usLen.toNat = 5 ∧ 1 ≤ (frame.cells 4).toNat ∧ (frame.cells 4).toNat ≤ 0x7D)
          (.readWords .holdings (frameWord frame.cells 1) (frame.cells 4).toNat))) := by
    refine readWords_refines registers frame .holdings usLen (UInt8.toNat_toUInt16 _) ?_ fun h => h.2.2
    rw [Bool.and_eq_true, decide_eq_true_iff, decide_eq_true_iff, hlen, ← UInt8.toNat_toUInt16]
    rfl
  apply ofFrame_cases frame.cells (motive := fun request =>
    (callFound registers frame usLen (findHandler (frame.cells 0) xFuncHandlers)).Refines frame.cells
      usLen.toNat (registers.device.serve request))
  case reportSlaveId =>
    intro hcode
    rw [hcode]
    exact h17
  case readInputs =>
    intro hcode
    rw [hcode] at hinputs ⊢
    exact hinputs
  case readHoldings =>
    intro hcode
    rw [hcode] at hholdings ⊢
    exact hholdings
  case writeHoldings =>
    intro hcode
    rw [hcode]
    exact h16
  case writeHolding =>
    intro hcode
    rw [hcode]
    exact h6
  case readWriteHoldings =>
    intro hcode
    rw [hcode]
    exact h23 hcode
  case readCoils =>
    intro hcode
    rw [hcode] at hcoils ⊢
    exact hcoils
  case writeCoil =>
    intro hcode
    rw [hcode]
    exact h5
  case writeCoils =>
    intro hcode
    rw [hcode]
    exact h15
  case readDiscretes =>
    intro hcode
    rw [hcode] at hdiscretes ⊢
    exact hdiscretes
  case other =>
    intro hother
    rw [findHandler_eq_none hother]
    exact refines_exception (by decide) rfl rfl

/-- A request is executed as the device serves it: the same items are left, and the reply is the answer. -/
theorem executePdu_refines (registers : MbRegisters) (frame : TracedMemory UInt8) (usLen : UInt16) :
    (executePdu registers frame usLen).registers.device =
        (registers.device.serve (.ofFrame frame.cells usLen.toNat)).1 ∧
      (executePdu registers frame usLen).reply =
        (registers.device.serve (.ofFrame frame.cells usLen.toNat)).2.encode frame.cells usLen.toNat := by
  obtain ⟨hdevice, hreply⟩ := callFound_refines registers (frame.read 0).2 usLen
  refine ⟨Eq.trans ?_ hdevice, hreply⟩
  rw [executePdu]
  dsimp only [TracedMemory.read]
  rw [PduOutcome.errorFrame]
  split <;> rfl

/-- One request of a master: the memory from its function code on, and the length of the PDU. -/
abbrev PduFrame := TracedMemory UInt8 × UInt16

/-- The stack executes a request and replies. -/
def pduStep (registers : MbRegisters) (request : PduFrame) : MbRegisters × List UInt8 :=
  let o := executePdu registers request.1 request.2
  (o.registers, o.reply)

/-- What the device does with the request in a frame, and the PDU of its answer. -/
def Device.answer (d : Device) (cells : ℕ → UInt8) (usLen : ℕ) : Device × List UInt8 :=
  let served := d.serve (.ofFrame cells usLen)
  (served.1, served.2.encode cells usLen)

/-- The device serves a request and replies. -/
def deviceStep (d : Device) (request : PduFrame) : Device × List UInt8 :=
  d.answer request.1.cells request.2.toNat

/-- Over every sequence of requests, each in a memory with any bytes behind it, the function handlers reply as
the device does and leave the items that it leaves. -/
theorem run_refines_device (registers : MbRegisters) (requests : List PduFrame) :
    Mealy.outputs pduStep registers requests = Mealy.outputs deviceStep registers.device requests ∧
      (Mealy.after pduStep registers requests).device = Mealy.after deviceStep registers.device requests := by
  have hstep (s : MbRegisters) (d : Device) (request : PduFrame) (h : s.device = d) :
      (pduStep s request).1.device = (deviceStep d request).1 ∧
        (pduStep s request).2 = (deviceStep d request).2 := by
    subst h
    exact executePdu_refines s request.1 request.2
  have houtputs := Mealy.outputs_simulation pduStep deviceStep id id (fun s d => s.device = d) hstep registers
    registers.device rfl requests
  have hafter := Mealy.after_simulation pduStep deviceStep id (fun s d => s.device = d)
    (fun s d request h => (hstep s d request h).1) registers registers.device rfl requests
  rw [List.map_id, List.map_id] at houtputs
  rw [List.map_id] at hafter
  exact ⟨houtputs, hafter⟩

end RemoteManage.Modbus
