import RemoteManage.Modbus.PduRefinement

/-!
# How far the handlers reach into a frame

The counts that the handlers admit go up to hundreds of bytes, and a request need not be as long as its
counts say. The callbacks check their range before they touch the buffer, and no table holds more than
twenty bytes, so every access to the frame stays in its first cells, and every reply is short.
-/

namespace RemoteManage.Modbus

open RemoteManage.Foundation RegisterTables

section Buffers

variable (pucRegBuffer : TracedMemory UInt8) (index : ℕ)

/-- The bytes of the buffer that the loop over discrete inputs fills. -/
theorem mem_readDiscretes_buffer_accesses (usRegDiscreateBuf : TracedMemory UInt8) (usAddress : UInt16)
    (n k : ℕ) :
    k ∈ (readDiscretes usRegDiscreateBuf pucRegBuffer index usAddress n).2.accesses ↔
      (index ≤ k ∧ k < index + (n + 7) / 8) ∨ k ∈ pucRegBuffer.accesses := by
  induction n using Nat.strong_induction_on generalizing usRegDiscreateBuf pucRegBuffer index usAddress with
  | _ n ih =>
    obtain rfl | hn := Nat.eq_zero_or_pos n
    · rw [readDiscretes, if_neg (lt_irrefl 0)]
      simp
    · rw [readDiscretes_succ _ _ _ _ hn]
      dsimp only
      split
      case isTrue hmore =>
        have hcount : (n + 7) / 8 = (n - 8 + 7) / 8 + 1 := by omega
        rw [ih (n - 8) (by omega), hcount, TracedMemory.write_accesses, List.mem_cons]
        grind
      case isFalse hlast =>
        have hcount : (n + 7) / 8 = 1 := by omega
        rw [TracedMemory.write_accesses, List.mem_cons, hcount]
        grind

/-- The bytes of the buffer that the loops over registers fill. -/
theorem mem_readRegisters_buffer_accesses (table : TracedMemory UInt16) (iRegIndex n k : ℕ) :
    k ∈ (readRegisters table pucRegBuffer index iRegIndex n).2.accesses ↔
      (index ≤ k ∧ k < index + 2 * n) ∨ k ∈ pucRegBuffer.accesses := by
  induction n generalizing table pucRegBuffer index iRegIndex with
  | zero => simp [readRegisters]
  | succ n ih =>
    rw [readRegisters]
    dsimp only
    rw [ih]
    simp only [TracedMemory.write_accesses, List.mem_cons]
    grind

/-- The bytes of the buffer that the loop over registers takes. -/
theorem mem_writeRegisters_buffer_accesses (table : TracedMemory UInt16) (iRegIndex n k : ℕ) :
    k ∈ (writeRegisters table pucRegBuffer index iRegIndex n).2.accesses ↔
      (index ≤ k ∧ k < index + 2 * n) ∨ k ∈ pucRegBuffer.accesses := by
  induction n generalizing table pucRegBuffer index iRegIndex with
  | zero => simp [writeRegisters]
  | succ n ih =>
    rw [writeRegisters]
    dsimp only
    rw [ih]
    simp only [TracedMemory.read_accesses, List.mem_cons]
    grind

end Buffers

/-- The first byte of a buffer that no callback accesses. -/
def callbackReach : ℕ := 2 * regNregs

/-- A field that begins among the bits of a row is reached through the first bytes of the buffer. -/
theorem window_lt_callbackReach {i n k : ℕ} (hi : i < n) (hn : n ≤ bitRowSize) (hk : Window (0 + i) k) :
    k < callbackReach := by
  have hn : n ≤ 80 := hn
  change k < 20
  obtain rfl | rfl := hk <;> omega

/-- A callback accesses only the first bytes of its buffer, whatever it is asked for. -/
theorem call_buffer_accesses (t : RegisterTables) (pucRegBuffer : TracedMemory UInt8) (r : RegRequest) {k : ℕ}
    (hk : k ∈ (t.call r pucRegBuffer).2.2.accesses) : k < callbackReach ∨ k ∈ pucRegBuffer.accesses := by
  by_cases h : r.InRange
  case neg =>
    rw [call_of_not_inRange t pucRegBuffer h] at hk
    exact .inr hk
  have hzero : (0 : UInt16).toNat = 0 := rfl
  have hend : 1 ≤ r.usAddress.toNat ∧ r.usAddress.toNat + r.count.toNat ≤ r.tableEnd := h
  cases r with
  | coils usAddress usNCoils eMode =>
    have hcount : usNCoils.toNat ≤ bitRowSize := by
      change 1 ≤ usAddress.toNat ∧ usAddress.toNat + usNCoils.toNat ≤ 81 at hend
      change _ ≤ 80
      omega
    have hcount' : usNCoils.toNat ≤ 80 := hcount
    cases eMode with
    | write =>
      rw [call_coils_write _ _ h] at hk
      rw [mem_moveBits_source_accesses _ _ _ _ _ (by rw [hzero]; omega), hzero] at hk
      exact hk.imp_left fun ⟨i, hi, hwindow⟩ => window_lt_callbackReach hi hcount hwindow
    | read =>
      rw [call_coils_read _ _ h] at hk
      rw [mem_moveBits_target_accesses _ _ _ _ _ (by rw [hzero]; omega), hzero] at hk
      exact hk.imp_left fun ⟨i, hi, hwindow⟩ => window_lt_callbackReach hi hcount hwindow
  | discrete usAddress usNDiscrete =>
    change 1 ≤ usAddress.toNat ∧ usAddress.toNat + usNDiscrete.toNat ≤ 81 at hend
    rw [call_discrete _ _ h] at hk
    refine ((mem_readDiscretes_buffer_accesses ..).mp hk).imp_left fun hin => ?_
    change k < 20
    omega
  | holding usAddress usNRegs eMode =>
    change 1 ≤ usAddress.toNat ∧ usAddress.toNat + usNRegs.toNat ≤ 11 at hend
    cases eMode with
    | write =>
      rw [call_holding_write _ _ h] at hk
      refine ((mem_writeRegisters_buffer_accesses ..).mp hk).imp_left fun hin => ?_
      change k < 20
      omega
    | read =>
      rw [call_holding_read _ _ h] at hk
      refine ((mem_readRegisters_buffer_accesses ..).mp hk).imp_left fun hin => ?_
      change k < 20
      omega
  | input usAddress usNRegs =>
    change 1 ≤ usAddress.toNat ∧ usAddress.toNat + usNRegs.toNat ≤ 11 at hend
    rw [call_input _ _ h] at hk
    refine ((mem_readRegisters_buffer_accesses ..).mp hk).imp_left fun hin => ?_
    change k < 20
    omega

/-- The first cell of a frame that no handler accesses. -/
def frameReach : ℕ := mbFuncOtherRepSlaveidBuf

/-- Nothing behind the first cells of a frame is accessed on the way from one memory to another. -/
def StaysInside (before after : TracedMemory UInt8) : Prop :=
  ∀ k ∈ after.accesses, k < frameReach ∨ k ∈ before.accesses

namespace StaysInside

variable {a b c : TracedMemory UInt8}

/-- What is done in two parts. -/
theorem trans (hab : StaysInside a b) (hbc : StaysInside b c) : StaysInside a c := fun k hk =>
  (hbc k hk).elim .inl (hab k)

/-- A memory whose record has some first cells more. -/
theorem of_cells (cells : List ℕ) (h : c.accesses = cells ++ a.accesses) (hcells : ∀ k ∈ cells, k < 32) :
    StaysInside a c := by
  intro k hk
  rw [h, List.mem_append] at hk
  exact hk.imp_left (hcells k)

/-- A callback on the frame from one of its first cells on. -/
theorem callAt (registers : MbRegisters) (r : RegRequest) (frame : TracedMemory UInt8) (i : ℕ)
    (hi : i ≤ 12) : StaysInside frame (registers.callAt r frame i).2.2 := by
  intro k hk
  refine ((TracedMemory.mem_replaceFrom_accesses ..).mp hk).imp_left ?_
  rintro ⟨j, hj, rfl⟩
  have hreach : j < 20 := (call_buffer_accesses _ _ _ hj).resolve_right List.not_mem_nil
  change i + j < 32
  omega

/-- What is left in either case. -/
theorem ite {p : Prop} [Decidable p] {o o' : PduOutcome} (h : StaysInside a o.pucFrame)
    (h' : StaysInside a o'.pucFrame) : StaysInside a (if p then o else o').pucFrame := by
  split
  · exact h
  · exact h'

end StaysInside

section Handlers

variable (registers : MbRegisters) (frame : TracedMemory UInt8) (usLen : UInt16)

/-- The functions that read stay inside. -/
theorem readItems_staysInside (fc : UInt8) (readCount : UInt8 → UInt8 → UInt16) (valid : UInt16 → Bool)
    (usBytes : UInt16 → UInt16) (request : UInt16 → UInt16 → RegRequest) :
    StaysInside frame (readItems fc readCount valid usBytes request registers frame usLen).pucFrame := by
  by_cases h : usLen = 5 ∧ valid (readCount (frame.cells 3) (frame.cells 4)) = true
  · have hhead : StaysInside frame
        (replyHead frame fc (usBytes (readCount (frame.cells 3) (frame.cells 4))).toUInt8) :=
      .of_cells [1, 0, 4, 3, 2, 1] rfl (by decide)
    rw [readItems_calls registers frame h.1 rfl h.2]
    exact .ite (hhead.trans (.callAt _ _ _ 2 (by decide))) (hhead.trans (.callAt _ _ _ 2 (by decide)))
  · rw [readItems]
    split
    case isTrue hlen =>
      dsimp only [readWord, TracedMemory.read]
      rw [if_neg fun hvalid => h ⟨hlen, hvalid⟩]
      exact .of_cells [4, 3, 2, 1] rfl (by decide)
    case isFalse => exact .of_cells [] rfl (by decide)

/-- The functions that write several items stay inside. -/
theorem writeItems_staysInside (valid : UInt16 → UInt8 → Bool) (request : UInt16 → UInt16 → RegRequest) :
    StaysInside frame (writeItems valid request registers frame usLen).pucFrame := by
  rw [writeItems]
  split
  case isTrue =>
    dsimp only [readWord, TracedMemory.read]
    have hread : StaysInside frame ⟨frame.cells, 5 :: (3 + 1) :: 3 :: (1 + 1) :: 1 :: frame.accesses⟩ :=
      .of_cells [5, 4, 3, 2, 1] rfl (by decide)
    exact .ite (.ite (hread.trans (.callAt _ _ _ 6 (by decide))) (hread.trans (.callAt _ _ _ 6 (by decide))))
      hread
  case isFalse => exact .of_cells [] rfl (by decide)

/-- The function that writes one coil stays inside. -/
theorem writeCoil_staysInside : StaysInside frame (eMBFuncWriteCoil registers frame usLen).pucFrame := by
  rw [eMBFuncWriteCoil]
  split
  case isTrue =>
    dsimp only [readWord, TracedMemory.read]
    have hread : StaysInside frame ⟨frame.cells, 3 :: 4 :: (1 + 1) :: 1 :: frame.accesses⟩ :=
      .of_cells [3, 4, 2, 1] rfl (by decide)
    exact .ite hread hread
  case isFalse => exact .of_cells [] rfl (by decide)

/-- The function that writes one holding register stays inside. -/
theorem writeHoldingRegister_staysInside :
    StaysInside frame (eMBFuncWriteHoldingRegister registers frame usLen).pucFrame := by
  rw [eMBFuncWriteHoldingRegister]
  split
  case isTrue =>
    dsimp only [readWord, TracedMemory.read]
    have hread : StaysInside frame ⟨frame.cells, (1 + 1) :: 1 :: frame.accesses⟩ :=
      .of_cells [2, 1] rfl (by decide)
    refine hread.trans ?_
    exact StaysInside.callAt registers (.holding _ 1 .write) _ 3 (by decide)
  case isFalse => exact .of_cells [] rfl (by decide)

/-- The second half of a request that writes and reads stays inside. -/
theorem readBack_staysInside (r count : UInt16) :
    let framed := (frame.write 0 23).write 1 (count * 2).toUInt8
    let c := registers.callAt (.holding (r + 1) count .read) framed 2
    StaysInside frame (if c.1 = .enoerr then (⟨.none, c.2.1, c.2.2, 2 + 2 * count⟩ : PduOutcome)
      else ⟨prveMBError2Exception c.1, c.2.1, c.2.2, 2⟩).pucFrame := by
  have hhead : StaysInside frame ((frame.write 0 23).write 1 (count * 2).toUInt8) :=
    .of_cells [1, 0] rfl (by decide)
  have hread := hhead.trans (.callAt registers (.holding (r + 1) count .read) _ 2 (by decide))
  exact .ite hread hread

/-- The function that writes and reads holding registers stays inside. -/
theorem readWriteMultipleHoldingRegister_staysInside :
    StaysInside frame (eMBFuncReadWriteMultipleHoldingRegister registers frame usLen).pucFrame := by
  by_cases hlen : usLen ≥ 10
  case neg =>
    rw [eMBFuncReadWriteMultipleHoldingRegister, if_neg hlen]
    exact .of_cells [] rfl (by decide)
  by_cases hvalid : joinBytes (frame.cells 3) (frame.cells 4) ≥ 1 ∧
      joinBytes (frame.cells 3) (frame.cells 4) ≤ 0x7D ∧ joinBytes (frame.cells 7) (frame.cells 8) ≥ 1 ∧
      joinBytes (frame.cells 7) (frame.cells 8) ≤ 0x79 ∧
      2 * (joinBytes (frame.cells 7) (frame.cells 8)).toNat = (frame.cells 9).toNat
  case neg =>
    rw [eMBFuncReadWriteMultipleHoldingRegister, if_pos hlen]
    dsimp only [readWord, TracedMemory.read]
    rw [if_neg hvalid]
    exact .of_cells [9, 8, 7, 6, 5, 4, 3, 2, 1] rfl (by decide)
  obtain ⟨read, -, haccesses, heq⟩ := readWrite_calls registers frame hlen rfl rfl rfl rfl hvalid
  have hread : StaysInside frame read := fun k hk => (haccesses k hk).imp_left fun h => h.trans (by decide)
  have hwritten (r : RegRequest) : StaysInside frame (registers.callAt r read 10).2.2 :=
    hread.trans (.callAt registers r read 10 (by decide))
  rw [heq]
  refine .ite ?_ (hwritten (.holding _ _ .write))
  exact (hwritten (.holding _ _ .write)).trans (readBack_staysInside _ _ _ _)

/-- The function that reports the slave stays inside: its buffer is the longest of all. -/
theorem reportSlaveID_staysInside :
    StaysInside frame (eMBFuncReportSlaveID registers frame usLen).pucFrame := by
  intro k hk
  refine ((TracedMemory.mem_writeAll_accesses ..).mp hk).imp_left fun hin => ?_
  have hlength : registers.slaveId.bytes.length < 32 := by
    rw [SlaveId.bytes, FixedBuffer.contents_length]
    exact (min_le_left _ _).trans_lt registers.slaveId.length_lt
  change k < 32
  omega

/-- Every handler of the table stays inside. -/
theorem handler_staysInside {entry : UInt8 × PduHandler} (h : entry ∈ xFuncHandlers) :
    StaysInside frame (entry.2 registers frame usLen).pucFrame := by
  simp only [xFuncHandlers, List.mem_cons, List.not_mem_nil, or_false] at h
  rcases h with rfl | rfl | rfl | rfl | rfl | rfl | rfl | rfl | rfl | rfl
  · exact reportSlaveID_staysInside registers frame usLen
  · exact readItems_staysInside registers frame usLen _ _ _ _ _
  · exact readItems_staysInside registers frame usLen _ _ _ _ _
  · exact writeItems_staysInside registers frame usLen _ _
  · exact writeHoldingRegister_staysInside registers frame usLen
  · exact readWriteMultipleHoldingRegister_staysInside registers frame usLen
  · exact readItems_staysInside registers frame usLen _ _ _ _ _
  · exact writeCoil_staysInside registers frame usLen
  · exact writeItems_staysInside registers frame usLen _ _
  · exact readItems_staysInside registers frame usLen _ _ _ _ _

/-- A handler that is found is one of the table. -/
theorem mem_of_findHandler {H : Type*} {ucFunctionCode : UInt8} {table : List (UInt8 × H)} {pxHandler : H}
    (h : findHandler ucFunctionCode table = some pxHandler) : (ucFunctionCode, pxHandler) ∈ table := by
  induction table with
  | nil => contradiction
  | cons entry rest ih =>
    obtain ⟨code, handler⟩ := entry
    rw [findHandler] at h
    split_ifs at h with hend hcode
    · subst hcode
      exact List.mem_cons.mpr (.inl (Prod.ext rfl (Option.some.inj h).symm))
    · exact List.mem_cons_of_mem _ (ih h)

/-- The execution of any request stays inside. -/
theorem executePdu_staysInside : StaysInside frame (executePdu registers frame usLen).pucFrame := by
  have hread : StaysInside frame (frame.read 0).2 := .of_cells [0] rfl (by decide)
  have hcall : StaysInside frame
      (callFound registers (frame.read 0).2 usLen (findHandler (frame.cells 0) xFuncHandlers)).pucFrame := by
    cases hfound : findHandler (frame.cells 0) xFuncHandlers with
    | none => exact hread
    | some pxHandler =>
      exact hread.trans (handler_staysInside registers (frame.read 0).2 usLen (mem_of_findHandler hfound))
  rw [executePdu]
  dsimp only [TracedMemory.read_value]
  rw [PduOutcome.errorFrame]
  split
  · exact hcall
  · exact hcall.trans (.of_cells [1, 0] rfl (by decide))

end Handlers

/-- The refusal of items that are not all in their row. -/
def refuseUnless (p : Prop) [Decidable p] : Option MbException := if p then none else some .illegalDataAddress

/-- Items are refused only when they are not in their row. -/
theorem refuseUnless_eq_some {p : Prop} [Decidable p] {e : MbException} (h : refuseUnless p = some e) :
    ¬ p ∧ e = .illegalDataAddress := by
  rw [refuseUnless] at h
  split at h
  case isTrue => contradiction
  case isFalse hout => exact ⟨hout, (Option.some.inj h).symm⟩

/-- Items that are not refused are in their row. -/
theorem refuseUnless_eq_none {p : Prop} [Decidable p] (h : refuseUnless p = none) : p := by
  rw [refuseUnless] at h
  split at h
  case isTrue hin => exact hin
  case isFalse => contradiction

/-- Why a request is refused, if it is. -/
def PduRequest.refusal : PduRequest → Option MbException
  | .readBits _ first count => refuseUnless (first + count ≤ bitRowSize)
  | .readWords _ first count => refuseUnless (first + count ≤ wordRowSize)
  | .writeCoils first values => refuseUnless (first + values.length ≤ bitRowSize)
  | .writeHoldings first values => refuseUnless (first + values.length ≤ wordRowSize)
  | .readWriteHoldings first count writeFirst values =>
    refuseUnless (writeFirst + values.length ≤ wordRowSize ∧ first + count ≤ wordRowSize)
  | .reportSlaveId => none
  | .echo => none
  | .reject e => some e

/-- What a refused request leaves: a request that writes and reads has already written. -/
def Device.afterRefusal (d : Device) : PduRequest → Device
  | .readWriteHoldings _ _ writeFirst values =>
    if writeFirst + values.length ≤ wordRowSize then d.writeHoldings writeFirst values else d
  | _ => d

/-- What the decoder can give: two exceptions, and an echo of a few bytes. -/
def PduRequest.Decoded (usLen : ℕ) : PduRequest → Prop
  | .reject e => e = .illegalFunction ∨ e = .illegalDataValue
  | .echo => usLen < 10
  | _ => True

/-- A guarded request is decoded when the request is. -/
theorem PduRequest.Decoded.guard {usLen : ℕ} {request : PduRequest} (h : request.Decoded usLen) (p : Prop)
    [Decidable p] : (request.guard p).Decoded usLen := by
  rw [PduRequest.guard]
  split
  · exact h
  · exact .inr rfl

/-- Every frame is decoded. -/
theorem ofFrame_decoded (cells : ℕ → UInt8) (usLen : ℕ) : (PduRequest.ofFrame cells usLen).Decoded usLen := by
  apply ofFrame_cases cells (motive := PduRequest.Decoded usLen)
  case reportSlaveId => exact fun _ => trivial
  case other => exact fun _ => .inl rfl
  case readWriteHoldings =>
    intro _
    split
    · exact .guard (by trivial) _
    · next hshort => exact Nat.lt_of_not_le hshort
  all_goals exact fun _ => .guard (by trivial) _

/-- A refused request is answered with the exception. -/
theorem serve_of_refusal (d : Device) {request : PduRequest} {e : MbException}
    (h : request.refusal = some e) : d.serve request = (d.afterRefusal request, .exception e) := by
  cases request with
  | readBits row first count =>
    obtain ⟨hout, rfl⟩ := refuseUnless_eq_some h
    exact if_neg hout
  | readWords row first count =>
    obtain ⟨hout, rfl⟩ := refuseUnless_eq_some h
    rw [Device.serve, Device.answerWords, if_neg hout]
    rfl
  | writeCoils first values =>
    obtain ⟨hout, rfl⟩ := refuseUnless_eq_some h
    exact if_neg hout
  | writeHoldings first values =>
    obtain ⟨hout, rfl⟩ := refuseUnless_eq_some h
    exact if_neg hout
  | readWriteHoldings first count writeFirst values =>
    obtain ⟨hout, rfl⟩ := refuseUnless_eq_some h
    rw [Device.serve, Device.afterRefusal]
    by_cases hwrite : writeFirst + values.length ≤ wordRowSize
    · rw [if_pos hwrite, if_pos hwrite]
      dsimp only
      rw [Device.answerWords, if_neg fun hread => hout ⟨hwrite, hread⟩]
    · rw [if_neg hwrite, if_neg hwrite]
  | reportSlaveId => contradiction
  | echo => contradiction
  | reject e' =>
    obtain rfl := Option.some.inj h
    rfl

/-- A reply of bits is short. -/
theorem encode_bits_length (cells : ℕ → UInt8) (usLen : ℕ) (row : BitRow) {values : List Bool}
    (h : values.length ≤ bitRowSize) : ((PduReply.bits row values).encode cells usLen).length ≤ 32 := by
  have h : values.length ≤ 80 := h
  rw [PduReply.encode, List.length_cons, List.length_cons, packBits_length]
  omega

/-- A reply of words is short. -/
theorem encode_words_length (cells : ℕ → UInt8) (usLen : ℕ) {values : List UInt16}
    (h : values.length ≤ wordRowSize) : ((PduReply.words values).encode cells usLen).length ≤ 32 := by
  have h : values.length ≤ 10 := h
  rw [PduReply.encode, List.length_cons, List.length_cons, wordsBytes_length]
  omega

/-- A request that is not refused is answered with its function code and no more bytes than a slave's report
can have. -/
theorem encode_of_accepted (d : Device) (hid : d.slaveId.length < 32) {cells : ℕ → UInt8} {usLen : ℕ}
    (hpos : 0 < usLen) {request : PduRequest} (hdecoded : request.Decoded usLen)
    (h : request.refusal = none) :
    ((d.serve request).2.encode cells usLen).head? = some (cells 0) ∧
      ((d.serve request).2.encode cells usLen).length ≤ 32 := by
  have hwritten : (PduReply.written.encode cells usLen).head? = some (cells 0) ∧
      (PduReply.written.encode cells usLen).length ≤ 32 := ⟨rfl, by simp [PduReply.encode]⟩
  have hitems {β : Type} {row : ℕ → β} {first count size : ℕ} (hin : first + count ≤ size) :
      (Device.items row first count).length ≤ size := by
    rw [Device.items_length]
    omega
  cases request with
  | readBits row first count =>
    have hin := refuseUnless_eq_none h
    rw [Device.serve, if_pos hin]
    exact ⟨rfl, encode_bits_length cells usLen row (hitems hin)⟩
  | readWords row first count =>
    have hin := refuseUnless_eq_none h
    rw [Device.serve, Device.answerWords, if_pos hin]
    exact ⟨rfl, encode_words_length cells usLen (hitems hin)⟩
  | writeCoils first values =>
    have hin := refuseUnless_eq_none h
    rw [Device.serve, if_pos hin]
    exact hwritten
  | writeHoldings first values =>
    have hin := refuseUnless_eq_none h
    rw [Device.serve, if_pos hin]
    exact hwritten
  | readWriteHoldings first count writeFirst values =>
    have hin := refuseUnless_eq_none h
    rw [Device.serve, if_pos hin.1]
    dsimp only
    rw [Device.answerWords, if_pos hin.2]
    exact ⟨rfl, encode_words_length cells usLen (hitems hin.2)⟩
  | reportSlaveId => exact ⟨rfl, hid⟩
  | echo =>
    have hshort : usLen < 10 := hdecoded
    obtain ⟨n, rfl⟩ : ∃ n, usLen = n + 1 := ⟨usLen - 1, by omega⟩
    refine ⟨by simp [Device.serve, PduReply.encode, List.range_succ_eq_map], ?_⟩
    simp only [Device.serve, PduReply.encode, List.length_map, List.length_range]
    omega
  | reject e => contradiction

section Replies

variable (registers : MbRegisters) (frame : TracedMemory UInt8) (usLen : UInt16)

/-- What reports the slave is shorter than its buffer. -/
theorem slaveId_length_lt : registers.device.slaveId.length < 32 := by
  change registers.slaveId.bytes.length < 32
  rw [SlaveId.bytes, FixedBuffer.contents_length]
  exact (min_le_left _ _).trans_lt registers.slaveId.length_lt

/-- The exceptions with which a decoded request is refused. -/
theorem refusal_eq {usLen : ℕ} {request : PduRequest} {e : MbException} (hdecoded : request.Decoded usLen)
    (h : request.refusal = some e) :
    e = .illegalFunction ∨ e = .illegalDataAddress ∨ e = .illegalDataValue := by
  cases request with
  | readBits => exact .inr (.inl (refuseUnless_eq_some h).2)
  | readWords => exact .inr (.inl (refuseUnless_eq_some h).2)
  | writeCoils => exact .inr (.inl (refuseUnless_eq_some h).2)
  | writeHoldings => exact .inr (.inl (refuseUnless_eq_some h).2)
  | readWriteHoldings => exact .inr (.inl (refuseUnless_eq_some h).2)
  | reportSlaveId => contradiction
  | echo => contradiction
  | reject e' =>
    obtain rfl := Option.some.inj h
    exact hdecoded.imp_right .inr

/-- A request that is refused is answered with an exception frame, and one that is not with its own function
code. -/
theorem executePdu_reply (hpos : 0 < usLen.toNat) :
    match (PduRequest.ofFrame frame.cells usLen.toNat).refusal with
    | some e => (e = .illegalFunction ∨ e = .illegalDataAddress ∨ e = .illegalDataValue) ∧
        (executePdu registers frame usLen).reply = [frame.cells 0 ||| mbFuncError, e.code] ∧
        (executePdu registers frame usLen).registers.device =
          registers.device.afterRefusal (.ofFrame frame.cells usLen.toNat)
    | none => (executePdu registers frame usLen).reply.head? = some (frame.cells 0) ∧
        (executePdu registers frame usLen).reply.length ≤ 32 := by
  obtain ⟨hdevice, hreply⟩ := executePdu_refines registers frame usLen
  have hdecoded := ofFrame_decoded frame.cells usLen.toNat
  split
  case h_1 e hrefused =>
    have hserve := serve_of_refusal registers.device hrefused
    rw [hserve] at hdevice hreply
    exact ⟨refusal_eq hdecoded hrefused, hreply, hdevice⟩
  case h_2 haccepted =>
    rw [hreply]
    exact encode_of_accepted registers.device (slaveId_length_lt registers) hpos hdecoded haccepted

/-- A reply is as long as the handler says, and short. -/
theorem executePdu_usLen_le (hpos : 0 < usLen.toNat) :
    (executePdu registers frame usLen).usLen.toNat ≤ 32 := by
  have hreply : (executePdu registers frame usLen).reply.length =
      (executePdu registers frame usLen).usLen.toNat := by
    rw [PduOutcome.reply, List.length_map, List.length_range]
  have h := executePdu_reply registers frame usLen hpos
  rw [← hreply]
  split at h
  case h_1 =>
    rw [h.2.1]
    exact (by decide : 2 ≤ 32)
  case h_2 => exact h.2

/-- Whatever a request says about its counts, its execution accesses only the first cells of the frame, and
the reply is a short PDU with the function code of the request, marked for an exception. -/
theorem executePdu_bounded (hpos : 0 < usLen.toNat) :
    (∀ k ∈ (executePdu registers frame usLen).pucFrame.accesses, k < 32 ∨ k ∈ frame.accesses) ∧
      (executePdu registers frame usLen).reply.length ≤ 32 ∧
      ∃ fc ∈ (executePdu registers frame usLen).reply.head?,
        fc = frame.cells 0 ∨ fc = frame.cells 0 ||| mbFuncError := by
  refine ⟨executePdu_staysInside registers frame usLen, ?_⟩
  have h := executePdu_reply registers frame usLen hpos
  split at h
  case h_1 e _ =>
    rw [h.2.1]
    exact ⟨(by decide : 2 ≤ 32), _, rfl, .inr rfl⟩
  case h_2 =>
    exact ⟨h.2, _, h.1, .inl rfl⟩

/-- A request for 1000 coils is refused in a short reply, and touches nothing behind the first cells. -/
theorem executePdu_bounded_coils :
    (executePdu .start (.ofCells fun k => [1, 0, 0, 0x03, 0xe8].getD k 0) 5).reply.length ≤ 32 ∧
      ∀ k ∈ (executePdu .start (.ofCells fun k => [1, 0, 0, 0x03, 0xe8].getD k 0) 5).pucFrame.accesses,
        k < 32 ∨ k ∈ ([] : List ℕ) :=
  have h := executePdu_bounded .start (.ofCells fun k => [1, 0, 0, 0x03, 0xe8].getD k 0) 5 (by decide)
  ⟨h.2.1, h.1⟩

/-- The items that a refused request leaves are those from before, unless it has asked for a write and a read
and only the read was out of range. -/
theorem executePdu_refused (hpos : 0 < usLen.toNat) {e : MbException}
    (hrefused : (PduRequest.ofFrame frame.cells usLen.toNat).refusal = some e) :
    (executePdu registers frame usLen).reply = [frame.cells 0 ||| mbFuncError, e.code] ∧
      ((executePdu registers frame usLen).registers.device = registers.device ∨
        ∃ first count writeFirst values,
          PduRequest.ofFrame frame.cells usLen.toNat = .readWriteHoldings first count writeFirst values ∧
          writeFirst + values.length ≤ wordRowSize ∧ wordRowSize < first + count ∧
          (executePdu registers frame usLen).registers.device =
            registers.device.writeHoldings writeFirst values) := by
  have h := executePdu_reply registers frame usLen hpos
  rw [hrefused] at h
  refine ⟨h.2.1, ?_⟩
  rw [h.2.2]
  cases hrequest : PduRequest.ofFrame frame.cells usLen.toNat with
  | readWriteHoldings first count writeFirst values =>
    rw [hrequest] at hrefused
    have hout := (refuseUnless_eq_some hrefused).1
    rw [Device.afterRefusal]
    by_cases hwrite : writeFirst + values.length ≤ wordRowSize
    · rw [if_pos hwrite]
      exact .inr ⟨first, count, writeFirst, values, rfl, hwrite, by omega, rfl⟩
    · rw [if_neg hwrite]
      exact .inl rfl
  | readBits | readWords | writeCoils | writeHoldings | reportSlaveId | echo | reject => exact .inl rfl

/-- A request that writes the first holding register and asks to read from the eleventh on is refused. -/
theorem executePdu_refused_readWrite :
    (executePdu .start (.ofCells fun k => [23, 0, 10, 0, 1, 0, 0, 0, 1, 2, 0xab, 0xcd].getD k 0) 12).reply =
      [23 ||| mbFuncError, MbException.code .illegalDataAddress] :=
  (executePdu_refused .start (.ofCells fun k => [23, 0, 10, 0, 1, 0, 0, 0, 1, 2, 0xab, 0xcd].getD k 0) 12
    (by decide) (by decide)).1

end Replies

end RemoteManage.Modbus
