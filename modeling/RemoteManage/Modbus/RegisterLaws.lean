import RemoteManage.Modbus.ReplyPacking

/-!
# What the register tables are for

A table is a row of items that keep what was last written to them. Over any sequence of calls each call is
answered from the items as they are: it is refused exactly when it is out of range, an
accepted write changes the items it addresses and no others, and an accepted read delivers every
item at its place. The items of the model are the bits and words of the tables' memory, the part
behind the tables included.
-/

namespace RemoteManage.Modbus

open RemoteManage.Foundation RegisterTables

/-- A call of a callback with its buffer. -/
structure RegCall where
  request : RegRequest
  pucRegBuffer : TracedMemory UInt8

namespace RegCall

/-- The value that the call stores in a coil, if it does: the coils are the bits of the buffer, the least
significant bit of a byte first. -/
def storedCoil (c : RegCall) (i : ℕ) : Option Bool :=
  match c.request with
  | .coils _ usNCoils .write =>
    if c.request.InRange ∧ c.request.first ≤ i ∧ i < c.request.first + usNCoils.toNat then
      some (bitAt c.pucRegBuffer.cells (i - c.request.first))
    else none
  | _ => none

/-- The value that the call stores in a holding register, if it does: the registers are the big-endian words
of the buffer. -/
def storedHolding (c : RegCall) (i : ℕ) : Option UInt16 :=
  match c.request with
  | .holding _ usNRegs .write =>
    if c.request.InRange ∧ c.request.first ≤ i ∧ i < c.request.first + usNRegs.toNat then
      some (joinBytes (c.pucRegBuffer.cells (2 * (i - c.request.first)))
        (c.pucRegBuffer.cells (2 * (i - c.request.first) + 1)))
    else none
  | _ => none

/-- How many bytes of the buffer an accepted call may change. -/
def replyLength (c : RegCall) : ℕ :=
  match c.request with
  | .coils _ _ .write => 0
  | .coils _ usNCoils .read => byteCount usNCoils
  | .discrete _ usNDiscrete => byteCount usNDiscrete
  | .holding _ _ .write => 0
  | .holding _ usNRegs .read => 2 * usNRegs.toNat
  | .input _ usNRegs => 2 * usNRegs.toNat

end RegCall

/-- A buffer holds the items that a read asks for at their places. -/
def RegisterTables.Delivered (t : RegisterTables) (request : RegRequest) (cells : ℕ → UInt8) : Prop :=
  match request with
  | .coils _ usNCoils .read =>
    ∀ j < usNCoils.toNat, bitAt cells j = bitAt t.usRegCoilBuf.cells (request.first + j)
  | .discrete _ usNDiscrete =>
    ∀ j < usNDiscrete.toNat, bitAt cells j = bitAt t.usRegDiscreateBuf.cells (request.first + j)
  | .holding _ usNRegs .read =>
    ∀ j < usNRegs.toNat, joinBytes (cells (2 * j)) (cells (2 * j + 1)) =
      t.usRegHoldingBuf.cells (request.first + j)
  | .input _ usNRegs =>
    ∀ j < usNRegs.toNat, joinBytes (cells (2 * j)) (cells (2 * j + 1)) =
      t.usRegInputBuf.cells (request.first + j)
  | _ => True

/-- The tables after a call. -/
def RegisterTables.serve (t : RegisterTables) (c : RegCall) : RegisterTables :=
  (t.call c.request c.pucRegBuffer).2.1

/-- The buffer after a call. -/
def RegisterTables.reply (t : RegisterTables) (c : RegCall) : TracedMemory UInt8 :=
  (t.call c.request c.pucRegBuffer).2.2

/-- A call is answered as the items of the tables ask for. -/
structure RegisterTables.Answers (t : RegisterTables) (c : RegCall) : Prop where
  code : (t.call c.request c.pucRegBuffer).1 = .enoerr ↔ c.request.InRange
  refused : ¬ c.request.InRange → t.call c.request c.pucRegBuffer = (.enoreg, t, c.pucRegBuffer)
  coils : ∀ i, bitAt (t.serve c).usRegCoilBuf.cells i =
    (c.storedCoil i).getD (bitAt t.usRegCoilBuf.cells i)
  holdings : ∀ i, (t.serve c).usRegHoldingBuf.cells i =
    (c.storedHolding i).getD (t.usRegHoldingBuf.cells i)
  discretes : (t.serve c).usRegDiscreateBuf.cells = t.usRegDiscreateBuf.cells
  inputs : (t.serve c).usRegInputBuf.cells = t.usRegInputBuf.cells
  delivered : c.request.InRange → t.Delivered c.request (t.reply c).cells
  beyond : ∀ k, c.replyLength ≤ k → (t.reply c).cells k = c.pucRegBuffer.cells k

/-- A value that every step of a run either replaces by what is stored or leaves alone is what was stored
last. -/
theorem foldl_lastStored {S C β : Type*} (step : S → C → S) (item : S → β) (stored : C → Option β)
    (hstep : ∀ s c, item (step s c) = (stored c).getD (item s)) (s : S) (calls : List C) :
    item (calls.foldl step s) = (calls.filterMap stored).getLastD (item s) := by
  induction calls generalizing s with
  | nil => rfl
  | cons c rest ih =>
    rw [List.foldl_cons, ih, hstep]
    cases hstored : stored c with
    | none => rw [List.filterMap_cons_none hstored]; rfl
    | some value => rw [List.filterMap_cons_some hstored, List.getLastD_cons]; rfl

/-- A value that no step of a run changes is what it was. -/
theorem foldl_unchanged {S C β : Type*} (step : S → C → S) (item : S → β)
    (hstep : ∀ s c, item (step s c) = item s) (s : S) (calls : List C) :
    item (calls.foldl step s) = item s := by
  induction calls generalizing s with
  | nil => rfl
  | cons c rest ih => exact (ih (step s c)).trans (hstep s c)

section

variable (t : RegisterTables) (pucRegBuffer : TracedMemory UInt8) {usAddress count : UInt16}

/-- A request that is out of range stores nothing. -/
theorem stored_of_not_inRange {c : RegCall} (h : ¬ c.request.InRange) (i : ℕ) :
    c.storedCoil i = none ∧ c.storedHolding i = none := by
  constructor
  · rw [RegCall.storedCoil]
    split
    · exact if_neg fun hin => h hin.1
    · rfl
  · rw [RegCall.storedHolding]
    split
    · exact if_neg fun hin => h hin.1
    · rfl

/-- A request that is out of range is answered. -/
theorem answers_of_not_inRange {c : RegCall} (h : ¬ c.request.InRange) : t.Answers c := by
  have hcall := call_of_not_inRange t c.pucRegBuffer h
  have htables : t.serve c = t := by rw [serve, hcall]
  have hreply : t.reply c = c.pucRegBuffer := by rw [reply, hcall]
  constructor
  case code =>
    rw [hcall]
    exact iff_of_false ErrorCode.noConfusion h
  case refused => exact fun _ => hcall
  case coils =>
    intro i
    rw [htables, (stored_of_not_inRange h i).1]
    rfl
  case holdings =>
    intro i
    rw [htables, (stored_of_not_inRange h i).2]
    rfl
  case discretes => rw [htables]
  case inputs => rw [htables]
  case delivered => exact fun hin => absurd hin h
  case beyond =>
    intro k _
    rw [hreply]

/-- A write in range stores the bits of the buffer in the coils it addresses. -/
theorem storedCoil_write (h : (RegRequest.coils usAddress count .write).InRange) (i : ℕ) :
    RegCall.storedCoil ⟨.coils usAddress count .write, pucRegBuffer⟩ i =
      if usAddress.toNat - 1 ≤ i ∧ i < usAddress.toNat - 1 + count.toNat then
        some (bitAt pucRegBuffer.cells (i - (usAddress.toNat - 1)))
      else none :=
  if_congr (and_iff_right h) rfl rfl

/-- A write in range stores the words of the buffer in the holding registers it addresses. -/
theorem storedHolding_write (h : (RegRequest.holding usAddress count .write).InRange) (i : ℕ) :
    RegCall.storedHolding ⟨.holding usAddress count .write, pucRegBuffer⟩ i =
      if usAddress.toNat - 1 ≤ i ∧ i < usAddress.toNat - 1 + count.toNat then
        some (joinBytes (pucRegBuffer.cells (2 * (i - (usAddress.toNat - 1))))
          (pucRegBuffer.cells (2 * (i - (usAddress.toNat - 1)) + 1)))
      else none :=
  if_congr (and_iff_right h) rfl rfl

/-- A call in range that leaves the buffer alone is answered when it stores what it has to, and only
that. -/
theorem answers_of_write {c : RegCall} (h : c.request.InRange)
    (hcode : (t.call c.request c.pucRegBuffer).1 = .enoerr)
    (hcoils : ∀ i, bitAt (t.serve c).usRegCoilBuf.cells i =
      (c.storedCoil i).getD (bitAt t.usRegCoilBuf.cells i))
    (hholdings : ∀ i, (t.serve c).usRegHoldingBuf.cells i =
      (c.storedHolding i).getD (t.usRegHoldingBuf.cells i))
    (hothers : (t.serve c).usRegDiscreateBuf.cells = t.usRegDiscreateBuf.cells ∧
      (t.serve c).usRegInputBuf.cells = t.usRegInputBuf.cells)
    (hdelivered : t.Delivered c.request (t.reply c).cells)
    (hbuffer : (t.reply c).cells = c.pucRegBuffer.cells) : t.Answers c where
  code := iff_of_true hcode h
  refused hout := absurd h hout
  coils := hcoils
  holdings := hholdings
  discretes := hothers.1
  inputs := hothers.2
  delivered _ := hdelivered
  beyond k _ := congrFun hbuffer k

/-- Coils in range are written. -/
theorem answers_coils_write (h : (RegRequest.coils usAddress count .write).InRange) :
    t.Answers ⟨.coils usAddress count .write, pucRegBuffer⟩ := by
  have hcall := call_coils_write t pucRegBuffer h
  have hzero : (0 : UInt16).toNat = 0 := rfl
  have hfirst := sub_regStart_toNat usAddress h.1
  have hend := sub_regStart_add_lt usAddress count h
  apply answers_of_write t h
  case hcode => rw [hcall]
  case hcoils =>
    intro i
    rw [serve, hcall, storedCoil_write _ h]
    dsimp only
    rw [bitAt_moveBits _ _ _ _ _ (by rw [hzero]; omega) hend, hfirst, hzero, Nat.zero_add]
    split <;> rfl
  case hholdings =>
    intro i
    rw [serve, hcall]
    rfl
  case hothers =>
    rw [serve, hcall]
    exact ⟨rfl, rfl⟩
  case hdelivered => exact trivial
  case hbuffer =>
    rw [reply, hcall]
    dsimp only
    rw [moveBits_source]

/-- Holding registers in range are written. -/
theorem answers_holding_write (h : (RegRequest.holding usAddress count .write).InRange) :
    t.Answers ⟨.holding usAddress count .write, pucRegBuffer⟩ := by
  have hcall := call_holding_write t pucRegBuffer h
  apply answers_of_write t h
  case hcode => rw [hcall]
  case hcoils =>
    intro i
    rw [serve, hcall]
    rfl
  case hholdings =>
    intro i
    rw [serve, hcall, storedHolding_write _ h]
    dsimp only
    rw [writeRegisters_cells, Nat.zero_add]
    split <;> rfl
  case hothers =>
    rw [serve, hcall]
    exact ⟨rfl, rfl⟩
  case hdelivered => exact trivial
  case hbuffer =>
    rw [reply, hcall]
    dsimp only
    rw [writeRegisters_buffer]

/-- The items of all tables are the same. -/
structure SameItems (s t : RegisterTables) : Prop where
  coils : s.usRegCoilBuf.cells = t.usRegCoilBuf.cells
  discretes : s.usRegDiscreateBuf.cells = t.usRegDiscreateBuf.cells
  holdings : s.usRegHoldingBuf.cells = t.usRegHoldingBuf.cells
  inputs : s.usRegInputBuf.cells = t.usRegInputBuf.cells

/-- A call in range that stores nothing is answered when it leaves the items alone and delivers them. -/
theorem answers_of_read {c : RegCall} (h : c.request.InRange)
    (hcode : (t.call c.request c.pucRegBuffer).1 = .enoerr)
    (hstored : ∀ i, c.storedCoil i = none ∧ c.storedHolding i = none) (hsame : SameItems (t.serve c) t)
    (hdelivered : t.Delivered c.request (t.reply c).cells)
    (hbeyond : ∀ k, c.replyLength ≤ k → (t.reply c).cells k = c.pucRegBuffer.cells k) : t.Answers c where
  code := iff_of_true hcode h
  refused hout := absurd h hout
  coils i := by
    rw [hsame.coils, (hstored i).1]
    rfl
  holdings i := by
    rw [hsame.holdings, (hstored i).2]
    rfl
  discretes := hsame.discretes
  inputs := hsame.inputs
  delivered _ := hdelivered
  beyond := hbeyond

/-- Coils in range are read. -/
theorem answers_coils_read (h : (RegRequest.coils usAddress count .read).InRange) :
    t.Answers ⟨.coils usAddress count .read, pucRegBuffer⟩ := by
  have hcall := call_coils_read t pucRegBuffer h
  have hbits := bitAt_coilReply t pucRegBuffer h
  refine answers_of_read t h (by rw [hcall]) (fun _ => ⟨rfl, rfl⟩) ?_ (fun j hj => ?_) fun k hk => ?_
  · rw [serve, hcall]
    exact ⟨moveBits_source .., rfl, rfl, rfl⟩
  · exact (hbits j).trans (if_pos hj)
  · refine cell_eq_of_bitAt fun j _ => (hbits _).trans (if_neg ?_)
    change byteCount count ≤ k at hk
    rw [byteCount] at hk
    omega

/-- Discrete inputs in range are read. -/
theorem answers_discrete (h : (RegRequest.discrete usAddress count).InRange) :
    t.Answers ⟨.discrete usAddress count, pucRegBuffer⟩ := by
  have hcall := call_discrete t pucRegBuffer h
  have hbits := bitAt_discreteReply t pucRegBuffer h
  refine answers_of_read t h (by rw [hcall]) (fun _ => ⟨rfl, rfl⟩) ?_ (fun j hj => ?_) fun k hk => ?_
  · rw [serve, hcall]
    exact ⟨rfl, readDiscretes_table .., rfl, rfl⟩
  · have hbyte : j < 8 * byteCount count := by
      rw [byteCount]
      omega
    refine (hbits j).trans ?_
    rw [if_pos hbyte, decide_eq_true hj, Bool.true_and]
    rfl
  · refine cell_eq_of_bitAt fun j _ => (hbits _).trans (if_neg ?_)
    change byteCount count ≤ k at hk
    omega

/-- Registers that have been read are found in the buffer as big-endian words. -/
theorem joinBytes_readRegisters (table : TracedMemory UInt16) (iRegIndex n : ℕ) {j : ℕ} (hj : j < n) :
    joinBytes ((readRegisters table pucRegBuffer 0 iRegIndex n).2.cells (2 * j))
        ((readRegisters table pucRegBuffer 0 iRegIndex n).2.cells (2 * j + 1)) =
      table.cells (iRegIndex + j) := by
  have heven : 2 * j % 2 = 0 := Nat.mul_mod_right 2 j
  have hodd : ¬ (2 * j + 1) % 2 = 0 := by omega
  have hhalf : (2 * j + 1) / 2 = j := by omega
  rw [readRegisters_cells, readRegisters_cells, if_pos (by omega), if_pos (by omega), Nat.sub_zero,
    Nat.sub_zero, registerByte, registerByte, if_pos heven, if_neg hodd, hhalf,
    Nat.mul_div_cancel_left j (by decide)]
  exact joinBytes_highByte_lowByte _

/-- Behind the registers that have been read the buffer is as before. -/
theorem readRegisters_beyond (table : TracedMemory UInt16) (iRegIndex n : ℕ) {k : ℕ} (hk : 2 * n ≤ k) :
    (readRegisters table pucRegBuffer 0 iRegIndex n).2.cells k = pucRegBuffer.cells k := by
  rw [readRegisters_cells, if_neg (by omega)]

/-- Holding registers in range are read. -/
theorem answers_holding_read (h : (RegRequest.holding usAddress count .read).InRange) :
    t.Answers ⟨.holding usAddress count .read, pucRegBuffer⟩ := by
  have hcall := call_holding_read t pucRegBuffer h
  refine answers_of_read t h (by rw [hcall]) (fun _ => ⟨rfl, rfl⟩) ?_ (fun j hj => ?_) fun k hk => ?_
  · rw [serve, hcall]
    exact ⟨rfl, rfl, readRegisters_table .., rfl⟩
  · rw [reply, hcall]
    exact joinBytes_readRegisters _ _ _ _ hj
  · rw [reply, hcall]
    exact readRegisters_beyond _ _ _ _ hk

/-- Input registers in range are read. -/
theorem answers_input (h : (RegRequest.input usAddress count).InRange) :
    t.Answers ⟨.input usAddress count, pucRegBuffer⟩ := by
  have hcall := call_input t pucRegBuffer h
  refine answers_of_read t h (by rw [hcall]) (fun _ => ⟨rfl, rfl⟩) ?_ (fun j hj => ?_) fun k hk => ?_
  · rw [serve, hcall]
    exact ⟨rfl, rfl, rfl, readRegisters_table ..⟩
  · rw [reply, hcall]
    exact joinBytes_readRegisters _ _ _ _ hj
  · rw [reply, hcall]
    exact readRegisters_beyond _ _ _ _ hk

end

/-- Every call is answered. -/
theorem answers (t : RegisterTables) (c : RegCall) : t.Answers c := by
  obtain ⟨request, pucRegBuffer⟩ := c
  by_cases h : request.InRange
  · cases request with
    | coils usAddress usNCoils eMode =>
      cases eMode with
      | read => exact answers_coils_read t pucRegBuffer h
      | write => exact answers_coils_write t pucRegBuffer h
    | discrete usAddress usNDiscrete => exact answers_discrete t pucRegBuffer h
    | holding usAddress usNRegs eMode =>
      cases eMode with
      | read => exact answers_holding_read t pucRegBuffer h
      | write => exact answers_holding_write t pucRegBuffer h
    | input usAddress usNRegs => exact answers_input t pucRegBuffer h
  · exact answers_of_not_inRange t h

/-- Every call of any sequence is answered from the items as they are, and an item is what was stored in it
last. -/
theorem foldl_serve_answers (t : RegisterTables) (calls : List RegCall) (c : RegCall) :
    (calls.foldl serve t).Answers c ∧
      (∀ i, bitAt (calls.foldl serve t).usRegCoilBuf.cells i =
        (calls.filterMap (RegCall.storedCoil · i)).getLastD (bitAt t.usRegCoilBuf.cells i)) ∧
      (∀ i, (calls.foldl serve t).usRegHoldingBuf.cells i =
        (calls.filterMap (RegCall.storedHolding · i)).getLastD (t.usRegHoldingBuf.cells i)) ∧
      (calls.foldl serve t).usRegDiscreateBuf.cells = t.usRegDiscreateBuf.cells ∧
      (calls.foldl serve t).usRegInputBuf.cells = t.usRegInputBuf.cells := by
  refine ⟨answers _ c, fun i => ?_, fun i => ?_, ?_, ?_⟩
  · exact foldl_lastStored serve (fun s => bitAt s.usRegCoilBuf.cells i) (RegCall.storedCoil · i)
      (fun s c => (answers s c).coils i) t calls
  · exact foldl_lastStored serve (fun s => s.usRegHoldingBuf.cells i) (RegCall.storedHolding · i)
      (fun s c => (answers s c).holdings i) t calls
  · exact foldl_unchanged serve (fun s => s.usRegDiscreateBuf.cells) (fun s c => (answers s c).discretes) t
      calls
  · exact foldl_unchanged serve (fun s => s.usRegInputBuf.cells) (fun s c => (answers s c).inputs) t calls

end RemoteManage.Modbus
