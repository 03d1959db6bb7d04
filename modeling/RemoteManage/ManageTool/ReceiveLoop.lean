import RemoteManage.Foundation.TurnLoop
import RemoteManage.ManageTool.ReplySegmentation

/-!
# The receiver on any device

The loop of `CheckReceiveData` on a buffer of any size and on a device that may answer each call of
`DeviceRead` as it likes: with nothing, with an error, or with any bytes, of which no more are stored than
are asked for. The state carries what the loop has done with the buffer, so that all of it can be
shown to stay inside. The loop returns because the bytes received grow, or the number of calls in a
row that have brought nothing does.

The constructor takes the size of the buffer as a `uint8_t`. The tool's clients have 1200 bytes and
hand over 176, so a reply that is longer never arrives.
-/

namespace RemoteManage.ManageTool

open RemoteManage.Foundation RemoteManage.Common

/-- What a call of `DeviceRead` comes to: its result, and the bytes it has stored. -/
structure DeviceAnswer (nMaxSize : UInt16) where
  result : ℤ
  stored : List UInt8
  result_le : result ≤ stored.length
  stored_le : stored.length ≤ nMaxSize.toNat

/-- A device whose states are of the type `δ`. -/
abbrev Device (δ : Type*) := δ → (nMaxSize : UInt16) → DeviceAnswer nMaxSize × δ

/-- No more bytes are said to be read than are stored. -/
theorem result_le_length (stored : List UInt8) : (stored.length : ℤ) ≤ stored.length := le_rfl

/-- The answer that brings some bytes. -/
def DeviceAnswer.bytes {nMaxSize : UInt16} (stored : List UInt8)
    (stored_le : stored.length ≤ nMaxSize.toNat) : DeviceAnswer nMaxSize :=
  ⟨stored.length, stored, result_le_length stored, stored_le⟩

/-- No more bytes are stored than are asked for. -/
theorem length_take_asked_le (left : List UInt8) (nMaxSize : UInt16) :
    (left.take nMaxSize.toNat).length ≤ nMaxSize.toNat := List.length_take_le _ _

/-- A device with bytes that are completely available: a call brings as many as are asked for and are left. -/
def available : Device (List UInt8) := fun left nMaxSize =>
  (.bytes (left.take nMaxSize.toNat) (length_take_asked_le left nMaxSize), left.drop nMaxSize.toNat)

/-- What the loop does with the buffer. -/
inductive ReceiveAccess where
  /-- `m_RxBufSize` is set. -/
  | size (rxBufSize : ℤ)
  /-- `DeviceRead` is called for so many bytes at a position. -/
  | deviceRead (start nMaxSize : ℤ)
  /-- A byte goes into the comparison of the checksums. -/
  | checksum (index rxBufSize : ℤ)

/-- The access stays inside the part of the buffer that it may use. -/
def ReceiveAccess.Safe (maxBufSize : ℤ) : ReceiveAccess → Prop
  | size rxBufSize => 0 ≤ rxBufSize ∧ rxBufSize ≤ maxBufSize
  | deviceRead start nMaxSize => 0 ≤ start ∧ 0 ≤ nMaxSize ∧ start + nMaxSize ≤ maxBufSize
  | checksum index rxBufSize => 0 ≤ index ∧ index < rxBufSize

/-- The part of `protocol_info` that receives, with its device and what it has done with the buffer. -/
structure ReceiveState (n : ℕ) (δ : Type*) where
  rxBuffer : FixedBuffer UInt8 n
  maxBufSize : ℤ
  rxBufSize : ℤ
  rxDataSize : ℕ
  rxTimout : ℕ
  device : δ
  log : List ReceiveAccess

variable {n : ℕ} {δ : Type*}

/-- The constructor. -/
def receiveState (rxBuffer : FixedBuffer UInt8 n) (nMaxBufSize : UInt8) (device : δ) : ReceiveState n δ :=
  ⟨rxBuffer, nMaxBufSize.toNat, 0, 0, 0, device, []⟩

/-- The client of `TcpClientSocketInit`. -/
def tcpClientSocketInit (rxBuffer : Vector UInt8 buffCacheSize) (device : δ) : ReceiveState buffCacheSize δ :=
  receiveState ⟨rxBuffer, false⟩ (.ofNat buffCacheSize) device

/-- `calculate_crc(&pStart[start], nSize)` on a buffer of any size. -/
def calculateCrcOf (pStart : FixedBuffer UInt8 n) (start nSize : ℕ) : UInt16 :=
  if nSize = 0 then 0 else crc16 0xFFFF (pStart.slice start (nSize % 2 ^ 16))

namespace ReceiveState

/-- An assignment to `m_RxBufSize`. -/
def setSize (s : ReceiveState n δ) (rxBufSize : ℤ) : ReceiveState n δ :=
  { s with rxBufSize, log := s.log ++ [.size rxBufSize] }

/-- The counters at the start of a call. -/
def restart (s : ReceiveState n δ) : ReceiveState n δ := { s.setSize 0 with rxTimout := 0, rxDataSize := 0 }

variable (device : Device δ)

/-- `DeviceRead(&m_pRxBuffer[m_RxBufSize], nMaxSize)`. -/
def deviceRead (s : ReceiveState n δ) (nMaxSize : ℤ) : ℤ × ReceiveState n δ :=
  let answer := device s.device (.ofInt nMaxSize)
  (answer.1.result,
    { s with
      rxBuffer := s.rxBuffer.writeAll s.rxBufSize.toNat answer.1.stored
      device := answer.2
      log := s.log ++ [.deviceRead s.rxBufSize nMaxSize] })

/-- The first half of a turn: the head byte is looked for. -/
def readHead (isSignalCheckHead : Bool) (s : ReceiveState n δ) : ReceiveState n δ :=
  if s.rxBufSize = 0 ∧ isSignalCheckHead = false then
    let (nRead, s) := s.deviceRead device 1
    if nRead > 0 ∧ s.rxBuffer.read 0 = protocolRecvHead then
      { s.setSize (s.rxBufSize + 1) with rxTimout := 0 }
    else { s.setSize 0 with rxTimout := s.rxTimout + 1 }
  else s

/-- What is made of the bytes once the length of the reply can be read. -/
def checkFrame (s : ReceiveState n δ) : LoopTurn (ReceiveState n δ) ReceiveResult :=
  let s := { s with rxDataSize := (joinBytes (s.rxBuffer.read 1) (s.rxBuffer.read 2)).toNat }
  let nLen := s.rxDataSize + protocolRecvHeadSize + protocolCrcSize
  if s.rxBufSize ≥ (nLen : ℤ) then
    let crcRecv := joinBytes (s.rxBuffer.read (nLen - 2)) (s.rxBuffer.read (nLen - 1))
    let crcCacl := calculateCrcOf s.rxBuffer 1 (nLen - protocolCrcSize - 1)
    let s :=
      { s with log := s.log ++ (List.range' 1 (nLen - 1)).map fun index : ℕ => .checksum index s.rxBufSize }
    if crcRecv = crcCacl then .done .ok s else .done .crcError s
  else .again s

/-- What is made of a read of the second half of a turn. -/
def received (isSignalCheckHead : Bool) (nRead : ℤ) (s : ReceiveState n δ) :
    LoopTurn (ReceiveState n δ) ReceiveResult :=
  if nRead > 0 then
    if isSignalCheckHead = true ∧ s.rxBuffer.read 0 ≠ protocolRecvHead then .done .fail (s.setSize 0)
    else
      let s := { s with rxTimout := 0 }.setSize (s.rxBufSize + nRead)
      if nRead ≥ protocolRecvHeadSize then s.checkFrame else .again s
  else .again { s with rxTimout := s.rxTimout + 1 }

/-- The second half of a turn: the rest of the reply is read. -/
def readRest (isSignalCheckHead : Bool) (s : ReceiveState n δ) : LoopTurn (ReceiveState n δ) ReceiveResult :=
  if s.rxBufSize > 0 ∨ isSignalCheckHead = true then
    let (nRead, s) := s.deviceRead device (s.maxBufSize - s.rxBufSize)
    s.received isSignalCheckHead nRead
  else .again s

/-- The end of a turn: too many calls in a row have brought nothing. -/
def checkTimeout : LoopTurn (ReceiveState n δ) ReceiveResult → LoopTurn (ReceiveState n δ) ReceiveResult
  | .again s => if s.rxTimout ≠ 0 ∧ s.rxTimout > protocolTimeout then .done .timeout s else .again s
  | .done result s => .done result s

/-- One turn of the loop of `CheckReceiveData`. -/
def turn (isSignalCheckHead : Bool) (s : ReceiveState n δ) : LoopTurn (ReceiveState n δ) ReceiveResult :=
  checkTimeout ((s.readHead device isSignalCheckHead).readRest device isSignalCheckHead)

/-- What `k` turns of `CheckReceiveData` come to. -/
def checkReceiveData (isSignalCheckHead : Bool) (k : ℕ) (s : ReceiveState n δ) :
    LoopTurn (ReceiveState n δ) ReceiveResult :=
  LoopTurn.iterate (turn device isSignalCheckHead) k s.restart

/-- All has stayed inside the buffer, and the first byte received is the head. -/
structure InBounds (max : ℤ) (s : ReceiveState n δ) : Prop where
  maxBufSize : s.maxBufSize = max
  size_nonneg : 0 ≤ s.rxBufSize
  size_le : s.rxBufSize ≤ max
  intact : s.rxBuffer.overrun = false
  log : ∀ access ∈ s.log, access.Safe max
  head : 0 < s.rxBufSize → s.rxBuffer.read 0 = protocolRecvHead

/-- The reply that has been accepted: its head, its length, all of its bytes, and its checksum. The size of a
buffer is a `uint8_t`; in one of 65539 bytes or more the length of the checksum would overflow. -/
structure Accepted (s : ReceiveState n δ) : Prop where
  head : s.rxBuffer.read 0 = protocolRecvHead
  length : s.rxDataSize = (joinBytes (s.rxBuffer.read 1) (s.rxBuffer.read 2)).toNat
  received : (s.rxDataSize + 5 : ℕ) ≤ s.rxBufSize
  checksum : s.maxBufSize < 65539 →
    crc16 0xFFFF (s.rxBuffer.slice 1 (s.rxDataSize + 2)) =
      joinBytes (s.rxBuffer.read (s.rxDataSize + 3)) (s.rxBuffer.read (s.rxDataSize + 4))

/-- More has been received, or one more call has brought nothing. -/
def Progress (s t : ReceiveState n δ) : Prop :=
  s.rxBufSize < t.rxBufSize ∨ t.rxBufSize = s.rxBufSize ∧ t.rxTimout = s.rxTimout + 1

section InBounds

variable {max : ℤ} {s : ReceiveState n δ}

/-- Setting the size to one that fits. -/
theorem inBounds_setSize (h : InBounds max s) (size : ℤ) (hnonneg : 0 ≤ size) (hle : size ≤ max)
    (hhead : 0 < size → s.rxBuffer.read 0 = protocolRecvHead) : InBounds max (s.setSize size) where
  maxBufSize := h.maxBufSize
  size_nonneg := hnonneg
  size_le := hle
  intact := h.intact
  log := List.forall_mem_append.mpr ⟨h.log, List.forall_mem_singleton.mpr ⟨hnonneg, hle⟩⟩
  head := hhead

/-- Setting the size to zero. -/
theorem inBounds_setSize_zero (h : InBounds max s) : InBounds max (s.setSize 0) :=
  inBounds_setSize h 0 le_rfl (h.size_nonneg.trans h.size_le) fun hlt => absurd hlt (lt_irrefl 0)

/-- The other counters do not matter. -/
theorem inBounds_counters (h : InBounds max s) (rxTimout rxDataSize : ℕ) :
    InBounds max { s with rxTimout, rxDataSize } :=
  ⟨h.maxBufSize, h.size_nonneg, h.size_le, h.intact, h.log, h.head⟩

/-- No more bytes are asked for than the `uint16_t` says. -/
theorem toNat_ofInt_le {x : ℤ} (h : 0 ≤ x) : ((UInt16.ofInt x).toNat : ℤ) ≤ x := by
  rw [UInt16.ofInt, UInt16.toNat_ofNat']
  omega

/-- A call for what fits stays inside, whatever the device does, and brings no more than was asked for. -/
theorem inBounds_deviceRead (hmax : max ≤ n) (h : InBounds max s) (nMaxSize : ℤ) (hnonneg : 0 ≤ nMaxSize)
    (hfits : s.rxBufSize + nMaxSize ≤ max) :
    InBounds max (s.deviceRead device nMaxSize).2 ∧ (s.deviceRead device nMaxSize).1 ≤ nMaxSize := by
  have hsize := h.size_nonneg
  have hasked := toNat_ofInt_le hnonneg
  have hstored := (device s.device (.ofInt nMaxSize)).1.stored_le
  have hresult := (device s.device (.ofInt nMaxSize)).1.result_le
  refine ⟨⟨h.maxBufSize, hsize, h.size_le, ?_, ?_, ?_⟩, ?_⟩
  · exact (s.rxBuffer.writeAll_overrun _ _ (by omega)).trans h.intact
  · exact List.forall_mem_append.mpr ⟨h.log, List.forall_mem_singleton.mpr ⟨hsize, hnonneg, hfits⟩⟩
  · intro hpos
    have hstart : 0 < s.rxBufSize.toNat := by
      change 0 < s.rxBufSize at hpos
      omega
    exact (s.rxBuffer.read_writeAll_of_lt _ hstart).trans (h.head hpos)
  · change (device s.device (.ofInt nMaxSize)).1.result ≤ nMaxSize
    omega

/-- The first half of a turn leaves a state in which something has been received or may be, or one more call
has brought nothing. -/
theorem readHead_inBounds (isSignalCheckHead : Bool) (hpos : 1 ≤ max) (hmax : max ≤ n) (h : InBounds max s) :
    let t := s.readHead device isSignalCheckHead
    InBounds max t ∧
      ((t.rxBufSize > 0 ∨ isSignalCheckHead = true) ∧ (t = s ∨ s.rxBufSize < t.rxBufSize) ∨
        ¬ (t.rxBufSize > 0 ∨ isSignalCheckHead = true) ∧ Progress s t) := by
  unfold readHead
  split
  case isTrue hlook =>
    obtain ⟨hzero, rfl⟩ := hlook
    obtain ⟨hread, -⟩ := inBounds_deviceRead device hmax h 1 (by omega) (by omega)
    have hsize : (s.deviceRead device 1).2.rxBufSize = 0 := hzero
    dsimp only
    split
    case isTrue hhead =>
      have hset := inBounds_setSize hread ((s.deviceRead device 1).2.rxBufSize + 1) (by omega)
        (by omega) fun _ => hhead.2
      refine ⟨inBounds_counters hset 0 _, .inl ⟨.inl ?_, .inr ?_⟩⟩
      · change (s.deviceRead device 1).2.rxBufSize + 1 > 0
        omega
      · change s.rxBufSize < (s.deviceRead device 1).2.rxBufSize + 1
        omega
    case isFalse =>
      refine ⟨inBounds_counters (inBounds_setSize_zero hread) _ _, .inr ⟨?_, .inr ⟨hzero.symm, rfl⟩⟩⟩
      rintro (hpos | hcheck)
      · exact lt_irrefl 0 hpos
      · exact Bool.false_ne_true hcheck
  case isFalse hlook =>
    refine ⟨h, .inl ⟨?_, .inl rfl⟩⟩
    have hnonneg := h.size_nonneg
    cases isSignalCheckHead with
    | true => exact .inr rfl
    | false => exact .inl (lt_of_le_of_ne hnonneg fun hzero => hlook ⟨hzero.symm, rfl⟩)

/-- A reply whose length can be read is accepted, refused, or not complete yet. -/
theorem checkFrame_ensures (h : InBounds max s) (hsize : 0 < s.rxBufSize) :
    s.checkFrame.Ensures
      (fun t => InBounds max t ∧ t.rxBufSize = s.rxBufSize ∧ t.rxTimout = s.rxTimout)
      fun result t => InBounds max t ∧ (result = .ok → Accepted t) := by
  unfold checkFrame
  dsimp only
  set rxDataSize := (joinBytes (s.rxBuffer.read 1) (s.rxBuffer.read 2)).toNat
  change LoopTurn.Ensures _ _ (if s.rxBufSize ≥ ((rxDataSize + 5 : ℕ) : ℤ) then _ else _)
  split
  case isTrue hwhole =>
    have hlog : ∀ access ∈ (List.range' 1 (rxDataSize + 5 - 1)).map
        (fun index : ℕ => ReceiveAccess.checksum index s.rxBufSize), access.Safe max := by
      refine List.forall_mem_map.mpr fun index hindex => ⟨Int.natCast_nonneg _, ?_⟩
      rw [List.mem_range'_1] at hindex
      omega
    have hdone : InBounds max { s with
        rxDataSize := rxDataSize
        log := s.log ++ (List.range' 1 (rxDataSize + 5 - 1)).map
          fun index : ℕ => ReceiveAccess.checksum index s.rxBufSize } :=
      ⟨h.maxBufSize, h.size_nonneg, h.size_le, h.intact, List.forall_mem_append.mpr ⟨h.log, hlog⟩, h.head⟩
    split
    case isTrue hcrc =>
      refine ⟨hdone, fun _ => ⟨h.head hsize, rfl, hwhole, fun hlt => ?_⟩⟩
      have hle := h.size_le
      have hshort : rxDataSize + 2 < 2 ^ 16 := by
        change s.maxBufSize < 65539 at hlt
        rw [h.maxBufSize] at hlt
        omega
      change joinBytes (s.rxBuffer.read (rxDataSize + 3)) (s.rxBuffer.read (rxDataSize + 4)) =
        calculateCrcOf s.rxBuffer 1 (rxDataSize + 2) at hcrc
      rw [calculateCrcOf, if_neg (Nat.succ_ne_zero _), Nat.mod_eq_of_lt hshort] at hcrc
      exact hcrc.symm
    case isFalse => exact ⟨hdone, fun hok => nomatch hok⟩
  case isFalse => exact ⟨inBounds_counters h _ _, rfl, rfl⟩

/-- What a read of the second half of a turn leads to. -/
theorem received_ensures (isSignalCheckHead : Bool) {nRead : ℤ} (h : InBounds max s)
    (hreads : s.rxBufSize > 0 ∨ isSignalCheckHead = true) (hroom : s.rxBufSize + nRead ≤ max) :
    (s.received isSignalCheckHead nRead).Ensures (fun t => InBounds max t ∧ Progress s t)
      fun result t => InBounds max t ∧ (result = .ok → Accepted t) := by
  have hnonneg := h.size_nonneg
  have hle := h.size_le
  unfold received
  split
  case isTrue hpos =>
    split
    case isTrue =>
      exact ⟨inBounds_setSize_zero h, fun hok => nomatch hok⟩
    case isFalse hfail =>
      -- the first byte has been checked, now or when the head was looked for
      have hhead : s.rxBuffer.read 0 = protocolRecvHead := by
        rcases hreads with hbegun | rfl
        · exact h.head hbegun
        · exact not_not.mp fun hne => hfail ⟨rfl, hne⟩
      have hset : InBounds max ({ s with rxTimout := 0 }.setSize (s.rxBufSize + nRead)) :=
        inBounds_setSize (inBounds_counters h 0 _) _ (by omega) hroom fun _ => hhead
      dsimp only
      split
      · have hsizePos : 0 < s.rxBufSize + nRead := by omega
        refine (checkFrame_ensures hset hsizePos).imp_again ?_
        rintro t ⟨ht, hsize, -⟩
        refine ⟨ht, .inl ?_⟩
        rw [hsize]
        change s.rxBufSize < s.rxBufSize + nRead
        omega
      · refine ⟨hset, .inl ?_⟩
        change s.rxBufSize < s.rxBufSize + nRead
        omega
  case isFalse => exact ⟨inBounds_counters h _ _, .inr ⟨rfl, rfl⟩⟩

/-- The second half of a turn. -/
theorem readRest_ensures (isSignalCheckHead : Bool) (hmax : max ≤ n) (h : InBounds max s)
    (hreads : s.rxBufSize > 0 ∨ isSignalCheckHead = true) :
    (s.readRest device isSignalCheckHead).Ensures (fun t => InBounds max t ∧ Progress s t)
      fun result t => InBounds max t ∧ (result = .ok → Accepted t) := by
  have hle := h.size_le
  have hmaxBufSize := h.maxBufSize
  obtain ⟨hread, hresult⟩ := inBounds_deviceRead device hmax h (s.maxBufSize - s.rxBufSize)
    (by omega) (by omega)
  have hroom : s.rxBufSize + (s.deviceRead device (s.maxBufSize - s.rxBufSize)).1 ≤ max := by omega
  rw [readRest, if_pos hreads]
  exact received_ensures isSignalCheckHead hread hreads hroom

/-- A turn that goes on has found the end of the calls that bring nothing in time. -/
theorem checkTimeout_ensures {t : LoopTurn (ReceiveState n δ) ReceiveResult}
    {inv : ReceiveState n δ → Prop} {post : ReceiveResult → ReceiveState n δ → Prop} (h : t.Ensures inv post)
    (htimeout : ∀ s, inv s → post .timeout s) :
    (checkTimeout t).Ensures (fun s => inv s ∧ s.rxTimout ≤ protocolTimeout) post := by
  cases t with
  | again s =>
    rw [checkTimeout]
    split
    case isTrue => exact htimeout s h
    case isFalse hin => exact ⟨h, by omega⟩
  | done result s => exact h

/-- What is left to be received, and within it the calls in a row that may still bring nothing. -/
def remaining (max : ℤ) (s : ReceiveState n δ) : ℕ :=
  (max - s.rxBufSize).toNat * (protocolTimeout + 1) + (protocolTimeout + 1 - s.rxTimout)

/-- Progress in time leaves less. -/
theorem remaining_lt {t : ReceiveState n δ} (hle : t.rxBufSize ≤ max) (hs : s.rxTimout ≤ protocolTimeout)
    (h : Progress s t) : remaining max t < remaining max s := by
  have htimeout : protocolTimeout = 3000 := rfl
  unfold remaining
  rw [htimeout] at hs ⊢
  rcases h with hmore | ⟨hsame, hcount⟩
  · have hroom : (max - t.rxBufSize).toNat + 1 ≤ (max - s.rxBufSize).toNat := by omega
    have hmul := Nat.mul_le_mul_right 3001 hroom
    omega
  · rw [hsame, hcount]
    omega

/-- A turn that goes on has stayed in bounds and leaves less; one that returns has stayed in bounds, and has
accepted a reply when it says so. -/
theorem turn_ensures (isSignalCheckHead : Bool) (hpos : 1 ≤ max) (hmax : max ≤ n) (h : InBounds max s)
    (htimeout : s.rxTimout ≤ protocolTimeout) :
    (s.turn device isSignalCheckHead).Ensures
      (fun t => (InBounds max t ∧ t.rxTimout ≤ protocolTimeout) ∧ remaining max t < remaining max s)
      fun result t => InBounds max t ∧ (result = .ok → Accepted t) := by
  obtain ⟨hhead, hcases⟩ := readHead_inBounds device isSignalCheckHead hpos hmax h
  have hrest : ((s.readHead device isSignalCheckHead).readRest device isSignalCheckHead).Ensures
      (fun t => InBounds max t ∧ Progress s t)
      fun result t => InBounds max t ∧ (result = .ok → Accepted t) := by
    rcases hcases with ⟨hreads, hstart⟩ | ⟨hnone, hprogress⟩
    · refine (readRest_ensures device isSignalCheckHead hmax hhead hreads).imp_again ?_
      rintro t ⟨ht, hprogress⟩
      rcases hstart with hsame | hmore
      · rw [hsame] at hprogress
        exact ⟨ht, hprogress⟩
      · refine ⟨ht, .inl ?_⟩
        rcases hprogress with hlater | ⟨heq, -⟩
        · exact hmore.trans hlater
        · rwa [heq]
    · rw [readRest, if_neg hnone]
      exact ⟨hhead, hprogress⟩
  refine (checkTimeout_ensures hrest fun t ht => ⟨ht.1, fun hok => nomatch hok⟩).imp_again ?_
  rintro t ⟨⟨ht, hprogress⟩, hlast⟩
  exact ⟨⟨ht, hlast⟩, remaining_lt ht.size_le htimeout hprogress⟩

/-- A call starts in bounds. -/
theorem inBounds_restart (hmaxBufSize : s.maxBufSize = max) (hpos : 1 ≤ max)
    (hintact : s.rxBuffer.overrun = false) (hlog : s.log = []) : InBounds max s.restart where
  maxBufSize := hmaxBufSize
  size_nonneg := le_rfl
  size_le := Int.le_trans Int.one_nonneg hpos
  intact := hintact
  log := by
    change ∀ access ∈ s.log ++ [.size 0], access.Safe max
    rw [hlog]
    exact List.forall_mem_singleton.mpr ⟨le_rfl, Int.le_trans Int.one_nonneg hpos⟩
  head := fun hlt => absurd hlt (lt_irrefl 0)

/-- What any number of turns of a call ensures. -/
theorem checkReceiveData_ensures (isSignalCheckHead : Bool) (hpos : 1 ≤ max) (hmax : max ≤ n)
    (h : InBounds max s.restart) (k : ℕ) :
    (s.checkReceiveData device isSignalCheckHead k).Ensures
      (fun t => InBounds max t ∧ t.rxTimout ≤ protocolTimeout)
      fun result t => InBounds max t ∧ (result = .ok → Accepted t) :=
  LoopTurn.iterate_ensures
    (fun _ ht => (turn_ensures device isSignalCheckHead hpos hmax ht.1 ht.2).imp_again
      fun _ hagain => hagain.1)
    ⟨h, Nat.zero_le _⟩ k

end InBounds

/-- The state of a receiver at the start of a call: its buffer has at least as many bytes as it may use. -/
structure Ready (s : ReceiveState n δ) : Prop where
  pos : 1 ≤ s.maxBufSize
  fits : s.maxBufSize ≤ n
  intact : s.rxBuffer.overrun = false
  log : s.log = []

/-- A client is ready for a call. -/
theorem tcpClientSocketInit_ready (rxBuffer : Vector UInt8 buffCacheSize) (device : δ) :
    Ready (tcpClientSocketInit rxBuffer device) where
  pos := show (1 : ℤ) ≤ (UInt8.ofNat buffCacheSize).toNat by decide
  fits := show ((UInt8.ofNat buffCacheSize).toNat : ℤ) ≤ buffCacheSize by decide
  intact := rfl
  log := rfl

/-- A call of `CheckReceiveData` returns on every device; whatever number of turns it has taken, it has stayed
inside the buffer; and it has accepted a reply when it says so. -/
theorem checkReceiveData_returns (device : Device δ) (isSignalCheckHead : Bool) (s : ReceiveState n δ)
    (h : Ready s) :
    (∃ k result t, s.checkReceiveData device isSignalCheckHead k = .done result t) ∧
      ∀ k, let t := (s.checkReceiveData device isSignalCheckHead k).state
        0 ≤ t.rxBufSize ∧ t.rxBufSize ≤ s.maxBufSize ∧ t.rxBuffer.overrun = false ∧
          (∀ access ∈ t.log, access.Safe s.maxBufSize) ∧
          (s.checkReceiveData device isSignalCheckHead k = .done .ok t → Accepted t) := by
  have hstart := inBounds_restart rfl h.pos h.intact h.log
  constructor
  · exact LoopTurn.exists_iterate_done (remaining s.maxBufSize)
      (fun _ ht => turn_ensures device isSignalCheckHead h.pos h.fits ht.1 ht.2) ⟨hstart, Nat.zero_le _⟩
  · intro k
    have hensures := checkReceiveData_ensures device isSignalCheckHead h.pos h.fits hstart k
    cases hk : s.checkReceiveData device isSignalCheckHead k with
    | again t =>
      rw [hk] at hensures
      obtain ⟨ht, -⟩ := hensures
      exact ⟨ht.size_nonneg, ht.size_le, ht.intact, ht.log, fun hdone => nomatch hdone⟩
    | done result t =>
      rw [hk] at hensures
      obtain ⟨ht, haccepted⟩ := hensures
      refine ⟨ht.size_nonneg, ht.size_le, ht.intact, ht.log, fun hdone => haccepted ?_⟩
      exact (LoopTurn.done.inj hdone).1

/-- A call of a client whose device stays silent. -/
theorem checkReceiveData_returns_silent :
    ∃ k result t, (tcpClientSocketInit (.replicate buffCacheSize 0) []).checkReceiveData available false k =
      .done result t :=
  (checkReceiveData_returns available false _ (tcpClientSocketInit_ready (.replicate buffCacheSize 0) [])).1

end ReceiveState

/-- A call of a client at whose device a reply is available delivers the whole of it. -/
def DeliversWhole (rxBuffer : Vector UInt8 buffCacheSize) (data : List UInt8) : Prop :=
  ∃ k t, (tcpClientSocketInit rxBuffer (replyFrame data)).checkReceiveData available false k = .done .ok t ∧
    t.rxBuffer.contents (replyFrame data).length = replyFrame data

namespace ReceiveState

/-- The state has some bytes in its buffer, and others are left at its device. -/
structure Holding (s : ReceiveState n (List UInt8)) (held left : List UInt8) : Prop where
  size : s.rxBufSize = held.length
  contents : s.rxBuffer.contents held.length = held
  device : s.device = left

/-- A call brings the next bytes to where the ones before them end. -/
theorem deviceRead_available {s : ReceiveState n (List UInt8)} {held left : List UInt8}
    (h : Holding s held left) (asked : ℕ) (hasked : asked < 2 ^ 16) (hfits : held.length + asked ≤ n) :
    (s.deviceRead available asked).1 = (left.take asked).length ∧
      (s.deviceRead available asked).2.rxBuffer.contents (held.length + (left.take asked).length) =
        held ++ left.take asked ∧
      (s.deviceRead available asked).2.device = left.drop asked := by
  have hnum : (UInt16.ofInt asked).toNat = asked := by
    rw [UInt16.ofInt, UInt16.toNat_ofNat']
    omega
  have hsize : s.rxBufSize.toNat = held.length := by rw [h.size, Int.toNat_natCast]
  have hlength := List.length_take_le asked left
  simp only [deviceRead, available, DeviceAnswer.bytes, hnum, h.device, hsize, true_and, and_true]
  rw [FixedBuffer.writeAll_contents _ _ _ (by omega), h.contents]

/-- The head of what is available is found at once. -/
theorem readHead_available {s : ReceiveState n (List UInt8)} {left : List UInt8} (hn : 1 ≤ n)
    (h : Holding s [] (protocolRecvHead :: left)) :
    Holding (s.readHead available false) [protocolRecvHead] left ∧
      (s.readHead available false).maxBufSize = s.maxBufSize := by
  obtain ⟨hresult, hcontents, hdevice⟩ := deviceRead_available h 1 (by decide) (by simpa using hn)
  have hpos : (s.deviceRead available 1).1 = 1 := hresult
  have hhead : (s.deviceRead available 1).2.rxBuffer.read 0 = protocolRecvHead :=
    FixedBuffer.read_eq_of_contents _ hcontents Nat.one_pos 0
  have hsize : (s.deviceRead available 1).2.rxBufSize = 0 := h.size
  rw [readHead, if_pos ⟨h.size, rfl⟩]
  dsimp only
  rw [if_pos ⟨by rw [hpos]; exact Int.one_pos, hhead⟩]
  refine ⟨⟨?_, hcontents, hdevice⟩, rfl⟩
  change (s.deviceRead available 1).2.rxBufSize + 1 = 1
  rw [hsize, zero_add]

/-- A reply that is in the buffer as a whole is accepted. -/
theorem checkFrame_of_whole {s : ReceiveState n δ} {data : List UInt8} (hshort : data.length + 2 < 2 ^ 16)
    (hsize : s.rxBufSize = (replyFrame data).length)
    (hcontents : s.rxBuffer.contents (replyFrame data).length = replyFrame data) :
    ∃ t, s.checkFrame = .done .ok t ∧ t.rxBuffer = s.rxBuffer := by
  have hlength := replyFrame_length data
  have hdata := joinBytes_of_contents hshort hcontents (List.prefix_refl _)
    (by rw [hlength]; exact Nat.le_add_left _ _)
  have hcrc : joinBytes (s.rxBuffer.read (data.length + 3)) (s.rxBuffer.read (data.length + 4)) =
      calculateCrcOf s.rxBuffer 1 (data.length + 2) := by
    rw [calculateCrcOf, if_neg (Nat.succ_ne_zero _), Nat.mod_eq_of_lt hshort]
    exact checksum_of_contents hcontents
  have hend : s.rxBufSize ≥ ((data.length + protocolRecvHeadSize + protocolCrcSize : ℕ) : ℤ) := by
    rw [hsize, hlength]
    exact le_rfl
  simp only [checkFrame, hdata]
  rw [if_pos hend, if_pos]
  · exact ⟨_, rfl, rfl⟩
  · exact hcrc

/-- The rest of a reply that fits is read at once. -/
theorem readRest_available {s : ReceiveState n (List UInt8)} {data left : List UInt8}
    (h : Holding s [protocolRecvHead] left) (hframe : protocolRecvHead :: left = replyFrame data) {max : ℕ}
    (hmax : s.maxBufSize = max) (hshort : max < 2 ^ 16) (hn : max ≤ n)
    (hfits : (replyFrame data).length ≤ max) :
    ∃ t, s.readRest available false = .done .ok t ∧
      t.rxBuffer.contents (replyFrame data).length = replyFrame data := by
  have hlength := congrArg List.length hframe
  rw [replyFrame_length] at hfits hlength
  rw [List.length_cons] at hlength
  have hasked : s.maxBufSize - s.rxBufSize = ((max - 1 : ℕ) : ℤ) := by
    rw [hmax, h.size, List.length_singleton]
    omega
  obtain ⟨hresult, hcontents, -⟩ := deviceRead_available h (max - 1) (by omega)
    (by rw [List.length_singleton]; omega)
  rw [List.take_of_length_le (by omega)] at hresult hcontents
  rw [List.singleton_append, List.length_singleton, Nat.add_comm,
    ← List.length_cons (a := protocolRecvHead), hframe] at hcontents
  rw [readRest, if_pos (.inl (by rw [h.size]; decide)), hasked]
  dsimp only
  have hread : (s.deviceRead available ((max - 1 : ℕ) : ℤ)).1 ≥ protocolRecvHeadSize := by
    rw [hresult]
    simp only [protocolRecvHeadSize]
    omega
  have hsize : s.rxBufSize + (s.deviceRead available ((max - 1 : ℕ) : ℤ)).1 = (replyFrame data).length := by
    rw [h.size, hresult, replyFrame_length, List.length_singleton]
    omega
  rw [received, if_pos (by rw [hresult]; omega), if_neg (fun hand => Bool.false_ne_true hand.1), if_pos hread]
  obtain ⟨t, ht, hbuffer⟩ := checkFrame_of_whole (s := { (s.deviceRead available ((max - 1 : ℕ) : ℤ)).2 with
    rxTimout := 0 }.setSize (s.rxBufSize + (s.deviceRead available ((max - 1 : ℕ) : ℤ)).1))
    (by omega) hsize hcontents
  exact ⟨t, ht, hbuffer ▸ hcontents⟩

/-- A reply that fits into the part of the buffer that is made use of is delivered in one turn. -/
theorem checkReceiveData_available {s : ReceiveState n (List UInt8)} {data : List UInt8} (max : ℕ)
    (hdevice : s.device = replyFrame data) (hmax : s.maxBufSize = max) (hshort : max < 2 ^ 16) (hn : max ≤ n)
    (hfits : (replyFrame data).length ≤ max) :
    ∃ t, s.checkReceiveData available false 1 = .done .ok t ∧
      t.rxBuffer.contents (replyFrame data).length = replyFrame data := by
  have hlength := replyFrame_length data
  obtain ⟨hheld, hsame⟩ := readHead_available (s := s.restart) (by omega) ⟨rfl, rfl, hdevice⟩
  obtain ⟨t, ht, hcontents⟩ := readRest_available hheld rfl (hsame.trans hmax) hshort hn hfits
  refine ⟨t, LoopTurn.iterate_of_done ?_ 0, hcontents⟩
  rw [turn, ht, checkTimeout]

end ReceiveState

open ReceiveState

/-- Only a reply that fits into what the constructor's `uint8_t` leaves of the buffer is delivered. -/
theorem length_le_of_deliversWhole {rxBuffer : Vector UInt8 buffCacheSize} {data : List UInt8}
    (hroom : (replyFrame data).length ≤ buffCacheSize) (h : DeliversWhole rxBuffer data) :
    (replyFrame data).length ≤ toolMaxBufSize := by
  obtain ⟨k, t, hk, hcontents⟩ := h
  have hready := tcpClientSocketInit_ready rxBuffer (replyFrame data)
  have hensures := checkReceiveData_ensures available false hready.pos hready.fits
    (inBounds_restart rfl hready.pos hready.intact hready.log) k
  rw [hk] at hensures
  obtain ⟨hbounds, haccepted⟩ := hensures
  have hlength := replyFrame_length data
  have hbuffer : buffCacheSize < 2 ^ 16 := by decide
  have hdata : t.rxDataSize = data.length :=
    (haccepted rfl).length.trans (joinBytes_of_contents (by omega) hcontents (List.prefix_refl _)
      (by rw [hlength]; exact Nat.le_add_left _ _))
  have hreceived := (haccepted rfl).received
  have hle : t.rxBufSize ≤ toolMaxBufSize := hbounds.size_le
  omega

/-- A client delivers the whole of an available reply exactly when the reply fits into what the constructor's
`uint8_t` leaves of the buffer. -/
theorem deliversWhole_iff (rxBuffer : Vector UInt8 buffCacheSize) (data : List UInt8)
    (h : (replyFrame data).length ≤ buffCacheSize) :
    DeliversWhole rxBuffer data ↔ (replyFrame data).length ≤ toolMaxBufSize := by
  refine ⟨length_le_of_deliversWhole h, fun hfits => ?_⟩
  obtain ⟨t, ht, hcontents⟩ := checkReceiveData_available
    (s := tcpClientSocketInit rxBuffer (replyFrame data)) toolMaxBufSize rfl rfl (by decide) (by decide) hfits
  exact ⟨1, t, ht, hcontents⟩

/-- A reply with two bytes of data. -/
theorem deliversWhole_iff_short :
    DeliversWhole (.replicate buffCacheSize 0) [0, 0] ↔ (replyFrame [0, 0]).length ≤ toolMaxBufSize :=
  deliversWhole_iff (.replicate buffCacheSize 0) [0, 0] (by decide)

/-- A reply of 177 bytes is not delivered, although the buffer has room for it. -/
theorem not_deliversWhole_long :
    (replyFrame (List.replicate 172 0)).length ≤ buffCacheSize ∧
      ¬ DeliversWhole (.replicate buffCacheSize 0) (List.replicate 172 0) := by
  have hlength : (replyFrame (List.replicate 172 0)).length = 177 := by
    rw [replyFrame_length, List.length_replicate]
  have hroom : (replyFrame (List.replicate 172 0)).length ≤ buffCacheSize := by
    rw [hlength]
    decide
  refine ⟨hroom, fun hdelivers => ?_⟩
  have hle := length_le_of_deliversWhole hroom hdelivers
  rw [hlength] at hle
  exact absurd hle (by decide)

end RemoteManage.ManageTool
