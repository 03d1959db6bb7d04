import RemoteManage.Common.Calculate
import RemoteManage.Foundation.FixedBuffer
import RemoteManage.Foundation.WordBytes

/-!
# The receiver of the desktop tool

`protocol_info::CheckReceiveData` reads the head byte of a reply alone and then whatever `DeviceRead` returns,
until the reply is complete. It looks at the length only after a read of three bytes or more, and what a
read brings beyond the reply is dropped with it. The constructor takes the size of the buffer as
a `uint8_t`, which leaves 176 of its 1200 bytes.
-/

namespace RemoteManage.ManageTool

open RemoteManage.Foundation RemoteManage.Common

/-- `BUFF_CACHE_SIZE`. -/
abbrev buffCacheSize : ℕ := 1200

/-- `PROTOCOL_RECV_HEAD`. -/
def protocolRecvHead : UInt8 := 0x5B

/-- `PROTOCOL_RECV_HEAD_SIZE`. -/
def protocolRecvHeadSize : ℕ := 3

/-- `PROTOCOL_CRC_SIZE`. -/
def protocolCrcSize : ℕ := 2

/-- `PROTOCOL_TIMEOUT`. -/
def protocolTimeout : ℕ := 3000

/-- What `CheckReceiveData` returns. -/
inductive ReceiveResult where
  | ok
  | timeout
  | crcError
  | fail
  deriving DecidableEq, Repr

/-- The part of `protocol_info` that receives, with what the next calls of `DeviceRead` return. -/
structure ProtocolInfo where
  rxBuffer : FixedBuffer UInt8 buffCacheSize
  maxBufSize : ℕ
  rxBufSize : ℕ
  rxDataSize : ℕ
  rxTimout : ℕ
  device : List (List UInt8)

/-- The constructor; the callers hand it the `int` size of the buffer. -/
def protocolInfo (rxBuffer : FixedBuffer UInt8 buffCacheSize) (nMaxBufSize : UInt8)
    (device : List (List UInt8)) : ProtocolInfo :=
  ⟨rxBuffer, nMaxBufSize.toNat, 0, 0, 0, device⟩

/-- The tool's receiver on a buffer. -/
def toolReceiver (rxBuffer : FixedBuffer UInt8 buffCacheSize) (device : List (List UInt8)) : ProtocolInfo :=
  protocolInfo rxBuffer (.ofNat buffCacheSize) device

/-- `calculate_crc(&pStart[start], nSize)`; the table of `protocol.cpp` has the entries of that of
`calculate.cpp`. -/
def calculateCrc (pStart : FixedBuffer UInt8 buffCacheSize) (start nSize : ℕ) : UInt16 :=
  if nSize = 0 then 0 else crc16 0xFFFF (pStart.slice start (nSize % 2 ^ 16))

namespace ProtocolInfo

/-- `DeviceRead(&m_pRxBuffer[m_RxBufSize], nMaxSize)`: the number of bytes read. No device returns more bytes
than it is asked for. -/
def deviceRead (p : ProtocolInfo) (nMaxSize : ℕ) : Option (ℕ × ProtocolInfo) :=
  match p.device with
  | [] => some (0, p)
  | chunk :: rest =>
    if nMaxSize = 0 then some (0, p)
    else if chunk.length ≤ nMaxSize then
      some (chunk.length, { p with rxBuffer := p.rxBuffer.writeAll p.rxBufSize chunk, device := rest })
    else none

/-- `m_MaxBufSize-m_RxBufSize` as the `uint16_t` that `DeviceRead` takes. -/
def room (p : ProtocolInfo) : ℕ := (UInt16.ofInt (p.maxBufSize - p.rxBufSize)).toNat

/-- One turn of the loop goes on or returns. -/
inductive Turn where
  | again (p : ProtocolInfo)
  | done (result : ReceiveResult) (p : ProtocolInfo)

/-- The first half of a turn: the head byte is looked for. -/
def readHead (isSignalCheckHead : Bool) (p : ProtocolInfo) : Option ProtocolInfo :=
  if p.rxBufSize = 0 ∧ isSignalCheckHead = false then
    (p.deviceRead 1).map fun (nRead, p) =>
      if nRead > 0 ∧ p.rxBuffer.read 0 = protocolRecvHead then
        { p with rxBufSize := p.rxBufSize + 1, rxTimout := 0 }
      else { p with rxBufSize := 0, rxTimout := p.rxTimout + 1 }
  else some p

/-- What is made of the bytes once the length of the reply can be read. -/
def checkFrame (p : ProtocolInfo) : Turn :=
  let p := { p with rxDataSize := (joinBytes (p.rxBuffer.read 1) (p.rxBuffer.read 2)).toNat }
  let nLen := p.rxDataSize + protocolRecvHeadSize + protocolCrcSize
  if p.rxBufSize ≥ nLen then
    let crcRecv := joinBytes (p.rxBuffer.read (nLen - 2)) (p.rxBuffer.read (nLen - 1))
    let crcCacl := calculateCrc p.rxBuffer 1 (nLen - protocolCrcSize - 1)
    if crcRecv = crcCacl then .done .ok p else .done .crcError p
  else .again p

/-- What is made of a read of the second half of a turn. -/
def received (isSignalCheckHead : Bool) (nRead : ℕ) (p : ProtocolInfo) : Turn :=
  if nRead > 0 then
    if isSignalCheckHead = true ∧ p.rxBuffer.read 0 ≠ protocolRecvHead then
      .done .fail { p with rxBufSize := 0 }
    else
      let p := { p with rxTimout := 0, rxBufSize := p.rxBufSize + nRead }
      if nRead ≥ protocolRecvHeadSize then p.checkFrame else .again p
  else .again { p with rxTimout := p.rxTimout + 1 }

/-- The second half of a turn: the rest of the reply is read. -/
def readRest (isSignalCheckHead : Bool) (p : ProtocolInfo) : Option Turn :=
  if p.rxBufSize > 0 ∨ isSignalCheckHead = true then
    (p.deviceRead p.room).map fun (nRead, p) => received isSignalCheckHead nRead p
  else some (.again p)

/-- The end of a turn: too many reads in a row have brought nothing. -/
def checkTimeout : Turn → Turn
  | .again p => if p.rxTimout ≠ 0 ∧ p.rxTimout > protocolTimeout then .done .timeout p else .again p
  | .done result p => .done result p

/-- One turn of the loop of `CheckReceiveData`. -/
def turn (isSignalCheckHead : Bool) (p : ProtocolInfo) : Option Turn :=
  (p.readHead isSignalCheckHead).bind fun p => (p.readRest isSignalCheckHead).map checkTimeout

/-- A read brings nothing or the next of the device. -/
theorem deviceRead_cases {p q : ProtocolInfo} {nMaxSize nRead : ℕ}
    (h : p.deviceRead nMaxSize = some (nRead, q)) :
    (nRead = 0 ∧ q = p) ∨
      ∃ chunk rest, p.device = chunk :: rest ∧ chunk.length ≤ nMaxSize ∧ nRead = chunk.length ∧
        q = { p with rxBuffer := p.rxBuffer.writeAll p.rxBufSize chunk, device := rest } := by
  unfold deviceRead at h
  split at h
  case h_1 =>
    cases h
    exact .inl ⟨rfl, rfl⟩
  case h_2 chunk rest hdevice =>
    split at h
    case isTrue =>
      cases h
      exact .inl ⟨rfl, rfl⟩
    case isFalse =>
      split at h
      case isTrue hlength =>
        cases h
        exact .inr ⟨chunk, rest, hdevice, hlength, rfl, rfl⟩
      case isFalse => contradiction

/-- The state in which a turn ends. -/
def Turn.info : Turn → ProtocolInfo
  | .again p => p
  | .done _ p => p

/-- Nothing is read from the device while the length is looked at. -/
theorem checkFrame_device (p : ProtocolInfo) : p.checkFrame.info.device = p.device := by
  simp only [checkFrame]
  split
  · split <;> rfl
  · rfl

/-- Nothing more is read from the device once a read is there. -/
theorem received_device (isSignalCheckHead : Bool) (nRead : ℕ) (p : ProtocolInfo) :
    (received isSignalCheckHead nRead p).info.device = p.device := by
  unfold received
  split
  · split
    · rfl
    · dsimp only
      split
      · exact checkFrame_device _
      · rfl
  · rfl

/-- The second half of a turn takes one read from the device at most. -/
theorem readRest_device_le {isSignalCheckHead : Bool} {p : ProtocolInfo} {t : Turn}
    (h : p.readRest isSignalCheckHead = some t) : t.info.device.length ≤ p.device.length := by
  unfold readRest at h
  split at h
  case isTrue =>
    obtain ⟨⟨nRead, q⟩, hread, rfl⟩ := Option.map_eq_some_iff.mp h
    dsimp only
    rw [received_device]
    rcases deviceRead_cases hread with ⟨-, rfl⟩ | ⟨chunk, rest, hdevice, -, -, rfl⟩
    · exact Nat.le_refl _
    · simp only [hdevice, List.length_cons, Nat.le_succ]
  case isFalse =>
    cases h
    exact Nat.le_refl _

/-- The device has fewer reads before it, or one more read in a row has brought nothing. -/
def Later (p q : ProtocolInfo) : Prop :=
  q.device.length < p.device.length ∨ q.device = p.device ∧ q.rxTimout = p.rxTimout + 1

/-- A turn that goes on has found the end of its reads in time. -/
theorem checkTimeout_again {t : Turn} {q : ProtocolInfo} (h : checkTimeout t = .again q) :
    t = .again q ∧ q.rxTimout ≤ protocolTimeout := by
  cases t with
  | again p =>
    rw [checkTimeout] at h
    split at h
    case isTrue => contradiction
    case isFalse hin =>
      cases h
      exact ⟨rfl, by omega⟩
  | done result p => contradiction

/-- The second half of a turn that goes on has made a read. -/
theorem readRest_later {isSignalCheckHead : Bool} {p q : ProtocolInfo}
    (hreads : p.rxBufSize > 0 ∨ isSignalCheckHead = true)
    (h : p.readRest isSignalCheckHead = some (.again q)) : Later p q := by
  rw [readRest, if_pos hreads] at h
  obtain ⟨⟨nRead, p'⟩, hread, hreceived⟩ := Option.map_eq_some_iff.mp h
  dsimp only at hreceived
  rcases deviceRead_cases hread with ⟨rfl, rfl⟩ | ⟨chunk, rest, hdevice, -, -, rfl⟩
  · cases hreceived
    exact .inr ⟨rfl, rfl⟩
  · have hrest := congrArg (List.length ∘ device ∘ Turn.info) hreceived
    rw [Function.comp_apply, Function.comp_apply, received_device] at hrest
    refine .inl ?_
    rw [hdevice, List.length_cons, Nat.lt_succ_iff]
    exact Nat.le_of_eq hrest.symm

/-- The loop goes on with fewer reads before it, or after one more read that has brought nothing. -/
theorem turn_later {isSignalCheckHead : Bool} {p q : ProtocolInfo}
    (h : p.turn isSignalCheckHead = some (.again q)) : Later p q ∧ q.rxTimout ≤ protocolTimeout := by
  obtain ⟨p', hhead, h⟩ := Option.bind_eq_some_iff.mp h
  obtain ⟨t, hrest, ht⟩ := Option.map_eq_some_iff.mp h
  obtain ⟨rfl, htimeout⟩ := checkTimeout_again ht
  refine ⟨?_, htimeout⟩
  unfold readHead at hhead
  split at hhead
  case isTrue hlook =>
    obtain ⟨⟨nRead, p''⟩, hread, rfl⟩ := Option.map_eq_some_iff.mp hhead
    rcases deviceRead_cases hread with ⟨rfl, rfl⟩ | ⟨chunk, rest, hdevice, -, -, rfl⟩
    · rw [readRest, if_neg (by simp [hlook.2])] at hrest
      cases hrest
      exact .inr ⟨rfl, rfl⟩
    · have hle := readRest_device_le hrest
      refine .inl (Nat.lt_of_le_of_lt hle ?_)
      dsimp only
      split <;> simp [hdevice]
  case isFalse hlook =>
    cases hhead
    refine readRest_later ?_ hrest
    cases isSignalCheckHead with
    | false => exact .inl (Nat.pos_of_ne_zero fun hzero => hlook ⟨hzero, rfl⟩)
    | true => exact .inr rfl

/-- The loop of `CheckReceiveData`. It ends because a device without reads runs into the timeout. -/
def loop (isSignalCheckHead : Bool) (p : ProtocolInfo) : Option (ReceiveResult × ProtocolInfo) :=
  match _h : p.turn isSignalCheckHead with
  | none => none
  | some (.done result p') => some (result, p')
  | some (.again p') => loop isSignalCheckHead p'
termination_by (p.device.length, protocolTimeout + 1 - p.rxTimout)
decreasing_by
  obtain ⟨hlater, htimeout⟩ := turn_later _h
  rcases hlater with hless | ⟨hsame, hmore⟩
  · exact Prod.Lex.left _ _ hless
  · rw [hsame]
    exact Prod.Lex.right _ (by omega)

/-- The counters at the start of a call. -/
def restart (p : ProtocolInfo) : ProtocolInfo := { p with rxBufSize := 0, rxTimout := 0, rxDataSize := 0 }

/-- `CheckReceiveData`. -/
def checkReceiveData (p : ProtocolInfo) (isSignalCheckHead : Bool) : Option (ReceiveResult × ProtocolInfo) :=
  loop isSignalCheckHead p.restart

end ProtocolInfo

end RemoteManage.ManageTool
