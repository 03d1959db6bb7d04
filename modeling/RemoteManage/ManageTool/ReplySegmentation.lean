import RemoteManage.ManageTool.ProtocolInfo

/-!
# Replies in the reads of a device

What the device has sent is a concatenation of reply frames, and the reads may cut it anywhere. Each call of
`CheckReceiveData` takes one read after the other from its front, so it delivers the next reply
exactly when the reads that bring the reply bring nothing else and the last of them is one
that looks at the length.
-/

namespace RemoteManage.ManageTool

open RemoteManage.Foundation RemoteManage.Common

/-- The bytes of the buffer that the tool makes use of. -/
def toolMaxBufSize : ℕ := (UInt8.ofNat buffCacheSize).toNat

/-- The length of a reply and its data, which the checksum covers. -/
def replyBody (data : List UInt8) : List UInt8 :=
  highByte (.ofNat data.length) :: lowByte (.ofNat data.length) :: data

/-- The frame of a reply. -/
def replyFrame (data : List UInt8) : List UInt8 :=
  protocolRecvHead :: replyBody data ++
    [highByte (crc16 0xFFFF (replyBody data)), lowByte (crc16 0xFFFF (replyBody data))]

/-- The bytes of some replies, one after the other. -/
def replyStream (replies : List (List UInt8)) : List UInt8 := (replies.map replyFrame).flatten

/-- Successive calls deliver the replies, one each and in order. -/
def Receives : List (List UInt8) → ProtocolInfo → Prop
  | [], _ => True
  | data :: replies, p => ∃ q, p.checkReceiveData false = some (.ok, q) ∧
      q.rxBuffer.contents (replyFrame data).length = replyFrame data ∧ q.rxDataSize = data.length ∧
      Receives replies q

/-- In so many successive calls no read is longer than what is asked for. -/
def Served : ℕ → ProtocolInfo → Prop
  | 0, _ => True
  | calls + 1, p => ∃ result q, p.checkReceiveData false = some (result, q) ∧ Served calls q

/-- A reply arrives in reads of its own, the last of which looks at the length. -/
structure ArrivesAlone (data : List UInt8) (reads : List (List UInt8)) : Prop where
  reply : reads.flatten = replyFrame data
  fits : (replyFrame data).length ≤ toolMaxBufSize
  last : ∃ last ∈ reads.getLast?, protocolRecvHeadSize ≤ last.length

/-- Each reply arrives in reads of its own. -/
def Separated (replies reads : List (List UInt8)) : Prop :=
  ∃ groups, groups.flatten = reads ∧ List.Forall₂ ArrivesAlone replies groups

/-- The size of a frame. -/
theorem replyFrame_length (data : List UInt8) : (replyFrame data).length = data.length + 5 := by
  simp only [replyFrame, replyBody, List.cons_append, List.length_cons, List.length_append, List.length_nil]

/-- A reply that fits is short enough for the counters of the checksum. -/
theorem length_lt_of_fits {data : List UInt8} (hfits : (replyFrame data).length ≤ toolMaxBufSize) :
    data.length + 2 < 2 ^ 16 := by
  have hlt : toolMaxBufSize < 2 ^ 16 := by decide
  rw [replyFrame_length] at hfits
  omega

/-- Once a buffer has three bytes of a reply, the length that is read from it is that of the data. -/
theorem joinBytes_of_contents {n : ℕ} {buffer : FixedBuffer UInt8 n} {data held : List UInt8}
    (hshort : data.length + 2 < 2 ^ 16) (h : buffer.contents held.length = held)
    (hheld : held <+: replyFrame data) (hlook : protocolRecvHeadSize ≤ held.length) :
    (joinBytes (buffer.read 1) (buffer.read 2)).toNat = data.length := by
  have hthree : 3 ≤ held.length := hlook
  obtain ⟨tail, htail⟩ := hheld
  have hread : ∀ i < held.length, buffer.read i = (replyFrame data).getD i 0 := fun i hi => by
    rw [buffer.read_eq_of_contents h hi 0, ← htail, List.getD_append _ _ _ _ hi]
  rw [hread 1 (by omega), hread 2 (by omega)]
  change (joinBytes (highByte (.ofNat data.length)) (lowByte (.ofNat data.length))).toNat = _
  rw [joinBytes_highByte_lowByte]
  exact Nat.mod_eq_of_lt (Nat.lt_of_add_right_lt hshort)

/-- In a buffer with a whole reply the checksum at its end is that of the bytes before it. -/
theorem checksum_of_contents {n : ℕ} {buffer : FixedBuffer UInt8 n} {data : List UInt8}
    (h : buffer.contents (replyFrame data).length = replyFrame data) :
    joinBytes (buffer.read (data.length + 3)) (buffer.read (data.length + 4)) =
      crc16 0xFFFF (buffer.slice 1 (data.length + 2)) := by
  have hlength := replyFrame_length data
  have hbody : (replyBody data).length = data.length + 2 := rfl
  have hslice : buffer.slice 1 (data.length + 2) = replyBody data := by
    rw [buffer.slice_eq_of_contents h (by omega)]
    exact List.take_left' hbody
  have hjoin := joinBytes_getD_append (protocolRecvHead :: replyBody data)
    (highByte (crc16 0xFFFF (replyBody data))) (lowByte (crc16 0xFFFF (replyBody data)))
  rw [List.length_cons, hbody, joinBytes_highByte_lowByte] at hjoin
  rw [buffer.read_eq_of_contents h (by omega) 0, buffer.read_eq_of_contents h (by omega) 0, hslice]
  exact hjoin

/-- The size of the frames of some replies. -/
theorem replyStream_cons (data : List UInt8) (replies : List (List UInt8)) :
    replyStream (data :: replies) = replyFrame data ++ replyStream replies := rfl

namespace ProtocolInfo

/-- The loop, turn by turn. -/
theorem loop_eq (isSignalCheckHead : Bool) (p : ProtocolInfo) :
    p.loop isSignalCheckHead = (p.turn isSignalCheckHead).bind fun
      | .done result q => some (result, q)
      | .again q => q.loop isSignalCheckHead := by
  rw [loop]
  split <;> simp_all only [Option.bind_none, Option.bind_some]

/-- The receiver of the tool has taken no more bytes than it makes use of. -/
structure Within (p : ProtocolInfo) : Prop where
  max : p.maxBufSize = toolMaxBufSize
  size : p.rxBufSize ≤ toolMaxBufSize

/-- What is asked for is what the used part of the buffer has left. -/
theorem room_eq {p : ProtocolInfo} (h : p.Within) : p.room = toolMaxBufSize - p.rxBufSize := by
  obtain ⟨hmax, hsize⟩ := h
  have hlt : toolMaxBufSize < 2 ^ 16 := by decide
  rw [room, hmax, ← Int.natCast_sub hsize, UInt16.ofInt, UInt16.toNat_ofNat']
  omega

/-- Some reads have been taken from the front of the device, and no more bytes of them are held. -/
structure Takes (p q : ProtocolInfo) (taken : List (List UInt8)) : Prop where
  device : p.device = taken ++ q.device
  size : q.rxBufSize ≤ p.rxBufSize + taken.flatten.length
  within : q.Within

/-- Nothing has been taken. -/
theorem takes_nil {p q : ProtocolInfo} (h : p.Within) (hdevice : q.device = p.device)
    (hsize : q.rxBufSize = p.rxBufSize) (hmax : q.maxBufSize = p.maxBufSize) : p.Takes q [] where
  device := hdevice.symm
  size := Nat.le_of_eq hsize
  within := ⟨hmax.trans h.max, hsize ▸ h.size⟩

/-- Reads that have been taken one after the other. -/
theorem Takes.trans {p q r : ProtocolInfo} {first second : List (List UInt8)} (hpq : p.Takes q first)
    (hqr : q.Takes r second) : p.Takes r (first ++ second) where
  device := by rw [hpq.device, hqr.device, List.append_assoc]
  size := by
    have hp := hpq.size
    have hq := hqr.size
    rw [List.flatten_append, List.length_append]
    omega
  within := hqr.within

/-- The first half of a turn. -/
theorem readHead_takes {p q : ProtocolInfo} (hp : p.Within) (h : p.readHead false = some q) :
    ∃ taken, p.Takes q taken := by
  unfold readHead at h
  split at h
  case isTrue hlook =>
    obtain ⟨⟨nRead, p'⟩, hread, rfl⟩ := Option.map_eq_some_iff.mp h
    dsimp only
    rcases deviceRead_cases hread with ⟨rfl, rfl⟩ | ⟨chunk, rest, hdevice, hlength, rfl, rfl⟩
    · exact ⟨[], takes_nil hp rfl hlook.1.symm rfl⟩
    · refine ⟨[chunk], ?_⟩
      split
      case isTrue hhead =>
        have hpos : 1 ≤ chunk.length := hhead.1
        refine ⟨hdevice, ?_, hp.max, ?_⟩
        · simpa using hpos
        · dsimp only
          rw [hlook.1]
          decide
      case isFalse => exact ⟨hdevice, Nat.zero_le _, hp.max, Nat.zero_le _⟩
  case isFalse =>
    cases h
    exact ⟨[], takes_nil hp rfl rfl rfl⟩

/-- Nothing changes in the counters and the device while the length is looked at, and a reply that is complete
is held as a whole. -/
theorem checkFrame_info (p : ProtocolInfo) :
    p.checkFrame.info.rxBufSize = p.rxBufSize ∧ p.checkFrame.info.maxBufSize = p.maxBufSize ∧
      ∀ q, p.checkFrame = .done .ok q → q.rxDataSize + 5 ≤ q.rxBufSize := by
  simp only [checkFrame]
  split
  case isTrue hlength =>
    split
    · refine ⟨rfl, rfl, ?_⟩
      intro q hq
      cases hq
      exact hlength
    · refine ⟨rfl, rfl, ?_⟩
      intro q hq
      cases hq
  case isFalse =>
    refine ⟨rfl, rfl, ?_⟩
    intro q hq
    cases hq

/-- What is made of a read adds no more than the read, and only one that looks at the length ends a reply. -/
theorem received_info {p : ProtocolInfo} (nRead : ℕ) :
    (received false nRead p).info.rxBufSize = p.rxBufSize + nRead ∧
      (received false nRead p).info.maxBufSize = p.maxBufSize ∧
      ∀ q, received false nRead p = .done .ok q →
        q.rxDataSize + 5 ≤ q.rxBufSize ∧ protocolRecvHeadSize ≤ nRead := by
  simp only [received, Bool.false_eq_true, false_and, if_false]
  split
  case isTrue =>
    split
    case isTrue hhead =>
      obtain ⟨hsize, hmax, hok⟩ :=
        checkFrame_info { p with rxTimout := 0, rxBufSize := p.rxBufSize + nRead }
      exact ⟨hsize, hmax, fun q hq => ⟨hok q hq, hhead⟩⟩
    case isFalse => exact ⟨rfl, rfl, fun q hq => nomatch hq⟩
  case isFalse hnone =>
    refine ⟨?_, rfl, fun q hq => nomatch hq⟩
    simp only [Turn.info]
    omega

/-- What ends a reply: its bytes are held, and the last read has looked at its length. -/
def Completes (taken : List (List UInt8)) (t : Turn) : Prop :=
  ∀ q, t = .done .ok q →
    q.rxDataSize + 5 ≤ q.rxBufSize ∧ ∃ last ∈ taken.getLast?, protocolRecvHeadSize ≤ last.length

/-- Reads before the last ones do not matter. -/
theorem Completes.append {second : List (List UInt8)} {t : Turn} (h : Completes second t)
    (first : List (List UInt8)) : Completes (first ++ second) t := fun q hq => by
  obtain ⟨hheld, last, hlast, hlook⟩ := h q hq
  refine ⟨hheld, last, ?_, hlook⟩
  rw [List.getLast?_append, Option.mem_def.mp hlast]
  rfl

/-- The second half of a turn. -/
theorem readRest_takes {p : ProtocolInfo} {t : Turn} (hp : p.Within) (h : p.readRest false = some t) :
    ∃ taken, p.Takes t.info taken ∧ Completes taken t := by
  unfold readRest at h
  split at h
  case isTrue =>
    obtain ⟨⟨nRead, p'⟩, hread, rfl⟩ := Option.map_eq_some_iff.mp h
    dsimp only
    obtain ⟨hsize, hmax, hok⟩ := received_info (p := p') nRead
    have hdevice' := received_device false nRead p'
    rcases deviceRead_cases hread with ⟨rfl, rfl⟩ | ⟨chunk, rest, hdevice, hlength, rfl, rfl⟩
    · refine ⟨[], takes_nil hp hdevice' hsize hmax, fun q hq => ?_⟩
      exact absurd (hok q hq).2 (by decide)
    · rw [room_eq hp] at hlength
      have hwithin := hp.size
      refine ⟨[chunk], ⟨by rw [hdevice']; exact hdevice, ?_, hmax.trans hp.max, ?_⟩, fun q hq => ?_⟩
      · simp [hsize]
      · rw [hsize]
        dsimp only
        omega
      · exact ⟨(hok q hq).1, chunk, rfl, (hok q hq).2⟩
  case isFalse =>
    cases h
    exact ⟨[], takes_nil hp rfl rfl rfl, fun q hq => nomatch hq⟩

/-- A turn takes reads from the front of the device. -/
theorem turn_takes {p : ProtocolInfo} {t : Turn} (hp : p.Within) (h : p.turn false = some t) :
    ∃ taken, p.Takes t.info taken ∧ Completes taken t := by
  obtain ⟨p', hhead, h⟩ := Option.bind_eq_some_iff.mp h
  obtain ⟨t', hrest, rfl⟩ := Option.map_eq_some_iff.mp h
  obtain ⟨first, hfirst⟩ := readHead_takes hp hhead
  obtain ⟨second, hsecond, hcompletes⟩ := readRest_takes hfirst.within hrest
  have hinfo : (checkTimeout t').info = t'.info := by
    cases t' with
    | again q =>
      rw [checkTimeout]
      split <;> rfl
    | done result q => rfl
  refine ⟨first ++ second, hinfo ▸ hfirst.trans hsecond, fun q hq => hcompletes.append first q ?_⟩
  cases t' with
  | again q' =>
    rw [checkTimeout] at hq
    split at hq <;> cases hq
  | done result q' => exact hq

/-- A call takes reads from the front of the device, and a reply it delivers has come with them. -/
theorem loop_takes {p q : ProtocolInfo} {result : ReceiveResult} (hp : p.Within)
    (h : p.loop false = some (result, q)) : ∃ taken, p.Takes q taken ∧ Completes taken (.done result q) := by
  induction p using loop.induct false with
  | case1 p hturn => rw [loop_eq, hturn] at h; contradiction
  | case2 p result' p' hturn =>
    rw [loop_eq, hturn] at h
    obtain ⟨rfl, rfl⟩ := Prod.mk.inj (Option.some.inj h)
    exact turn_takes hp hturn
  | case3 p p' hturn ih =>
    rw [loop_eq, hturn] at h
    obtain ⟨first, hfirst, -⟩ := turn_takes hp hturn
    obtain ⟨second, hsecond, hcompletes⟩ := ih hfirst.within h
    exact ⟨first ++ second, hfirst.trans hsecond, hcompletes.append first⟩

/-- A reply that has been delivered fits into the used part of the buffer and has come with reads from the
front of the device, the last of which looks at the length. -/
theorem checkReceiveData_ok {p q : ProtocolInfo} (hp : p.maxBufSize = toolMaxBufSize)
    (h : p.checkReceiveData false = some (.ok, q)) :
    q.maxBufSize = toolMaxBufSize ∧ q.rxDataSize + 5 ≤ toolMaxBufSize ∧
      ∃ taken, p.device = taken ++ q.device ∧ q.rxDataSize + 5 ≤ taken.flatten.length ∧
        ∃ last ∈ taken.getLast?, protocolRecvHeadSize ≤ last.length := by
  obtain ⟨taken, htakes, hcompletes⟩ := loop_takes (p := p.restart) ⟨hp, Nat.zero_le _⟩ h
  obtain ⟨hheld, hlast⟩ := hcompletes q rfl
  have htaken := hheld.trans htakes.size
  rw [show p.restart.rxBufSize = 0 from rfl, Nat.zero_add] at htaken
  exact ⟨htakes.within.max, hheld.trans htakes.within.size, taken, htakes.device, htaken, hlast⟩

end ProtocolInfo

open ProtocolInfo

/-- Replies that are delivered have come in at least as many bytes as their frames have. -/
theorem replyStream_length_le {replies : List (List UInt8)} {p : ProtocolInfo}
    (hp : p.maxBufSize = toolMaxBufSize) (h : Receives replies p) :
    (replyStream replies).length ≤ p.device.flatten.length := by
  induction replies generalizing p with
  | nil => exact Nat.zero_le _
  | cons data replies ih =>
    obtain ⟨q, hcall, -, hdata, hrest⟩ := h
    obtain ⟨hq, -, taken, hdevice, htaken, -⟩ := checkReceiveData_ok hp hcall
    have hreplies := ih hq hrest
    rw [replyStream_cons, hdevice, List.flatten_append, List.length_append, List.length_append,
      replyFrame_length]
    omega

/-- Replies that are delivered have come in reads of their own. -/
theorem separated_of_receives {replies : List (List UInt8)} {p : ProtocolInfo}
    (hp : p.maxBufSize = toolMaxBufSize) (hne : ∀ read ∈ p.device, read ≠ [])
    (hstream : p.device.flatten = replyStream replies) (h : Receives replies p) :
    Separated replies p.device := by
  induction replies generalizing p with
  | nil =>
    have hdevice : p.device = [] := List.eq_nil_iff_forall_not_mem.mpr fun read hread =>
      hne read hread (List.flatten_eq_nil_iff.mp hstream read hread)
    exact ⟨[], hdevice.symm, .nil⟩
  | cons data replies ih =>
    obtain ⟨q, hcall, -, hdata, hrest⟩ := h
    obtain ⟨hq, hfits, taken, hdevice, htaken, hlast⟩ := checkReceiveData_ok hp hcall
    rw [hdata, ← replyFrame_length] at hfits htaken
    rw [hdevice, List.flatten_append, replyStream_cons] at hstream
    -- the later replies need all the bytes that this one leaves, so none of them has been taken
    have hlater := replyStream_length_le hq hrest
    have hlength := congrArg List.length hstream
    rw [List.length_append, List.length_append] at hlength
    obtain ⟨hreply, hothers⟩ := List.append_inj hstream (by omega)
    obtain ⟨groups, hgroups, hall⟩ :=
      ih hq (fun read hread => hne read (hdevice ▸ List.mem_append_right _ hread)) hothers hrest
    refine ⟨taken :: groups, ?_, .cons ⟨hreply, hfits, hlast⟩ hall⟩
    rw [List.flatten_cons, hgroups, hdevice]

namespace ProtocolInfo

/-- The buffer begins with the bytes that have been counted. -/
structure Holds (p : ProtocolInfo) (held : List UInt8) : Prop where
  size : p.rxBufSize = held.length
  contents : p.rxBuffer.contents held.length = held
  max : p.maxBufSize = toolMaxBufSize

/-- Once three bytes of a reply are held, the length that is read is its own. -/
theorem Holds.dataSize {p : ProtocolInfo} {data held : List UInt8}
    (hfits : (replyFrame data).length ≤ toolMaxBufSize) (h : p.Holds held)
    (hheld : held <+: replyFrame data) (hlook : protocolRecvHeadSize ≤ held.length) :
    (joinBytes (p.rxBuffer.read 1) (p.rxBuffer.read 2)).toNat = data.length :=
  joinBytes_of_contents (length_lt_of_fits hfits) h.contents hheld hlook

/-- A reply of which some bytes are missing is waited for. -/
theorem checkFrame_of_part {p : ProtocolInfo} {data held : List UInt8}
    (hfits : (replyFrame data).length ≤ toolMaxBufSize) (h : p.Holds held)
    (hheld : held <+: replyFrame data) (hlook : protocolRecvHeadSize ≤ held.length)
    (hpart : held.length < (replyFrame data).length) :
    p.checkFrame = .again { p with rxDataSize := data.length } := by
  have hdata := h.dataSize hfits hheld hlook
  have hsize := h.size
  rw [replyFrame_length] at hpart
  simp only [checkFrame, hdata]
  rw [if_neg]
  simp only [protocolRecvHeadSize, protocolCrcSize]
  omega

/-- A reply that is held as a whole is delivered. -/
theorem checkFrame_of_reply {p : ProtocolInfo} {data : List UInt8}
    (hfits : (replyFrame data).length ≤ toolMaxBufSize) (h : p.Holds (replyFrame data)) :
    p.checkFrame = .done .ok { p with rxDataSize := data.length } := by
  have hlength := replyFrame_length data
  have hdata := h.dataSize hfits (List.prefix_refl _) (by rw [hlength]; exact Nat.le_add_left _ _)
  have hcrc : joinBytes (p.rxBuffer.read (data.length + 3)) (p.rxBuffer.read (data.length + 4)) =
      calculateCrc p.rxBuffer 1 (data.length + 2) := by
    rw [calculateCrc, if_neg (Nat.succ_ne_zero _), Nat.mod_eq_of_lt (length_lt_of_fits hfits)]
    exact checksum_of_contents h.contents
  have hend : data.length + protocolRecvHeadSize + protocolCrcSize ≤ p.rxBufSize := by
    rw [h.size, hlength]
    exact Nat.le_refl _
  simp only [checkFrame, hdata]
  rw [if_pos hend, if_pos]
  exact hcrc

/-- The state after a read that fits has been put behind the bytes that are held. -/
def extend (p : ProtocolInfo) (chunk : List UInt8) (rest : List (List UInt8)) : ProtocolInfo :=
  { p with
    rxBuffer := p.rxBuffer.writeAll p.rxBufSize chunk
    rxBufSize := p.rxBufSize + chunk.length
    rxTimout := 0
    device := rest }

/-- The bytes of a read are held behind those before it. -/
theorem Holds.extend {p : ProtocolInfo} {held chunk : List UInt8} (h : p.Holds held)
    (hfits : held.length + chunk.length ≤ toolMaxBufSize) (rest : List (List UInt8)) :
    (p.extend chunk rest).Holds (held ++ chunk) where
  size := by rw [List.length_append, ← h.size]; rfl
  contents := by
    have hbuffer : toolMaxBufSize ≤ buffCacheSize := by decide
    simp only [ProtocolInfo.extend, h.size, List.length_append]
    rw [FixedBuffer.writeAll_contents _ _ _ (by omega), h.contents]
  max := h.max

/-- A turn with the next read of a reply that has begun. -/
theorem turn_of_held {p : ProtocolInfo} {held chunk : List UInt8} {rest : List (List UInt8)}
    (h : p.Holds held) (hheld : held ≠ []) (hchunk : chunk ≠ []) (hdevice : p.device = chunk :: rest)
    (hfits : held.length + chunk.length ≤ toolMaxBufSize) :
    p.turn false = some (checkTimeout (if protocolRecvHeadSize ≤ chunk.length then
      (p.extend chunk rest).checkFrame else .again (p.extend chunk rest))) := by
  have hheldPos := List.length_pos_of_ne_nil hheld
  have hchunkPos := List.length_pos_of_ne_nil hchunk
  have hroom : p.room = toolMaxBufSize - held.length := by
    rw [room_eq ⟨h.max, by rw [h.size]; omega⟩, h.size]
  have hread : p.deviceRead p.room = some (chunk.length,
      { p with rxBuffer := p.rxBuffer.writeAll p.rxBufSize chunk, device := rest }) := by
    simp only [deviceRead, hdevice, hroom]
    rw [if_neg (by omega), if_pos (by omega)]
  have hsize : p.rxBufSize ≠ 0 := by rw [h.size]; omega
  rw [turn, readHead, if_neg (fun hnone => hsize hnone.1), Option.bind_some, readRest,
    if_pos (.inl (Nat.pos_of_ne_zero hsize)), hread]
  simp only [Option.map_some, received, Bool.false_eq_true, false_and, if_false, hchunkPos, gt_iff_lt,
    if_true]
  rfl

/-- The head byte alone begins a reply. -/
theorem loop_of_head {p : ProtocolInfo} {rest : List (List UInt8)} (hsize : p.rxBufSize = 0)
    (hdevice : p.device = [protocolRecvHead] :: rest) :
    p.loop false = (p.extend [protocolRecvHead] rest).loop false := by
  have hhead : p.readHead false = some (p.extend [protocolRecvHead] rest) := by
    have hread : (p.rxBuffer.writeAll 0 [protocolRecvHead]).read 0 = protocolRecvHead :=
      FixedBuffer.read_eq_of_contents _
        (p.rxBuffer.writeAll_zero_contents [protocolRecvHead] (by decide)) (by decide) 0
    simp [readHead, hsize, deviceRead, hdevice, hread, extend]
  have hbegun : (p.extend [protocolRecvHead] rest).readHead false =
      some (p.extend [protocolRecvHead] rest) := if_neg fun hnone => nomatch hnone.1
  rw [loop_eq, loop_eq, turn, turn, hhead, hbegun]

/-- A read that brings the rest of a reply and looks at its length delivers it. -/
theorem loop_of_last {data : List UInt8} (hfits : (replyFrame data).length ≤ toolMaxBufSize)
    {p : ProtocolInfo} {held chunk : List UInt8} {rest : List (List UInt8)} (h : p.Holds held)
    (hheld : held ≠ []) (hframe : held ++ chunk = replyFrame data)
    (hlook : protocolRecvHeadSize ≤ chunk.length) (hdevice : p.device = chunk :: rest) :
    ∃ q, p.loop false = some (.ok, q) ∧ q.device = rest ∧ q.Holds (replyFrame data) ∧
      q.rxDataSize = data.length := by
  have hchunk : chunk ≠ [] := List.ne_nil_of_length_pos (Nat.lt_of_lt_of_le (by decide) hlook)
  have hroom : held.length + chunk.length ≤ toolMaxBufSize := by rwa [← List.length_append, hframe]
  have hextend := h.extend hroom rest
  rw [hframe] at hextend
  rw [loop_eq, turn_of_held h hheld hchunk hdevice hroom, if_pos hlook, checkFrame_of_reply hfits hextend]
  exact ⟨_, rfl, rfl, ⟨hextend.size, hextend.contents, hextend.max⟩, rfl⟩

/-- After a read that leaves a reply incomplete the loop goes on with its bytes behind those held before. -/
theorem loop_of_part {data : List UInt8} (hfits : (replyFrame data).length ≤ toolMaxBufSize)
    {p : ProtocolInfo} {held chunk : List UInt8} {rest : List (List UInt8)} (h : p.Holds held)
    (hheld : held ≠ []) (hchunk : chunk ≠ []) (hbegins : held ++ chunk <+: replyFrame data)
    (hpart : (held ++ chunk).length < (replyFrame data).length) (hdevice : p.device = chunk :: rest) :
    ∃ q : ProtocolInfo, p.loop false = q.loop false ∧ q.device = rest ∧ q.Holds (held ++ chunk) := by
  have hroom : held.length + chunk.length ≤ toolMaxBufSize := by
    rw [← List.length_append]
    exact hbegins.length_le.trans hfits
  have hextend := h.extend hroom rest
  rw [loop_eq, turn_of_held h hheld hchunk hdevice hroom]
  by_cases hlook : protocolRecvHeadSize ≤ chunk.length
  · have hheldLook : protocolRecvHeadSize ≤ (held ++ chunk).length := by
      rw [List.length_append]
      exact Nat.le_add_left_of_le hlook
    rw [if_pos hlook, checkFrame_of_part hfits hextend hbegins hheldLook hpart]
    exact ⟨_, rfl, rfl, hextend.size, hextend.contents, hextend.max⟩
  · rw [if_neg hlook]
    exact ⟨_, rfl, rfl, hextend⟩

/-- The next reads of a reply that has begun deliver it, if the last of them looks at the length. -/
theorem loop_of_held {data : List UInt8} (hfits : (replyFrame data).length ≤ toolMaxBufSize)
    {reads rest : List (List UInt8)} {p : ProtocolInfo} {held : List UInt8} (h : p.Holds held)
    (hheld : held ≠ []) (hne : ∀ read ∈ reads, read ≠ []) (hframe : held ++ reads.flatten = replyFrame data)
    (hlast : ∃ last ∈ reads.getLast?, protocolRecvHeadSize ≤ last.length)
    (hdevice : p.device = reads ++ rest) :
    ∃ q, p.loop false = some (.ok, q) ∧ q.device = rest ∧ q.Holds (replyFrame data) ∧
      q.rxDataSize = data.length := by
  induction reads generalizing p held with
  | nil =>
    obtain ⟨last, hlast, -⟩ := hlast
    contradiction
  | cons chunk reads ih =>
    rw [List.forall_mem_cons] at hne
    rw [List.flatten_cons, ← List.append_assoc] at hframe
    cases reads with
    | nil =>
      obtain ⟨last, hlast, hlook⟩ := hlast
      obtain rfl : chunk = last := Option.some.inj hlast
      rw [List.flatten_nil, List.append_nil] at hframe
      exact loop_of_last hfits h hheld hframe hlook hdevice
    | cons next reads =>
      have hpart : (held ++ chunk).length < (replyFrame data).length := by
        have hnext := List.length_pos_of_ne_nil (hne.2 next List.mem_cons_self)
        have hlength := congrArg List.length hframe
        rw [List.length_append, List.flatten_cons] at hlength
        simp only [List.length_append] at hlength ⊢
        omega
      have hmore : held ++ chunk ≠ [] := fun hnil => hheld (List.append_eq_nil_iff.mp hnil).1
      obtain ⟨q, hloop, hq, hholds⟩ := loop_of_part hfits h hheld hne.1 ⟨_, hframe⟩ hpart hdevice
      rw [hloop]
      exact ih hholds hmore hne.2 hframe hlast hq

/-- A reply whose head byte and whose rest arrive in reads of their own is delivered. -/
theorem checkReceiveData_of_head {p : ProtocolInfo} {data : List UInt8} {reads rest : List (List UInt8)}
    (hp : p.maxBufSize = toolMaxBufSize) (halone : ArrivesAlone data ([protocolRecvHead] :: reads))
    (hne : ∀ read ∈ reads, read ≠ []) (hdevice : p.device = [protocolRecvHead] :: (reads ++ rest)) :
    ∃ q, p.checkReceiveData false = some (.ok, q) ∧ q.device = rest ∧ q.Holds (replyFrame data) ∧
      q.rxDataSize = data.length := by
  have hmore : reads ≠ [] := fun hnil => by
    have hreply := halone.reply
    rw [hnil] at hreply
    exact nomatch (List.cons.inj hreply).2
  obtain ⟨last, hlast, hlook⟩ := halone.last
  rw [List.getLast?_cons_of_ne_nil hmore] at hlast
  have hbegin : p.restart.Holds [] := ⟨rfl, rfl, hp⟩
  have hhead : (p.restart.extend [protocolRecvHead] (reads ++ rest)).Holds ([] ++ [protocolRecvHead]) :=
    hbegin.extend (by decide) _
  rw [checkReceiveData, loop_of_head (p := p.restart) rfl hdevice]
  exact loop_of_held halone.fits hhead (List.cons_ne_nil _ _) hne halone.reply ⟨last, hlast, hlook⟩ rfl

/-- A call takes no more than the head byte with its first read. -/
theorem length_le_one_of_call {p q : ProtocolInfo} {result : ReceiveResult} {chunk : List UInt8}
    {rest : List (List UInt8)} (h : p.checkReceiveData false = some (result, q))
    (hdevice : p.device = chunk :: rest) : chunk.length ≤ 1 := by
  by_contra hlong
  have hread : p.restart.turn false = none := by
    simp [restart, turn, readHead, deviceRead, hdevice, hlong]
  rw [checkReceiveData, loop_eq, hread] at h
  contradiction

/-- Reads of a reply that a call can take begin with one of the head byte. -/
theorem exists_reads_of_arrivesAlone {p q : ProtocolInfo} {result : ReceiveResult} {data : List UInt8}
    {reads rest : List (List UInt8)} (h : p.checkReceiveData false = some (result, q))
    (halone : ArrivesAlone data reads) (hne : ∀ read ∈ reads, read ≠ [])
    (hdevice : p.device = reads ++ rest) :
    ∃ others, reads = [protocolRecvHead] :: others := by
  cases reads with
  | nil => exact nomatch halone.reply
  | cons chunk reads =>
    have hone := length_le_one_of_call h hdevice
    have hpos := List.length_pos_of_ne_nil (hne chunk List.mem_cons_self)
    obtain ⟨b, rfl⟩ := List.length_eq_one_iff.mp (Nat.le_antisymm hone hpos)
    obtain ⟨rfl, -⟩ : b = protocolRecvHead ∧ _ := List.cons.inj halone.reply
    exact ⟨reads, rfl⟩

end ProtocolInfo

/-- Replies that arrive in reads of their own are delivered. -/
theorem receives_of_separated {replies : List (List UInt8)} {p : ProtocolInfo}
    (hp : p.maxBufSize = toolMaxBufSize) (hne : ∀ read ∈ p.device, read ≠ [])
    (hserved : Served replies.length p) (h : Separated replies p.device) : Receives replies p := by
  obtain ⟨groups, hdevice, hall⟩ := h
  induction hall generalizing p with
  | nil => trivial
  | @cons data reads replies groups halone hall ih =>
    rw [List.flatten_cons] at hdevice
    obtain ⟨result, q', hcall', hrest⟩ := hserved
    have hreads : ∀ read ∈ reads, read ≠ [] := fun read hread =>
      hne read (hdevice ▸ List.mem_append_left _ hread)
    obtain ⟨others, rfl⟩ := exists_reads_of_arrivesAlone hcall' halone hreads hdevice.symm
    obtain ⟨q, hcall, hq, hholds, hdata⟩ :=
      checkReceiveData_of_head hp halone (List.forall_mem_cons.mp hreads).2 hdevice.symm
    obtain ⟨-, rfl⟩ := Prod.mk.inj (Option.some.inj (hcall'.symm.trans hcall))
    refine ⟨q', hcall, hholds.contents, hdata, ih hholds.max ?_ hrest hq.symm⟩
    exact fun read hread => hne read (hdevice ▸ List.mem_append_right _ (hq ▸ hread))

/-- The calls deliver the replies one each exactly when each arrives in reads of its own. -/
theorem receives_iff_separated (replies reads : List (List UInt8))
    (rxBuffer : FixedBuffer UInt8 buffCacheSize) (hne : ∀ read ∈ reads, read ≠ [])
    (hstream : reads.flatten = replyStream replies)
    (hserved : Served replies.length (toolReceiver rxBuffer reads)) :
    Receives replies (toolReceiver rxBuffer reads) ↔ Separated replies reads :=
  ⟨separated_of_receives rfl hne hstream, receives_of_separated rfl hne hserved⟩

/-- A reply whose head byte is followed by all the rest. -/
theorem receives_iff_separated_two_reads :
    Receives [[1]] (toolReceiver (.filled _ 0) [[protocolRecvHead], (replyFrame [1]).tail]) ↔
      Separated [[1]] [[protocolRecvHead], (replyFrame [1]).tail] := by
  have halone : ArrivesAlone [1] [[protocolRecvHead], (replyFrame [1]).tail] :=
    ⟨rfl, by rw [replyFrame_length]; decide, _, rfl, by decide⟩
  obtain ⟨q, hcall, -⟩ := checkReceiveData_of_head
    (p := toolReceiver (.filled _ 0) [[protocolRecvHead], (replyFrame [1]).tail]) rfl halone
    (fun read hread => List.mem_singleton.mp hread ▸ List.cons_ne_nil _ _)
    (by rw [List.append_nil]; rfl)
  exact receives_iff_separated [[1]] _ _ (by simp [replyFrame, replyBody]) (by simp [replyStream, replyFrame])
    ⟨_, q, hcall, trivial⟩

namespace ProtocolInfo

/-- A read of one byte is never too long. -/
theorem exists_deviceRead {p : ProtocolInfo} (h : ∀ read ∈ p.device, read.length ≤ 1) (nMaxSize : ℕ) :
    ∃ nRead q, p.deviceRead nMaxSize = some (nRead, q) := by
  unfold deviceRead
  split
  · exact ⟨_, _, rfl⟩
  case h_2 chunk rest hdevice =>
    have hchunk := h chunk (hdevice ▸ List.mem_cons_self)
    split
    · exact ⟨_, _, rfl⟩
    case isFalse hzero =>
      rw [if_pos (hchunk.trans (Nat.pos_of_ne_zero hzero))]
      exact ⟨_, _, rfl⟩

/-- A turn with a device that delivers single bytes. -/
theorem exists_turn {p : ProtocolInfo} (hp : p.Within) (h : ∀ read ∈ p.device, read.length ≤ 1) :
    ∃ t, p.turn false = some t := by
  obtain ⟨p', hhead⟩ : ∃ p', p.readHead false = some p' := by
    obtain ⟨nRead, q, hread⟩ := exists_deviceRead h 1
    unfold readHead
    split
    · rw [hread]
      exact ⟨_, rfl⟩
    · exact ⟨_, rfl⟩
  obtain ⟨taken, htakes⟩ := readHead_takes hp hhead
  obtain ⟨nRead, q, hread⟩ := exists_deviceRead (p := p')
    (fun read hread => h read (htakes.device ▸ List.mem_append_right _ hread)) p'.room
  rw [turn, hhead, Option.bind_some, readRest]
  split
  · rw [hread]
    exact ⟨_, rfl⟩
  · exact ⟨_, rfl⟩

/-- A call with a device that delivers single bytes returns. -/
theorem exists_loop {p : ProtocolInfo} (hp : p.Within) (h : ∀ read ∈ p.device, read.length ≤ 1) :
    ∃ result q, p.loop false = some (result, q) := by
  obtain ⟨t, ht⟩ := exists_turn hp h
  induction p using loop.induct false generalizing t with
  | case1 p hturn => exact nomatch hturn.symm.trans ht
  | case2 p result p' hturn => exact ⟨result, p', by rw [loop_eq, hturn]; rfl⟩
  | case3 p p' hturn ih =>
    obtain ⟨taken, htakes, -⟩ := turn_takes hp hturn
    have hdevice : ∀ read ∈ p'.device, read.length ≤ 1 := fun read hread =>
      h read (htakes.device ▸ List.mem_append_right _ hread)
    obtain ⟨t', ht'⟩ := exists_turn htakes.within hdevice
    obtain ⟨result, q, hloop⟩ := ih htakes.within hdevice t' ht'
    exact ⟨result, q, by rw [loop_eq, hturn]; exact hloop⟩

end ProtocolInfo

/-- No read of single bytes is longer than what is asked for. -/
theorem served_of_bytes {p : ProtocolInfo} (hp : p.maxBufSize = toolMaxBufSize)
    (h : ∀ read ∈ p.device, read.length ≤ 1) (calls : ℕ) : Served calls p := by
  induction calls generalizing p with
  | zero => trivial
  | succ calls ih =>
    have hwithin : p.restart.Within := ⟨hp, Nat.zero_le _⟩
    obtain ⟨result, q, hcall⟩ := exists_loop hwithin h
    obtain ⟨taken, htakes, -⟩ := loop_takes hwithin hcall
    have hdevice : p.device = taken ++ q.device := htakes.device
    exact ⟨result, q, hcall, ih htakes.within.max fun read hread =>
      h read (hdevice ▸ List.mem_append_right _ hread)⟩

/-- A reply without data that arrives byte by byte is not delivered. -/
theorem receives_fails_byte_by_byte :
    ¬ ∀ replies reads (rxBuffer : FixedBuffer UInt8 buffCacheSize),
      (replyStream replies).length ≤ buffCacheSize → (∀ read ∈ reads, read ≠ []) →
      reads.flatten = replyStream replies → Served replies.length (toolReceiver rxBuffer reads) →
      Receives replies (toolReceiver rxBuffer reads) := by
  intro hall
  have hbytes : ∀ read ∈ (replyFrame []).map fun b => [b], read.length = 1 :=
    List.forall_mem_map.mpr fun _ _ => rfl
  have hne : ∀ read ∈ (replyFrame []).map fun b => [b], read ≠ [] := fun read hread hnil => by
    have hone := hbytes read hread
    rw [hnil] at hone
    contradiction
  have hstream : ((replyFrame []).map fun b => [b]).flatten = replyStream [[]] := by
    simp [replyStream, replyFrame, replyBody]
  have hreceives := hall [[]] _ (.filled _ 0) (by rw [replyStream_cons]; decide) hne hstream
    (served_of_bytes rfl (fun read hread => Nat.le_of_eq (hbytes read hread)) _)
  obtain ⟨groups, hgroups, hforall⟩ := separated_of_receives rfl hne hstream hreceives
  obtain ⟨group, rest, halone, hrest, rfl⟩ := List.forall₂_cons_left_iff.mp hforall
  obtain rfl := List.forall₂_nil_left_iff.mp hrest
  obtain ⟨last, hlast, hlook⟩ := halone.last
  have hread : last ∈ (replyFrame []).map fun b => [b] := by
    have hgroup : [group].flatten = (replyFrame []).map fun b => [b] := hgroups
    rw [← hgroup, List.flatten_singleton]
    exact List.mem_of_getLast? hlast
  exact absurd (hlook.trans_eq (hbytes last hread)) (by decide)

end RemoteManage.ManageTool
