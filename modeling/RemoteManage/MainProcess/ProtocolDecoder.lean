import RemoteManage.Foundation.FrameDecoder
import RemoteManage.MainProcess.Frame

/-!
# What the receiver of `main_process` is for

`protocolDecoder` says on byte sequences alone what the receiver does: hunt for the head,
collect until the length byte says the frame is complete, accept it when the checksum
agrees. It reads every well-formed frame (`protocolDecoder_reads`), and whatever it
accepts is one (`protocolDecoder_frame_encode`). The code is related to it in
`ReceiverRefinement`.
-/

namespace RemoteManage.MainProcess

open RemoteManage.Foundation

/-- The frame length announced by the bytes held; eight as long as the length byte is missing. -/
def frameLength (held : List UInt8) : ℕ := (held.getD 5 0).toNat + protocolFrameLength

/-- The checksum in the last two bytes. -/
def storedCrc (held : List UInt8) : UInt16 :=
  joinBytes (held.getD (held.length - 2) 0) (held.getD (held.length - 1) 0)

/-- The checksum of what lies between the head and the last two bytes. -/
def computedCrc (held : List UInt8) : UInt16 := calculateCrc ((held.drop 2).take (held.length - 4))

/-- The decoder of the protocol on byte sequences. -/
def protocolDecoder : FrameDecoder UInt8
  | [], data => if data = packedHead0 then .hold [data] else .reject
  | [first], data =>
    if data = packedHead0 then .hold [first]
    else if data = packedHead1 then .hold [first, data]
    else .reject
  | held, data =>
    if (held ++ [data]).length = frameLength (held ++ [data]) then
      if storedCrc (held ++ [data]) = computedCrc (held ++ [data]) then .frame (held ++ [data])
      else .reject
    else .hold (held ++ [data])

/-- What can be held: nothing, the first head byte, or the head and less than a frame. -/
inductive InProgress : List UInt8 → Prop
  | idle : InProgress []
  | head : InProgress [packedHead0]
  | data (rest : List UInt8)
      (h : (packedHead0 :: packedHead1 :: rest).length < frameLength (packedHead0 :: packedHead1 :: rest)) :
      InProgress (packedHead0 :: packedHead1 :: rest)

/-- Less than a frame is at most 262 bytes. -/
theorem InProgress.length_lt {held : List UInt8} (h : InProgress held) : held.length < 263 := by
  cases h with
  | idle => decide
  | head => decide
  | data rest h =>
    have hbyte := ((packedHead0 :: packedHead1 :: rest).getD 5 0).toNat_lt
    simp only [frameLength, protocolFrameLength] at h
    omega

/-- With nothing held the decoder waits for the first head byte. -/
theorem protocolDecoder_idle (data : UInt8) :
    protocolDecoder [] data = if data = packedHead0 then .hold [data] else .reject := rfl

/-- Behind the first head byte the decoder waits for the second, and lets the first repeat. -/
theorem protocolDecoder_head (data : UInt8) :
    protocolDecoder [packedHead0] data =
      if data = packedHead0 then .hold [packedHead0]
      else if data = packedHead1 then .hold [packedHead0, data]
      else .reject := rfl

/-- Inside a frame the decoder appends, and stops exactly at the announced length. -/
theorem protocolDecoder_data (rest : List UInt8) (data : UInt8) :
    protocolDecoder (packedHead0 :: packedHead1 :: rest) data =
      (let f := packedHead0 :: packedHead1 :: rest ++ [data]
       if f.length = frameLength f then if storedCrc f = computedCrc f then .frame f else .reject
       else .hold f) := rfl

/-- A reported frame consists of the bytes held and the new byte, begins with the head, is as
long as it announces and carries the checksum of its contents. -/
theorem protocolDecoder_frame {held : List UInt8} (h : InProgress held) (data : UInt8)
    (f : List UInt8) (hf : protocolDecoder held data = .frame f) :
    f = held ++ [data] ∧ (∃ rest, f = packedHead0 :: packedHead1 :: rest) ∧
      f.length = frameLength f ∧ storedCrc f = computedCrc f := by
  cases h with
  | idle =>
    rw [protocolDecoder_idle] at hf
    split at hf <;> contradiction
  | head =>
    rw [protocolDecoder_head] at hf
    split at hf
    · contradiction
    · split at hf <;> contradiction
  | data rest hrest =>
    rw [protocolDecoder_data] at hf
    dsimp only at hf
    split at hf
    · next hlen =>
      split at hf
      · next hcrc =>
        obtain rfl := Progress.frame.inj hf
        exact ⟨rfl, ⟨rest ++ [data], rfl⟩, hlen, hcrc⟩
      · contradiction
    · contradiction

/-- The announced length does not change once the length byte is held. -/
theorem frameLength_append (held : List UInt8) (data : UInt8) (h : 6 ≤ held.length) :
    frameLength (held ++ [data]) = frameLength held := by
  rw [frameLength, frameLength, List.getD_append _ _ _ _ (by omega)]

/-- One more byte of a frame in progress does not pass the announced length. -/
theorem frameLength_ge_of_inProgress (held : List UInt8) (data : UInt8)
    (h : held.length < frameLength held) : (held ++ [data]).length ≤ frameLength (held ++ [data]) := by
  rw [List.length_append, List.length_singleton]
  by_cases hlen : 6 ≤ held.length
  · rw [frameLength_append held data hlen]
    omega
  · simp only [frameLength, protocolFrameLength]
    omega

/-- What the decoder holds is in progress. -/
theorem protocolDecoder_inProgress {held : List UInt8} (h : InProgress held) (data : UInt8)
    (l : List UInt8) (hl : protocolDecoder held data = .hold l) : InProgress l := by
  cases h with
  | idle =>
    rw [protocolDecoder_idle] at hl
    by_cases hdata : data = packedHead0
    · rw [if_pos hdata, hdata] at hl
      exact Progress.hold.inj hl ▸ .head
    · rw [if_neg hdata] at hl
      contradiction
  | head =>
    rw [protocolDecoder_head] at hl
    by_cases hfirst : data = packedHead0
    · rw [if_pos hfirst] at hl
      exact Progress.hold.inj hl ▸ .head
    · rw [if_neg hfirst] at hl
      by_cases hsecond : data = packedHead1
      · rw [if_pos hsecond, hsecond] at hl
        exact Progress.hold.inj hl ▸ .data [] (by decide)
      · rw [if_neg hsecond] at hl
        contradiction
  | data rest hrest =>
    rw [protocolDecoder_data] at hl
    have hle := frameLength_ge_of_inProgress _ data hrest
    dsimp only at hl
    split at hl
    · split at hl <;> contradiction
    · next hne =>
      cases hl
      exact .data (rest ++ [data]) (lt_of_le_of_ne hle hne)

/-- After any byte what is held is in progress. -/
theorem protocolDecoder_step_inProgress {held : List UInt8} (h : InProgress held) (data : UInt8) :
    InProgress (protocolDecoder.step held data).1 := by
  unfold FrameDecoder.step
  cases hprogress : protocolDecoder held data with
  | hold l => exact protocolDecoder_inProgress h data l hprogress
  | reject => exact .idle
  | frame f => exact .idle

/-- A byte that is held is put behind the bytes held, except for a repeated first head byte. -/
theorem protocolDecoder_hold {held : List UInt8} (h : InProgress held) (data : UInt8)
    (l : List UInt8) (hl : protocolDecoder held data = .hold l) :
    l = held ++ [data] ∨ held = [packedHead0] ∧ data = packedHead0 ∧ l = held := by
  cases h with
  | idle =>
    rw [protocolDecoder_idle] at hl
    split at hl
    · exact .inl (Progress.hold.inj hl).symm
    · contradiction
  | head =>
    rw [protocolDecoder_head] at hl
    split at hl
    · next hdata => exact .inr ⟨rfl, hdata, (Progress.hold.inj hl).symm⟩
    · split at hl
      · exact .inl (Progress.hold.inj hl).symm
      · contradiction
  | data rest _ =>
    rw [protocolDecoder_data] at hl
    dsimp only at hl
    split at hl
    · split at hl <;> contradiction
    · exact .inl (Progress.hold.inj hl).symm

/-- The checksum stored behind a sequence of bytes. -/
theorem storedCrc_append (l : List UInt8) (hi lo : UInt8) : storedCrc (l ++ [hi, lo]) = joinBytes hi lo := by
  have hlen : (l ++ [hi, lo]).length = l.length + 2 := by
    rw [List.length_append, List.length_cons, List.length_singleton]
  rw [storedCrc, hlen]
  exact joinBytes_getD_append l hi lo

/-- The checksum computed over what lies between a head and two last bytes. -/
theorem computedCrc_append (h0 h1 hi lo : UInt8) (body : List UInt8) :
    computedCrc ([h0, h1] ++ body ++ [hi, lo]) = calculateCrc body := by
  have hlen : ([h0, h1] ++ body ++ [hi, lo]).length - 4 = body.length := by
    simp only [List.length_append, List.length_cons, List.length_nil]
    omega
  rw [computedCrc, hlen, List.append_assoc]
  change calculateCrc ((body ++ [hi, lo]).take body.length) = _
  rw [List.take_left]

/-- An encoded frame is as long as it announces. -/
theorem frameLength_encode (f : Frame) : frameLength f.encode = f.encode.length := by
  rw [f.encode_length, frameLength]
  exact congrArg (· + protocolFrameLength) f.lengthByte_toNat

/-- An encoded frame carries the checksum of its body. -/
theorem storedCrc_encode (f : Frame) : storedCrc f.encode = computedCrc f.encode := by
  rw [Frame.encode, storedCrc_append, computedCrc_append, joinBytes_highByte_lowByte]

/-- Before its end an encoded frame is shorter than it announces. -/
theorem frameLength_ne_of_prefix (f : Frame) (held rest : List UInt8) (hf : f.encode = held ++ rest)
    (hrest : rest ≠ []) : held.length ≠ frameLength held := by
  have hpos := List.length_pos_iff.mpr hrest
  have htotal := congrArg List.length hf
  rw [List.length_append] at htotal
  by_cases hlen : 6 ≤ held.length
  · have hsame : frameLength held = frameLength f.encode := by
      rw [hf, frameLength, frameLength, List.getD_append _ _ _ _ (by omega)]
    rw [hsame, frameLength_encode]
    omega
  · simp only [frameLength, protocolFrameLength]
    omega

/-- A first part of an encoded frame of at least two bytes begins with the head. -/
theorem head_of_prefix (f : Frame) (first second : UInt8) (held rest : List UInt8)
    (hf : f.encode = first :: second :: held ++ rest) :
    first = packedHead0 ∧ second = packedHead1 := by
  simp only [Frame.encode, List.cons_append, List.nil_append, List.cons.injEq] at hf
  exact ⟨hf.1.symm, hf.2.1.symm⟩

/-- Every well-formed frame is read byte by byte and completed by its last byte. -/
theorem protocolDecoder_reads (f : Frame) : protocolDecoder.Reads f.encode where
  ne_nil := by simp [Frame.encode]
  hold held x rest hf hrest := by
    cases held with
    | nil =>
      have hx : packedHead0 = x := (List.cons.inj hf).1
      rw [protocolDecoder_idle, if_pos hx.symm]
      rfl
    | cons first held =>
      cases held with
      | nil =>
        obtain ⟨rfl, rfl⟩ := head_of_prefix f first x [] rest hf
        rfl
      | cons second held =>
        obtain ⟨rfl, rfl⟩ := head_of_prefix f first second held (x :: rest) hf
        have hne := frameLength_ne_of_prefix f (packedHead0 :: packedHead1 :: held ++ [x]) rest
          (by rw [hf, List.append_assoc, List.singleton_append]) hrest
        rw [protocolDecoder_data]
        exact if_neg hne
  complete held x hf := by
    have hlen := f.encode_length
    cases held with
    | nil =>
      rw [hf] at hlen
      simp [protocolFrameLength] at hlen
    | cons first held =>
      cases held with
      | nil =>
        rw [hf] at hlen
        simp [protocolFrameLength] at hlen
      | cons second held =>
        obtain ⟨rfl, rfl⟩ := head_of_prefix f first second held [x] hf
        rw [protocolDecoder_data, ← hf]
        dsimp only
        rw [if_pos (frameLength_encode f).symm, if_pos (storedCrc_encode f)]

/-- What is held or reported is what was held with the new byte behind it; a repeated first
head byte is again a first head byte. -/
theorem protocolDecoder_suffixing : protocolDecoder.Suffixing InProgress where
  nil := .idle
  hold held x l hheld hl := by
    refine ⟨protocolDecoder_inProgress hheld x l hl, ?_⟩
    rcases protocolDecoder_hold hheld x l hl with rfl | ⟨rfl, rfl, rfl⟩
    · exact List.suffix_refl _
    · exact List.suffix_cons _ _
  frame held x f hheld hf := (protocolDecoder_frame hheld x f hf).1 ▸ List.suffix_refl _

/-- Splitting a list at its last two elements. -/
theorem exists_append_pair (l : List UInt8) (h : 2 ≤ l.length) :
    ∃ body hi lo, l = body ++ [hi, lo] ∧ body.length = l.length - 2 := by
  have hdrop : (l.drop (l.length - 2)).length = 2 := by rw [List.length_drop]; omega
  obtain ⟨hi, lo, hpair⟩ := List.length_eq_two.mp hdrop
  refine ⟨l.take (l.length - 2), hi, lo, ?_, ?_⟩
  · rw [← hpair, List.take_append_drop]
  · rw [List.length_take]
    omega

/-- The announced length of a frame whose length byte is held. -/
theorem frameLength_cons (h0 h1 a b c d : UInt8) (tail : List UInt8) :
    frameLength (h0 :: h1 :: a :: b :: c :: d :: tail) = d.toNat + protocolFrameLength := rfl

/-- A list of at least four elements. -/
theorem exists_cons_four (l : List UInt8) (h : 4 ≤ l.length) :
    ∃ a b c d tail, l = a :: b :: c :: d :: tail := by
  match l, h with
  | a :: b :: c :: d :: tail, _ => exact ⟨a, b, c, d, tail, rfl⟩

/-- Whatever the decoder accepts is a well-formed frame. -/
theorem protocolDecoder_frame_encode {held : List UInt8} (h : InProgress held) (data : UInt8)
    (f : List UInt8) (hf : protocolDecoder held data = .frame f) : ∃ frame : Frame, f = frame.encode := by
  obtain ⟨-, ⟨rest, rfl⟩, hlen, hcrc⟩ := protocolDecoder_frame h data f hf
  have hrest : 4 ≤ rest.length := by
    simp only [frameLength, protocolFrameLength, List.length_cons] at hlen
    omega
  obtain ⟨a, b, c, d, tail, rfl⟩ := exists_cons_four rest hrest
  rw [frameLength_cons] at hlen
  simp only [List.length_cons, protocolFrameLength] at hlen
  obtain ⟨payload, hi, lo, rfl, hpayload⟩ := exists_append_pair tail (by omega)
  have hsize : payload.length = d.toNat := by omega
  have hd := d.toNat_lt
  let frame := Frame.mk (joinBytes a b) c payload (by omega)
  have hbody : frame.body = [a, b, c, d] ++ payload := by
    simp only [frame, Frame.body, highByte_joinBytes, lowByte_joinBytes, hsize, UInt8.ofNat_toNat]
  have hsplit : packedHead0 :: packedHead1 :: a :: b :: c :: d :: (payload ++ [hi, lo]) =
      [packedHead0, packedHead1] ++ frame.body ++ [hi, lo] := by
    simp only [hbody, List.cons_append, List.nil_append]
  rw [hsplit, storedCrc_append, computedCrc_append] at hcrc
  refine ⟨frame, ?_⟩
  rw [hsplit, Frame.encode, ← hcrc, highByte_joinBytes, lowByte_joinBytes]

end RemoteManage.MainProcess
