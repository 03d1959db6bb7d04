import RemoteManage.Modbus.PduRefinement

/-!
# Which requests are answered from their own bytes

The frame lies in a buffer that keeps what earlier requests and replies have left behind it. A request is
answered from its own bytes when no change behind them is seen, neither in the items that are left nor in
the reply. The handlers that write several items do not compare the length of the request with its byte
count, and a reply of coils keeps the bits of the buffer behind the last coil.
-/

namespace RemoteManage.Modbus

open RemoteManage.Foundation

/-- Two memories hold the same request. -/
def SameRequest (usLen : ℕ) (cells cells' : ℕ → UInt8) : Prop := ∀ k < usLen, cells' k = cells k

/-- What the decoded request takes from the frame is part of the request. -/
def Covered (cells : ℕ → UInt8) (usLen : ℕ) : Prop :=
  match PduRequest.ofFrame cells usLen with
  | .readBits .coils first count => first + count ≤ bitRowSize → count % 8 = 0 ∨ 2 + count / 8 < usLen
  | .writeCoils first values =>
    cells 0 = 15 → first + values.length ≤ bitRowSize → 6 + (values.length + 7) / 8 ≤ usLen
  | .writeHoldings first values =>
    cells 0 = 16 → first + values.length ≤ wordRowSize → 6 + 2 * values.length ≤ usLen
  | .readWriteHoldings _ _ writeFirst values =>
    writeFirst + values.length ≤ wordRowSize → 10 + 2 * values.length ≤ usLen
  | _ => True

instance (cells : ℕ → UInt8) (usLen : ℕ) : Decidable (Covered cells usLen) := by
  unfold Covered
  split <;> infer_instance

section Decode

variable {cells cells' : ℕ → UInt8} {usLen : ℕ}

/-- A word inside the request. -/
theorem SameRequest.word_eq (h : SameRequest usLen cells cells') {i : ℕ} (hi : i + 1 < usLen) :
    frameWord cells' i = frameWord cells i := by
  rw [frameWord, frameWord, h i (by omega), h (i + 1) hi]

/-- Words inside the request. -/
theorem SameRequest.words_eq (h : SameRequest usLen cells cells') {i count : ℕ}
    (hi : i + 2 * count ≤ usLen) : frameWords cells' i count = frameWords cells i count := by
  refine List.map_congr_left fun j hj => ?_
  have hj := List.mem_range.mp hj
  rw [h _ (by omega), h _ (by omega)]

/-- Bits inside the request. -/
theorem SameRequest.bits_eq (h : SameRequest usLen cells cells') {i count : ℕ}
    (hi : i + (count + 7) / 8 ≤ usLen) : frameBits cells' i count = frameBits cells i count := by
  refine List.map_congr_left fun j hj => ?_
  have hj := List.mem_range.mp hj
  rw [bitAt, bitAt, h _ (by omega)]

/-- The functions that write several items. -/
def WritesSeveral (fc : UInt8) : Prop := fc = 15 ∨ fc = 16 ∨ fc = 23

/-- A request that does not write several items is decoded from its own bytes. -/
theorem ofFrame_congr (hpos : 0 < usLen) (h : SameRequest usLen cells cells')
    (hfc : ¬ WritesSeveral (cells 0)) : PduRequest.ofFrame cells' usLen = .ofFrame cells usLen := by
  rw [WritesSeveral, not_or, not_or] at hfc
  have hhead := h 0 hpos
  by_cases hlen : usLen = 5
  · subst hlen
    rw [PduRequest.ofFrame, PduRequest.ofFrame, h.word_eq (by decide : 1 + 1 < 5),
      h.word_eq (by decide : 3 + 1 < 5), h.words_eq (by decide : 3 + 2 * 1 ≤ 5), h 0 (by decide),
      h 3 (by decide), h 4 (by decide)]
    simp only [if_neg hfc.1, if_neg hfc.2.1, if_neg hfc.2.2]
  · rw [PduRequest.ofFrame, PduRequest.ofFrame, hhead]
    simp only [if_neg hfc.1, if_neg hfc.2.1, if_neg hfc.2.2, PduRequest.guard, hlen, false_and, if_false]

/-- The decoder for the function that writes several coils. -/
theorem ofFrame_writeCoils (hfc : cells 0 = 15) : PduRequest.ofFrame cells usLen =
    .guard (6 ≤ usLen ∧ 1 ≤ frameWord cells 3 ∧ frameWord cells 3 ≤ 0x7B0 ∧
        (cells 5).toNat = (frameWord cells 3 + 7) / 8)
      (.writeCoils (frameWord cells 1) (frameBits cells 6 (frameWord cells 3))) := by
  rw [PduRequest.ofFrame, hfc]
  rfl

/-- The decoder for the function that writes several holding registers. -/
theorem ofFrame_writeHoldings (hfc : cells 0 = 16) : PduRequest.ofFrame cells usLen =
    .guard (6 ≤ usLen ∧ 1 ≤ frameWord cells 3 ∧ frameWord cells 3 ≤ 0x78 ∧
        (cells 5).toNat = 2 * frameWord cells 3)
      (.writeHoldings (frameWord cells 1) (frameWords cells 6 (frameWord cells 3))) := by
  rw [PduRequest.ofFrame, hfc]
  rfl

/-- The decoder for the function that writes and reads holding registers. -/
theorem ofFrame_readWriteHoldings (hfc : cells 0 = 23) : PduRequest.ofFrame cells usLen =
    if 10 ≤ usLen then
      .guard (1 ≤ frameWord cells 3 ∧ frameWord cells 3 ≤ 0x7D ∧ 1 ≤ frameWord cells 7 ∧
          frameWord cells 7 ≤ 0x79 ∧ (cells 9).toNat = 2 * frameWord cells 7)
        (.readWriteHoldings (frameWord cells 1) (frameWord cells 3) (frameWord cells 5)
          (frameWords cells 10 (frameWord cells 7)))
    else .echo := by
  rw [PduRequest.ofFrame, hfc]
  rfl

end Decode

/-- What a request may make of the bytes of the frame when it is answered: those that write are echoed as far
as their head, and the last byte of a reply of coils keeps its unused bits. -/
def PduRequest.Echoes (usLen : ℕ) : PduRequest → Prop
  | .readBits .coils first count => first + count ≤ bitRowSize → count % 8 = 0 ∨ 2 + count / 8 < usLen
  | .writeCoils _ _ => 5 ≤ usLen
  | .writeHoldings _ _ => 5 ≤ usLen
  | _ => True

section Answers

variable {cells cells' : ℕ → UInt8} {usLen : ℕ}

/-- Requests that write are long enough to be echoed. -/
def PduRequest.Whole (usLen : ℕ) : PduRequest → Prop
  | .writeCoils _ _ => 5 ≤ usLen
  | .writeHoldings _ _ => 5 ≤ usLen
  | _ => True

/-- A guarded request is long enough when the guard says so. -/
theorem PduRequest.Whole.guard {p : Prop} [Decidable p] {r : PduRequest} (h : p → r.Whole usLen) :
    (r.guard p).Whole usLen := by
  rw [PduRequest.guard]
  split
  case isTrue hp => exact h hp
  case isFalse => trivial

/-- Every request that writes is long enough. -/
theorem ofFrame_whole (cells : ℕ → UInt8) (usLen : ℕ) : (PduRequest.ofFrame cells usLen).Whole usLen := by
  apply ofFrame_cases cells (motive := PduRequest.Whole usLen)
  case reportSlaveId | other => exact fun _ => trivial
  case writeHoldings | writeCoils => exact fun _ => .guard fun hp => (by decide : 5 ≤ 6).trans hp.1
  case writeHolding => exact fun _ => .guard fun hp => hp.ge
  case writeCoil => exact fun _ => .guard fun hp => hp.1.ge
  case readWriteHoldings =>
    intro _
    split
    · exact .guard fun _ => trivial
    · trivial
  all_goals exact fun _ => .guard fun _ => trivial

/-- A request that is covered is answered from its own bytes, once it is decoded. -/
theorem Covered.echoes (h : Covered cells usLen) : (PduRequest.ofFrame cells usLen).Echoes usLen := by
  have hwhole := ofFrame_whole cells usLen
  rw [Covered] at h
  cases hr : PduRequest.ofFrame cells usLen with
  | readBits row first count =>
    cases row with
    | coils =>
      rw [hr] at h
      exact h
    | discretes => trivial
  | writeCoils =>
    rw [hr] at hwhole
    exact hwhole
  | writeHoldings =>
    rw [hr] at hwhole
    exact hwhole
  | readWords | readWriteHoldings | reportSlaveId | echo | reject => trivial

/-- The unused bits of a reply of coils lie in one byte. -/
theorem packBits_congr {values : List Bool} {unused unused' : ℕ → Bool}
    (h : values.length % 8 = 0 ∨ ∀ j < 8, unused' (8 * (values.length / 8) + j) =
      unused (8 * (values.length / 8) + j)) : packBits values unused' = packBits values unused := by
  refine List.map_congr_left fun k hk => ?_
  have hk := List.mem_range.mp hk
  refine byte_eq_of_testBit fun j hj => ?_
  rw [testBit_byteOfBits _ hj, testBit_byteOfBits _ hj]
  by_cases hused : 8 * k + j < values.length
  · rw [List.getD_eq_getElem _ _ hused, List.getD_eq_getElem _ _ hused]
  · rw [List.getD_eq_default _ _ (by omega), List.getD_eq_default _ _ (by omega)]
    have hlast : k = values.length / 8 := by omega
    subst hlast
    rcases h with hfull | hsame
    · omega
    · exact hsame j hj

/-- The answer to a decoded request is the same for frames that hold the same request. -/
theorem encode_serve_congr (d : Device) (hpos : 0 < usLen) (h : SameRequest usLen cells cells')
    {r : PduRequest} (hechoes : r.Echoes usLen) :
    (d.serve r).2.encode cells' usLen = (d.serve r).2.encode cells usLen := by
  have hhead := h 0 hpos
  have hwritten (hlen : 5 ≤ usLen) :
      PduReply.written.encode cells' usLen = PduReply.written.encode cells usLen :=
    List.map_congr_left fun k hk => h k ((List.mem_range.mp hk).trans_le hlen)
  have hexception (e : MbException) :
      (PduReply.exception e).encode cells' usLen = (PduReply.exception e).encode cells usLen := by
    rw [PduReply.encode, PduReply.encode, hhead]
  have hwords (values : List UInt16) :
      (PduReply.words values).encode cells' usLen = (PduReply.words values).encode cells usLen := by
    rw [PduReply.encode, PduReply.encode, hhead]
  cases r with
  | readBits row first count =>
    rw [Device.serve]
    split
    case isTrue hin =>
      rw [PduReply.encode, PduReply.encode, hhead]
      congr 2
      cases row with
      | discretes => rfl
      | coils =>
        refine packBits_congr ?_
        rw [Device.items_length]
        refine (hechoes hin).imp_right fun hlast j hj => ?_
        have hbyte : (8 * (count / 8) + j) / 8 = count / 8 := by omega
        rw [unusedBits, unusedBits, bitAt, bitAt, hbyte, h _ hlast]
    case isFalse => exact hexception _
  | readWords row first count =>
    rw [Device.serve, Device.answerWords]
    dsimp only
    split
    · exact hwords _
    · exact hexception _
  | writeCoils first values =>
    rw [Device.serve]
    split
    · exact hwritten hechoes
    · exact hexception _
  | writeHoldings first values =>
    rw [Device.serve]
    split
    · exact hwritten hechoes
    · exact hexception _
  | readWriteHoldings first count writeFirst values =>
    rw [Device.serve]
    split
    · dsimp only
      rw [Device.answerWords]
      split
      · exact hwords _
      · exact hexception _
    · exact hexception _
  | reportSlaveId =>
    rw [Device.serve, PduReply.encode, PduReply.encode, hhead]
  | echo => exact List.map_congr_left fun k hk => h k (List.mem_range.mp hk)
  | reject e => exact hexception e

/-- A request that is decoded in the same way, or is refused in the same way, is answered in the same way. -/
theorem answer_congr (d : Device) (hpos : 0 < usLen) (h : SameRequest usLen cells cells')
    (hechoes : (PduRequest.ofFrame cells usLen).Echoes usLen)
    (hserve : d.serve (.ofFrame cells' usLen) = d.serve (.ofFrame cells usLen)) :
    d.answer cells' usLen = d.answer cells usLen := by
  rw [Device.answer, Device.answer, hserve]
  exact Prod.ext rfl (encode_serve_congr d hpos h hechoes)

/-- Two guarded requests with the same guard are served in the same way when they are so under the guard. -/
theorem serve_guard_congr (d : Device) {p : Prop} [Decidable p] {r r' : PduRequest}
    (h : p → d.serve r' = d.serve r) : d.serve (r'.guard p) = d.serve (r.guard p) := by
  rw [PduRequest.guard, PduRequest.guard]
  split
  case isTrue hp => exact h hp
  case isFalse => rfl

/-- A guarded request that is covered is covered under the guard. -/
theorem covered_of_guard {p : Prop} [Decidable p] {r : PduRequest}
    (hr : PduRequest.ofFrame cells usLen = r.guard p) (hp : p) : PduRequest.ofFrame cells usLen = r := by
  rw [hr, PduRequest.guard, if_pos hp]

/-- The head of a request to write several items. -/
theorem SameRequest.head_eq (h : SameRequest usLen cells cells') (hlen : 6 ≤ usLen) :
    frameWord cells' 1 = frameWord cells 1 ∧ frameWord cells' 3 = frameWord cells 3 ∧
      cells' 5 = cells 5 :=
  ⟨h.word_eq (by omega), h.word_eq (by omega), h 5 (by omega)⟩

/-- A covered request to write several coils is served in the same way. -/
theorem serve_writeCoils_congr (d : Device) (h : SameRequest usLen cells cells') (hfc : cells 0 = 15)
    (hfc' : cells' 0 = 15) (hcovered : Covered cells usLen) :
    d.serve (.ofFrame cells' usLen) = d.serve (.ofFrame cells usLen) := by
  have hr := @ofFrame_writeCoils cells usLen hfc
  rw [hr, ofFrame_writeCoils hfc']
  by_cases hlen : 6 ≤ usLen
  · obtain ⟨hfirst, hcount, hbytes⟩ := h.head_eq hlen
    rw [hfirst, hcount, hbytes]
    refine serve_guard_congr d fun hp => ?_
    rw [Covered, covered_of_guard hr hp] at hcovered
    rw [Device.serve, Device.serve, frameBits_length, frameBits_length]
    split
    case isTrue hin =>
      have hfits := hcovered hfc (by rwa [frameBits_length])
      rw [frameBits_length] at hfits
      rw [h.bits_eq hfits]
    case isFalse => rfl
  · rw [PduRequest.guard, PduRequest.guard, if_neg fun hp => hlen hp.1, if_neg fun hp => hlen hp.1]

/-- A covered request to write several holding registers is served in the same way. -/
theorem serve_writeHoldings_congr (d : Device) (h : SameRequest usLen cells cells') (hfc : cells 0 = 16)
    (hfc' : cells' 0 = 16) (hcovered : Covered cells usLen) :
    d.serve (.ofFrame cells' usLen) = d.serve (.ofFrame cells usLen) := by
  have hr := @ofFrame_writeHoldings cells usLen hfc
  rw [hr, ofFrame_writeHoldings hfc']
  by_cases hlen : 6 ≤ usLen
  · obtain ⟨hfirst, hcount, hbytes⟩ := h.head_eq hlen
    rw [hfirst, hcount, hbytes]
    refine serve_guard_congr d fun hp => ?_
    rw [Covered, covered_of_guard hr hp] at hcovered
    rw [Device.serve, Device.serve, frameWords_length, frameWords_length]
    split
    case isTrue hin =>
      have hfits := hcovered hfc (by rwa [frameWords_length])
      rw [frameWords_length] at hfits
      rw [h.words_eq hfits]
    case isFalse => rfl
  · rw [PduRequest.guard, PduRequest.guard, if_neg fun hp => hlen hp.1, if_neg fun hp => hlen hp.1]

/-- A covered request to write and read holding registers is served in the same way. -/
theorem serve_readWriteHoldings_congr (d : Device) (h : SameRequest usLen cells cells') (hfc : cells 0 = 23)
    (hfc' : cells' 0 = 23) (hcovered : Covered cells usLen) :
    d.serve (.ofFrame cells' usLen) = d.serve (.ofFrame cells usLen) := by
  have hr := @ofFrame_readWriteHoldings cells usLen hfc
  rw [hr, ofFrame_readWriteHoldings hfc']
  by_cases hlen : 10 ≤ usLen
  · rw [if_pos hlen] at hr
    rw [if_pos hlen, if_pos hlen, h.word_eq (show 1 + 1 < usLen by omega),
      h.word_eq (show 3 + 1 < usLen by omega), h.word_eq (show 5 + 1 < usLen by omega),
      h.word_eq (show 7 + 1 < usLen by omega), h 9 (by omega)]
    refine serve_guard_congr d fun hp => ?_
    rw [Covered, covered_of_guard hr hp] at hcovered
    rw [Device.serve, Device.serve, frameWords_length, frameWords_length]
    split
    case isTrue hin =>
      have hfits := hcovered (by rwa [frameWords_length])
      rw [frameWords_length] at hfits
      rw [h.words_eq hfits]
    case isFalse => rfl
  · rw [if_neg hlen, if_neg hlen]

/-- A covered request is answered in the same way from every frame that holds it. -/
theorem Covered.answer_eq (d : Device) (hpos : 0 < usLen) (hcovered : Covered cells usLen)
    (h : SameRequest usLen cells cells') : d.answer cells' usLen = d.answer cells usLen := by
  refine answer_congr d hpos h hcovered.echoes ?_
  have hhead := h 0 hpos
  by_cases hfc : WritesSeveral (cells 0)
  · rcases hfc with hfc | hfc | hfc
    · exact serve_writeCoils_congr d h hfc (hhead.trans hfc) hcovered
    · exact serve_writeHoldings_congr d h hfc (hhead.trans hfc) hcovered
    · exact serve_readWriteHoldings_congr d h hfc (hhead.trans hfc) hcovered
  · rw [ofFrame_congr hpos h hfc]

end Answers

section Flip

variable (cells : ℕ → UInt8)

end Flip

section Leaks

variable {cells : ℕ → UInt8} {usLen : ℕ}

end Leaks

end RemoteManage.Modbus
