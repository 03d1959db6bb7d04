import RemoteManage.Modbus.RegisterTables

/-!
# How coils and discrete inputs are packed into a reply

Both callbacks fill the bytes of a reply that is built over the request. The one for discrete inputs writes
whole bytes. The one for coils sets its bits one by one, so the bits behind the last coil remain
those of the request, although the interface asks for zeros there.
-/

namespace RemoteManage.Modbus

open RemoteManage.Foundation RegisterTables

/-- The bytes that hold so many bits. -/
def byteCount (count : UInt16) : ℕ := (count.toNat + 7) / 8

/-- The bytes of a reply with so many bits. -/
def replyBytes (count : UInt16) (pucRegBuffer : TracedMemory UInt8) : List UInt8 :=
  (List.range (byteCount count)).map pucRegBuffer.cells

/-- The bits behind the last one asked for are zero. -/
def UnusedZero (count : UInt16) (pucRegBuffer : TracedMemory UInt8) : Prop :=
  ∀ j, count.toNat ≤ j → j < 8 * byteCount count → bitAt pucRegBuffer.cells j = false

/-- The buffer has nothing but zeros where a last byte that is not full has its unused bits. -/
def ClearBehind (count : UInt16) (pucRegBuffer : TracedMemory UInt8) : Prop :=
  count.toNat % 8 = 0 ∨ (pucRegBuffer.cells (count.toNat / 8)).toNat < 2 ^ (count.toNat % 8)

instance (count : UInt16) (pucRegBuffer : TracedMemory UInt8) : Decidable (ClearBehind count pucRegBuffer) :=
  inferInstanceAs (Decidable (_ ∨ _))

/-- The unused bits of a buffer are those of one byte above its last used bit. -/
theorem unusedZero_iff (count : UInt16) (pucRegBuffer : TracedMemory UInt8) :
    UnusedZero count pucRegBuffer ↔ ClearBehind count pucRegBuffer := by
  constructor
  · intro h
    by_cases hfull : count.toNat % 8 = 0
    · exact .inl hfull
    · refine .inr (Nat.lt_pow_two_of_testBit _ fun j hj => ?_)
      by_cases hbyte : j < 8
      · rw [testBit_cell _ _ hbyte]
        exact h _ (by omega) (by rw [byteCount]; omega)
      · exact testBit_byte_of_le _ (Nat.le_of_not_lt hbyte)
  · rintro (hfull | hclear) j hj hlast
    · rw [byteCount] at hlast
      omega
    · rw [byteCount] at hlast
      have hbyte : j / 8 = count.toNat / 8 := by omega
      rw [bitAt, hbyte]
      exact Nat.testBit_lt_two_pow
        (lt_of_lt_of_le hclear (Nat.pow_le_pow_right (by decide) (by omega)))

/-- Replies are the same when their bits are. -/
theorem replyBytes_eq_iff (count : UInt16) (a b : TracedMemory UInt8) :
    replyBytes count a = replyBytes count b ↔
      ∀ j < 8 * byteCount count, bitAt a.cells j = bitAt b.cells j := by
  rw [replyBytes, replyBytes, List.map_inj_left]
  constructor
  · intro h j hj
    rw [bitAt, bitAt, h (j / 8) (List.mem_range.mpr (by omega))]
  · intro h k hk
    refine byte_eq_of_testBit fun j hj => ?_
    have hin := List.mem_range.mp hk
    rw [testBit_cell _ _ hj, testBit_cell _ _ hj]
    exact h _ (by omega)

section

variable (t : RegisterTables) (pucRegBuffer : TracedMemory UInt8) {usAddress count : UInt16}

/-- The buffer after coils have been read into it. -/
def coilReply (usAddress count : UInt16) : TracedMemory UInt8 :=
  (t.call (.coils usAddress count .read) pucRegBuffer).2.2

/-- The buffer after discrete inputs have been read into it. -/
def discreteReply (usAddress count : UInt16) : TracedMemory UInt8 :=
  (t.call (.discrete usAddress count) pucRegBuffer).2.2

/-- Coils are set in the buffer, and the other bits remain. -/
theorem bitAt_coilReply (h : (RegRequest.coils usAddress count .read).InRange) (j : ℕ) :
    bitAt (coilReply t pucRegBuffer usAddress count).cells j =
      if j < count.toNat then bitAt t.usRegCoilBuf.cells (usAddress.toNat - 1 + j)
      else bitAt pucRegBuffer.cells j := by
  have hend := sub_regStart_add_lt usAddress count h
  have hzero : (0 : UInt16).toNat = 0 := rfl
  rw [coilReply, call_coils_read _ _ h]
  dsimp only
  rw [bitAt_moveBits _ _ _ _ _ hend (by rw [hzero]; omega), hzero, sub_regStart_toNat usAddress h.1]
  refine if_congr ?_ rfl rfl
  omega

/-- Discrete inputs fill the bytes of the buffer that they need. -/
theorem bitAt_discreteReply (h : (RegRequest.discrete usAddress count).InRange) (j : ℕ) :
    bitAt (discreteReply t pucRegBuffer usAddress count).cells j =
      if j < 8 * byteCount count then
        decide (j < count.toNat) && bitAt t.usRegDiscreateBuf.cells (usAddress.toNat - 1 + j)
      else bitAt pucRegBuffer.cells j := by
  rw [discreteReply, call_discrete _ _ h]
  dsimp only
  rw [bitAt_readDiscretes _ _ _ _ _ (sub_regStart_add_lt usAddress count h), sub_regStart_toNat usAddress h.1,
    Nat.mul_zero, Nat.sub_zero, Nat.zero_add]
  refine if_congr ?_ rfl rfl
  exact and_iff_right (Nat.zero_le j)

/-- When both tables hold the same bits, coils and discrete inputs in range are packed into the same bytes,
with zeros behind the last of them, exactly when the buffer has zeros there. -/
theorem replies_agree_iff (htables : ∀ k < regNregs, t.usRegCoilBuf.cells k = t.usRegDiscreateBuf.cells k)
    (h : (RegRequest.coils usAddress count .read).InRange) :
    (replyBytes count (coilReply t pucRegBuffer usAddress count) =
        replyBytes count (discreteReply t pucRegBuffer usAddress count) ∧
      UnusedZero count (coilReply t pucRegBuffer usAddress count) ∧
      UnusedZero count (discreteReply t pucRegBuffer usAddress count)) ↔ ClearBehind count pucRegBuffer := by
  have hcoil := bitAt_coilReply t pucRegBuffer h
  have hdiscrete := bitAt_discreteReply t pucRegBuffer h
  have hstart : 1 ≤ usAddress.toNat := h.1
  have hend : usAddress.toNat + count.toNat ≤ 81 := h.2
  have hsame {j : ℕ} (hj : j < count.toNat) : bitAt t.usRegCoilBuf.cells (usAddress.toNat - 1 + j) =
      bitAt t.usRegDiscreateBuf.cells (usAddress.toNat - 1 + j) := by
    have hbyte : (usAddress.toNat - 1 + j) / 8 < regNregs := by
      change _ < 10
      omega
    rw [bitAt, bitAt, htables _ hbyte]
  rw [← unusedZero_iff]
  constructor
  · rintro ⟨-, hunused, -⟩ j hj hlast
    have hbit := hunused j hj hlast
    rwa [hcoil, if_neg (Nat.not_lt_of_le hj)] at hbit
  · intro hclear
    refine ⟨(replyBytes_eq_iff _ _ _).mpr fun j hj => ?_, fun j hj hlast => ?_, fun j hj hlast => ?_⟩
    · rw [hcoil, hdiscrete, if_pos hj]
      by_cases hused : j < count.toNat
      · rw [if_pos hused, hsame hused, decide_eq_true hused, Bool.true_and]
      · rw [if_neg hused, hclear j (Nat.le_of_not_lt hused) hj, decide_eq_false hused, Bool.false_and]
    · rw [hcoil, if_neg (Nat.not_lt_of_le hj)]
      exact hclear j hj hlast
    · rw [hdiscrete, if_pos hlast, decide_eq_false (Nat.not_lt_of_le hj), Bool.false_and]

end

/-- Eight coils and eight discrete inputs are packed into the same byte, whatever the buffer holds. -/
theorem replies_agree_iff_full :
    replyBytes 8 (coilReply (ofCells (fun _ => 0x31) (fun _ => 0x31) (fun _ => 0) fun _ => 0)
        (.ofCells fun _ => 0xff) 5 8) =
      replyBytes 8 (discreteReply (ofCells (fun _ => 0x31) (fun _ => 0x31) (fun _ => 0) fun _ => 0)
        (.ofCells fun _ => 0xff) 5 8) :=
  ((replies_agree_iff (ofCells (fun _ => 0x31) (fun _ => 0x31) (fun _ => 0) fun _ => 0)
    (.ofCells fun _ => 0xff) (fun _ _ => rfl) (by decide)).mpr (by decide)).1

/-- A single coil that is off is packed into the bits of the request that lie in its byte. -/
theorem not_forall_replies_agree : ¬ ∀ (t : RegisterTables) (pucRegBuffer : TracedMemory UInt8)
    (usAddress count : UInt16), (∀ k < regNregs, t.usRegCoilBuf.cells k = t.usRegDiscreateBuf.cells k) →
      (RegRequest.coils usAddress count .read).InRange →
        replyBytes count (coilReply t pucRegBuffer usAddress count) =
          replyBytes count (discreteReply t pucRegBuffer usAddress count) := by
  intro h
  have hone := h (ofCells (fun _ => 0) (fun _ => 0) (fun _ => 0) fun _ => 0) (.ofCells fun _ => 0xff) 1 1
    (fun _ _ => rfl) (by decide)
  have hbit := (replyBytes_eq_iff _ _ _).mp hone 1 (by decide)
  rw [bitAt_coilReply _ _ (by decide), bitAt_discreteReply _ _ (by decide)] at hbit
  exact absurd hbit (by decide)

end RemoteManage.Modbus
