import RemoteManage.Modbus.RegisterTables

/-!
# Which elements of the tables are accessed

The range checks count bits and registers, while the bit helpers always reach two bytes. A request that they
admit stays inside the ten elements of its table unless a field begins in the last byte of a table of
bits: for coils every field has one bit, for discrete inputs a field begins with every byte of
the reply.
-/

namespace RemoteManage.Modbus

open RemoteManage.Foundation RegisterTables

/-- Every element accessed is one of the ten of its table. -/
structure RegisterTables.AccessesInside (t : RegisterTables) : Prop where
  coils : ∀ k ∈ t.usRegCoilBuf.accesses, k < regNregs
  discretes : ∀ k ∈ t.usRegDiscreateBuf.accesses, k < regNregs
  holdings : ∀ k ∈ t.usRegHoldingBuf.accesses, k < regNregs
  inputs : ∀ k ∈ t.usRegInputBuf.accesses, k < regNregs

/-- No field that the request is served with begins in the last byte of a table of bits. -/
def RegRequest.AvoidsLastByte : RegRequest → Prop
  | .coils usAddress usNCoils _ => usNCoils = 0 ∨ usAddress.toNat - 1 + usNCoils.toNat ≤ 72
  | .discrete usAddress usNDiscrete =>
    usNDiscrete = 0 ∨ usAddress.toNat - 1 + 8 * ((usNDiscrete.toNat - 1) / 8) < 72
  | .holding _ _ _ => True
  | .input _ _ => True

instance (request : RegRequest) : Decidable request.AvoidsLastByte := by
  cases request <;> unfold RegRequest.AvoidsLastByte <;> infer_instance

/-- A window lies inside a table exactly when the field begins before the last byte. -/
theorem window_lt_iff (bitOffset : ℕ) : (∀ k, Window bitOffset k → k < regNregs) ↔ bitOffset < 72 := by
  constructor
  · intro h
    have hnext := h (bitOffset / 8 + 1) (.inr rfl)
    change bitOffset / 8 + 1 < 10 at hnext
    omega
  · rintro h k (rfl | rfl)
    · change bitOffset / 8 < 10
      omega
    · change bitOffset / 8 + 1 < 10
      omega

/-- The windows of some fields lie inside a table exactly when all the fields begin before the last byte. -/
theorem windows_lt_iff (bitOffset : ℕ → ℕ) (n : ℕ) :
    (∀ k, (∃ i < n, Window (bitOffset i) k) → k < regNregs) ↔ ∀ i < n, bitOffset i < 72 := by
  constructor
  · exact fun h i hi => (window_lt_iff (bitOffset i)).mp fun k hk => h k ⟨i, hi, hk⟩
  · rintro h k ⟨i, hi, hk⟩
    exact (window_lt_iff (bitOffset i)).mpr (h i hi) k hk

section

variable (coils discretes : ℕ → UInt8) (holdings inputs : ℕ → UInt16) (pucRegBuffer : TracedMemory UInt8)

/-- Before a call nothing has been accessed. -/
theorem accessesInside_ofCells : (ofCells coils discretes holdings inputs).AccessesInside := by
  constructor <;> exact fun k hk => absurd hk List.not_mem_nil

/-- Only the coils are accessed by a request for coils. -/
theorem accessesInside_coils_iff (table : TracedMemory UInt8) :
    RegisterTables.AccessesInside { ofCells coils discretes holdings inputs with usRegCoilBuf := table } ↔
      ∀ k ∈ table.accesses, k < regNregs := by
  have h := accessesInside_ofCells coils discretes holdings inputs
  exact ⟨fun hall => hall.coils, fun htable => ⟨htable, h.discretes, h.holdings, h.inputs⟩⟩

/-- Only the discrete inputs are accessed by a request for them. -/
theorem accessesInside_discretes_iff (table : TracedMemory UInt8) :
    RegisterTables.AccessesInside
        { ofCells coils discretes holdings inputs with usRegDiscreateBuf := table } ↔
      ∀ k ∈ table.accesses, k < regNregs := by
  have h := accessesInside_ofCells coils discretes holdings inputs
  exact ⟨fun hall => hall.discretes, fun htable => ⟨h.coils, htable, h.holdings, h.inputs⟩⟩

/-- Coils that are moved from or to their table. -/
theorem coilWindows_lt_iff {usAddress usNCoils : UInt16} {eMode : RegisterMode}
    (h : (RegRequest.coils usAddress usNCoils eMode).InRange) :
    (∀ k, (∃ i < usNCoils.toNat, Window ((usAddress - regStart).toNat + i) k) → k < regNregs) ↔
      (RegRequest.coils usAddress usNCoils eMode).AvoidsLastByte := by
  rw [windows_lt_iff, sub_regStart_toNat usAddress h.1, RegRequest.AvoidsLastByte, ← UInt16.toNat_inj]
  change _ ↔ usNCoils.toNat = 0 ∨ _
  constructor
  · intro hall
    rcases Nat.eq_zero_or_pos usNCoils.toNat with hzero | hpos
    · exact .inl hzero
    · have hlast := hall (usNCoils.toNat - 1) (by omega)
      exact .inr (by omega)
  · intro hlast i hi
    omega

/-- The fields of discrete inputs that are read from their table. -/
theorem discreteWindows_lt_iff {usAddress usNDiscrete : UInt16}
    (h : (RegRequest.discrete usAddress usNDiscrete).InRange) :
    (∀ k, (∃ i < (usNDiscrete.toNat + 7) / 8, Window ((usAddress - regStart).toNat + 8 * i) k) →
        k < regNregs) ↔
      (RegRequest.discrete usAddress usNDiscrete).AvoidsLastByte := by
  rw [windows_lt_iff, sub_regStart_toNat usAddress h.1, RegRequest.AvoidsLastByte, ← UInt16.toNat_inj]
  change _ ↔ usNDiscrete.toNat = 0 ∨ _
  constructor
  · intro hall
    rcases Nat.eq_zero_or_pos usNDiscrete.toNat with hzero | hpos
    · exact .inl hzero
    · exact .inr (hall ((usNDiscrete.toNat - 1) / 8) (by omega))
  · intro hlast i hi
    omega

/-- Registers that are read or written are elements of their table. -/
theorem registers_lt {usAddress usNRegs : UInt16}
    (h : 1 ≤ usAddress.toNat ∧ usAddress.toNat + usNRegs.toNat ≤ regHoldingEnd) {k : ℕ}
    (hk : usAddress.toNat - 1 ≤ k ∧ k < usAddress.toNat - 1 + usNRegs.toNat) : k < regNregs := by
  have hend : usAddress.toNat + usNRegs.toNat ≤ 11 := h.2
  change k < 10
  omega

/-- Coils in range are read and written inside their table exactly when they end before its last byte. -/
theorem coils_accessesInside_iff {usAddress usNCoils : UInt16} {eMode : RegisterMode}
    (h : (RegRequest.coils usAddress usNCoils eMode).InRange) :
    ((ofCells coils discretes holdings inputs).call (.coils usAddress usNCoils eMode)
        pucRegBuffer).2.1.AccessesInside ↔ (RegRequest.coils usAddress usNCoils eMode).AvoidsLastByte := by
  have hend := sub_regStart_add_lt usAddress usNCoils h
  rw [← coilWindows_lt_iff h]
  cases eMode with
  | write =>
    rw [call_coils_write _ _ h]
    refine (accessesInside_coils_iff ..).trans (forall_congr' fun k => imp_congr_left ?_)
    rw [mem_moveBits_target_accesses _ _ _ _ _ hend]
    exact or_iff_left List.not_mem_nil
  | read =>
    rw [call_coils_read _ _ h]
    refine (accessesInside_coils_iff ..).trans (forall_congr' fun k => imp_congr_left ?_)
    rw [mem_moveBits_source_accesses _ _ _ _ _ hend]
    exact or_iff_left List.not_mem_nil

/-- Discrete inputs in range are read inside their table exactly when the last field begins before its last
byte. -/
theorem discrete_accessesInside_iff {usAddress usNDiscrete : UInt16}
    (h : (RegRequest.discrete usAddress usNDiscrete).InRange) :
    ((ofCells coils discretes holdings inputs).call (.discrete usAddress usNDiscrete)
        pucRegBuffer).2.1.AccessesInside ↔ (RegRequest.discrete usAddress usNDiscrete).AvoidsLastByte := by
  have hend := sub_regStart_add_lt usAddress usNDiscrete h
  rw [← discreteWindows_lt_iff h, call_discrete _ _ h]
  refine (accessesInside_discretes_iff ..).trans (forall_congr' fun k => imp_congr_left ?_)
  rw [mem_readDiscretes_accesses _ _ _ _ _ hend]
  exact or_iff_left List.not_mem_nil

/-- Holding registers in range are read and written inside their table. -/
theorem holding_accessesInside {usAddress usNRegs : UInt16} {eMode : RegisterMode}
    (h : (RegRequest.holding usAddress usNRegs eMode).InRange) :
    ((ofCells coils discretes holdings inputs).call (.holding usAddress usNRegs eMode)
      pucRegBuffer).2.1.AccessesInside := by
  have hnone := accessesInside_ofCells coils discretes holdings inputs
  cases eMode with
  | read =>
    rw [call_holding_read _ _ h]
    refine ⟨hnone.coils, hnone.discretes, fun k hk => ?_, hnone.inputs⟩
    rw [mem_readRegisters_accesses] at hk
    exact registers_lt h (hk.resolve_right List.not_mem_nil)
  | write =>
    rw [call_holding_write _ _ h]
    refine ⟨hnone.coils, hnone.discretes, fun k hk => ?_, hnone.inputs⟩
    rw [mem_writeRegisters_accesses] at hk
    exact registers_lt h (hk.resolve_right List.not_mem_nil)

/-- Input registers in range are read inside their table. -/
theorem input_accessesInside {usAddress usNRegs : UInt16} (h : (RegRequest.input usAddress usNRegs).InRange) :
    ((ofCells coils discretes holdings inputs).call (.input usAddress usNRegs)
      pucRegBuffer).2.1.AccessesInside := by
  have hnone := accessesInside_ofCells coils discretes holdings inputs
  rw [call_input _ _ h]
  refine ⟨hnone.coils, hnone.discretes, hnone.holdings, fun k hk => ?_⟩
  rw [mem_readRegisters_accesses] at hk
  exact registers_lt h (hk.resolve_right List.not_mem_nil)

/-- Every element that a callback reads or writes, whatever the tables and the buffer hold, has an index below
ten exactly when the request is refused or no field begins in the last byte of a table of bits. -/
theorem call_accessesInside_iff (request : RegRequest) :
    ((ofCells coils discretes holdings inputs).call request pucRegBuffer).2.1.AccessesInside ↔
      (request.InRange → request.AvoidsLastByte) := by
  by_cases h : request.InRange
  · rw [forall_prop_of_true h]
    cases request with
    | coils usAddress usNCoils eMode => exact coils_accessesInside_iff _ _ _ _ _ h
    | discrete usAddress usNDiscrete => exact discrete_accessesInside_iff _ _ _ _ _ h
    | holding usAddress usNRegs eMode => exact iff_of_true (holding_accessesInside _ _ _ _ _ h) trivial
    | input usAddress usNRegs => exact iff_of_true (input_accessesInside _ _ _ _ _ h) trivial
  · rw [call_of_not_inRange _ _ h]
    exact iff_of_true (accessesInside_ofCells ..) fun hin => absurd hin h

end

/-- The last coil is admitted, and the byte behind the table is accessed. -/
theorem not_forall_accessesInside : ¬ ∀ (coils discretes : ℕ → UInt8) (holdings inputs : ℕ → UInt16)
    (pucRegBuffer : TracedMemory UInt8) (request : RegRequest), request.InRange →
      ((ofCells coils discretes holdings inputs).call request pucRegBuffer).2.1.AccessesInside := by
  intro h
  have hlast := (h (fun _ => 0) (fun _ => 0) (fun _ => 0) (fun _ => 0) (.ofCells fun _ => 0)
    (.coils 80 1 .read) (by decide)).coils 10
  exact absurd (hlast (by decide)) (by decide)

end RemoteManage.Modbus
