import Switcher.Service.Direction

/-!
The chip behind a reported success: whatever calls and failures came before,
an MCP23017 operation that returns 1 has left the registers as they should be
and handed over what the chip answered.
-/

namespace Switcher

open Lib.Program Lib.Interleaving Mcp23017

variable {β : Type} {chipOf : Slot → ChipId}

/-- The registers after `value` has been written. -/
structure Written (value : Value) (x : Expander) : Prop where
  iodira : x.regs iodira = 0x00
  iodirb : x.regs iodirb = 0x00
  olata : (x.regs olata).toNat = value.toNat % 256
  olatb : (x.regs olatb).toNat = value.toNat / 256 % 256

/-- From the chip `before`, whose direction the driver caches, the two ports are read
with the pins as inputs: `value` is packed from what the chip answers then. -/
structure Sampled (cached : Mcp23017IoState) (before : Expander) (value : Value)
    (x : Expander) : Prop where
  iodira : x.regs Mcp23017.iodira = 0xFF
  iodirb : x.regs Mcp23017.iodirb = 0xFF
  answered : ∃ a b, (before.turned cached .read).Answers a b x ∧
    value.toNat = a.toNat + 256 * b.toNat
  narrow : value >>> 16 = 0

/-- What a caller of `mcp23017_write` can rely on. -/
def WriteRight (value : Value) (numWritten : Int) (x : Expander) : Prop :=
  numWritten = 1 → Written value x

/-- What a caller of `mcp23017_read` can rely on, who had `value` in `*value`. -/
def ReadRight (cached : Mcp23017IoState) (before : Expander) (value : Value)
    (result : Int × Value) (x : Expander) : Prop :=
  (result.1 = 1 → Sampled cached before result.2 x) ∧ (result.1 = 0 → result.2 = value)

/-- Both operations on the device in `slot` return, and are right if they report
success. -/
def OperationsRight (cbError : CbError β) (slot : Slot) (chip : ChipId)
    (t : Rack β ChipId Expander) : Prop :=
  ∃ data, (t.config.devices slot).devData = some data ∧ ∀ value,
    (∃ numWritten t',
      onDevice slot (fun bus => mcp23017Write expanders.kernel cbError bus value) t =
        .ok numWritten t' ∧ WriteRight value numWritten (t'.chips chip)) ∧
    ∃ result t',
      onDevice slot (fun bus => mcp23017Read expanders.kernel cbError bus value) t =
        .ok result t' ∧
      ReadRight data.ioState (t.chips chip) value result (t'.chips chip)

section Local

variable {ω δ : Type} {chip : ChipId} {cbError : CbError β} {bus : IoBus ω}
  {s : DrvState δ β (Env Expander)} {busData : I2cLinuxBusData}
  {devBusData : I2cLinuxDevData} {cached : Mcp23017IoState}
  (hbus : bus.busData = some busData) (hdev : s.dev.devBusData = some devBusData)
  (hdata : s.dev.devData = some ⟨cached⟩) (h : s.world.os.Directed cached)
include hbus hdev hdata h

theorem mcp23017Write_right (value : Value) :
    ∃ numWritten t,
      mcp23017Write (expanders.chipKernel chip) cbError bus value s = .ok numWritten t ∧
      WriteRight value numWritten t.world.os := by
  obtain ⟨numWritten, t, hrun, -, hdone⟩ :=
    mcp23017Write_latches chip hbus hdev hdata h cbError value
  refine ⟨numWritten, t, hrun, ?_⟩
  intro hone
  obtain ⟨hdirected, hlow, hhigh⟩ := hdone (by omega)
  have hword : (value.setWidth 16).toNat = value.toNat % 65536 := BitVec.toNat_setWidth 16 value
  refine ⟨hdirected.1, hdirected.2, ?_, ?_⟩
  · rw [hlow, BitVec.toNat_setWidth, hword]
    omega
  · rw [hhigh, Lib.Bits.toNat_highByte, hword]
    omega

theorem mcp23017Read_right (value : Value) :
    ∃ result t,
      mcp23017Read (expanders.chipKernel chip) cbError bus value s = .ok result t ∧
      ReadRight cached s.world.os value result t.world.os := by
  obtain ⟨numRead, value', t, hrun, -, -, hcases⟩ :=
    mcp23017Read_answers chip hbus hdev hdata h cbError value
  refine ⟨(numRead, value'), t, hrun, ?_⟩
  rcases hcases with ⟨rfl, rfl⟩ | ⟨a, b, rfl, rfl, hdirected, hanswers⟩
  · exact ⟨fun hone => absurd hone.symm Int.one_ne_zero, fun _ => rfl⟩
  · have hpacked := Lib.Bits.toNat_packed a b
    refine ⟨fun _ => ⟨?_, ?_, ⟨a, b, hanswers, hpacked⟩, ?_⟩, fun hzero =>
      absurd hzero Int.one_ne_zero⟩
    · rw [hanswers.regs]
      exact hdirected.1
    · rw [hanswers.regs]
      exact hdirected.2
    · have hlow := a.isLt
      have hhigh := b.isLt
      apply BitVec.eq_of_toNat_eq
      rw [BitVec.toNat_ushiftRight, hpacked, Nat.shiftRight_eq_div_pow]
      simp only [BitVec.ofNat_eq_ofNat, BitVec.toNat_ofNat, Nat.zero_mod]
      omega

end Local

theorem mcp23017Read_onDevice {s : Rack β ChipId Expander} {slot : Slot} {chip : ChipId}
    (hw : Wired expanders s.config s.world.spi slot .mcp23017 chip) (cbError : CbError β)
    (value : Value) :
    Matches (InStep s slot chip)
      (onDevice slot fun bus => mcp23017Read expanders.kernel cbError bus value)
      (onDevice slot fun bus => mcp23017Read (expanders.chipKernel chip) cbError bus value) := by
  apply onDevice_matches hw
  intro bus dev spi hserves
  cases hserves with
  | mcp23017 hdata hbus hdev hagree => exact mcp23017Read_matches hdata hbus hdev hagree value

theorem Tracked.operationsRight {s : Rack β ChipId Expander} (h : Tracked chipOf s)
    (cbError : CbError β) {slot : Slot} (hslot : s.config.HasSlot slot) :
    OperationsRight cbError slot (chipOf slot) s := by
  obtain ⟨data, hcached⟩ := Option.isSome_iff_exists.mp (h.cached slot hslot)
  refine ⟨data, hcached, ?_⟩
  intro value
  constructor
  · have hmatches := DrvOp.run_matches (.write slot value) (h.wired hslot) cbError
    obtain ⟨numWritten, s', t, hrun, hstep, hright⟩ := h.onDevice hslot hmatches
      (Q := fun numWritten _ => WriteRight value numWritten)
      fun _ _ _ _ _ _ _ hbus hdev hdata hdirected =>
        mcp23017Write_right hbus hdev hdata hdirected value
    exact ⟨numWritten, s', hrun, hstep.os ▸ hright⟩
  · have hmatches := mcp23017Read_onDevice (h.wired hslot) cbError value
    obtain ⟨result, s', t, hrun, hstep, hright⟩ := h.onDevice hslot hmatches
      (Q := fun result _ => ReadRight data.ioState (s.chips (chipOf slot)) value result)
      fun _ _ _ _ cached hsame hos hbus hdev hdata hdirected => by
        obtain rfl : data = ⟨cached⟩ :=
          Option.some.inj (hcached.symm.trans ((congrArg _ hsame).symm.trans hdata))
        rw [← hos]
        exact mcp23017Read_right hbus hdev hdata hdirected value
    exact ⟨result, s', hrun, hstep.os ▸ hright⟩

/-- After the initialisation of all devices, with anything in their registers, and
after any sequence of driver calls and of failures, every operation that reports
success is right about the chip. -/
theorem mcp23017_right {s : Rack β ChipId Expander} (h : Installed chipOf s)
    (cbError : CbError β) (slots : List Slot)
    (hslots : ∀ slot, s.config.HasSlot slot → slot ∈ slots) (ops : List DrvOp)
    (hops : ∀ op ∈ ops, s.config.HasSlot op.slot) :
    ∃ codes u results t, runAll (initDev expanders.kernel) slots s = .ok codes u ∧
      runAll (DrvOp.run expanders.kernel cbError) ops u = .ok results t ∧
      ∀ slot, s.config.HasSlot slot → OperationsRight cbError slot (chipOf slot) t := by
  obtain ⟨codes, u, results, t, hinit, hruns, ht, hin⟩ := h.operated cbError hslots hops
  refine ⟨codes, u, results, t, hinit, hruns, ?_⟩
  intro slot hslot
  exact ht.operationsRight cbError ((hin slot).mpr hslot)

/-- An operation after a hard start. -/
theorem mcp23017_right_pair :
    ∃ codes u results t,
      runAll (initDev expanders.kernel) [(0, 0), (0, 1)] (fatedRack hardStart ()) =
        .ok codes u ∧
      runAll (DrvOp.run expanders.kernel fun _ _ => ())
        [.write (0, 0) 0xFFFF, .read (0, 1) 0, .write (0, 0) 0xFFFF] u = .ok results t ∧
      ∀ slot, expanderConfig.HasSlot slot →
        OperationsRight (fun _ _ => ()) slot (expanderChip slot) t :=
  mcp23017_right (fatedRack_installed hardStart ()) _ _ fatedRack_slots _ (by decide)

end Switcher
