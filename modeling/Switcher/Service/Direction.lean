import Switcher.Hardware.Expander
import Switcher.Lib.Interleaving

/-!
The direction the MCP23017 driver caches. It is forgotten before the first
direction register is written and remembered only after both writes succeeded,
so a failure anywhere leaves a cache that claims nothing.
-/

namespace Switcher

open Lib.Program Lib.Interleaving

variable {β κ : Type}

/-- A call of one of the driver's two transfer functions. -/
inductive DrvOp where
  | read (slot : Slot) (value : Value)
  | write (slot : Slot) (value : Value)
  deriving DecidableEq, Repr

def DrvOp.slot : DrvOp → Slot
  | .read slot _ => slot
  | .write slot _ => slot

/-- The calls as driver programs; the value read is of no interest here. -/
def DrvOp.act (K : Kernel κ) (cbError : CbError β) (op : DrvOp) (bus : IoBus BusHandle) :
    DrvM DevHandle β (Env κ) Int :=
  match op with
  | .read _ value => do
      let (numRead, _) ← mcp23017Read K cbError bus value
      return numRead
  | .write _ value => mcp23017Write K cbError bus value

def DrvOp.run (K : Kernel κ) (cbError : CbError β) (op : DrvOp) :
    SysM BusHandle DevHandle β (Env κ) Int :=
  onDevice op.slot (op.act K cbError)

/-- `mcp23017_init` on the device in `slot`. -/
def initDev (K : Kernel κ) (slot : Slot) : SysM BusHandle DevHandle β (Env κ) Int :=
  onDevice slot (mcp23017Init K)

/-- Every configured slot holds an MCP23017, each on a chip of its own; nothing
is known of its cached data. -/
structure Installed (chipOf : Slot → ChipId) (s : Rack β ChipId Expander) : Prop where
  device : ∀ slot, s.config.HasSlot slot →
    (s.config.devices slot).drvHandle = some .mcp23017
  wiring : ∀ slot, s.config.HasSlot slot → ∃ busData devBusData,
    (s.config.busses slot.1).busData = some busData ∧
    (s.config.devices slot).devBusData = some devBusData ∧
    chipOf slot = .i2c busData.fh devBusData.address
  distinct : ∀ slot other, s.config.HasSlot slot → s.config.HasSlot other →
    chipOf slot = chipOf other → slot = other

/-- The same after initialisation, with no cache stale. -/
structure Tracked (chipOf : Slot → ChipId) (s : Rack β ChipId Expander) : Prop where
  installed : Installed chipOf s
  cached : ∀ slot, s.config.HasSlot slot → (s.config.devices slot).devData.isSome
  notStale : ∀ slot, s.config.HasSlot slot →
    NotStale (s.config.devices slot) (s.chips (chipOf slot))

variable {chipOf : Slot → ChipId}

theorem Tracked.wired {s : Rack β ChipId Expander} (h : Tracked chipOf s) {slot : Slot}
    (hslot : s.config.HasSlot slot) :
    Wired expanders s.config s.world.spi slot .mcp23017 (chipOf slot) := by
  obtain ⟨busData, devBusData, hbus, hdev, hchip⟩ := h.installed.wiring slot hslot
  rw [hchip]
  exact .mcp23017 (h.installed.device slot hslot) (h.cached slot hslot) hbus hdev

section Init

/-- The daemon after `mcp23017_init` on `slot`. -/
def Sys.initialised (s : Daemon β κ) (slot : Slot) : Daemon β κ :=
  let dev : IoDev DevHandle := { s.config.devices slot with devData := some ⟨.none⟩ }
  { s with config := s.config.setDev slot dev }

theorem initDev_run (s : Rack β ChipId Expander) (slot : Slot) :
    initDev expanders.kernel slot s = .ok 0 (s.initialised slot) := rfl

theorem Installed.initialised {s : Rack β ChipId Expander} (h : Installed chipOf s)
    (slot : Slot) : Installed chipOf (s.initialised slot) := by
  have hdevices (other : Slot) :
      ((s.initialised slot).config.devices other).drvHandle =
          (s.config.devices other).drvHandle ∧
        ((s.initialised slot).config.devices other).devBusData =
          (s.config.devices other).devBusData := by
    by_cases heq : other = slot
    · subst heq
      simp [Sys.initialised]
    · simp [Sys.initialised, IoConfig.devices_setDev_of_ne _ _ heq]
  refine ⟨?_, ?_, h.distinct⟩
  · intro other hother
    rw [(hdevices other).1]
    exact h.device other hother
  · intro other hother
    rw [(hdevices other).2]
    exact h.wiring other hother

/-- Initialising slot after slot leaves every one of them with a cache that
claims nothing, and the chips as they were. -/
theorem initAll_run {s : Rack β ChipId Expander} (h : Installed chipOf s)
    (slots : List Slot) :
    ∃ codes t, runAll (initDev expanders.kernel) slots s = .ok codes t ∧
      Installed chipOf t ∧ (∀ slot, t.config.HasSlot slot ↔ s.config.HasSlot slot) ∧
      ∀ slot, (slot ∈ slots ∨ (s.config.devices slot).devData = some ⟨.none⟩) →
        (t.config.devices slot).devData = some ⟨.none⟩ := by
  induction slots generalizing s with
  | nil => exact ⟨[], s, rfl, h, fun _ => Iff.rfl, by simp⟩
  | cons slot rest ih =>
      obtain ⟨codes, t, hrun, ht, hsame, hnone⟩ := ih (h.initialised slot)
      refine ⟨0 :: codes, t, runAll_cons_of_ok (initDev_run s slot) hrun, ht, hsame, ?_⟩
      intro other hother
      apply hnone
      by_cases heq : other = slot
      · subst heq
        exact .inr (by simp [Sys.initialised])
      · rcases hother with hmem | hdone
        · exact .inl (by simpa [heq] using hmem)
        · exact .inr (by simp [Sys.initialised, IoConfig.devices_setDev_of_ne _ _ heq, hdone])

end Init

theorem DrvOp.act_notStale (op : DrvOp) (chip : ChipId) (cbError : CbError β)
    {bus : IoBus BusHandle} {s : DrvState DevHandle β (Env Expander)}
    {busData : I2cLinuxBusData} {devBusData : I2cLinuxDevData} {cached : Mcp23017IoState}
    (hbus : bus.busData = some busData) (hdev : s.dev.devBusData = some devBusData)
    (hdata : s.dev.devData = some ⟨cached⟩) (h : s.world.os.Directed cached) :
    ∃ result t, op.act (expanders.chipKernel chip) cbError bus s = .ok result t ∧
      NotStale t.dev t.world.os := by
  cases op with
  | read slot value =>
      obtain ⟨numRead, value', t, hrun, ht, -⟩ :=
        mcp23017Read_expander hbus hdev hdata h cbError value
      exact ⟨numRead, t, bind_of_ok hrun, ht.notStale⟩
  | write slot value =>
      obtain ⟨numWritten, t, hrun, ht, -⟩ :=
        mcp23017Write_expander hbus hdev hdata h cbError value
      exact ⟨numWritten, t, hrun, ht.notStale⟩

theorem DrvOp.act_matches {κ₁ κ₂ : Type} {K₁ : Kernel κ₁} {K₂ : Kernel κ₂}
    {S : κ₁ → κ₂ → Prop} {cbError : CbError β} {bus : IoBus BusHandle}
    {dev : IoDev DevHandle} {spi : SpiHandle} (op : DrvOp)
    (hserves : Serves K₁ K₂ S bus dev spi .mcp23017) :
    Matches (Alike dev spi S) (op.act K₁ cbError bus) (op.act K₂ cbError bus) := by
  cases hserves with
  | mcp23017 hdata hbus hdev hagree =>
      cases op with
      | read slot value =>
          apply Matches.bind (mcp23017Read_matches hdata hbus hdev hagree value)
          rintro ⟨numRead, value'⟩
          exact Matches.pure _
      | write slot value => exact mcp23017Write_matches hdata hbus hdev hagree value

theorem Installed.step {s s' : Rack β ChipId Expander} {t : Daemon β Expander} {slot : Slot}
    {chip : ChipId} (h : Installed chipOf s) (hstep : InStep s slot chip s' t) :
    Installed chipOf s' := by
  refine ⟨?_, ?_, ?_⟩
  · intro other hother
    rw [(hstep.sameWiring other).drvHandle]
    exact h.device other ((hstep.hasSlot_iff other).mp hother)
  · intro other hother
    rw [(hstep.sameWiring other).devBusData, hstep.busses]
    exact h.wiring other ((hstep.hasSlot_iff other).mp hother)
  · intro a b ha hb
    exact h.distinct a b ((hstep.hasSlot_iff a).mp ha) ((hstep.hasSlot_iff b).mp hb)

theorem DrvOp.run_matches {s₀ : Rack β ChipId Expander} {chip : ChipId} (op : DrvOp)
    (hw : Wired expanders s₀.config s₀.world.spi op.slot .mcp23017 chip)
    (cbError : CbError β) :
    Matches (InStep s₀ op.slot chip) (op.run expanders.kernel cbError)
      (op.run (expanders.chipKernel chip) cbError) :=
  onDevice_matches hw fun _ _ _ hserves => op.act_matches hserves

/-- A step on one device keeps all caches right if it keeps that device's. -/
theorem Tracked.of_inStep {s s' : Rack β ChipId Expander} {t : Daemon β Expander}
    {slot : Slot} (h : Tracked chipOf s) (hslot : s.config.HasSlot slot)
    (hstep : InStep s slot (chipOf slot) s' t)
    (hnotStale : NotStale (t.config.devices slot) t.world.os) : Tracked chipOf s' := by
  refine ⟨h.installed.step hstep, ?_, ?_⟩
  · intro other hother
    rw [(hstep.sameWiring other).devData]
    exact h.cached other ((hstep.hasSlot_iff other).mp hother)
  · intro other hother
    have hin := (hstep.hasSlot_iff other).mp hother
    by_cases heq : other = slot
    · subst heq
      rw [← hstep.dev, ← hstep.os]
      exact hnotStale
    · have hchip : chipOf other ≠ chipOf slot := fun hsame =>
        heq (h.installed.distinct other slot hin hslot hsame)
      rw [hstep.dev_of_ne heq, hstep.chip_of_ne hchip]
      exact h.notStale other hin

/-- A driver program on a device of a tracked rack does what it does on the chip
alone, where the cache is right. -/
theorem Tracked.onDevice {α : Type} {s : Rack β ChipId Expander} (h : Tracked chipOf s)
    {slot : Slot} (hslot : s.config.HasSlot slot)
    {f : IoBus BusHandle → DrvM DevHandle β (Env (Board (ChipId → Expander))) α}
    {g : IoBus BusHandle → DrvM DevHandle β (Env Expander) α}
    (hmatches : Matches (InStep s slot (chipOf slot)) (Switcher.onDevice slot f)
      (Switcher.onDevice slot g))
    {Q : α → IoDev DevHandle → Expander → Prop}
    (hlocal : ∀ (bus : IoBus BusHandle) (u : DrvState DevHandle β (Env Expander)) busData
      devBusData cached, u.dev = s.config.devices slot → u.world.os = s.chips (chipOf slot) →
      bus.busData = some busData → u.dev.devBusData = some devBusData →
      u.dev.devData = some ⟨cached⟩ → u.world.os.Directed cached →
      ∃ a v, g bus u = .ok a v ∧ Q a v.dev v.world.os) :
    ∃ a s' t, Switcher.onDevice slot f s = .ok a s' ∧ InStep s slot (chipOf slot) s' t ∧
      Q a (t.config.devices slot) t.world.os := by
  obtain ⟨busData, devBusData, hbus, hdev, -⟩ := h.installed.wiring slot hslot
  obtain ⟨data, hdata⟩ := Option.isSome_iff_exists.mp (h.cached slot hslot)
  obtain ⟨a, s', t, hrun, halone, hstep⟩ :=
    hmatches s _ (InStep.start s slot (chipOf slot))
  have hstart : (Sys.drvState (s.alone slot (chipOf slot)) slot).dev = s.config.devices slot := by
    simp [Sys.drvState, Sys.alone]
  obtain ⟨a', v, hact, hq⟩ := hlocal _ _ busData devBusData data.ioState hstart rfl hbus
    (hstart ▸ hdev) (hstart ▸ hdata) (h.notStale slot hslot data hdata)
  obtain ⟨rfl, rfl⟩ := EStateM.Result.ok.inj (halone.symm.trans (onDevice_of_ok hact))
  refine ⟨a, s', _, hrun, hstep, ?_⟩
  simpa [Sys.storeDrv] using hq

theorem Tracked.step {s : Rack β ChipId Expander} (h : Tracked chipOf s)
    (cbError : CbError β) {op : DrvOp} (hslot : s.config.HasSlot op.slot) :
    ∃ result s', op.run expanders.kernel cbError s = .ok result s' ∧ Tracked chipOf s' ∧
      ∀ slot, s'.config.HasSlot slot ↔ s.config.HasSlot slot := by
  obtain ⟨result, s', t, hrun, hstep, hnotStale⟩ := h.onDevice hslot
    (op.run_matches (h.wired hslot) cbError) (Q := fun _ => NotStale)
    fun bus u busData devBusData cached _ _ hbus hdev hdata hdirected =>
      op.act_notStale (chipOf op.slot) cbError hbus hdev hdata hdirected
  exact ⟨result, s', hrun, h.of_inStep hslot hstep hnotStale, hstep.hasSlot_iff⟩

/-- Initialisation makes the rack tracked. -/
theorem Installed.tracked {s : Rack β ChipId Expander} (h : Installed chipOf s)
    {slots : List Slot} (hslots : ∀ slot, s.config.HasSlot slot → slot ∈ slots) :
    ∃ codes u, runAll (initDev expanders.kernel) slots s = .ok codes u ∧
      Tracked chipOf u ∧ ∀ slot, u.config.HasSlot slot ↔ s.config.HasSlot slot := by
  obtain ⟨codes, u, hinit, hinstalled, hsame, hnone⟩ := initAll_run h slots
  have hcleared (slot : Slot) (hin : u.config.HasSlot slot) :
      (u.config.devices slot).devData = some ⟨.none⟩ :=
    hnone slot (.inl (hslots slot ((hsame slot).mp hin)))
  refine ⟨codes, u, hinit, ⟨hinstalled, ?_, ?_⟩, hsame⟩
  · intro slot hin
    rw [hcleared slot hin]
    rfl
  · intro slot hin data hdata
    rw [hcleared slot hin] at hdata
    cases hdata
    trivial

/-- Steps that keep a tracked rack tracked do so over a run. -/
theorem Tracked.runAll {ι ο : Type} {step : ι → EStateM Fault (Rack β ChipId Expander) ο}
    {f : ι → Slot} {inputs : List ι} {s₀ s : Rack β ChipId Expander}
    (hstep : ∀ input t, Tracked chipOf t → t.config.HasSlot (f input) →
      ∃ output t', step input t = .ok output t' ∧ Tracked chipOf t' ∧
        ∀ slot, t'.config.HasSlot slot ↔ t.config.HasSlot slot)
    (hinputs : ∀ input ∈ inputs, s₀.config.HasSlot (f input)) (h : Tracked chipOf s)
    (hsame : ∀ slot, s.config.HasSlot slot ↔ s₀.config.HasSlot slot) :
    ∃ outputs t, Lib.Interleaving.runAll step inputs s = .ok outputs t ∧ Tracked chipOf t ∧
      ∀ slot, t.config.HasSlot slot ↔ s₀.config.HasSlot slot := by
  have hrun : Returns
      (fun t : Rack β ChipId Expander =>
        Tracked chipOf t ∧ ∀ slot, t.config.HasSlot slot ↔ s₀.config.HasSlot slot)
      (Lib.Interleaving.runAll step inputs)
      (fun _ t => Tracked chipOf t ∧
        ∀ slot, t.config.HasSlot slot ↔ s₀.config.HasSlot slot) := by
    apply runAll_returns
    rintro input hinput t ⟨ht, hin⟩
    obtain ⟨output, t', hrun, ht', hin'⟩ :=
      hstep input t ht ((hin (f input)).mpr (hinputs input hinput))
    exact ⟨output, t', hrun, ht', fun slot => (hin' slot).trans (hin slot)⟩
  exact hrun s ⟨h, hsame⟩

/-- After the initialisation of all devices and any driver calls the rack is tracked. -/
theorem Installed.operated {s : Rack β ChipId Expander} (h : Installed chipOf s)
    (cbError : CbError β) {slots : List Slot}
    (hslots : ∀ slot, s.config.HasSlot slot → slot ∈ slots) {ops : List DrvOp}
    (hops : ∀ op ∈ ops, s.config.HasSlot op.slot) :
    ∃ codes u results t, Lib.Interleaving.runAll (initDev expanders.kernel) slots s = .ok codes u ∧
      Lib.Interleaving.runAll (DrvOp.run expanders.kernel cbError) ops u = .ok results t ∧
      Tracked chipOf t ∧ ∀ slot, t.config.HasSlot slot ↔ s.config.HasSlot slot := by
  obtain ⟨codes, u, hinit, hstart, hsame⟩ := h.tracked hslots
  obtain ⟨results, t, hruns, ht, hin⟩ := hstart.runAll (f := DrvOp.slot)
    (fun op t ht hslot => ht.step cbError hslot) hops hsame
  exact ⟨codes, u, results, t, hinit, hruns, ht, hin⟩

/-- From the initialisation of all devices, with anything in their registers, no
sequence of driver calls and of failures makes a cached direction wrong. -/
theorem direction_never_stale {s : Rack β ChipId Expander} (h : Installed chipOf s)
    (cbError : CbError β) (slots : List Slot)
    (hslots : ∀ slot, s.config.HasSlot slot → slot ∈ slots) (ops : List DrvOp)
    (hops : ∀ op ∈ ops, s.config.HasSlot op.slot) :
    ∃ codes u results t, runAll (initDev expanders.kernel) slots s = .ok codes u ∧
      runAll (DrvOp.run expanders.kernel cbError) ops u = .ok results t ∧
      ∀ slot, s.config.HasSlot slot → ∃ data,
        (t.config.devices slot).devData = some data ∧
        (data.ioState = .write →
          (t.chips (chipOf slot)).regs Mcp23017.iodira = 0x00 ∧
          (t.chips (chipOf slot)).regs Mcp23017.iodirb = 0x00) ∧
        (data.ioState = .read →
          (t.chips (chipOf slot)).regs Mcp23017.iodira = 0xFF ∧
          (t.chips (chipOf slot)).regs Mcp23017.iodirb = 0xFF) := by
  obtain ⟨codes, u, results, t, hinit, hruns, ht, hin⟩ := h.operated cbError hslots hops
  refine ⟨codes, u, results, t, hinit, hruns, ?_⟩
  intro slot hslot
  have hslot' := (hin slot).mpr hslot
  obtain ⟨data, hdata⟩ := Option.isSome_iff_exists.mp (ht.cached slot hslot')
  have hdirected := ht.notStale slot hslot' data hdata
  refine ⟨data, hdata, ?_, ?_⟩
  · intro hwrite
    rw [hwrite] at hdirected
    exact hdirected
  · intro hread
    rw [hread] at hdirected
    exact hdirected

/-- Two expanders with anything in their registers and the levels outside low; the
transfers to each of them meet these fates one after another. -/
def fatedRack (fates : Nat → Fate) (buf : β) : Rack β ChipId Expander where
  config := expanderConfig
  buf := buf
  world := ⟨.null, fun _ => 0, [], fun _ => ⟨fun _ => 0xA5, fates, fun _ => 0⟩⟩
  calls := []

/-- Every transfer meets the same fate. -/
def expanderRack (fate : Fate) (buf : β) : Rack β ChipId Expander := fatedRack (fun _ => fate) buf

theorem fatedRack_installed (fates : Nat → Fate) (buf : β) :
    Installed expanderChip (fatedRack fates buf) := by
  refine ⟨fun _ _ => rfl, ?_, ?_⟩
  · intro slot hslot
    rcases ioExtI2c_slots hslot with rfl | rfl
    · exact ⟨ioExtBus, ⟨0x20⟩, rfl, rfl, rfl⟩
    · exact ⟨ioExtBus, ⟨0x38⟩, rfl, rfl, rfl⟩
  · intro slot other hslot hother
    rcases ioExtI2c_slots hslot with rfl | rfl <;>
      rcases ioExtI2c_slots hother with rfl | rfl <;> decide

theorem fatedRack_slots {fates : Nat → Fate} {buf : β} (slot : Slot)
    (h : (fatedRack fates buf).config.HasSlot slot) : slot ∈ [((0, 0) : Slot), (0, 1)] := by
  rcases ioExtI2c_slots h with rfl | rfl <;> simp

/-- The first transfer is lost, the second one takes effect and is yet reported as
failed. -/
def hardStart : Nat → Fate
  | 0 => .lost
  | 1 => .applied
  | _ => .done

/-- The third attempts come through: one device is left writing, the other one reading. -/
theorem direction_never_stale_pair :
    ∃ codes u results t,
      runAll (initDev expanders.kernel) [(0, 0), (0, 1)] (fatedRack hardStart ()) =
        .ok codes u ∧
      runAll (DrvOp.run expanders.kernel fun _ _ => ())
        [.write (0, 0) 0xFFFF, .read (0, 1) 0, .write (0, 0) 0xFFFF, .read (0, 1) 0,
          .write (0, 0) 0xFFFF, .read (0, 1) 0] u = .ok results t ∧
      ∀ slot, expanderConfig.HasSlot slot → ∃ data,
        (t.config.devices slot).devData = some data ∧
        (data.ioState = .write →
          (t.chips (expanderChip slot)).regs Mcp23017.iodira = 0x00 ∧
          (t.chips (expanderChip slot)).regs Mcp23017.iodirb = 0x00) ∧
        (data.ioState = .read →
          (t.chips (expanderChip slot)).regs Mcp23017.iodira = 0xFF ∧
          (t.chips (expanderChip slot)).regs Mcp23017.iodirb = 0xFF) :=
  direction_never_stale (fatedRack_installed hardStart ()) _ _ fatedRack_slots _ (by decide)

end Switcher
