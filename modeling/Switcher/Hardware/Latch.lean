import Switcher.Hardware.Locality

/-!
Output chips seen as 8-bit latches: the PCF8574, whose transfers may fail, and
the PiFace, whose may not.
-/

namespace Switcher

open Lib.Program

/-- `fails n` says whether the `n`-th I2C transfer from now on fails. -/
structure Latch where
  value : BitVec 8
  fails : Nat → Bool

/-- A PCF8574: a failed transfer leaves the latch as it is. -/
def Latch.i2c (args : Smbus) (latch : Latch) : (Int × BitVec 8) × Latch :=
  let rest : Latch := { latch with fails := fun n => latch.fails (n + 1) }
  if latch.fails 0 then
    ((-1, 0), rest)
  else
    match args with
    | .readByte => ((0, latch.value), rest)
    | .writeByte value => ((0, 0), { rest with value := value })
    | _ => ((-1, 0), rest)

/-- A PiFace. -/
def Latch.spi (tx : List (BitVec 8)) (latch : Latch) : (Int × BitVec 8) × Latch :=
  match tx with
  | [cmd, port, value] =>
      if cmd = Pfio.spiWriteCmd ∧ port = Pfio.outputPort then
        ((3, 0), { latch with value := value })
      else if cmd = Pfio.spiReadCmd ∧ port = Pfio.outputPort then
        ((3, latch.value), latch)
      else
        ((3, 0), latch)
  | _ => ((tx.length, 0), latch)

def latches : Population ChipId Latch where
  i2cAt := .i2c
  spiAt := .spi
  i2c _ := Latch.i2c
  spi := Latch.spi

/-- A device whose driver moves whole bytes. -/
def DevHandle.IsLatch : DevHandle → Prop
  | .pcf8574 => True
  | .mcp23017 => False
  | .piface => True

variable {ω δ β : Type}

/-- A driver state in which everything but the fault pattern is known. -/
structure AtLatch (dev : IoDev δ) (spi : SpiHandle) (buf : β) (value : BitVec 8)
    (t : DrvState δ β (Env Latch)) : Prop where
  dev : t.dev = dev
  spi : t.world.spi = spi
  buf : t.buf = buf
  value : t.world.os.value = value

variable {dev : IoDev δ} {spi : SpiHandle} {buf : β} {value : BitVec 8} {chip : ChipId}

section Pcf8574

variable {bus : IoBus ω} {busData : I2cLinuxBusData} {devBusData : I2cLinuxDevData}
  (hbus : bus.busData = some busData) (hdev : dev.devBusData = some devBusData)
  (cbError : CbError β) (x : Value)
include hbus hdev

theorem pcf8574Read_latch :
    Returns (AtLatch dev spi buf value) (pcf8574Read (latches.chipKernel chip) cbError bus x)
      (fun result t => AtLatch dev spi buf value t ∧
        (0 < result.1 → result.2 = value.setWidth 32)) := by
  intro t ht
  have hrun := pcf8574Read_run (latches.chipKernel chip) cbError x hbus (ht.dev ▸ hdev)
  rw [exchange_chipKernel] at hrun
  refine ⟨_, _, hrun, ⟨ht.dev, ht.spi, ht.buf, ?_⟩, ?_⟩
  · cases hfail : t.world.os.fails 0 with
    | true => simpa [latches, Latch.i2c, hfail] using ht.value
    | false => simpa [latches, Latch.i2c, hfail] using ht.value
  · cases hfail : t.world.os.fails 0 with
    | true => simp [latches, Latch.i2c, hfail]
    | false => simp [latches, Latch.i2c, hfail, ht.value]

theorem pcf8574Write_latch :
    Returns (AtLatch dev spi buf value) (pcf8574Write (latches.chipKernel chip) cbError bus x)
      (fun result => AtLatch dev spi buf (if 0 < result then x.setWidth 8 else value)) := by
  intro t ht
  have hrun := pcf8574Write_run (latches.chipKernel chip) cbError x hbus (ht.dev ▸ hdev)
  rw [exchange_chipKernel] at hrun
  refine ⟨_, _, hrun, ⟨ht.dev, ht.spi, ht.buf, ?_⟩⟩
  cases hfail : t.world.os.fails 0 with
  | true => simpa [latches, Latch.i2c, hfail] using ht.value
  | false => simp [latches, Latch.i2c, hfail]

end Pcf8574

section Piface

variable {fd : Int} (hspi : spi = .live fd) (cbError : CbError β) (bus : IoBus ω) (x : Value)
include hspi

theorem spiTransfer_latch (tx : List (BitVec 8)) :
    Returns (AtLatch dev spi buf value) (spiTransfer (latches.chipKernel chip) tx)
      (fun rx t => ∃ os : Latch, os.value = value ∧ rx = (Latch.spi tx os).1.2 ∧
        AtLatch dev spi buf (Latch.spi tx os).2.value t) := by
  intro t ht
  have hfd : t.world.spi = .live fd := ht.spi.trans hspi
  refine ⟨(Latch.spi tx t.world.os).1.2, t.setOs (Latch.spi tx t.world.os).2, ?_,
    t.world.os, ht.value, rfl, ⟨ht.dev, ht.spi, ht.buf, rfl⟩⟩
  simp only [spiTransfer, spiFd, run_bind, run_get, run_pure, hfd, syscall_run]
  rfl

theorem pifaceRead_latch :
    Returns (AtLatch dev spi buf value) (pifaceRead (latches.chipKernel chip) cbError bus x)
      (fun result t => AtLatch dev spi buf value t ∧
        (0 < result.1 → result.2 = value.setWidth 32)) := by
  apply Returns.bind (spiTransfer_latch hspi _)
  intro rx
  apply Returns.pure
  rintro t ⟨os, rfl, rfl, ht⟩
  exact ⟨ht, fun _ => rfl⟩

theorem pifaceWrite_latch :
    Returns (AtLatch dev spi buf value) (pifaceWrite (latches.chipKernel chip) cbError bus x)
      (fun result => AtLatch dev spi buf (if 0 < result then x.setWidth 8 else value)) := by
  have hsent : Returns (AtLatch dev spi buf value)
      (pfioWriteOutput (latches.chipKernel chip) (x.setWidth 8))
      (fun _ => AtLatch dev spi buf (x.setWidth 8)) := by
    apply Returns.bind (spiTransfer_latch hspi _)
    intro rx
    apply Returns.pure
    rintro t ⟨os, -, -, ht⟩
    exact ht
  exact Returns.bind hsent fun _ => Returns.pure fun _ ht => ht

end Piface

section Table

variable {config : IoConfig BusHandle DevHandle} {slot : Slot} {handle : DevHandle}
  (hw : Wired latches config spi slot handle chip) (hlatch : handle.IsLatch)
  (cbError : CbError β) (x : Value)
include hw hlatch

theorem read_latch :
    Returns (AtLatch (config.devices slot) spi buf value)
      ((devDrv (latches.chipKernel chip) handle).read cbError (config.busses slot.1) x)
      (fun result t => AtLatch (config.devices slot) spi buf value t ∧
        (0 < result.1 → result.2 = value.setWidth 32)) := by
  cases hw with
  | pcf8574 _ hbus hdev => exact pcf8574Read_latch hbus hdev cbError x
  | mcp23017 => exact hlatch.elim
  | piface _ hspi => exact pifaceRead_latch hspi cbError (config.busses slot.1) x

theorem write_latch :
    Returns (AtLatch (config.devices slot) spi buf value)
      ((devDrv (latches.chipKernel chip) handle).write cbError (config.busses slot.1) x)
      (fun result => AtLatch (config.devices slot) spi buf
        (if 0 < result then x.setWidth 8 else value)) := by
  cases hw with
  | pcf8574 _ hbus hdev => exact pcf8574Write_latch hbus hdev cbError x
  | mcp23017 => exact hlatch.elim
  | piface _ hspi => exact pifaceWrite_latch hspi cbError (config.busses slot.1) x

end Table

/-- The chips of `ioExtConfig`. -/
def ioExtChip (slot : Slot) : ChipId :=
  match slot.1.val, slot.2.val with
  | 0, 0 => .i2c 3 0x20
  | 0, _ => .i2c 3 0x38
  | _, _ => .spi

/-- `ioExtConfig` with all latches at zero; `fails` is what each chip has ahead. -/
def flakyRack (fails : Nat → Bool) (buf : β) : Rack β ChipId Latch where
  config := ioExtConfig
  buf := buf
  world := ⟨.live 4, ⟨fun _ => 0, [], fun _ => ⟨0, fails⟩⟩⟩
  calls := []

/-- No fault is ahead. -/
def ioExtRack (buf : β) : Rack β ChipId Latch := flakyRack (fun _ => false) buf

theorem flakyRack_populated (fails : Nat → Bool) (buf : β) :
    Populated latches ioExtChip (flakyRack fails buf) := by
  constructor
  · intro slot hslot
    rcases ioExtConfig_slots hslot with rfl | rfl | rfl
    · exact ⟨_, @Wired.pcf8574 _ _ _ _ _ _ ioExtBus ⟨0x20⟩ rfl rfl rfl⟩
    · exact ⟨_, @Wired.pcf8574 _ _ _ _ _ _ ioExtBus ⟨0x38⟩ rfl rfl rfl⟩
    · exact ⟨_, .piface rfl rfl⟩
  · intro slot other hslot hother
    rcases ioExtConfig_slots hslot with rfl | rfl | rfl <;>
      rcases ioExtConfig_slots hother with rfl | rfl | rfl <;> decide

end Switcher
