import Switcher.Driver.Pcf8574
import Switcher.Driver.Mcp23017
import Switcher.Driver.Piface

/-!
The driver tables that configuration entries point to, and the configuration
that the repository ships.
-/

namespace Switcher

inductive BusHandle where
  | i2cLinux
  deriving DecidableEq, Repr

inductive DevHandle where
  | pcf8574 | mcp23017 | piface
  deriving DecidableEq, Repr

variable {β κ : Type}

/-- `get_pcf8574_drv`, `get_mcp23017_drv` and `get_piface_drv`. -/
def devDrv (K : Kernel κ) : DevHandle → DevDrv BusHandle DevHandle β (Env κ)
  | .pcf8574 => pcf8574Drv K
  | .mcp23017 => mcp23017Drv K
  | .piface => pifaceDrv K

/-- The running daemon: its configuration uses this program's own drivers. -/
abbrev Daemon (β κ : Type) := Sys BusHandle DevHandle β (Env κ)

def ioExtBus : I2cLinuxBusData := ⟨"/dev/i2c-1".toList, 3⟩

/-- The configuration of `config/io_ext.ini`, with handle 3 open on its bus. -/
def ioExtConfig : IoConfig BusHandle DevHandle where
  numBusses := 2
  busses bus :=
    match bus.val with
    | 0 => ⟨2, some .i2cLinux, some ioExtBus⟩
    | 1 => ⟨1, none, none⟩
    | _ => ⟨0, none, none⟩
  devices slot :=
    match slot.1.val, slot.2.val with
    | 0, 0 => ⟨some .pcf8574, some ⟨0x20⟩, none⟩
    | 0, 1 => ⟨some .pcf8574, some ⟨0x38⟩, none⟩
    | 1, 0 => ⟨some .piface, none, none⟩
    | _, _ => ⟨none, none, none⟩

theorem ioExtConfig_slots {slot : Slot} (h : ioExtConfig.HasSlot slot) :
    slot = (0, 0) ∨ slot = (0, 1) ∨ slot = (1, 0) := by
  obtain ⟨⟨b, hb⟩, ⟨d, hd⟩⟩ := slot
  obtain ⟨hbus, hdev⟩ := h
  simp only [ioExtConfig] at hbus hdev
  have hb2 : b = 0 ∨ b = 1 := by omega
  rcases hb2 with rfl | rfl
  · have hd2 : d = 0 ∨ d = 1 := by
      simp at hdev
      omega
    rcases hd2 with rfl | rfl
    · exact .inl rfl
    · exact .inr (.inl rfl)
  · have hd0 : d = 0 := by
      simp at hdev
      omega
    subst hd0
    exact .inr (.inr rfl)

/-- The I2C bus of `config/io_ext.ini` alone. -/
def ioExtI2c : IoConfig BusHandle DevHandle := { ioExtConfig with numBusses := 1 }

theorem ioExtI2c_slots {slot : Slot} (h : ioExtI2c.HasSlot slot) :
    slot = (0, 0) ∨ slot = (0, 1) := by
  have hslot : ioExtConfig.HasSlot slot := ⟨Int.lt_trans h.1 (by decide), h.2⟩
  rcases ioExtConfig_slots hslot with rfl | rfl | rfl
  · exact .inl rfl
  · exact .inr rfl
  · exact absurd h (by decide)

end Switcher
