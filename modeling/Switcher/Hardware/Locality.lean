import Switcher.Hardware.Population

/-!
Locality lifted from one driver call to a whole request: served on a board, a
request does what it does on a system that consists of the chip of its device
alone, and everything else stays as it was.
-/

namespace Switcher

open Lib.Program

variable {Chip σ β α : Type} [DecidableEq Chip] {P : Population Chip σ}

/-- The daemon on a board of chips. -/
abbrev Rack (β Chip σ : Type) := Daemon β (Board (Chip → σ))

def Sys.chips (s : Rack β Chip σ) : Chip → σ := s.world.os.hw

/-- The daemon with the device in `slot` as its whole configuration and `chip`
as the whole system. -/
def Sys.alone (s : Rack β Chip σ) (slot : Slot) (chip : Chip) : Daemon β σ :=
  { config := { s.config with
      devices := Function.update (fun _ => ⟨none, none, none⟩) slot (s.config.devices slot) }
    buf := s.buf
    world := ⟨s.world.spi, s.chips chip⟩
    calls := [] }

omit [DecidableEq Chip] in
theorem Wired.alone {s : Rack β Chip σ} {slot : Slot} {handle : DevHandle} {chip : Chip}
    (hw : Wired P s.config s.world.spi slot handle chip) :
    Wired P (s.alone slot chip).config (s.alone slot chip).world.spi slot handle chip := by
  have hwiring :
      (s.config.devices slot).SameWiring ((s.alone slot chip).config.devices slot) := by
    simp only [Sys.alone, Function.update_self]
    exact IoDev.SameWiring.refl _
  exact hw.transfer rfl hwiring

/-- A request on `slot` that started in `s₀` has reached `s` on the board and
`t` on `chip` alone. -/
structure InStep (s₀ : Rack β Chip σ) (slot : Slot) (chip : Chip) (s : Rack β Chip σ)
    (t : Daemon β σ) : Prop where
  alone : t = { s.alone slot chip with calls := t.calls }
  chips : s.chips = Function.update s₀.chips chip (s.chips chip)
  config : s.config = s₀.config.setDev slot (s.config.devices slot)
  spi : s.world.spi = s₀.world.spi
  wiring : (s₀.config.devices slot).SameWiring (s.config.devices slot)

theorem InStep.start (s : Rack β Chip σ) (slot : Slot) (chip : Chip) :
    InStep s slot chip s (s.alone slot chip) :=
  { alone := rfl
    chips := (Function.update_eq_self chip s.chips).symm
    config := (s.config.setDev_devices slot).symm
    spi := rfl
    wiring := IoDev.SameWiring.refl _ }

section InStep

variable {s₀ s : Rack β Chip σ} {t : Daemon β σ} {slot : Slot} {handle : DevHandle}
  {chip : Chip}

theorem InStep.wired (h : InStep s₀ slot chip s t)
    (hw : Wired P s₀.config s₀.world.spi slot handle chip) :
    Wired P s.config s.world.spi slot handle chip := by
  rw [h.spi]
  exact hw.transfer (by rw [h.config]; rfl) h.wiring

theorem InStep.buf (h : InStep s₀ slot chip s t) : s.buf = t.buf := by
  rw [h.alone]
  rfl

theorem InStep.dev (h : InStep s₀ slot chip s t) :
    t.config.devices slot = s.config.devices slot := by
  rw [h.alone]
  simp [Sys.alone]

theorem InStep.os (h : InStep s₀ slot chip s t) : t.world.os = s.chips chip := by
  rw [h.alone]
  rfl

theorem InStep.hasSlot (h : InStep s₀ slot chip s t) {other : Slot}
    (hother : s₀.config.HasSlot other) : s.config.HasSlot other ∧ t.config.HasSlot other := by
  have hs : s.config.HasSlot other := by
    rw [h.config]
    exact (IoConfig.hasSlot_setDev _ _ _ _).mpr hother
  refine ⟨hs, ?_⟩
  rw [h.alone]
  exact hs

theorem InStep.reply (h : InStep s₀ slot chip s t) (f : β → β) :
    InStep s₀ slot chip { s with buf := f s.buf } { t with buf := f t.buf } := by
  refine ⟨?_, h.chips, h.config, h.spi, h.wiring⟩
  rw [← h.buf]
  rw [h.alone]
  rfl

theorem InStep.note (h : InStep s₀ slot chip s t) (call : DrvCall) :
    InStep s₀ slot chip { s with calls := s.calls ++ [call] }
      { t with calls := t.calls ++ [call] } := by
  refine ⟨?_, h.chips, h.config, h.spi, h.wiring⟩
  rw [h.alone]
  rfl

end InStep

variable {s₀ : Rack β Chip σ} {slot : Slot} {handle : DevHandle} {chip : Chip}

theorem onDevice_matches (hw : Wired P s₀.config s₀.world.spi slot handle chip)
    {f : IoBus BusHandle → DrvM DevHandle β (Env (Board (Chip → σ))) α}
    {g : IoBus BusHandle → DrvM DevHandle β (Env σ) α}
    (hdrv : ∀ bus dev spi,
      Serves P.kernel (P.chipKernel chip) (OnlyChip s₀.chips chip) bus dev spi handle →
      Matches (Alike dev spi (OnlyChip s₀.chips chip)) (f bus) (g bus)) :
    Matches (InStep s₀ slot chip) (onDevice slot f) (onDevice slot g) := by
  intro s t hst
  have hbusses : t.config.busses slot.1 = s.config.busses slot.1 := by
    rw [hst.alone]
    rfl
  have hstart : Alike (s.config.devices slot) s.world.spi (OnlyChip s₀.chips chip)
      (s.drvState slot) (t.drvState slot) :=
    { dev := hst.dev.symm
      buf := hst.buf
      spiLeft := rfl
      spiRight := by rw [hst.alone]; rfl
      os := by rw [hst.alone]; exact hst.chips
      wiring := IoDev.SameWiring.refl _ }
  obtain ⟨result, t₁, t₂, hfull, hlocal, halike⟩ :=
    hdrv _ _ _ ((hst.wired hw).serves s₀.chips) _ _ hstart
  refine ⟨result, s.storeDrv slot t₁, t.storeDrv slot t₂, onDevice_of_ok hfull,
    onDevice_of_ok (by rw [hbusses]; exact hlocal), ?_⟩
  have hat : t₁.world.os.hw chip = t₂.world.os := halike.os.at_chip
  refine ⟨?_, ?_, ?_, ?_, ?_⟩
  · have hspi : t₁.world.spi = t₂.world.spi := halike.spiLeft.trans halike.spiRight.symm
    have hconfig : t.config = (s.alone slot chip).config := by rw [hst.alone]
    simp only [Sys.alone, Sys.storeDrv, Sys.chips, IoConfig.setDev, Function.update_self,
      hconfig, Function.update_idem, ← halike.dev, ← halike.buf, hat, hspi]
  · simp only [Sys.storeDrv, Sys.chips, hat]
    exact halike.os
  · simp only [Sys.storeDrv, IoConfig.devices_setDev]
    rw [hst.config, IoConfig.setDev_setDev]
  · exact halike.spiLeft.trans hst.spi
  · simp only [Sys.storeDrv, IoConfig.devices_setDev]
    exact hst.wiring.trans halike.wiring

theorem callDrv_matches (hw : Wired P s₀.config s₀.world.spi slot handle chip)
    (call : DrvCall)
    {f : DevDrv BusHandle DevHandle β (Env (Board (Chip → σ))) →
      IoBus BusHandle → DrvM DevHandle β (Env (Board (Chip → σ))) α}
    {g : DevDrv BusHandle DevHandle β (Env σ) →
      IoBus BusHandle → DrvM DevHandle β (Env σ) α}
    (hdrv : ∀ bus dev spi,
      Serves P.kernel (P.chipKernel chip) (OnlyChip s₀.chips chip) bus dev spi handle →
      Matches (Alike dev spi (OnlyChip s₀.chips chip)) (f (devDrv P.kernel handle) bus)
        (g (devDrv (P.chipKernel chip) handle) bus)) :
    Matches (InStep s₀ slot chip)
      (callDrv (devDrv P.kernel) slot.1.val slot.2.val call f)
      (callDrv (devDrv (P.chipKernel chip)) slot.1.val slot.2.val call g) := by
  intro s t hst
  have hs : (s.config.devices slot).drvHandle = some handle := (hst.wired hw).drvHandle
  have ht : (t.config.devices slot).drvHandle = some handle := by
    rw [hst.dev]
    exact hs
  rw [callDrv_slot _ slot call f hs, callDrv_slot _ slot call g ht]
  exact onDevice_matches hw hdrv _ _ (hst.note call)

section Request

variable {r : Request} (hw : Wired P s₀.config s₀.world.spi r.slot handle chip)
include hw

theorem drvRead_matches (cb : Callbacks β) :
    Matches (InStep s₀ r.slot chip) (drvRead (devDrv P.kernel) cb r.data)
      (drvRead (devDrv (P.chipKernel chip)) cb r.data) :=
  callDrv_matches hw _ fun _ _ _ hserves => read_matches hserves r.value

theorem drvWrite_matches (cb : Callbacks β) (value : Value) :
    Matches (InStep s₀ r.slot chip) (drvWrite (devDrv P.kernel) cb r.data value)
      (drvWrite (devDrv (P.chipKernel chip)) cb r.data value) :=
  callDrv_matches hw _ fun _ _ _ hserves => write_matches hserves value

/-- Serving a request on a board is serving it on its chip alone. -/
theorem serveRequest_matches (hslot : s₀.config.HasSlot r.slot) (cb : Callbacks β)
    (fresh : β) :
    Matches (InStep s₀ r.slot chip) (serveRequest (devDrv P.kernel) cb fresh r)
      (serveRequest (devDrv (P.chipKernel chip)) cb fresh r) := by
  apply Compares.serveRequest
  exact
    { slot := fun _ _ hst => hst.hasSlot hslot
      content := fun _ _ hst => hst.buf
      reply := fun _ _ f hst => hst.reply f
      read := drvRead_matches hw cb
      write := drvWrite_matches hw cb }

end Request

/-- Every configured slot holds a device whose chip, named by `chipOf`, no other
slot has. -/
structure Populated (P : Population Chip σ) (chipOf : Slot → Chip) (s : Rack β Chip σ) :
    Prop where
  wired : ∀ slot, s.config.HasSlot slot →
    ∃ handle, Wired P s.config s.world.spi slot handle (chipOf slot)
  distinct : ∀ slot other, s.config.HasSlot slot → s.config.HasSlot other →
    chipOf slot = chipOf other → slot = other

variable {chipOf : Slot → Chip}

section Frame

variable {s s' : Rack β Chip σ} {t : Daemon β σ} {slot : Slot} {chip : Chip}

theorem InStep.busses (h : InStep s slot chip s' t) : s'.config.busses = s.config.busses := by
  rw [h.config]
  rfl

theorem InStep.numBusses (h : InStep s slot chip s' t) :
    s'.config.numBusses = s.config.numBusses := by
  rw [h.config]
  rfl

theorem InStep.dev_of_ne (h : InStep s slot chip s' t) {other : Slot} (hne : other ≠ slot) :
    s'.config.devices other = s.config.devices other := by
  rw [h.config]
  exact IoConfig.devices_setDev_of_ne _ _ hne

theorem InStep.chip_of_ne (h : InStep s slot chip s' t) {other : Chip} (hne : other ≠ chip) :
    s'.chips other = s.chips other := by
  rw [h.chips]
  exact Function.update_of_ne hne _ _

theorem InStep.hasSlot_iff (h : InStep s slot chip s' t) (other : Slot) :
    s'.config.HasSlot other ↔ s.config.HasSlot other := by
  rw [h.config]
  exact IoConfig.hasSlot_setDev _ _ _ _

theorem InStep.sameWiring (h : InStep s slot chip s' t) (other : Slot) :
    (s.config.devices other).SameWiring (s'.config.devices other) := by
  by_cases hne : other = slot
  · rw [hne]
    exact h.wiring
  · rw [h.dev_of_ne hne]
    exact IoDev.SameWiring.refl _

theorem InStep.populated (h : InStep s slot chip s' t) (hp : Populated P chipOf s) :
    Populated P chipOf s' := by
  constructor
  · intro other hother
    obtain ⟨handle, hw⟩ := hp.wired other ((h.hasSlot_iff other).mp hother)
    refine ⟨handle, ?_⟩
    rw [h.spi]
    exact hw.transfer h.busses (h.sameWiring other)
  · intro a b ha hb hab
    exact hp.distinct a b ((h.hasSlot_iff a).mp ha) ((h.hasSlot_iff b).mp hb) hab

end Frame

/-- One request: what it returns and leaves behind is what its device alone
would have returned and left behind. -/
theorem Populated.serveRequest {s : Rack β Chip σ} (hp : Populated P chipOf s)
    (cb : Callbacks β) (fresh : β) {r : Request} (hslot : s.config.HasSlot r.slot) :
    ∃ served s' t', serveRequest (devDrv P.kernel) cb fresh r s = .ok served s' ∧
      serveRequest (devDrv (P.chipKernel (chipOf r.slot))) cb fresh r
        (Sys.alone { s with buf := fresh } r.slot (chipOf r.slot)) = .ok served t' ∧
      InStep s r.slot (chipOf r.slot) s' t' := by
  obtain ⟨handle, hw⟩ := hp.wired r.slot hslot
  let s₀ : Rack β Chip σ := { s with buf := fresh }
  have hw₀ : Wired P s₀.config s₀.world.spi r.slot handle (chipOf r.slot) := hw
  obtain ⟨served, s', t', hs, ht, hst⟩ :=
    serveRequest_matches hw₀ hslot cb fresh s₀ _ (InStep.start s₀ r.slot (chipOf r.slot))
  refine ⟨served, s', t', ?_, ht, ⟨hst.alone, hst.chips, hst.config, hst.spi, hst.wiring⟩⟩
  rw [← hs]
  rfl

end Switcher
