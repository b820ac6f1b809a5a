import Switcher.Driver.I2cLinuxBus
import Switcher.Driver.Rounds
import Switcher.Service.Addressing
import Switcher.Service.Bounds

/-!
What the drivers follow unchecked: handles, bus data and device data. If the
configuration has all of them where a driver needs them, neither `io_init` nor
`perform_io` dereferences a null pointer, as long as memory does not run out.
-/

namespace Switcher

open Lib.Program Lib.Interleaving

variable {β κ : Type} {K : Kernel κ}

def DevHandle.OnI2c (handle : DevHandle) : Prop := handle ≠ .piface

/-- The configuration holds every pointer that its drivers follow. -/
structure IoConfig.Equipped (config : IoConfig BusHandle DevHandle) : Prop where
  bounded : config.Bounded
  driver : ∀ slot, config.HasSlot slot → (config.devices slot).drvHandle.isSome
  busData : ∀ b : Fin maxBusses, b.val < config.numBusses →
    (config.busses b).drvHandle.isSome → (config.busses b).busData.isSome
  i2c : ∀ slot handle, config.HasSlot slot → (config.devices slot).drvHandle = some handle →
    handle.OnI2c → (config.busses slot.1).busData.isSome ∧
      (config.devices slot).devBusData.isSome

/-- The driver of the device finds all it needs. -/
structure Works (s : Daemon β κ) (slot : Slot) : Prop where
  i2c : ∀ handle, (s.config.devices slot).drvHandle = some handle → handle.OnI2c →
    ∃ fh address,
      I2cDevice (s.config.busses slot.1) (s.config.devices slot) fh address handle
  piface : (s.config.devices slot).drvHandle = some .piface → ∃ fd, s.world.spi = .live fd

/-- Counts and drivers stay, and no pointer becomes null. -/
structure Grows (s t : Daemon β κ) : Prop where
  numBusses : t.config.numBusses = s.config.numBusses
  numDevices : ∀ b, (t.config.busses b).numDevices = (s.config.busses b).numDevices
  busHandle : ∀ b, (t.config.busses b).drvHandle = (s.config.busses b).drvHandle
  busData : ∀ b, (s.config.busses b).busData.isSome → (t.config.busses b).busData.isSome
  drvHandle : ∀ slot, (t.config.devices slot).drvHandle = (s.config.devices slot).drvHandle
  devBusData : ∀ slot, (t.config.devices slot).devBusData = (s.config.devices slot).devBusData
  devData : ∀ slot, (s.config.devices slot).devData.isSome →
    (t.config.devices slot).devData.isSome
  spi : (∃ fd, s.world.spi = .live fd) → ∃ fd, t.world.spi = .live fd

/-- A daemon whose devices all work. -/
structure InService (s : Daemon β κ) : Prop where
  equipped : s.config.Equipped
  works : ∀ slot, s.config.HasSlot slot → Works s slot

section Grows

variable {s t u : Daemon β κ}

theorem Grows.refl (s : Daemon β κ) : Grows s s :=
  ⟨rfl, fun _ => rfl, fun _ => rfl, fun _ h => h, fun _ => rfl, fun _ => rfl, fun _ h => h,
    fun h => h⟩

theorem Grows.trans (h : Grows s t) (h' : Grows t u) : Grows s u where
  numBusses := h'.numBusses.trans h.numBusses
  numDevices b := (h'.numDevices b).trans (h.numDevices b)
  busHandle b := (h'.busHandle b).trans (h.busHandle b)
  busData b hb := h'.busData b (h.busData b hb)
  drvHandle other := (h'.drvHandle other).trans (h.drvHandle other)
  devBusData other := (h'.devBusData other).trans (h.devBusData other)
  devData other hother := h'.devData other (h.devData other hother)
  spi hlive := h'.spi (h.spi hlive)

/-- The configuration and the handle of the PiFace are all that matters. -/
theorem grows_of_config (hconfig : t.config = s.config) (hspi : t.world.spi = s.world.spi) :
    Grows s t := by
  obtain ⟨config, buf, world, calls⟩ := t
  obtain rfl : config = s.config := hconfig
  refine ⟨rfl, fun _ => rfl, fun _ => rfl, fun _ h => h, fun _ => rfl, fun _ => rfl,
    fun _ h => h, ?_⟩
  rintro ⟨fd, hfd⟩
  exact ⟨fd, hspi.trans hfd⟩

/-- The reply buffer and the record of calls do not matter. -/
theorem grows_of_same (hconfig : t.config = s.config) (hworld : t.world = s.world) :
    Grows s t :=
  grows_of_config hconfig (congrArg Env.spi hworld)

theorem Grows.hasSlot (h : Grows s t) (slot : Slot) :
    t.config.HasSlot slot ↔ s.config.HasSlot slot := by
  simp only [IoConfig.HasSlot, h.numBusses, h.numDevices]

theorem Grows.equipped (h : Grows s t) (hs : s.config.Equipped) : t.config.Equipped where
  bounded := by
    refine ⟨by rw [h.numBusses]; exact hs.bounded.busses, ?_⟩
    intro b
    rw [h.numDevices]
    exact hs.bounded.devices b
  driver slot hslot := by
    rw [h.drvHandle]
    exact hs.driver slot ((h.hasSlot slot).mp hslot)
  busData b hb hhandle := by
    rw [h.numBusses] at hb
    rw [h.busHandle] at hhandle
    exact h.busData b (hs.busData b hb hhandle)
  i2c slot handle hslot hhandle hi2c := by
    rw [h.drvHandle] at hhandle
    obtain ⟨hbus, hdev⟩ := hs.i2c slot handle ((h.hasSlot slot).mp hslot) hhandle hi2c
    exact ⟨h.busData _ hbus, by rw [h.devBusData]; exact hdev⟩

/-- A complete I2C device, whatever its handle and address are. -/
theorem exists_i2cDevice {bus : IoBus BusHandle} {dev : IoDev DevHandle} {handle : DevHandle}
    (hi2c : handle.OnI2c) (hbus : bus.busData.isSome) (hdev : dev.devBusData.isSome)
    (hdata : handle = .mcp23017 → dev.devData.isSome) :
    ∃ fh address, I2cDevice bus dev fh address handle := by
  obtain ⟨busData, hbusData⟩ := Option.isSome_iff_exists.mp hbus
  obtain ⟨devBusData, hdevBusData⟩ := Option.isSome_iff_exists.mp hdev
  cases handle with
  | pcf8574 => exact ⟨_, _, .pcf8574 hbusData hdevBusData rfl rfl⟩
  | mcp23017 =>
      obtain ⟨data, hdevData⟩ := Option.isSome_iff_exists.mp (hdata rfl)
      exact ⟨_, _, .mcp23017 hdevData hbusData hdevBusData rfl rfl⟩
  | piface => exact absurd rfl hi2c

theorem I2cDevice.devData_isSome {ω δ : Type} {bus : IoBus ω} {dev : IoDev δ} {fh : Int}
    {address : BitVec 8} (h : I2cDevice bus dev fh address .mcp23017) : dev.devData.isSome := by
  cases h with
  | mcp23017 hdata => rw [hdata]; rfl

theorem I2cDevice.data_isSome {ω δ : Type} {bus : IoBus ω} {dev : IoDev δ} {fh : Int}
    {address : BitVec 8} {handle : DevHandle} (h : I2cDevice bus dev fh address handle) :
    bus.busData.isSome ∧ dev.devBusData.isSome := by
  cases h with
  | pcf8574 hbus hdev => simp [hbus, hdev]
  | mcp23017 _ hbus hdev => simp [hbus, hdev]

theorem Grows.works (h : Grows s t) {slot : Slot} (hs : Works s slot) : Works t slot where
  i2c handle hhandle hi2c := by
    rw [h.drvHandle] at hhandle
    obtain ⟨fh, address, hdevice⟩ := hs.i2c handle hhandle hi2c
    obtain ⟨hbus, hdev⟩ := hdevice.data_isSome
    refine exists_i2cDevice hi2c (h.busData _ hbus) (by rw [h.devBusData]; exact hdev) ?_
    rintro rfl
    exact h.devData slot hdevice.devData_isSome
  piface hhandle := by
    rw [h.drvHandle] at hhandle
    exact h.spi (hs.piface hhandle)

theorem Grows.inService (h : Grows s t) (hs : InService s) : InService t :=
  ⟨h.equipped hs.equipped, fun slot hslot =>
    h.works (hs.works slot ((h.hasSlot slot).mp hslot))⟩

/-- A driver call that keeps the pointers of its own device. -/
theorem grows_storeDrv {slot : Slot} {t : DrvState DevHandle β (Env κ)}
    (hhandle : t.dev.drvHandle = (s.config.devices slot).drvHandle)
    (hbus : t.dev.devBusData = (s.config.devices slot).devBusData)
    (hdata : (s.config.devices slot).devData.isSome → t.dev.devData.isSome)
    (hspi : (∃ fd, s.world.spi = .live fd) → ∃ fd, t.world.spi = .live fd) :
    Grows s (s.storeDrv slot t) where
  numBusses := rfl
  numDevices _ := rfl
  busHandle _ := rfl
  busData _ h := h
  drvHandle other := by
    by_cases hother : other = slot
    · subst hother
      simpa [Sys.storeDrv] using hhandle
    · simp [Sys.storeDrv, s.config.devices_setDev_of_ne _ hother]
  devBusData other := by
    by_cases hother : other = slot
    · subst hother
      simpa [Sys.storeDrv] using hbus
    · simp [Sys.storeDrv, s.config.devices_setDev_of_ne _ hother]
  devData other := by
    by_cases hother : other = slot
    · subst hother
      simpa [Sys.storeDrv] using hdata
    · simp [Sys.storeDrv, s.config.devices_setDev_of_ne _ hother]
  spi := hspi

theorem grows_storeBus {b : Fin maxBusses} {t : BusState (Env κ)}
    (hdata : (s.config.busses b).busData.isSome → t.busData.isSome)
    (hspi : t.world.spi = s.world.spi) : Grows s (s.storeBus b t) where
  numBusses := rfl
  numDevices other := by
    by_cases hother : other = b
    · subst hother
      simp [Sys.storeBus, IoConfig.setBus]
    · simp [Sys.storeBus, IoConfig.setBus, hother]
  busHandle other := by
    by_cases hother : other = b
    · subst hother
      simp [Sys.storeBus, IoConfig.setBus]
    · simp [Sys.storeBus, IoConfig.setBus, hother]
  busData other := by
    by_cases hother : other = b
    · subst hother
      simpa [Sys.storeBus, IoConfig.setBus] using hdata
    · simp [Sys.storeBus, IoConfig.setBus, hother]
  drvHandle _ := rfl
  devBusData _ := rfl
  devData _ h := h
  spi := by
    rintro ⟨fd, hfd⟩
    exact ⟨fd, hspi.trans hfd⟩

end Grows

section Piface

variable {ω δ : Type}

/-- The driver keeps its device and ends with the handle `fd`. -/
def KeepsSpi (dev : IoDev δ) (fd : Int) (t : DrvState δ β (Env κ)) : Prop :=
  t.dev = dev ∧ t.world.spi = .live fd

theorem syscall_returns {P : DrvState δ β (Env κ) → Prop} {α : Type} (f : κ → α × κ)
    (hP : ∀ t os, P t → P (t.setOs os)) :
    Returns P (syscall f : DrvM δ β (Env κ) α) (fun _ => P) :=
  fun t ht => ⟨_, _, syscall_run f t, hP t _ ht⟩

variable {dev : IoDev δ} {fd : Int}

theorem keepsSpi_setOs (t : DrvState δ β (Env κ)) (os : κ) (h : KeepsSpi dev fd t) :
    KeepsSpi dev fd (t.setOs os) := h

theorem spiTransfer_returns (txbuffer : List (BitVec 8)) :
    Returns (KeepsSpi (β := β) dev fd) (spiTransfer K txbuffer) (fun _ => KeepsSpi dev fd) := by
  have hfd : Returns (KeepsSpi dev fd) (spiFd : DrvM δ β (Env κ) Int)
      (fun _ => KeepsSpi dev fd) := by
    intro t ht
    exact ⟨fd, t, by simp only [spiFd, run_bind, run_get, ht.2, run_pure], ht⟩
  exact hfd.bind fun fd' => (syscall_returns _ keepsSpi_setOs).bind fun _ =>
    Returns.pure fun _ h => h

theorem spiWrite_returns (port value : BitVec 8) :
    Returns (KeepsSpi (β := β) dev fd) (spiWrite K port value) (fun _ => KeepsSpi dev fd) :=
  (spiTransfer_returns _).bind fun _ => Returns.pure fun _ h => h

theorem pfioDigitalWrite_returns (pin value : BitVec 8) :
    Returns (KeepsSpi (β := β) dev fd) (pfioDigitalWrite K pin value)
      (fun _ => KeepsSpi dev fd) :=
  (spiTransfer_returns _).bind fun _ => spiWrite_returns _ _

theorem spiQueries_returns (fd' : Int) (queries : List SpiQuery) :
    Returns (KeepsSpi (β := β) dev fd) (spiQueries K fd' queries) (fun _ => KeepsSpi dev fd) := by
  induction queries with
  | nil => exact Returns.pure fun _ h => h
  | cons query rest ih =>
      refine (syscall_returns _ keepsSpi_setOs).bind fun rc => ?_
      by_cases hrc : rc < 0
      · rw [if_pos hrc]
        exact Returns.pure fun _ h => h
      · rw [if_neg hrc]
        exact ih

/-- Everything behind the assignment of `spi` in `pfio_init` runs with the handle. -/
theorem pfioInit_returns :
    Returns (fun t : DrvState δ β (Env κ) => (K.malloc t.world.os).1 = true ∧ t.dev = dev)
      (pfioInit K) (fun _ t => ∃ fd, KeepsSpi dev fd t) := by
  unfold pfioInit
  have hmalloc : Returns
      (fun t : DrvState δ β (Env κ) => (K.malloc t.world.os).1 = true ∧ t.dev = dev)
      (syscall K.malloc) (fun ok t => ok = true ∧ t.dev = dev) :=
    fun t ht => ⟨_, _, syscall_run _ t, ht⟩
  refine hmalloc.bind ?_
  rintro ok t ⟨rfl, ht⟩
  refine (Returns.bind (P := fun t : DrvState δ β (Env κ) => t.dev = dev)
    (syscall_returns _ fun _ _ h => h) fun fd => ?_) t ht
  refine Returns.bind (Returns.modified (S := KeepsSpi dev fd) fun t h => ⟨h, rfl⟩) fun _ => ?_
  have hdone (rc : Int) : Returns (KeepsSpi dev fd) (pure rc : DrvM δ β (Env κ) Int)
      (fun _ t => ∃ fd, KeepsSpi dev fd t) := Returns.pure fun _ h => ⟨fd, h⟩
  by_cases hfd : fd < 0
  · rw [if_pos hfd]
    exact hdone _
  · rw [if_neg hfd]
    refine (spiQueries_returns fd _).bind fun ok => ?_
    by_cases hok : ok = true
    · rw [if_pos hok]
      refine (spiWrite_returns _ _).bind fun _ => (spiWrite_returns _ _).bind fun _ =>
        (spiWrite_returns _ _).bind fun _ => (spiWrite_returns _ _).bind fun _ =>
          (spiWrite_returns _ _).bind fun _ => ?_
      exact (Returns.forIn _ fun i _ => pfioDigitalWrite_returns i 0).bind fun _ => hdone _
    · rw [if_neg hok]
      exact hdone _

end Piface

section Hooks

variable {s : Life BusHandle DevHandle β (Env κ)} {slot : Slot} {b : Fin maxBusses}
  {call : HookCall}

theorem works_storeDrv {s : Daemon β κ} {handle : DevHandle} {t : DrvState DevHandle β (Env κ)}
    (hhandle : t.dev.drvHandle = some handle)
    (hi2c : handle.OnI2c → ∃ fh address,
      I2cDevice (s.config.busses slot.1) t.dev fh address handle)
    (hspi : handle = .piface → ∃ fd, t.world.spi = .live fd) :
    Works (s.storeDrv slot t) slot where
  i2c handle' hhandle' h' := by
    have hdev : (s.storeDrv slot t).config.devices slot = t.dev := by simp [Sys.storeDrv]
    rw [hdev] at hhandle' ⊢
    obtain rfl := Option.some.inj (hhandle.symm.trans hhandle')
    exact hi2c h'
  piface hhandle' := by
    have hdev : (s.storeDrv slot t).config.devices slot = t.dev := by simp [Sys.storeDrv]
    rw [hdev, hhandle] at hhandle'
    exact hspi (Option.some.inj hhandle')

/-- The `init` hook of a device leaves it working. -/
theorem initHook_returns (call : HookCall) (hK : K.Allocates) (hs : s.sys.config.Equipped)
    (hslot : s.sys.config.HasSlot slot) :
    ∃ t, callDevHook (devDrv K) slot call (·.init) s = .ok () t ∧
      Grows s.sys t.sys ∧ Works t.sys slot := by
  obtain ⟨handle, hhandle⟩ := Option.isSome_iff_exists.mp (hs.driver slot hslot)
  cases handle with
  | pcf8574 =>
      refine ⟨s, callDevHook_none (by rw [hhandle]; rfl), Grows.refl _, ?_, ?_⟩
      · intro handle' hhandle' hi2c
        obtain rfl := Option.some.inj (hhandle.symm.trans hhandle')
        obtain ⟨hbus, hdev⟩ := hs.i2c slot _ hslot hhandle hi2c
        exact exists_i2cDevice hi2c hbus hdev (fun h => by cases h)
      · intro hpiface
        cases hhandle.symm.trans hpiface
  | mcp23017 =>
      obtain ⟨hbus, hdev⟩ := hs.i2c slot _ hslot hhandle (by simp [DevHandle.OnI2c])
      have hrun : mcp23017Init K (s.sys.config.busses slot.1) (s.sys.drvState slot) =
          .ok 0 { (s.sys.drvState slot).setOs (K.malloc s.sys.world.os).2 with
            dev := { s.sys.config.devices slot with devData := some ⟨.none⟩ } } := by
        unfold mcp23017Init
        rw [bind_of_ok (syscall_run K.malloc _), if_pos (hK _), bind_of_ok (run_modify _ _),
          run_pure]
        rfl
      refine ⟨_, callDevHook_ok (by rw [hhandle]; rfl) hrun,
        grows_storeDrv rfl rfl (fun _ => rfl) (fun h => h), works_storeDrv hhandle ?_ ?_⟩
      · intro hi2c
        exact exists_i2cDevice hi2c hbus hdev fun _ => rfl
      · intro h
        cases h
  | piface =>
      obtain ⟨rc, t, hinit, fd, hkept, hspi⟩ :=
        pfioInit_returns (s.sys.drvState slot) ⟨hK _, rfl⟩
      have hdev : t.dev = s.sys.config.devices slot := hkept
      have hrun : ∃ rc', pifaceInit K (s.sys.config.busses slot.1) (s.sys.drvState slot) =
          .ok rc' t := by
        unfold pifaceInit
        rw [bind_of_ok hinit, run_ite_pure]
        exact ⟨_, rfl⟩
      obtain ⟨rc', hrun⟩ := hrun
      refine ⟨_, callDevHook_ok (by rw [hhandle]; rfl) hrun,
        grows_storeDrv (by rw [hdev]) (by rw [hdev]) (fun h => by rw [hdev]; exact h)
          (fun _ => ⟨fd, hspi⟩), works_storeDrv (hdev ▸ hhandle) ?_ fun _ => ⟨fd, hspi⟩⟩
      intro hi2c
      exact absurd rfl hi2c

/-- The `open` hook of a bus follows no null pointer. -/
theorem openHook_avoids (hs : s.sys.config.Equipped) (hb : (b.val : Int) < s.sys.config.numBusses) :
    Avoids .nullDeref (fun t => t = s) (callBusHook (busDrv K) b call (·.openBus))
      (fun _ t => Grows s.sys t.sys) := by
  cases hhandle : (s.sys.config.busses b).drvHandle with
  | none => exact Avoids.of_ok (callBusHook_none (by rw [hhandle]; rfl)) (Grows.refl _)
  | some handle =>
      cases handle
      obtain ⟨data, hdata⟩ := Option.isSome_iff_exists.mp (hs.busData b hb (by rw [hhandle]; rfl))
      have hptr : busPtr ⟨(s.sys.config.busses b).busData, s.sys.world⟩ =
          .ok data ⟨(s.sys.config.busses b).busData, s.sys.world⟩ := by
        simp only [busPtr, run_bind, run_get, hdata, run_pure]
      have hhook : ((s.sys.config.busses b).drvHandle.bind fun h => (busDrv K h).openBus) =
          some (i2cLinuxOpen K) := by
        rw [hhandle]
        rfl
      by_cases hlen : i2cDevLen ≤ data.device.length
      · have hrun : i2cLinuxOpen K ⟨(s.sys.config.busses b).busData, s.sys.world⟩ =
            .error .outOfBounds ⟨(s.sys.config.busses b).busData, s.sys.world⟩ := by
          unfold i2cLinuxOpen
          rw [bind_of_ok hptr, if_pos hlen]
          rfl
        exact Avoids.of_error (callBusHook_error hhook hrun) (by simp)
      · have hrun : ∃ rc t, i2cLinuxOpen K ⟨(s.sys.config.busses b).busData, s.sys.world⟩ =
            .ok rc t ∧ t.busData.isSome ∧ t.world.spi = s.sys.world.spi := by
          unfold i2cLinuxOpen
          rw [bind_of_ok hptr, if_neg hlen]
          exact ⟨_, _, rfl, rfl, rfl⟩
        obtain ⟨rc, t, hrun, hsome, hspi⟩ := hrun
        exact Avoids.of_ok (callBusHook_ok hhook hrun) (grows_storeBus (fun _ => hsome) hspi)

end Hooks

section IoInit

/-- The configuration is equipped, and the devices done so far work. -/
structure Upto (done : Slot → Prop) (s : Daemon β κ) : Prop where
  equipped : s.config.Equipped
  works : ∀ slot, s.config.HasSlot slot → done slot → Works s slot

theorem Upto.grows {done : Slot → Prop} {s t : Daemon β κ} (hs : Upto done s) (h : Grows s t) :
    Upto done t :=
  ⟨h.equipped hs.equipped, fun slot hslot hdone =>
    h.works (hs.works slot ((h.hasSlot slot).mp hslot) hdone)⟩

theorem Upto.imp {done done' : Slot → Prop} {s : Daemon β κ} (hs : Upto done s)
    (himp : ∀ slot, s.config.HasSlot slot → done' slot → done slot) : Upto done' s :=
  ⟨hs.equipped, fun slot hslot hdone => hs.works slot hslot (himp slot hslot hdone)⟩

/-- In the midst of `io_init`: `i` buses are done, and `j` devices of the next. -/
structure Halfway (n m : Int) (b : Fin maxBusses) (j : Nat)
    (t : Life BusHandle DevHandle β (Env κ)) : Prop where
  upto : Upto (fun slot => slot.1 < b ∨ slot.1 = b ∧ slot.2.val < j) t.sys
  numBusses : t.sys.config.numBusses = n
  numDevices : (t.sys.config.busses b).numDevices = m

theorem initDevice_halfway (hK : K.Allocates) {n m : Int} {b : Fin maxBusses}
    (hb : (b.val : Int) < n) {j : Nat} (hj : j < m.toNat) :
    Returns (Halfway (β := β) n m b j) (initDevice (devDrv K) b j)
      (fun _ => Halfway n m b (j + 1)) := by
  intro s hs
  have hm := (hs.upto.equipped.bounded.devices b).2
  rw [hs.numDevices] at hm
  have hlt : j < maxIoDevices := by omega
  have hslot : s.sys.config.HasSlot (b, ⟨j, hlt⟩) := by
    refine ⟨by rw [hs.numBusses]; exact hb, ?_⟩
    rw [hs.numDevices]
    exact Int.lt_toNat.mp hj
  obtain ⟨t, hrun, hgrows, hworks⟩ :=
    initHook_returns (.init (b, ⟨j, hlt⟩)) hK hs.upto.equipped hslot
  refine ⟨(), t, ?_, ⟨?_, ?_⟩, ?_, ?_⟩
  · unfold initDevice
    rw [bind_of_ok (devIndex_nat j hlt s), hrun]
  · exact hgrows.equipped hs.upto.equipped
  · intro slot hin hdone
    by_cases hsame : slot = (b, ⟨j, hlt⟩)
    · subst hsame
      exact hworks
    · refine hgrows.works (hs.upto.works slot ((hgrows.hasSlot slot).mp hin) ?_)
      rcases hdone with hbus | ⟨hbus, hdev⟩
      · exact .inl hbus
      · refine .inr ⟨hbus, ?_⟩
        have hne : slot.2.val ≠ j := by
          intro hval
          exact hsame (Prod.ext hbus (Fin.ext hval))
        omega
  · exact hgrows.numBusses.trans hs.numBusses
  · exact (hgrows.numDevices b).trans hs.numDevices

theorem initBus_avoids (hK : K.Allocates) {n : Int} {i : Nat} (hi : i < n.toNat) :
    Avoids .nullDeref
      (fun t : Life BusHandle DevHandle β (Env κ) =>
        Upto (fun slot => slot.1.val < i) t.sys ∧ t.sys.config.numBusses = n)
      (initBus (busDrv K) (devDrv K) i)
      (fun _ t => Upto (fun slot => slot.1.val < i + 1) t.sys ∧ t.sys.config.numBusses = n) := by
  rintro s ⟨hupto, hn⟩
  have hbound := hupto.equipped.bounded.busses.2
  rw [hn] at hbound
  have hlt : i < maxBusses := by omega
  have hin : ((⟨i, hlt⟩ : Fin maxBusses).val : Int) < s.sys.config.numBusses := by
    rw [hn]
    exact Int.lt_toNat.mp hi
  have hrest : Avoids .nullDeref (fun t : Life BusHandle DevHandle β (Env κ) => Grows s.sys t.sys)
      (do let s ← get
          let _ ← runAll (initDevice (devDrv K) ⟨i, hlt⟩)
            (List.range (s.sys.config.busses ⟨i, hlt⟩).numDevices.toNat) :
        LifeM BusHandle DevHandle β (Env κ) Unit)
      (fun _ t => Upto (fun slot => slot.1.val < i + 1) t.sys ∧
        t.sys.config.numBusses = n) := by
    refine Avoids.get_bind fun t ht => ?_
    have hloop := runAll_range_returns (I := Halfway (β := β) n
      (t.sys.config.busses ⟨i, hlt⟩).numDevices ⟨i, hlt⟩) fun j hj =>
        initDevice_halfway hK (by rw [← hn]; exact hin) hj
    refine Returns.avoids (hloop.imp ?_ ?_ |>.bind fun _ => Returns.pure fun _ h => h)
    · rintro _ rfl
      refine ⟨(hupto.grows ht).imp ?_, ht.numBusses.trans hn, rfl⟩
      intro slot _ hdone
      rcases hdone with hbus | ⟨-, hdev⟩
      · exact hbus
      · exact absurd hdev (Nat.not_lt_zero _)
    · rintro _ u ⟨hu, hnum, hdev⟩
      refine ⟨hu.imp ?_, hnum⟩
      intro slot hslot hdone
      have hval : slot.1.val < i ∨ slot.1.val = i := by omega
      rcases hval with hbus | hbus
      · exact .inl hbus
      · have heq : slot.1 = ⟨i, hlt⟩ := Fin.ext hbus
        have hcount := hslot.2
        rw [heq, hdev] at hcount
        exact .inr ⟨heq, by omega⟩
  unfold initBus
  rw [bind_of_ok (busIndex_nat i hlt s)]
  exact ((openHook_avoids hupto.equipped hin).bind fun _ => hrest) s rfl

/-- `io_init` of an equipped configuration. -/
theorem ioInit_avoids (hK : K.Allocates) :
    Avoids .nullDeref (fun t : Life BusHandle DevHandle β (Env κ) => t.sys.config.Equipped)
      (ioInit (busDrv K) (devDrv K)) (fun _ t => InService t.sys) := by
  refine Avoids.get_bind fun s hs => ?_
  have hloop := runAll_range_avoids (n := s.sys.config.numBusses.toNat)
    (I := fun i (t : Life BusHandle DevHandle β (Env κ)) =>
      Upto (fun slot => slot.1.val < i) t.sys ∧ t.sys.config.numBusses = s.sys.config.numBusses)
    fun i hi => initBus_avoids hK hi
  refine (hloop.imp ?_ ?_).bind fun _ => Avoids.pure fun _ h => h
  · rintro _ rfl
    exact ⟨⟨hs, fun _ _ h => absurd h (Nat.not_lt_zero _)⟩, rfl⟩
  · rintro _ t ⟨ht, hn⟩
    refine ⟨ht.equipped, fun slot hslot => ht.works slot hslot ?_⟩
    have hbus := hslot.1
    rw [hn] at hbus
    omega

end IoInit

section PerformIo

/-- A part of a driver that returns on any working device, and keeps its pointers. -/
def RunsOnWorking {α : Type} (K : Kernel κ)
    (f : DevDrv BusHandle DevHandle β (Env κ) → IoBus BusHandle → DrvM DevHandle β (Env κ) α) :
    Prop :=
  ∀ handle bus (t : DrvState DevHandle β (Env κ)),
    (handle.OnI2c → ∃ fh address, I2cDevice bus t.dev fh address handle) →
    (handle = .piface → ∃ fd, t.world.spi = .live fd) →
    ∃ a u, f (devDrv K handle) bus t = .ok a u ∧ t.dev.SameWiring u.dev ∧
      u.world.spi = t.world.spi

theorem read_runsOnWorking (cbError : CbError β) (value : Value) :
    RunsOnWorking K fun drv bus => drv.read cbError bus value := by
  intro handle bus t hi2c hspi
  by_cases hhandle : handle = .piface
  · subst hhandle
    obtain ⟨fd, hfd⟩ := hspi rfl
    obtain ⟨states, u, hrun, hdev, hu⟩ :=
      spiTransfer_returns (K := K) [Pfio.spiReadCmd, Pfio.outputPort, 0xff] t ⟨rfl, hfd⟩
    refine ⟨_, u, bind_of_ok hrun, ?_, hu.trans hfd.symm⟩
    rw [hdev]
    exact IoDev.SameWiring.refl _
  · obtain ⟨fh, address, hdevice⟩ := hi2c hhandle
    obtain ⟨result, u, hrun, htalked⟩ := read_talked (K := K) hdevice cbError value
    exact ⟨result, u, hrun, htalked.wiring, htalked.spi⟩

theorem write_runsOnWorking (cbError : CbError β) (value : Value) :
    RunsOnWorking K fun drv bus => drv.write cbError bus value := by
  intro handle bus t hi2c hspi
  by_cases hhandle : handle = .piface
  · subst hhandle
    obtain ⟨fd, hfd⟩ := hspi rfl
    obtain ⟨_, u, hrun, hdev, hu⟩ :=
      spiWrite_returns (K := K) Pfio.outputPort (value.setWidth 8) t ⟨rfl, hfd⟩
    refine ⟨_, u, bind_of_ok hrun, ?_, hu.trans hfd.symm⟩
    rw [hdev]
    exact IoDev.SameWiring.refl _
  · obtain ⟨fh, address, hdevice⟩ := hi2c hhandle
    obtain ⟨result, u, hrun, htalked⟩ := write_talked (K := K) hdevice cbError value
    exact ⟨result, u, hrun, htalked.wiring, htalked.spi⟩

/-- Where the indices name a slot at all, it is a configured one. -/
structure Reaches (idxBus idxDev : Int) (s : Daemon β κ) : Prop where
  inService : InService s
  slot : ∀ (b : Fin maxBusses) (d : Fin maxIoDevices), idxBus = b.val → idxDev = d.val →
    s.config.HasSlot (b, d)

theorem Reaches.grows {idxBus idxDev : Int} {s t : Daemon β κ} (hs : Reaches idxBus idxDev s)
    (h : Grows s t) : Reaches idxBus idxDev t :=
  ⟨h.inService hs.inService, fun b d hb hd => (h.hasSlot _).mpr (hs.slot b d hb hd)⟩

/-- Such a part called on a device that works. -/
theorem drv_working {α : Type} {s : Daemon β κ} {slot : Slot} {handle : DevHandle}
    {f : DevDrv BusHandle DevHandle β (Env κ) → IoBus BusHandle → DrvM DevHandle β (Env κ) α}
    (hf : RunsOnWorking K f) (hworks : Works s slot)
    (hhandle : (s.config.devices slot).drvHandle = some handle) :
    ∃ a u, f (devDrv K handle) (s.config.busses slot.1) (s.drvState slot) = .ok a u ∧
      Grows s (s.storeDrv slot u) := by
  obtain ⟨a, u, hrun, hwiring, hspi⟩ := hf handle (s.config.busses slot.1) (s.drvState slot)
    (fun hi2c => hworks.i2c handle hhandle hi2c)
    (fun hpiface => hworks.piface (hpiface ▸ hhandle))
  refine ⟨a, u, hrun, ?_⟩
  apply grows_storeDrv hwiring.drvHandle hwiring.devBusData
  · intro hdata
    rw [hwiring.devData]
    exact hdata
  · rintro ⟨fd, hfd⟩
    exact ⟨fd, hspi.trans hfd⟩

/-- Such a part called on a configured device. -/
theorem onDevice_working {α : Type} {s : Daemon β κ} {slot : Slot} {handle : DevHandle}
    {f : DevDrv BusHandle DevHandle β (Env κ) → IoBus BusHandle → DrvM DevHandle β (Env κ) α}
    (hf : RunsOnWorking K f) (hs : InService s) (hslot : s.config.HasSlot slot)
    (hhandle : (s.config.devices slot).drvHandle = some handle) :
    ∃ a t, onDevice slot (f (devDrv K handle)) s = .ok a t ∧ Grows s t := by
  obtain ⟨a, u, hrun, hgrows⟩ := drv_working hf (hs.works slot hslot) hhandle
  exact ⟨a, s.storeDrv slot u, onDevice_of_ok hrun, hgrows⟩

theorem callDrv_avoids {α : Type} {idxBus idxDev : Int} {call : DrvCall}
    {f : DevDrv BusHandle DevHandle β (Env κ) → IoBus BusHandle → DrvM DevHandle β (Env κ) α}
    (hf : RunsOnWorking K f) :
    Avoids .nullDeref (Reaches idxBus idxDev) (callDrv (devDrv K) idxBus idxDev call f)
      (fun _ => Reaches idxBus idxDev) := by
  intro s hs
  rcases callDrv_cases (devDrv K) idxBus idxDev call f s with ⟨slot, rfl, rfl⟩ | hout
  · have hslot := hs.slot slot.1 slot.2 rfl rfl
    obtain ⟨handle, hhandle⟩ :=
      Option.isSome_iff_exists.mp (hs.inService.equipped.driver _ hslot)
    have hnoted : Reaches slot.1.val slot.2.val { s with calls := s.calls ++ [call] } :=
      hs.grows (grows_of_same rfl rfl)
    obtain ⟨a, t, hrun, hgrows⟩ := onDevice_working hf hnoted.inService hslot hhandle
    have hcall := (callDrv_slot (devDrv K) slot call f hhandle).trans hrun
    exact Avoids.of_ok hcall (hnoted.grows hgrows) s rfl
  · exact Avoids.of_error hout (by simp) s rfl

variable (cb : Callbacks β) (data : IoData)

theorem reply_avoids {idxBus idxDev : Int} (f : β → β) :
    Avoids .nullDeref (Reaches (κ := κ) idxBus idxDev)
      (modify fun t => { t with buf := f t.buf } : SysM BusHandle DevHandle β (Env κ) Unit)
      (fun _ => Reaches idxBus idxDev) :=
  Avoids.modified fun _ h => h.grows (grows_of_same rfl rfl)

theorem shiftOne_avoids {idxBus idxDev : Int} (idx : Int) :
    Avoids .nullDeref (Reaches (β := β) (κ := κ) idxBus idxDev) (shiftOne idx)
      (fun _ => Reaches idxBus idxDev) := by
  unfold shiftOne
  by_cases h : 0 ≤ idx ∧ idx < 32
  · rw [if_pos h]
    exact Avoids.pure fun _ h => h
  · rw [if_neg h]
    exact Avoids.throw (by simp)

theorem writeValue_avoids (value : Value) :
    Avoids .nullDeref (Reaches data.idxBus data.idxDev) (writeValue (devDrv K) cb data value)
      (fun _ => Reaches data.idxBus data.idxDev) := by
  refine (callDrv_avoids (write_runsOnWorking _ _)).bind fun numWritten => ?_
  by_cases hwritten : numWritten > 0
  · rw [if_pos hwritten]
    exact (reply_avoids _).bind fun _ => Avoids.pure fun _ h => h
  · rw [if_neg hwritten]
    exact Avoids.pure fun _ h => h

theorem performWrite_avoids :
    Avoids .nullDeref (Reaches data.idxBus data.idxDev) (performWrite (devDrv K) cb data)
      (fun _ => Reaches data.idxBus data.idxDev) := by
  unfold performWrite
  by_cases hsub : data.idxSubDev ≠ idxInvalid
  · rw [if_pos hsub]
    refine (callDrv_avoids (read_runsOnWorking _ _)).bind ?_
    rintro ⟨numRead, value⟩
    by_cases hread : numRead ≤ 0
    · simp only [if_pos hread]
      exact (reply_avoids _).bind fun _ => Avoids.pure fun _ h => h
    · simp only [if_neg hread]
      exact (shiftOne_avoids _).bind fun _ => writeValue_avoids cb data _
  · rw [if_neg hsub]
    exact writeValue_avoids cb data _

theorem performRead_avoids :
    Avoids .nullDeref (Reaches data.idxBus data.idxDev) (performRead (devDrv K) cb data)
      (fun _ => Reaches data.idxBus data.idxDev) := by
  unfold performRead
  refine (callDrv_avoids (read_runsOnWorking _ _)).bind ?_
  rintro ⟨numRead, value⟩
  simp only
  by_cases hread : numRead > 0
  · rw [if_pos hread]
    by_cases hsub : data.idxSubDev ≠ idxInvalid
    · rw [if_pos hsub]
      by_cases hin : 0 ≤ data.idxSubDev ∧ data.idxSubDev < 32
      · rw [if_pos hin]
        exact (reply_avoids _).bind fun _ => Avoids.pure fun _ h => h
      · rw [if_neg hin]
        exact (reply_avoids _).bind fun _ => (reply_avoids _).bind fun _ =>
          Avoids.pure fun _ h => h
    · rw [if_neg hsub]
      exact (reply_avoids _).bind fun _ => Avoids.pure fun _ h => h
  · rw [if_neg hread]
    exact Avoids.pure fun _ h => h

theorem refusal_avoids (msg : String) :
    Avoids .nullDeref (InService (κ := κ))
      (do reportError cb msg
          return (exitFailure, data) : SysM BusHandle DevHandle β (Env κ) (Int × IoData))
      (fun _ => InService) :=
  Avoids.bind (Avoids.modified (S := InService) fun s hs =>
    Grows.inService (t := { s with buf := cb.error msg.toList s.buf })
      (grows_of_same (s := s) rfl rfl) hs)
    fun _ => Avoids.pure fun _ h => h

/-- `perform_io` of a daemon in service, whatever it is asked. -/
theorem performIo_avoids (cmd : IoCmd) :
    Avoids .nullDeref InService (performIo (devDrv K) cb data cmd) (fun _ => InService) := by
  intro s hs
  by_cases hbad : data.idxBus = idxInvalid ∨ data.idxBus ≥ s.config.numBusses
  · unfold performIo
    rw [bind_of_ok (run_get s), if_pos hbad]
    exact refusal_avoids cb data _ s hs
  · have hbounds := hs.equipped.bounded.busses
    by_cases hneg : data.idxBus < 0
    · unfold performIo
      rw [bind_of_ok (run_get s), if_neg hbad]
      by_cases hnone : data.idxDev = idxInvalid
      · rw [if_pos hnone]
        exact refusal_avoids cb data _ s hs
      · rw [if_neg hnone]
        have hrun : busIndex data.idxBus s = .error .outOfBounds s :=
          busIndex_of_not (by omega) s
        exact Avoids.of_error (bind_of_error hrun) (by simp) s rfl
    · obtain ⟨b, hb, -⟩ := busIndex_of_lt (show 0 ≤ data.idxBus by omega) (by omega) s
      rw [performIo_knownBus hb (by omega)]
      by_cases hdev : data.idxDev = idxInvalid ∨ data.idxDev ≥ (s.config.busses b).numDevices
      · rw [if_pos hdev]
        exact refusal_avoids cb data _ s hs
      · rw [if_neg hdev]
        have hreach : Reaches data.idxBus data.idxDev s := by
          refine ⟨hs, ?_⟩
          intro b' d hb' hd
          obtain rfl : b' = b := Fin.ext (Int.ofNat.inj (hb'.symm.trans hb))
          rw [not_or] at hbad hdev
          constructor <;> simp only <;> omega
        cases cmd with
        | none => exact refusal_avoids cb data _ s hs
        | write =>
            exact (performWrite_avoids cb data).imp (fun _ h => h)
              (fun _ _ h => h.inService) s hreach
        | read =>
            exact (performRead_avoids cb data).imp (fun _ h => h)
              (fun _ _ h => h.inService) s hreach

end PerformIo

theorem ioExtConfig_equipped : ioExtConfig.Equipped := by
  refine ⟨ioExtConfig_bounded, ?_, by decide, ?_⟩
  · intro slot hslot
    rcases ioExtConfig_slots hslot with rfl | rfl | rfl <;> rfl
  · intro slot handle hslot hhandle hi2c
    rcases ioExtConfig_slots hslot with rfl | rfl | rfl
    · exact ⟨rfl, rfl⟩
    · exact ⟨rfl, rfl⟩
    · exact absurd (Option.some.inj hhandle).symm hi2c

end Switcher
