import Switcher.Service.Panel
import Switcher.Service.SubDevice
import Switcher.Service.Truth

/-!
Reading back what a write was acknowledged with. The reply to a `SET` carries the
value of the request and not of the device, so whether the `GET` that follows
agrees is decided by what the driver keeps of the value and by what it reads.
-/

namespace Switcher

open Lib.Program Lib.Bits

/-- The request reads what `r` has written. -/
def Request.readBack (r : Request) : Request := { r with isSet := false, value := 0 }

/-- The object that was printed last is a success object with value `w`. -/
def Served.Tells (served : Served (List Event)) (w : Value) : Prop :=
  ∃ data, served.content.getLast? = some (.success data) ∧ data.value = w

def Served.Refuses (served : Served (List Event)) : Prop :=
  ∃ msg, served.content.getLast? = some (.error msg)

/-- A device with `width` outputs has a state that reads as the value of `r`. -/
def Request.Holdable (r : Request) (width : Nat) : Prop :=
  ∃ states : BitVec width, r.picked (states.setWidth 32) = r.value

/-- What is asked of a `SET` and the `GET` right after it: the value told is read
back, and a value that the device cannot hold is refused. -/
structure Honest (r : Request) (width : Nat) (set get : Served (List Event)) : Prop where
  echo : ∀ w, set.Tells w → get.Tells w
  refuse : ¬ r.Holdable width → set.Refuses

/-- Both requests were answered with success, the second with a value picked from
`value`. -/
structure Acknowledged (r : Request) (value : Value) (set get : Served (List Event)) : Prop where
  set : set.content = [.success r.data]
  get : get.content = [.success { r.readBack.data with value := r.picked value }]

theorem Acknowledged.honest_iff {r : Request} {width : Nat} {states : BitVec width}
    {set get : Served (List Event)} (h : Acknowledged r (states.setWidth 32) set get) :
    Honest r width set get ↔ r.picked (states.setWidth 32) = r.value := by
  constructor
  · intro hhonest
    have htold : set.Tells r.value := ⟨r.data, by rw [h.set]; rfl, rfl⟩
    obtain ⟨data, hlast, hvalue⟩ := hhonest.echo _ htold
    rw [h.get] at hlast
    obtain rfl := Event.success.inj (Option.some.inj hlast)
    exact hvalue
  · intro hvalue
    constructor
    · rintro w ⟨data, hlast, rfl⟩
      rw [h.set] at hlast
      obtain rfl := Event.success.inj (Option.some.inj hlast)
      exact ⟨_, by rw [h.get]; rfl, hvalue⟩
    · intro hnot
      exact absurd ⟨states, hvalue⟩ hnot

/-- A device that nothing goes wrong with: its driver calls on `slot` succeed, and
lead from one abstract state to another as `Reads` and `Writes` say. -/
structure Dependable {A W : Type} (table : DevHandle → DevDrv BusHandle DevHandle (List Event) W)
    (slot : Slot) (At : A → Sys BusHandle DevHandle (List Event) W → Prop)
    (Reads Writes : A → Value → A → Prop) : Prop where
  hasSlot : ∀ a s, At a s → s.config.HasSlot slot
  unseen : ∀ a s events calls, At a s → At a { s with buf := events, calls := calls }
  read : ∀ a s (r : Request), r.slot = slot → At a s → ∃ value a' t,
    drvRead table recorder r.data s = .ok (1, value) t ∧ t.buf = s.buf ∧ Reads a value a' ∧ At a' t
  write : ∀ a s (r : Request) value, r.slot = slot → At a s → ∃ a' t,
    drvWrite table recorder r.data value s = .ok 1 t ∧ t.buf = s.buf ∧ Writes a value a' ∧ At a' t

/-- What a `SET` makes of the state of such a device. -/
def Request.Sets {A : Type} (Reads Writes : A → Value → A → Prop) (r : Request) (a a' : A) :
    Prop :=
  match r.subDev with
  | none => Writes a r.value a'
  | some i => ∃ value a₁, Reads a value a₁ ∧ Writes a₁ (r.masked i value) a'

section Dependable

variable {A W : Type} {table : DevHandle → DevDrv BusHandle DevHandle (List Event) W}
  {At : A → Sys BusHandle DevHandle (List Event) W → Prop} {Reads Writes : A → Value → A → Prop}
  {r : Request} {a : A} {s : Sys BusHandle DevHandle (List Event) W}

section Parts

variable {slot : Slot} (h : Dependable table slot At Reads Writes) (hslot : r.slot = slot)
include h hslot

theorem Dependable.writeValue (value : Value) (hs : At a s) :
    ∃ a' t, Switcher.writeValue table recorder r.data value s = .ok (exitSuccess, r.data) t ∧
      t.buf = s.buf ++ [.success r.data] ∧ Writes a value a' ∧ At a' t := by
  obtain ⟨a', t, hrun, hbuf, hwrites, ht⟩ := h.write a s r value hslot hs
  have hcode := writeValue_run table recorder hrun
  rw [if_pos (by decide)] at hcode
  refine ⟨a', _, hcode, ?_, hwrites, h.unseen a' t _ _ ht⟩
  simp only [recorder, hbuf]

theorem Dependable.performWrite (hs : At a s) :
    ∃ a' t, Switcher.performWrite table recorder r.data s = .ok (exitSuccess, r.data) t ∧
      t.buf = s.buf ++ [.success r.data] ∧ r.Sets Reads Writes a a' ∧ At a' t := by
  unfold Request.Sets
  cases hsub : r.subDev with
  | none =>
      rw [performWrite_whole table recorder hsub]
      exact h.writeValue hslot r.value hs
  | some i =>
      obtain ⟨value, a₁, u, hread, hbuf, hreads, hu⟩ := h.read a s r hslot hs
      obtain ⟨a', t, hrun, hbuf', hwrites, ht⟩ := h.writeValue hslot (r.masked i value) hu
      rw [performWrite_subDev table recorder hsub hread, if_neg (by decide)]
      exact ⟨a', t, hrun, by rw [hbuf', hbuf], ⟨value, a₁, hreads, hwrites⟩, ht⟩

theorem Dependable.performRead (hs : At a s) :
    ∃ value a' t, Switcher.performRead table recorder r.data s =
        .ok (exitSuccess, { r.data with value := r.picked value }) t ∧
      t.buf = s.buf ++ [.success { r.data with value := r.picked value }] ∧
      Reads a value a' ∧ At a' t := by
  obtain ⟨value, a', t, hread, hbuf, hreads, ht⟩ := h.read a s r hslot hs
  have hcode := performRead_run table recorder hread
  rw [if_pos (by decide)] at hcode
  refine ⟨value, a', _, hcode, ?_, hreads, h.unseen a' t _ _ ht⟩
  simp only [recorder, hbuf]

end Parts

variable (h : Dependable table r.slot At Reads Writes)
include h

/-- A `SET` is acknowledged with the value of the request. -/
theorem Dependable.serveSet (hset : r.isSet = true) (hs : At a s) :
    ∃ set a' t, serveRequest table recorder [] r s = .ok set t ∧
      set.content = [.success r.data] ∧ r.Sets Reads Writes a a' ∧ At a' t := by
  obtain ⟨a', t, hrun, hbuf, hsets, ht⟩ := h.performWrite rfl (h.unseen a s [] s.calls hs)
  have hperform : (if r.isSet then Switcher.performWrite table recorder r.data
      else Switcher.performRead table recorder r.data) { s with buf := [] } =
        .ok (exitSuccess, r.data) t := by
    rw [if_pos hset]
    exact hrun
  exact ⟨_, a', t, serveRequest_run table recorder [] (h.hasSlot a s hs) hperform, hbuf, hsets, ht⟩

/-- The `GET` is answered with what the driver reads. -/
theorem Dependable.serveGet (hs : At a s) :
    ∃ get value a' t, serveRequest table recorder [] r.readBack s = .ok get t ∧
      get.content = [.success { r.readBack.data with value := r.picked value }] ∧
      Reads a value a' ∧ At a' t := by
  have hsame : r.readBack.slot = r.slot := rfl
  obtain ⟨value, a', t, hrun, hbuf, hreads, ht⟩ :=
    h.performRead hsame (h.unseen a s [] s.calls hs)
  have hpicked : r.readBack.picked value = r.picked value := rfl
  have hget : ¬ r.readBack.isSet = true := by simp [Request.readBack]
  rw [hpicked] at hrun hbuf
  refine ⟨⟨exitSuccess, { r.readBack.data with value := r.picked value }, t.buf⟩, value, a', t, ?_,
    hbuf, hreads, ht⟩
  have hslot : s.config.HasSlot r.readBack.slot := h.hasSlot a s hs
  apply serveRequest_run table recorder [] hslot
  rw [if_neg hget]
  exact hrun

end Dependable

section Rack

variable {σ A : Type} {P : Population ChipId σ} {chipOf : Slot → ChipId} {r : Request}
  {At : A → Daemon (List Event) σ → Prop} {Reads Writes : A → Value → A → Prop} {a : A}
  {s : Rack (List Event) ChipId σ}

/-- A `SET` and the `GET` right after it, on a board where the device of the
request is dependable. -/
theorem acknowledged_of_dependable (hp : Populated P chipOf s)
    (h : Dependable (devDrv (P.chipKernel (chipOf r.slot))) r.slot At Reads Writes)
    (hset : r.isSet = true) (hslot : s.config.HasSlot r.slot)
    (hs : At a (s.alone r.slot (chipOf r.slot))) :
    ∃ set s₁ get s₂ a₁ value a₂, serveRequest (devDrv P.kernel) recorder [] r s = .ok set s₁ ∧
      serveRequest (devDrv P.kernel) recorder [] r.readBack s₁ = .ok get s₂ ∧
      r.Sets Reads Writes a a₁ ∧ Reads a₁ value a₂ ∧ Acknowledged r value set get := by
  obtain ⟨set, s₁, t₁, hrun, hlocal, hstep⟩ := hp.serveRequest recorder [] hslot
  have hstart : At a (Sys.alone { s with buf := [] } r.slot (chipOf r.slot)) :=
    h.unseen a _ [] [] hs
  obtain ⟨set', a₁, t, hlocal', hcontent, hsets, ht⟩ := h.serveSet hset hstart
  obtain ⟨rfl, rfl⟩ := EStateM.Result.ok.inj (hlocal.symm.trans hlocal')
  have hp₁ : Populated P chipOf s₁ := hstep.populated hp
  have hslot₁ : s₁.config.HasSlot r.readBack.slot := (hstep.hasSlot_iff r.slot).mpr hslot
  obtain ⟨get, s₂, t₂, hrun₂, hlocal₂, -⟩ := hp₁.serveRequest recorder [] hslot₁
  have hstart₁ : At a₁ (Sys.alone { s₁ with buf := [] } r.slot (chipOf r.slot)) := by
    have halone := h.unseen a₁ t₁ [] [] ht
    rw [hstep.alone] at halone
    exact halone
  obtain ⟨get', value, a₂, u, hlocal₂', hcontent₂, hreads, -⟩ := h.serveGet hstart₁
  obtain ⟨rfl, rfl⟩ := EStateM.Result.ok.inj (hlocal₂.symm.trans hlocal₂')
  exact ⟨set, s₁, get, s₂, a₁, value, a₂, hrun, hrun₂, hsets, hreads, hcontent, hcontent₂⟩

end Rack

/-- No transfer of the chip fails from now on. -/
def Latch.Fine (latch : Latch) : Prop := ∀ n, latch.fails n = false

theorem Latch.i2c_fine {latch : Latch} (h : latch.Fine) :
    latch.i2c .readByte = ((0, latch.value), { latch with fails := fun n => latch.fails (n + 1) }) ∧
      ∀ value, latch.i2c (.writeByte value) =
        ((0, 0), { latch with value := value, fails := fun n => latch.fails (n + 1) }) := by
  simp [Latch.i2c, h 0]

/-- The device in `slot` is a latch with this value, and alone on its system. -/
structure FineLatch (slot : Slot) (chip : ChipId) (latch : BitVec 8)
    (t : Daemon (List Event) Latch) : Prop where
  wired : ∃ handle, handle.IsLatch ∧ Wired latches t.config t.world.spi slot handle chip
  hasSlot : t.config.HasSlot slot
  value : t.world.os.value = latch
  fine : t.world.os.Fine

section Piface

variable {slot : Slot} {fd : Int} {s : Daemon (List Event) Latch} (hspi : s.world.spi = .live fd)
  (cbError : CbError (List Event)) (bus : IoBus BusHandle) (x : Value)
include hspi

theorem spiFd_live : spiFd (s.drvState slot) = .ok fd (s.drvState slot) := by
  simp only [spiFd, run_bind, run_get, Sys.drvState, hspi, run_pure]

theorem pifaceRead_alone :
    pifaceRead (latches.chipKernel latches.spiAt) cbError bus x (s.drvState slot) =
      .ok (1, s.world.os.value.setWidth 32) ((s.drvState slot).setOs s.world.os) :=
  bind_of_ok ((bind_of_ok (spiFd_live hspi)).trans (bind_of_ok (syscall_run _ _)))

theorem pifaceWrite_alone :
    pifaceWrite (latches.chipKernel latches.spiAt) cbError bus x (s.drvState slot) =
      .ok 1 ((s.drvState slot).setOs { s.world.os with value := x.setWidth 8 }) := by
  have hsent : pfioWriteOutput (latches.chipKernel latches.spiAt) (x.setWidth 8)
      (s.drvState slot) = .ok ⟨⟩ _ :=
    bind_of_ok ((bind_of_ok (spiFd_live hspi)).trans (bind_of_ok (syscall_run _ _)))
  exact bind_of_ok hsent

end Piface

section Latch

variable {slot : Slot} {chip : ChipId} {handle : DevHandle} {s : Daemon (List Event) Latch}
  (hw : Wired latches s.config s.world.spi slot handle chip) (hlatch : handle.IsLatch)
  (hfine : s.world.os.Fine) (cbError : CbError (List Event)) (x : Value)
include hw hlatch hfine

theorem read_fine :
    ∃ os : Latch, (devDrv (latches.chipKernel chip) handle).read cbError (s.config.busses slot.1) x
        (s.drvState slot) = .ok (1, s.world.os.value.setWidth 32) ((s.drvState slot).setOs os) ∧
      os.value = s.world.os.value ∧ os.Fine := by
  obtain ⟨hreadByte, -⟩ := Latch.i2c_fine hfine
  cases hw with
  | @pcf8574 busData devBusData hdrv hbus hdev =>
      have hdev' : (s.drvState slot).dev.devBusData = some devBusData := hdev
      have hrun := pcf8574Read_run (latches.chipKernel (.i2c busData.fh devBusData.address)) cbError
        x hbus hdev'
      have hexchange := exchange_chipKernel latches (.i2c busData.fh devBusData.address) cbError
        busData.fh devBusData.address .readByte (s.drvState slot)
      have hanswer : latches.i2c (.i2c busData.fh devBusData.address) .readByte
          (s.drvState slot).world.os = _ := hreadByte
      rw [hexchange, hanswer] at hrun
      exact ⟨_, hrun, rfl, fun n => hfine (n + 1)⟩
  | mcp23017 => exact hlatch.elim
  | @piface fd hdrv hspi =>
      exact ⟨s.world.os, pifaceRead_alone hspi cbError (s.config.busses slot.1) x, rfl, hfine⟩

theorem write_fine :
    ∃ os : Latch, (devDrv (latches.chipKernel chip) handle).write cbError
        (s.config.busses slot.1) x (s.drvState slot) = .ok 1 ((s.drvState slot).setOs os) ∧
      os.value = x.setWidth 8 ∧ os.Fine := by
  obtain ⟨-, hwriteByte⟩ := Latch.i2c_fine hfine
  cases hw with
  | @pcf8574 busData devBusData hdrv hbus hdev =>
      have hdev' : (s.drvState slot).dev.devBusData = some devBusData := hdev
      have hrun := pcf8574Write_run (latches.chipKernel (.i2c busData.fh devBusData.address))
        cbError x hbus hdev'
      have hexchange := exchange_chipKernel latches (.i2c busData.fh devBusData.address) cbError
        busData.fh devBusData.address (.writeByte (x.setWidth 8)) (s.drvState slot)
      have hanswer : latches.i2c (.i2c busData.fh devBusData.address) (.writeByte (x.setWidth 8))
          (s.drvState slot).world.os = _ := hwriteByte _
      rw [hexchange, hanswer] at hrun
      exact ⟨_, hrun, rfl, fun n => hfine (n + 1)⟩
  | mcp23017 => exact hlatch.elim
  | @piface fd hdrv hspi =>
      exact ⟨{ s.world.os with value := x.setWidth 8 },
        pifaceWrite_alone hspi cbError (s.config.busses slot.1) x, rfl, hfine⟩

end Latch

/-- A driver call that changes the operating system only. -/
theorem storeDrv_setOs {κ β : Type} (s : Daemon β κ) (slot : Slot) (os : κ) (calls : List DrvCall) :
    Sys.storeDrv { s with calls := calls } slot ((s.drvState slot).setOs os) =
      { s with world := { s.world with os := os }, calls := calls } := by
  simp only [Sys.storeDrv, Sys.drvState, DrvState.setOs, IoConfig.setDev_devices]

theorem fineLatch_dependable (slot : Slot) (chip : ChipId) :
    Dependable (devDrv (latches.chipKernel chip)) slot (FineLatch slot chip)
      (fun latch value latch' => value = latch.setWidth 32 ∧ latch' = latch)
      (fun _ value latch' => latch' = value.setWidth 8) := by
  refine ⟨fun _ _ h => h.hasSlot, fun _ _ _ _ h => ⟨h.wired, h.hasSlot, h.value, h.fine⟩, ?_, ?_⟩
  · rintro latch s r rfl ⟨⟨handle, hlatch, hw⟩, hslot, rfl, hfine⟩
    obtain ⟨os, hrun, hvalue, hfine'⟩ := read_fine hw hlatch hfine recorder.error r.value
    refine ⟨_, _, _, (callDrv_slot _ r.slot _ _ hw.drvHandle).trans (onDevice_of_ok hrun), rfl,
      ⟨rfl, rfl⟩, ?_⟩
    rw [storeDrv_setOs]
    exact ⟨⟨handle, hlatch, hw⟩, hslot, hvalue, hfine'⟩
  · rintro latch s r value rfl ⟨⟨handle, hlatch, hw⟩, hslot, rfl, hfine⟩
    obtain ⟨os, hrun, hvalue, hfine'⟩ := write_fine hw hlatch hfine recorder.error value
    refine ⟨_, _, (callDrv_slot _ r.slot _ _ hw.drvHandle).trans (onDevice_of_ok hrun), rfl,
      rfl, ?_⟩
    rw [storeDrv_setOs]
    exact ⟨⟨handle, hlatch, hw⟩, hslot, hvalue, hfine'⟩

/-- The value fits the 8 bits of a latch, or the one bit of an output that is
there. An output that is not there reads as zero. -/
def FitsLatch (r : Request) : Prop :=
  match r.subDev with
  | none => r.value.toNat < 256
  | some i => r.value = 0 ∨ r.value = 1 ∧ i.val < 8

theorem narrowed_eq_iff (value : Value) :
    (value.setWidth 8).setWidth 32 = value ↔ value.toNat < 256 := by
  rw [← BitVec.toNat_inj]
  simp only [BitVec.toNat_setWidth]
  omega

/-- What a latch reads as after a write is the value written exactly if that
fits. -/
theorem reads_apply_iff (r : Request) (latch : BitVec 8) :
    r.reads (r.apply latch) = r.value ↔ FitsLatch r := by
  cases hsub : r.subDev with
  | none =>
      simp only [Request.reads, Request.apply, FitsLatch, hsub]
      exact narrowed_eq_iff r.value
  | some i =>
      simp only [Request.reads, Request.apply, FitsLatch, hsub, getLsbD_setBit, if_true]
      by_cases hon : i.val < 8 ∧ r.value ≠ 0
      · rw [if_pos (by simpa using hon)]
        constructor
        · exact fun hone => .inr ⟨hone.symm, hon.1⟩
        · rintro (hzero | ⟨hone, -⟩)
          · exact absurd hzero hon.2
          · exact hone.symm
      · rw [if_neg (by simpa using hon)]
        constructor
        · exact fun hzero => .inl hzero.symm
        · rintro (hzero | ⟨hone, hi⟩)
          · exact hzero.symm
          · exact absurd ⟨hi, by simp [hone]⟩ hon

/-- A latch after a write. -/
theorem fineLatch_sets {r : Request} {latch latch' : BitVec 8}
    (h : r.Sets (fun latch value latch' => value = latch.setWidth 32 ∧ latch' = latch)
      (fun _ value latch' => latch' = value.setWidth 8) latch latch') :
    latch' = r.apply latch := by
  unfold Request.Sets at h
  cases hsub : r.subDev with
  | none =>
      simp only [hsub] at h
      simpa [Request.apply, hsub] using h
  | some i =>
      simp only [hsub] at h
      obtain ⟨value, _, ⟨rfl, rfl⟩, rfl⟩ := h
      exact Request.setWidth_masked hsub _

/-- Every transfer of the chip succeeds from now on. -/
def Expander.Fine (x : Expander) : Prop := ∀ n, x.fates n = .done

/-- A transfer to a register. -/
def Smbus.IsRegister (args : Smbus) : Prop :=
  (∃ reg, args = .readByteData reg) ∨ ∃ reg value, args = .writeByteData reg value

theorem Expander.i2c_fine {x : Expander} (h : x.Fine) {args : Smbus} (hargs : args.IsRegister) :
    (x.i2c args).1.1 = 0 ∧ (x.i2c args).2.Fine := by
  have hdone := h 0
  rcases hargs with ⟨reg, rfl⟩ | ⟨reg, value, rfl⟩
  · simp only [Expander.i2c, hdone]
    exact ⟨trivial, fun n => h (n + 1)⟩
  · simp only [Expander.i2c, hdone]
    exact ⟨trivial, fun n => h (n + 1)⟩

section Expander

variable {ω δ β : Type} {chip : ChipId} {fh : Int} {address : BitVec 8} {cbError : CbError β}
  {s : DrvState δ β (Env Expander)}

variable (chip fh address cbError) in
theorem exchanges_fine {plan : List Smbus} (hplan : ∀ args ∈ plan, args.IsRegister)
    (h : s.world.os.Fine) :
    (exchanges (expanders.chipKernel chip) cbError fh address plan s).1.isSome = true ∧
      (exchanges (expanders.chipKernel chip) cbError fh address plan s).2.world.os.Fine := by
  induction plan generalizing s with
  | nil => exact ⟨rfl, h⟩
  | cons args rest ih =>
      obtain ⟨hok, hfine⟩ := Expander.i2c_fine h (hplan args (by simp))
      have hfirst : (exchange (expanders.chipKernel chip) cbError fh address args s).1.1 = 0 := hok
      have hfine' : (s.setOs (s.world.os.i2c args).2).world.os.Fine := hfine
      have hrest := ih (fun a ha => hplan a (List.mem_cons_of_mem _ ha)) hfine'
      rw [exchanges_cons_of_ok _ hfirst, exchange_expander]
      simpa using hrest

theorem directionPlan_isRegister (desiredState : Mcp23017IoState) :
    ∀ args ∈ directionPlan desiredState, args.IsRegister := by
  simp [directionPlan, Smbus.IsRegister]

theorem inputPlan_isRegister : ∀ args ∈ inputPlan, args.IsRegister := by
  simp [inputPlan, Smbus.IsRegister]

theorem outputPlan_isRegister (value : Value) :
    ∀ args ∈ outputPlan value, args.IsRegister := by
  simp [outputPlan, Smbus.IsRegister]

/-- What `mcp23017EnsureIo` leaves when no transfer fails. -/
structure EnsuredFine (s : DrvState δ β (Env Expander)) (cached desiredState : Mcp23017IoState)
    (e : Mcp23017IoState × DrvState δ β (Env Expander)) : Prop where
  state : e.1 = desiredState
  cache : e.2.dev.devData = some ⟨desiredState⟩
  buf : e.2.buf = s.buf
  fine : e.2.world.os.Fine
  levels : ∀ n, e.2.world.os.levels n =
    s.world.os.levels (n + if cached = desiredState then 0 else 2)
  directed : cached ≠ desiredState → e.2.world.os.Directed desiredState

variable (chip fh address cbError) in
theorem ensuredIo_fine {cached : Mcp23017IoState} (desiredState : Mcp23017IoState)
    (hdata : s.dev.devData = some ⟨cached⟩) (h : s.world.os.Fine) :
    EnsuredFine s cached desiredState
      (ensuredIo (expanders.chipKernel chip) cbError fh address cached desiredState s) := by
  have hstart : (s.setIoState .none).world.os.Fine := h
  obtain ⟨hsome, hfine⟩ := exchanges_fine chip fh address cbError
    (directionPlan_isRegister desiredState) hstart
  rcases ensuredIo_cases (expanders.chipKernel chip) cbError fh address cached desiredState s with
    ⟨hcached, heq⟩ | ⟨hcached, hok, heq⟩ | ⟨hcached, hnone, heq⟩
  · rw [heq]
    refine ⟨rfl, hcached ▸ hdata, rfl, h, ?_, absurd hcached⟩
    intro n
    rw [if_pos hcached, Nat.add_zero]
  · rw [heq]
    refine ⟨rfl, rfl, exchanges_buf _, hfine, ?_, fun _ => exchanges_directionPlan hok⟩
    intro n
    rw [if_neg hcached]
    exact exchanges_levels n hok
  · rw [hsome] at hnone
    cases hnone

section Driver

variable {bus : IoBus ω} {busData : I2cLinuxBusData} {devBusData : I2cLinuxDevData}
  {cached : Mcp23017IoState} (hbus : bus.busData = some busData)
  (hdev : s.dev.devBusData = some devBusData) (hdata : s.dev.devData = some ⟨cached⟩)
  (h : s.world.os.Fine) (cbError : CbError β) (value : Value)
include hbus hdev hdata h

/-- A read succeeds. It finds the levels outside the pins if the driver has
turned them to inputs for it. -/
theorem mcp23017Read_fine :
    ∃ value' t,
      mcp23017Read (expanders.chipKernel chip) cbError bus value s = .ok (1, value') t ∧
      t.dev.devData = some ⟨.read⟩ ∧ t.buf = s.buf ∧ t.world.os.Fine ∧
      (∀ n, t.world.os.levels n =
        s.world.os.levels (n + accessCount .mcp23017 cached .read)) ∧
      (cached ≠ .read → value' = (s.world.os.outside 2).setWidth 32) := by
  have hrun := mcp23017Read_run (expanders.chipKernel chip) cbError hdata hbus hdev value
  have hensured := ensuredIo_fine chip busData.fh devBusData.address cbError .read hdata h
  simp only at hrun
  generalize ensuredIo (expanders.chipKernel chip) cbError busData.fh devBusData.address
    cached .read s = e at hrun hensured
  obtain ⟨hsome, hfine⟩ := exchanges_fine chip busData.fh devBusData.address cbError
    inputPlan_isRegister hensured.fine
  rw [if_pos hensured.state] at hrun
  rcases exchanges_pair (expanders.chipKernel chip) cbError busData.fh devBusData.address
    (.readByteData Mcp23017.gpioa) (.readByteData Mcp23017.gpiob) e.2 with hnone | ⟨x, y, hpair⟩
  · rw [inputPlan, hnone] at hsome
    cases hsome
  · have hbytes : (exchanges (expanders.chipKernel chip) cbError busData.fh devBusData.address
        inputPlan e.2).1 = some [x, y] := hpair
    rw [hbytes] at hrun
    refine ⟨_, _, hrun, ?_, (exchanges_buf _).trans hensured.buf, hfine, ?_, ?_⟩
    · rw [exchanges_dev]
      exact hensured.cache
    · intro n
      rw [exchanges_levels n hsome, hensured.levels, accessCount]
      congr 1
      simp only [inputPlan, List.length_cons, List.length_nil]
      omega
    · intro hcached
      obtain ⟨a, b, heq, hanswers⟩ := exchanges_answers hbytes
      obtain ⟨rfl, rfl⟩ : x = a ∧ y = b := by simpa using heq
      obtain ⟨rfl, rfl⟩ := hanswers.levels (hensured.directed hcached)
      simp only [Expander.outside, hensured.levels, if_neg hcached,
        BitVec.setWidth_append_eq_shiftLeft_setWidth_or]
      rw [BitVec.or_comm]

theorem mcp23017Write_fine :
    ∃ t, mcp23017Write (expanders.chipKernel chip) cbError bus value s = .ok 1 t ∧
      t.dev.devData = some ⟨.write⟩ ∧ t.buf = s.buf ∧ t.world.os.Fine ∧
      ∀ n, t.world.os.levels n =
        s.world.os.levels (n + accessCount .mcp23017 cached .write) := by
  have hrun := mcp23017Write_run (expanders.chipKernel chip) cbError hdata hbus hdev value
  have hensured := ensuredIo_fine chip busData.fh devBusData.address cbError .write hdata h
  simp only at hrun
  generalize ensuredIo (expanders.chipKernel chip) cbError busData.fh devBusData.address
    cached .write s = e at hrun hensured
  obtain ⟨hsome, hfine⟩ := exchanges_fine chip busData.fh devBusData.address cbError
    (outputPlan_isRegister value) hensured.fine
  rw [if_pos hensured.state, if_pos hsome] at hrun
  refine ⟨_, hrun, ?_, (exchanges_buf _).trans hensured.buf, hfine, ?_⟩
  · rw [exchanges_dev]
    exact hensured.cache
  · intro n
    rw [exchanges_levels n hsome, hensured.levels, accessCount]
    congr 1
    simp only [outputPlan, List.length_cons, List.length_nil]
    omega

end Driver

end Expander

/-- The device in `slot` is an expander with this cached direction and in this
state, and alone on its system. -/
structure FineExpander (slot : Slot) (chip : ChipId) (a : Mcp23017IoState × Expander)
    (t : Daemon (List Event) Expander) : Prop where
  wired : Wired expanders t.config t.world.spi slot .mcp23017 chip
  hasSlot : t.config.HasSlot slot
  cached : (t.config.devices slot).devData = some ⟨a.1⟩
  os : t.world.os = a.2
  fine : a.2.Fine

/-- An access that turned the pins in this direction first, unless they were. -/
def Accesses (desiredState : Mcp23017IoState) (a a' : Mcp23017IoState × Expander) : Prop :=
  a'.1 = desiredState ∧
    ∀ n, a'.2.levels n = a.2.levels (n + accessCount .mcp23017 a.1 desiredState)

section FineExpander

variable {slot : Slot} {chip : ChipId} {a : Mcp23017IoState × Expander}
  {s : Daemon (List Event) Expander} (h : FineExpander slot chip a s)
include h

/-- A driver call that leaves the wiring alone leads to another such state. -/
theorem FineExpander.store {u : DrvState DevHandle (List Event) (Env Expander)}
    {calls : List DrvCall} {fh : Int} {address : BitVec 8} {lo : Nat} {state : Mcp23017IoState}
    (htalked : Talked (expanders.chipKernel chip) fh address lo (s.drvState slot) u)
    (hcache : u.dev.devData = some ⟨state⟩) (hfine : u.world.os.Fine) :
    FineExpander slot chip (state, u.world.os) (Sys.storeDrv { s with calls := calls } slot u) := by
  refine ⟨?_, h.hasSlot, ?_, rfl, hfine⟩
  · have hspi : u.world.spi = s.world.spi := htalked.spi
    have hwiring : (s.config.devices slot).SameWiring
        ((s.config.setDev slot u.dev).devices slot) := by
      rw [IoConfig.devices_setDev]
      exact htalked.wiring
    simp only [Sys.storeDrv, hspi]
    exact h.wired.transfer (IoConfig.busses_setDev _ _ _) hwiring
  · simp only [Sys.storeDrv, IoConfig.devices_setDev]
    exact hcache

theorem FineExpander.read {r : Request} (hr : r.slot = slot) :
    ∃ value a' t, drvRead (devDrv (expanders.chipKernel chip)) recorder r.data s =
        .ok (1, value) t ∧ t.buf = s.buf ∧
      (Accesses .read a a' ∧ (a.1 ≠ .read → value = (a.2.outside 2).setWidth 32)) ∧
      FineExpander slot chip a' t := by
  subst hr
  cases h.wired with
  | @mcp23017 busData devBusData hdrv hdata hbus hdev =>
      have hfine : (s.drvState r.slot).world.os.Fine := by
        have := h.fine
        rwa [← h.os] at this
      obtain ⟨value, u, hrun, hcache, hbuf, hfine', hlevels, hvalue⟩ :=
        mcp23017Read_fine hbus (s := s.drvState r.slot) hdev h.cached hfine recorder.error r.value
      obtain ⟨_, u', hrun', htalked⟩ := read_talked (t := s.drvState r.slot)
        (.mcp23017 h.cached hbus hdev rfl rfl) recorder.error r.value
      obtain ⟨-, rfl⟩ := EStateM.Result.ok.inj (hrun.symm.trans hrun')
      refine ⟨value, _, _, (callDrv_slot _ r.slot _ _ hdrv).trans (onDevice_of_ok hrun), hbuf,
        ⟨⟨rfl, ?_⟩, ?_⟩, h.store htalked hcache hfine'⟩
      · rw [← h.os]
        exact hlevels
      · rw [← h.os]
        exact hvalue

theorem FineExpander.write {r : Request} (hr : r.slot = slot) (value : Value) :
    ∃ a' t, drvWrite (devDrv (expanders.chipKernel chip)) recorder r.data value s = .ok 1 t ∧
      t.buf = s.buf ∧ Accesses .write a a' ∧ FineExpander slot chip a' t := by
  subst hr
  cases h.wired with
  | @mcp23017 busData devBusData hdrv hdata hbus hdev =>
      have hfine : (s.drvState r.slot).world.os.Fine := by
        have := h.fine
        rwa [← h.os] at this
      obtain ⟨u, hrun, hcache, hbuf, hfine', hlevels⟩ :=
        mcp23017Write_fine hbus (s := s.drvState r.slot) hdev h.cached hfine recorder.error value
      obtain ⟨_, u', hrun', htalked⟩ := write_talked (t := s.drvState r.slot)
        (.mcp23017 h.cached hbus hdev rfl rfl) recorder.error value
      obtain ⟨-, rfl⟩ := EStateM.Result.ok.inj (hrun.symm.trans hrun')
      refine ⟨_, _, (callDrv_slot _ r.slot _ _ hdrv).trans (onDevice_of_ok hrun), hbuf, ⟨rfl, ?_⟩,
        h.store htalked hcache hfine'⟩
      rw [← h.os]
      exact hlevels

end FineExpander

theorem fineExpander_dependable (slot : Slot) (chip : ChipId) :
    Dependable (devDrv (expanders.chipKernel chip)) slot (FineExpander slot chip)
      (fun a value a' => Accesses .read a a' ∧
        (a.1 ≠ .read → value = (a.2.outside 2).setWidth 32))
      (fun a _ a' => Accesses .write a a') where
  hasSlot _ _ h := h.hasSlot
  unseen _ _ _ _ h := ⟨h.wired, h.hasSlot, h.cached, h.os, h.fine⟩
  read _ _ _ hr h := h.read hr
  write _ _ _ value hr h := h.write hr value

/-- A `SET` leaves the pins as outputs, after the transfers it plans. -/
theorem fineExpander_sets {r : Request} (hset : r.isSet = true) {a a' : Mcp23017IoState × Expander}
    (h : r.Sets (fun a value a' => Accesses .read a a' ∧
        (a.1 ≠ .read → value = (a.2.outside 2).setWidth 32))
      (fun a _ a' => Accesses .write a a') a a') :
    a'.1 = .write ∧ ∀ n, a'.2.levels n = a.2.levels (n + plannedCount .mcp23017 a.1 r) := by
  unfold Request.Sets at h
  unfold plannedCount
  rw [if_pos hset]
  cases hsub : r.subDev with
  | none =>
      simp only [hsub] at h
      exact h
  | some i =>
      simp only [hsub] at h
      obtain ⟨value, a₁, ⟨⟨hread, hlevels⟩, -⟩, hwrite, hlevels'⟩ := h
      refine ⟨hwrite, ?_⟩
      intro n
      rw [hlevels', hlevels, hread]
      simp only [Nat.add_assoc, Nat.add_comm]

/-- The `GET` reads the pins, two transfers later. -/
theorem outside_of_shift {x y : Expander} {k : Nat} (h : ∀ n, y.levels n = x.levels (n + k)) :
    y.outside 2 = x.outside (k + 2) := by
  have hnext : 2 + 1 + k = k + 2 + 1 := by omega
  simp only [Expander.outside, h]
  rw [hnext, Nat.add_comm 2 k]

theorem Wired.devData {σ : Type} {P : Population ChipId σ} {config : IoConfig BusHandle DevHandle}
    {spi : SpiHandle} {slot : Slot} {chip : ChipId}
    (hw : Wired P config spi slot .mcp23017 chip) : (config.devices slot).devData.isSome := by
  cases hw with
  | mcp23017 _ hdata _ _ => exact hdata

/-- A `SET` and the `GET` right after it are served, and are honest under exactly this
condition. -/
def HonestIff {W : Type} (table : DevHandle → DevDrv BusHandle DevHandle (List Event) W)
    (r : Request) (width : Nat) (s : Sys BusHandle DevHandle (List Event) W) (c : Prop) : Prop :=
  ∃ set s₁ get s₂, serveRequest table recorder [] r s = .ok set s₁ ∧
    serveRequest table recorder [] r.readBack s₁ = .ok get s₂ ∧ (Honest r width set get ↔ c)

/-- The levels outside the pins, as the `GET` after the `SET` samples them, read as the
value of the `SET`. -/
def SampledAs (chipOf : Slot → ChipId) (r : Request) (s : Rack (List Event) ChipId Expander) :
    Prop :=
  let samples := plannedCount .mcp23017 (s.config.devices r.slot).ioState r + 2
  r.picked (((s.chips (chipOf r.slot)).outside samples).setWidth 32) = r.value

section HonestIff

variable {chipOf : Slot → ChipId} {r : Request} (hset : r.isSet = true)
include hset

/-- On a latch, a PCF8574 or a PiFace. -/
theorem latch_honestIff {s : Rack (List Event) ChipId Latch} (h : LatchRack chipOf s)
    (hslot : s.config.HasSlot r.slot) (hfine : (s.chips (chipOf r.slot)).Fine) :
    HonestIff (devDrv latches.kernel) r 8 s (FitsLatch r) := by
  obtain ⟨handle, hw⟩ := h.populated.wired r.slot hslot
  have hstart : FineLatch r.slot (chipOf r.slot) (s.chips (chipOf r.slot)).value
      (s.alone r.slot (chipOf r.slot)) :=
    ⟨⟨handle, h.isLatch r.slot handle hslot hw.drvHandle, hw.alone⟩, hslot, rfl, hfine⟩
  obtain ⟨set, s₁, get, s₂, latch, value, _, hrun, hrun', hsets, ⟨rfl, -⟩, hack⟩ :=
    acknowledged_of_dependable h.populated (fineLatch_dependable _ _) hset hslot hstart
  refine ⟨set, s₁, get, s₂, hrun, hrun', ?_⟩
  rw [hack.honest_iff, Request.picked_latch, fineLatch_sets hsets]
  exact reads_apply_iff r _

theorem expander_honestIff {s : Rack (List Event) ChipId Expander}
    (h : Populated expanders chipOf s) (hslot : s.config.HasSlot r.slot)
    (hdrv : (s.config.devices r.slot).drvHandle = some .mcp23017)
    (hfine : (s.chips (chipOf r.slot)).Fine) :
    HonestIff (devDrv expanders.kernel) r 16 s (SampledAs chipOf r s) := by
  obtain ⟨handle, hw⟩ := h.wired r.slot hslot
  obtain rfl := Option.some.inj (hw.drvHandle.symm.trans hdrv)
  obtain ⟨data, hdata⟩ := Option.isSome_iff_exists.mp hw.devData
  have hstate : (s.config.devices r.slot).ioState = data.ioState := by
    simp only [IoDev.ioState, hdata]
  have hstart : FineExpander r.slot (chipOf r.slot)
      (data.ioState, s.chips (chipOf r.slot)) (s.alone r.slot (chipOf r.slot)) := by
    refine ⟨hw.alone, hslot, ?_, rfl, hfine⟩
    simp only [Sys.alone, Function.update_self]
    exact hdata
  obtain ⟨set, s₁, get, s₂, a, value, _, hrun, hrun', hsets, ⟨-, hvalue⟩, hack⟩ :=
    acknowledged_of_dependable h (fineExpander_dependable _ _) hset hslot hstart
  obtain ⟨hwrite, hlevels⟩ := fineExpander_sets hset hsets
  have hread := hvalue (by rw [hwrite]; decide)
  rw [outside_of_shift hlevels] at hread
  subst hread
  refine ⟨set, s₁, get, s₂, hrun, hrun', ?_⟩
  rw [hack.honest_iff, SampledAs, hstate]

end HonestIff

/-- Among latches a `SET` that a `GET` follows is honest exactly if its value fits
the output it is for, and among expanders exactly if the levels outside the pins
read as that value when the `GET` samples them. -/
theorem set_then_get_honest_iff {r : Request} (hset : r.isSet = true) :
    (∀ {chipOf : Slot → ChipId} {s : Rack (List Event) ChipId Latch},
      LatchRack chipOf s → s.config.HasSlot r.slot → (s.chips (chipOf r.slot)).Fine →
        HonestIff (devDrv latches.kernel) r 8 s (FitsLatch r)) ∧
    ∀ {chipOf : Slot → ChipId} {s : Rack (List Event) ChipId Expander},
      Populated expanders chipOf s → s.config.HasSlot r.slot →
      (s.config.devices r.slot).drvHandle = some .mcp23017 → (s.chips (chipOf r.slot)).Fine →
        HonestIff (devDrv expanders.kernel) r 16 s (SampledAs chipOf r s) :=
  ⟨latch_honestIff hset, expander_honestIff hset⟩

/-- `expanderConfig` initialised, with all levels low and no fault ahead. -/
def readyRack : Rack (List Event) ChipId Expander :=
  { expanderRack .done [] with
    config := { expanderConfig with
      devices := fun slot => { expanderConfig.devices slot with devData := some ⟨.none⟩ } } }

theorem readyRack_populated : Populated expanders ioExtChip readyRack := by
  constructor
  · intro slot hslot
    have hslot' : ioExtI2c.HasSlot slot := hslot
    rcases ioExtI2c_slots hslot' with rfl | rfl
    · exact ⟨_, @Wired.mcp23017 _ _ expanders _ _ _ ioExtBus ⟨0x20⟩ rfl rfl rfl rfl⟩
    · exact ⟨_, @Wired.mcp23017 _ _ expanders _ _ _ ioExtBus ⟨0x38⟩ rfl rfl rfl rfl⟩
  · intro slot other hslot hother
    have hslot' : ioExtI2c.HasSlot slot := hslot
    have hother' : ioExtI2c.HasSlot other := hother
    rcases ioExtI2c_slots hslot' with rfl | rfl <;>
      rcases ioExtI2c_slots hother' with rfl | rfl <;> decide

/-- A PCF8574 and the PiFace of `config/io_ext.ini`, and an MCP23017. -/
theorem set_then_get_honest_iff_each :
    HonestIff (devDrv latches.kernel) ⟨(0, 0), some 3, true, 1⟩ 8 (ioExtRack [])
        (FitsLatch ⟨(0, 0), some 3, true, 1⟩) ∧
      HonestIff (devDrv latches.kernel) ⟨(1, 0), none, true, 0xFF⟩ 8 (ioExtRack [])
        (FitsLatch ⟨(1, 0), none, true, 0xFF⟩) ∧
      HonestIff (devDrv expanders.kernel) ⟨(0, 0), some 3, true, 1⟩ 16 readyRack
        (SampledAs ioExtChip ⟨(0, 0), some 3, true, 1⟩ readyRack) :=
  ⟨(set_then_get_honest_iff rfl).1 (flakyRack_latchRack _) (by decide) fun _ => rfl,
    (set_then_get_honest_iff rfl).1 (flakyRack_latchRack _) (by decide) fun _ => rfl,
    (set_then_get_honest_iff rfl).2 readyRack_populated (by decide) rfl fun _ => rfl⟩

/-- A PCF8574 acknowledges 0x1FF and is then read as 0xFF. -/
theorem nine_bits_acknowledged :
    ∃ set s₁ get s₂,
      serveRequest (devDrv latches.kernel) recorder [] ⟨(0, 0), none, true, 0x1FF⟩
        (ioExtRack []) = .ok set s₁ ∧
      serveRequest (devDrv latches.kernel) recorder []
        (Request.readBack ⟨(0, 0), none, true, 0x1FF⟩) s₁ = .ok get s₂ ∧
      ¬ Honest ⟨(0, 0), none, true, 0x1FF⟩ 8 set get := by
  have hruns : yields (serveRequest (devDrv latches.kernel) recorder []
      ⟨(0, 0), none, true, 0x1FF⟩) (ioExtRack []) (fun set s₁ =>
        yields (serveRequest (devDrv latches.kernel) recorder []
          (Request.readBack ⟨(0, 0), none, true, 0x1FF⟩)) s₁ fun get _ =>
        set.content = [.success ⟨0, 0, idxInvalid, 0x1FF⟩] ∧
          get.content = [.success ⟨0, 0, idxInvalid, 0xFF⟩]) = true := by
    decide +kernel
  obtain ⟨set, s₁, hset, hruns⟩ := exists_of_yields hruns
  obtain ⟨get, s₂, hget, htest⟩ := exists_of_yields hruns
  obtain ⟨htold, hread⟩ := of_decide_eq_true htest
  refine ⟨set, s₁, get, s₂, hset, hget, ?_⟩
  intro hhonest
  have htells : set.Tells 0x1FF := ⟨⟨0, 0, idxInvalid, 0x1FF⟩, by rw [htold]; rfl, rfl⟩
  obtain ⟨data, hlast, hvalue⟩ := hhonest.echo 0x1FF htells
  rw [hread] at hlast
  obtain rfl := Event.success.inj (Option.some.inj hlast)
  exact absurd hvalue (by decide)

end Switcher
