import Switcher.Service.Bounds

/-!
Sub-device indices that name no bit of a value. `perform_io` tests the range of
the index in one of its branches only, and there behind the driver call.
-/

namespace Switcher

open Lib.Program

variable {ω δ β W : Type}

/-- The index names a sub-device, but none of the bits of a value. -/
def OutsideValue (idxSubDev : Int) : Prop :=
  idxSubDev ≠ idxInvalid ∧ ¬ (0 ≤ idxSubDev ∧ idxSubDev < 32)

def DrvCall.isWrite : DrvCall → Bool
  | .read _ _ => false
  | .write _ _ => true

/-- Nothing has been written to a device on the way from `s` to `t`. -/
def NoWrite (s t : Sys ω δ β W) : Prop :=
  ∃ calls, t.calls = s.calls ++ calls ∧ calls.any DrvCall.isWrite = false

/-- What is asked of a request that is not served: an error object as the reply,
no driver write, `EXIT_FAILURE`, and all that whatever `cb_success` would do, for
it is not invoked. -/
def Rebuffed (table : δ → DevDrv ω δ β W) (error : CbError β) (data : IoData) (cmd : IoCmd)
    (s : Sys ω δ β W) : Prop :=
  ∃ data' t,
    (∀ success, performIo table ⟨success, error⟩ data cmd s = .ok (exitFailure, data') t) ∧
      (∃ msg buf, t.buf = error msg buf) ∧ NoWrite s t

/-- The device has a driver, and its read answers zero or less. -/
def ReadRefused (table : δ → DevDrv ω δ β W) (error : CbError β) (slot : Slot) (value : Value)
    (s : Sys ω δ β W) : Prop :=
  ∃ handle numRead value' t, (s.config.devices slot).drvHandle = some handle ∧
    (table handle).read error (s.config.busses slot.1) value (s.drvState slot) =
      .ok (numRead, value') t ∧ numRead ≤ 0

section Slot

variable {table : δ → DevDrv ω δ β W} {cb : Callbacks β} {slot : Slot} {s : Sys ω δ β W}

theorem onDevice_of_error {α : Type} {act : IoBus ω → DrvM δ β W α} {e : Fault}
    {t : DrvState δ β W} (h : act (s.config.busses slot.1) (s.drvState slot) = .error e t) :
    onDevice slot act s = .error e (s.storeDrv slot t) := by
  simp only [onDevice, h]

/-- A request for `slot`, with any sub-device index. -/
def slotData (slot : Slot) (idxSubDev : Int) (value : Value) : IoData :=
  ⟨slot.1.val, slot.2.val, idxSubDev, value⟩

/-- An index names one of the outputs of a value, or the whole value, or nothing. -/
theorem request_or_outside (slot : Slot) (idxSubDev : Int) (value : Value) :
    (∃ r : Request, r.slot = slot ∧ r.data = slotData slot idxSubDev value) ∨
      OutsideValue idxSubDev := by
  by_cases hinvalid : idxSubDev = idxInvalid
  · exact .inl ⟨⟨slot, none, false, value⟩, rfl, by rw [hinvalid]; rfl⟩
  · by_cases hrange : 0 ≤ idxSubDev ∧ idxSubDev < 32
    · have hlt : idxSubDev.toNat < 32 := by omega
      have hidx : ((idxSubDev.toNat : Nat) : Int) = idxSubDev := Int.toNat_of_nonneg hrange.1
      refine .inl ⟨⟨slot, some ⟨idxSubDev.toNat, hlt⟩, false, value⟩, rfl, ?_⟩
      simp only [Request.data, Request.idxSubDev, slotData, hidx]
    · exact .inr ⟨hinvalid, hrange⟩

variable (table cb) in
theorem performIo_slot (hslot : s.config.HasSlot slot) (idxSubDev : Int) (value : Value)
    {cmd : IoCmd} (hcmd : cmd = .write ∨ cmd = .read) :
    performIo table cb (slotData slot idxSubDev value) cmd s =
      (if cmd = .write then performWrite table cb (slotData slot idxSubDev value)
        else performRead table cb (slotData slot idxSubDev value)) s := by
  have hdev : ¬ ((slotData slot idxSubDev value).idxDev = idxInvalid ∨
      (slotData slot idxSubDev value).idxDev ≥ (s.config.busses slot.1).numDevices) := by
    have := hslot.2
    simp only [slotData, idxInvalid]
    omega
  have hbus : (slotData slot idxSubDev value).idxBus = slot.1.val := rfl
  rw [performIo_knownBus hbus hslot.1, if_neg hdev]
  rcases hcmd with rfl | rfl
  · rfl
  · rfl

/-- The process after the driver call that reads the device in `slot`. -/
def Sys.afterRead (s : Sys ω δ β W) (slot : Slot) (t : DrvState δ β W) : Sys ω δ β W :=
  Sys.storeDrv { s with calls := s.calls ++ [.read slot.1.val slot.2.val] } slot t

section Driver

variable (cb) {handle : δ} (hdrv : (s.config.devices slot).drvHandle = some handle)
  (idxSubDev : Int) {value : Value} {t : DrvState δ β W}
include hdrv

theorem drvRead_of_ok {a : Int × Value}
    (hread : (table handle).read cb.error (s.config.busses slot.1) value (s.drvState slot) =
      .ok a t) :
    drvRead table cb (slotData slot idxSubDev value) s = .ok a (s.afterRead slot t) :=
  (callDrv_slot table slot (.read slot.1.val slot.2.val)
    (fun drv bus => drv.read cb.error bus value) hdrv).trans (onDevice_of_ok hread)

theorem drvRead_of_error {e : Fault}
    (hread : (table handle).read cb.error (s.config.busses slot.1) value (s.drvState slot) =
      .error e t) :
    drvRead table cb (slotData slot idxSubDev value) s = .error e (s.afterRead slot t) :=
  (callDrv_slot table slot (.read slot.1.val slot.2.val)
    (fun drv bus => drv.read cb.error bus value) hdrv).trans (onDevice_of_error hread)

end Driver

/-- A value is read from the device in `slot`, or its read fails, or something is
amiss that no driver should meet. -/
inductive ReadOutcome (table : δ → DevDrv ω δ β W) (cb : Callbacks β) (slot : Slot)
    (idxSubDev : Int) (value : Value) (s : Sys ω δ β W) : Prop
  | fault (e : Fault) (t : Sys ω δ β W)
      (hrun : drvRead table cb (slotData slot idxSubDev value) s = .error e t)
      (hrefused : ¬ ReadRefused table cb.error slot value s)
  | refused (numRead : Int) (value' : Value) (t : DrvState δ β W)
      (hrun : drvRead table cb (slotData slot idxSubDev value) s =
        .ok (numRead, value') (s.afterRead slot t))
      (hnum : numRead ≤ 0) (hrefused : ReadRefused table cb.error slot value s)
  | done (numRead : Int) (value' : Value) (t : DrvState δ β W)
      (hrun : drvRead table cb (slotData slot idxSubDev value) s =
        .ok (numRead, value') (s.afterRead slot t))
      (hnum : 0 < numRead) (hrefused : ¬ ReadRefused table cb.error slot value s)

theorem readOutcome (table : δ → DevDrv ω δ β W) (cb : Callbacks β) (slot : Slot)
    (idxSubDev : Int) (value : Value) (s : Sys ω δ β W) :
    ReadOutcome table cb slot idxSubDev value s := by
  cases hdrv : (s.config.devices slot).drvHandle with
  | none =>
      refine .fault _ _ (callDrv_null table slot (.read slot.1.val slot.2.val) _ hdrv) ?_
      rintro ⟨handle, _, _, _, hsome, -⟩
      cases hdrv.symm.trans hsome
  | some handle =>
      cases hread : (table handle).read cb.error (s.config.busses slot.1) value
          (s.drvState slot) with
      | error e t =>
          refine .fault e _ (drvRead_of_error cb hdrv idxSubDev hread) ?_
          rintro ⟨handle', numRead, value', u, hsome, hok, -⟩
          obtain rfl := Option.some.inj (hdrv.symm.trans hsome)
          cases hread.symm.trans hok
      | ok a t =>
          obtain ⟨numRead, value'⟩ := a
          have hrun := drvRead_of_ok cb hdrv idxSubDev hread
          by_cases hnum : numRead ≤ 0
          · exact .refused numRead value' t hrun hnum
              ⟨handle, numRead, value', t, hdrv, hread, hnum⟩
          · refine .done numRead value' t hrun (by omega) ?_
            rintro ⟨handle', numRead', value'', u, hsome, hok, hnum'⟩
            obtain rfl := Option.some.inj (hdrv.symm.trans hsome)
            obtain ⟨heq, -⟩ := EStateM.Result.ok.inj (hread.symm.trans hok)
            obtain ⟨rfl, -⟩ := Prod.mk.inj heq
            exact hnum hnum'

section Refused

variable {idxSubDev : Int} {value value' : Value} {numRead : Int} {t : Sys ω δ β W}
  (hrun : drvRead table cb (slotData slot idxSubDev value) s = .ok (numRead, value') t)
  (hnum : numRead ≤ 0)
include hrun hnum

theorem performWrite_refused (hsub : idxSubDev ≠ idxInvalid) :
    performWrite table cb (slotData slot idxSubDev value) s =
      .ok (exitFailure, slotData slot idxSubDev value)
        { t with buf := cb.error "Could not read from device.".toList t.buf } := by
  have hidx : (slotData slot idxSubDev value).idxSubDev ≠ idxInvalid := hsub
  unfold performWrite
  rw [if_pos hidx, bind_of_ok hrun]
  simp only [if_pos hnum]
  rfl

theorem performRead_refused :
    performRead table cb (slotData slot idxSubDev value) s =
      .ok (exitSuccess, slotData slot idxSubDev value') t := by
  have hread : ¬ numRead > 0 := by omega
  unfold performRead
  rw [bind_of_ok hrun]
  simp only [if_neg hread]
  rfl

end Refused

theorem shiftOne_outside {idxSubDev : Int} (hout : OutsideValue idxSubDev)
    (s : Sys ω δ β W) : shiftOne idxSubDev s = .error .badShift s := by
  unfold shiftOne
  rw [if_neg hout.2]
  rfl

section Outside

variable {idxSubDev : Int} (hout : OutsideValue idxSubDev) {value value' : Value} {numRead : Int}
  {t : Sys ω δ β W}
include hout

/-- The write replaces no bit: it stops with an error where the read fails, and
shifts by the index where it does not. -/
theorem performWrite_outside
    (hrun : drvRead table cb (slotData slot idxSubDev value) s = .ok (numRead, value') t) :
    performWrite table cb (slotData slot idxSubDev value) s =
      if numRead ≤ 0 then
        .ok (exitFailure, slotData slot idxSubDev value)
          { t with buf := cb.error "Could not read from device.".toList t.buf }
      else
        .error .badShift t := by
  have hidx : (slotData slot idxSubDev value).idxSubDev ≠ idxInvalid := hout.1
  by_cases hnum : numRead ≤ 0
  · rw [if_pos hnum]
    exact performWrite_refused hrun hnum hout.1
  · unfold performWrite
    rw [if_pos hidx, bind_of_ok hrun]
    simp only [if_neg hnum]
    exact bind_of_error (shiftOne_outside hout t)

theorem performWrite_outside_fault {e : Fault}
    (hrun : drvRead table cb (slotData slot idxSubDev value) s = .error e t) :
    performWrite table cb (slotData slot idxSubDev value) s = .error e t := by
  have hidx : (slotData slot idxSubDev value).idxSubDev ≠ idxInvalid := hout.1
  unfold performWrite
  rw [if_pos hidx]
  exact bind_of_error hrun

/-- The read reports the error, and then success over it. -/
theorem performRead_outside
    (hrun : drvRead table cb (slotData slot idxSubDev value) s = .ok (numRead, value') t) :
    performRead table cb (slotData slot idxSubDev value) s =
      .ok (exitSuccess, slotData slot idxSubDev value')
        (if 0 < numRead then
          { t with
            buf := cb.success (slotData slot idxSubDev value')
              (cb.error "Invalid sub device-index given.".toList t.buf) }
        else t) := by
  have hidx : (slotData slot idxSubDev value).idxSubDev ≠ idxInvalid := hout.1
  have hrange : ¬ (0 ≤ (slotData slot idxSubDev value).idxSubDev ∧
      (slotData slot idxSubDev value).idxSubDev < 32) := hout.2
  by_cases hnum : numRead > 0
  · rw [if_pos hnum]
    unfold performRead
    rw [bind_of_ok hrun]
    simp only [if_pos hnum, if_pos hidx, if_neg hrange]
    rfl
  · rw [if_neg hnum]
    exact performRead_refused hrun (by omega)

end Outside

/-- A sub-device index outside a value is rebuffed in the one case that the
device's read fails before a write; a read never rebuffs it. -/
theorem outside_rebuffed_iff {error : CbError β} (hslot : s.config.HasSlot slot)
    {idxSubDev : Int} (hout : OutsideValue idxSubDev) (value : Value) {cmd : IoCmd}
    (hcmd : cmd = .write ∨ cmd = .read) :
    Rebuffed table error (slotData slot idxSubDev value) cmd s ↔
      cmd = .write ∧ ReadRefused table error slot value s := by
  have hperform (cb : Callbacks β) :
      performIo table cb (slotData slot idxSubDev value) cmd s = _ :=
    performIo_slot table cb hslot idxSubDev value hcmd
  constructor
  · rintro ⟨data', t, hall, -⟩
    have hrun := (hperform ⟨fun _ b => b, error⟩).symm.trans (hall _)
    rcases readOutcome table ⟨fun _ b => b, error⟩ slot idxSubDev value s with
      ⟨e, u, hread, -⟩ | ⟨numRead, value', u, hread, hnum, hrefused⟩ |
      ⟨numRead, value', u, hread, hnum, -⟩
    · rcases hcmd with rfl | rfl
      · rw [if_pos rfl, performWrite_outside_fault hout hread] at hrun
        cases hrun
      · rw [if_neg (by simp), performRead, bind_of_error hread] at hrun
        cases hrun
    · rcases hcmd with rfl | rfl
      · exact ⟨rfl, hrefused⟩
      · rw [if_neg (by simp), performRead_outside hout hread] at hrun
        obtain ⟨hcode, -⟩ := EStateM.Result.ok.inj hrun
        cases hcode
    · rcases hcmd with rfl | rfl
      · rw [if_pos rfl, performWrite_outside hout hread, if_neg (by omega)] at hrun
        cases hrun
      · rw [if_neg (by simp), performRead_outside hout hread] at hrun
        obtain ⟨hcode, -⟩ := EStateM.Result.ok.inj hrun
        cases hcode
  · rintro ⟨rfl, handle, numRead, value', u, hdrv, hread, hnum⟩
    refine ⟨slotData slot idxSubDev value,
      { s.afterRead slot u with buf := error "Could not read from device.".toList u.buf }, ?_,
      ⟨_, _, rfl⟩, [.read slot.1.val slot.2.val], rfl, rfl⟩
    intro success
    rw [hperform, if_pos rfl, performWrite_outside hout (drvRead_of_ok _ hdrv idxSubDev hread),
      if_pos hnum]
    rfl

end Slot

/-- A driver that cannot read its device. -/
def deafDrv : DevDrv BusHandle DevHandle (List Event) Unit where
  init := none
  read _ _ value := pure (0, value)
  write _ _ _ := pure 1
  deinit := none

theorem outside_rebuffed_iff_deaf :
    Rebuffed (fun _ => deafDrv) recorder.error (slotData (0, 1) 32 1) .write ioExtIdle ↔
      IoCmd.write = .write ∧
        ReadRefused (fun _ => deafDrv) recorder.error (0, 1) 1 ioExtIdle :=
  outside_rebuffed_iff (by decide) (by unfold OutsideValue; decide) 1 (.inl rfl)

/-- Reading output 40 of a device is answered with the state of all of them. -/
theorem read_outside_succeeds :
    ioExtIdle.config.HasSlot (0, 1) ∧ OutsideValue 40 ∧
      ¬ Rebuffed (fun _ => obligingDrv) recorder.error (slotData (0, 1) 40 0) .read
        ioExtIdle := by
  refine ⟨by decide, by unfold OutsideValue; decide, ?_⟩
  rintro ⟨data', t, hall, -⟩
  have hcode : exitSuccess = exitFailure :=
    congrArg Prod.fst (EStateM.Result.ok.inj (hall recorder.success)).1
  cases hcode

end Switcher
