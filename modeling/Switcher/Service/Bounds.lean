import Switcher.Driver.Table
import Switcher.Http.Handler

/-!
Which driver `perform_io` reaches for which pair of indices. The guards compare
with the sentinel and the counts only, so an index below the sentinel passes
them, unless the other index is the sentinel itself.
-/

namespace Switcher

open Lib.Program Lib.Text

variable {ω δ β W α : Type}

/-- The counts of the configuration fit its tables. -/
structure IoConfig.Bounded (config : IoConfig ω δ) : Prop where
  busses : 0 ≤ config.numBusses ∧ config.numBusses ≤ maxBusses
  devices : ∀ bus, 0 ≤ (config.busses bus).numDevices ∧
    (config.busses bus).numDevices ≤ maxIoDevices

/-- `idxBus` and `idxDev` name a configured device. -/
def IoConfig.InRange (config : IoConfig ω δ) (idxBus idxDev : Int) : Prop :=
  ∃ bus : Fin maxBusses, idxBus = bus.val ∧ idxBus < config.numBusses ∧
    0 ≤ idxDev ∧ idxDev < (config.busses bus).numDevices

section Branches

variable {table : δ → DevDrv ω δ β W} {cb : Callbacks β} {data : IoData}
  {I : Sys ω δ β W → Prop}

theorem busIndex_keeps (idx : Int) : Keeps I (busIndex idx) := by
  unfold busIndex
  by_cases h : 0 ≤ idx ∧ idx < maxBusses
  · rw [dif_pos h]
    exact Keeps.pure _
  · rw [dif_neg h]
    exact Keeps.throw _

theorem devIndex_keeps (idx : Int) : Keeps I (devIndex idx) := by
  unfold devIndex
  by_cases h : 0 ≤ idx ∧ idx < maxIoDevices
  · rw [dif_pos h]
    exact Keeps.pure _
  · rw [dif_neg h]
    exact Keeps.throw _

theorem final_onDevice (slot : Slot) (act : IoBus ω → DrvM δ β W α) (s : Sys ω δ β W) :
    final (onDevice slot act) s =
      s.storeDrv slot (final (act (s.config.busses slot.1)) (s.drvState slot)) := by
  simp only [final, onDevice]
  cases act (s.config.busses slot.1) (s.drvState slot) with
  | ok a t => rfl
  | error e t => rfl

theorem shiftOne_keeps (idx : Int) : Keeps I (shiftOne idx) :=
  Keeps.ite (Keeps.pure _) (Keeps.throw _)

variable (hreply : ∀ f : β → β,
  Keeps I (modify fun t => { t with buf := f t.buf } : SysM ω δ β W Unit))
include hreply

theorem answered_keeps (f : β → β) (result : Int × IoData) :
    Keeps I (do modify fun t => { t with buf := f t.buf }
                return result : SysM ω δ β W (Int × IoData)) :=
  (hreply f).bind fun _ => Keeps.pure _

/-- A write to a device keeps what its driver calls and the replies keep. -/
theorem performWrite_keeps (hread : Keeps I (drvRead table cb data))
    (hwrite : ∀ value, Keeps I (drvWrite table cb data value)) :
    Keeps I (performWrite table cb data) := by
  have hvalue (value : Value) : Keeps I (writeValue table cb data value) :=
    (hwrite value).bind fun _ => Keeps.ite (answered_keeps hreply _ _) (Keeps.pure _)
  apply Keeps.ite
  · apply hread.bind
    rintro ⟨numRead, value⟩
    apply Keeps.ite
    · exact answered_keeps hreply _ _
    · exact (shiftOne_keeps _).bind fun _ => hvalue _
  · exact hvalue _

theorem performRead_keeps (hread : Keeps I (drvRead table cb data)) :
    Keeps I (performRead table cb data) := by
  apply hread.bind
  rintro ⟨numRead, value⟩
  refine Keeps.ite (Keeps.ite (Keeps.ite ?_ ?_) ?_) (Keeps.pure _)
  · exact answered_keeps hreply _ _
  · exact (hreply _).bind fun _ => answered_keeps hreply _ _
  · exact answered_keeps hreply _ _

/-- `perform_io` keeps what its driver calls and the replies keep. -/
theorem performIo_keeps (hread : Keeps I (drvRead table cb data))
    (hwrite : ∀ value, Keeps I (drvWrite table cb data value)) (cmd : IoCmd) :
    Keeps I (performIo table cb data cmd) := by
  refine Keeps.get.bind fun s => Keeps.ite (answered_keeps hreply _ _) ?_
  refine Keeps.ite (answered_keeps hreply _ _) ?_
  refine (busIndex_keeps _).bind fun bus => Keeps.ite (answered_keeps hreply _ _) ?_
  cases cmd with
  | none => exact answered_keeps hreply _ _
  | write => exact performWrite_keeps hreply hread hwrite
  | read => exact performRead_keeps hreply hread

end Branches

/-- The driver calls made since `s` are all on this pair of indices. -/
def CallsOnly (s : Sys ω δ β W) (idxBus idxDev : Int) (t : Sys ω δ β W) : Prop :=
  ∃ calls, t.calls = s.calls ++ calls ∧
    ∀ call ∈ calls, DrvCall.indices call = (idxBus, idxDev)

section CallsOnly

variable {s : Sys ω δ β W} {idxBus idxDev : Int}

theorem callsOnly_start : CallsOnly s idxBus idxDev s :=
  ⟨[], by simp, by simp⟩

theorem onDevice_callsOnly (slot : Slot) (act : IoBus ω → DrvM δ β W α) :
    Keeps (CallsOnly s idxBus idxDev) (onDevice slot act) := by
  intro t ht
  rw [final_onDevice]
  exact ht

theorem noteCall_callsOnly {call : DrvCall} (hcall : call.indices = (idxBus, idxDev)) :
    Keeps (CallsOnly s idxBus idxDev) (noteCall call) := by
  apply Keeps.modified
  rintro t ⟨calls, hcalls, hall⟩
  refine ⟨calls ++ [call], by simp [hcalls], ?_⟩
  intro c hc
  rcases List.mem_append.mp hc with h | h
  · exact hall c h
  · obtain rfl := List.mem_singleton.mp h
    exact hcall

theorem callDrv_callsOnly (table : δ → DevDrv ω δ β W) (call : DrvCall)
    (hcall : call.indices = (idxBus, idxDev))
    (f : DevDrv ω δ β W → IoBus ω → DrvM δ β W α) :
    Keeps (CallsOnly s idxBus idxDev) (callDrv table idxBus idxDev call f) := by
  refine (busIndex_keeps _).bind fun bus => (devIndex_keeps _).bind fun dev => ?_
  refine Keeps.get.bind fun t => ?_
  cases (t.config.devices (bus, dev)).drvHandle with
  | none => exact Keeps.throw _
  | some handle => exact Keeps.bind (noteCall_callsOnly hcall) fun _ => onDevice_callsOnly _ _

theorem reply_callsOnly (f : β → β) :
    Keeps (CallsOnly s idxBus idxDev)
      (modify fun t => { t with buf := f t.buf } : SysM ω δ β W Unit) :=
  Keeps.modified fun _ ht => ht

variable (table : δ → DevDrv ω δ β W) (cb : Callbacks β) (data : IoData)

/-- Whatever `perform_io` meets, it calls drivers of its own two indices only. -/
theorem performIo_callsOnly (cmd : IoCmd) :
    Keeps (CallsOnly s data.idxBus data.idxDev) (performIo table cb data cmd) := by
  have hread : Keeps (CallsOnly s data.idxBus data.idxDev) (drvRead table cb data) :=
    callDrv_callsOnly table (.read data.idxBus data.idxDev) rfl _
  have hwrite (value : Value) :
      Keeps (CallsOnly s data.idxBus data.idxDev) (drvWrite table cb data value) :=
    callDrv_callsOnly table (.write data.idxBus data.idxDev) rfl _
  exact performIo_keeps reply_callsOnly hread hwrite cmd

end CallsOnly

section Guard

variable {table : δ → DevDrv ω δ β W} {cb : Callbacks β} {data : IoData} {cmd : IoCmd}
  {s : Sys ω δ β W}

/-- What is asked of a pair of indices that names no configured device: no driver
call, an error as the reply, and `EXIT_FAILURE`. -/
def Refused (table : δ → DevDrv ω δ β W) (cb : Callbacks β) (data : IoData) (cmd : IoCmd)
    (s : Sys ω δ β W) : Prop :=
  ∃ msg, performIo table cb data cmd s =
    .ok (exitFailure, data) { s with buf := cb.error msg s.buf }

/-- Every driver call is made on a configured slot, and any other pair of
indices is refused. -/
def CallsInRange (table : δ → DevDrv ω δ β W) (cb : Callbacks β) (data : IoData)
    (cmd : IoCmd) (s : Sys ω δ β W) : Prop :=
  (∃ calls, (final (performIo table cb data cmd) s).calls = s.calls ++ calls ∧
    ∀ call ∈ calls, s.config.InRange call.indices.1 call.indices.2) ∧
  (¬ s.config.InRange data.idxBus data.idxDev → Refused table cb data cmd s)

/-- No index that reaches a table lies below the sentinel. A bus is not looked up where
the device index is the sentinel. -/
def NotBelowSentinel (data : IoData) (config : IoConfig ω δ) : Prop :=
  (idxInvalid ≤ data.idxBus ∨ data.idxDev = idxInvalid) ∧
    (0 ≤ data.idxBus → data.idxBus < config.numBusses → idxInvalid ≤ data.idxDev)

theorem busIndex_of_lt {idx : Int} (hpos : 0 ≤ idx) (hlt : idx < maxBusses)
    (s : Sys ω δ β W) : ∃ bus : Fin maxBusses, idx = bus.val ∧ busIndex idx s = .ok bus s := by
  refine ⟨⟨idx.toNat, by omega⟩, by simp [hpos], ?_⟩
  unfold busIndex
  rw [dif_pos ⟨hpos, hlt⟩]
  rfl

theorem performIo_badBus (h : data.idxBus = idxInvalid ∨ data.idxBus ≥ s.config.numBusses) :
    Refused table cb data cmd s := by
  refine ⟨"Bus ID not existing.".toList, ?_⟩
  unfold performIo
  rw [bind_of_ok (run_get s), if_pos h]
  rfl

theorem performIo_noDev (h : data.idxDev = idxInvalid) : Refused table cb data cmd s := by
  by_cases hbus : data.idxBus = idxInvalid ∨ data.idxBus ≥ s.config.numBusses
  · exact performIo_badBus hbus
  · refine ⟨"Device ID not existing.".toList, ?_⟩
    unfold performIo
    rw [bind_of_ok (run_get s), if_neg hbus, if_pos h]
    rfl

theorem performIo_badDev {bus : Fin maxBusses} (hbus : data.idxBus = bus.val)
    (hlt : data.idxBus < s.config.numBusses)
    (hdev : data.idxDev = idxInvalid ∨ data.idxDev ≥ (s.config.busses bus).numDevices) :
    Refused table cb data cmd s := by
  refine ⟨"Device ID not existing.".toList, ?_⟩
  rw [performIo_knownBus hbus hlt, if_pos hdev]
  rfl

/-- A device index below the sentinel runs off the device table. -/
theorem callDrv_negDev {call : DrvCall} {f : DevDrv ω δ β W → IoBus ω → DrvM δ β W α}
    {bus : Fin maxBusses} (hbus : data.idxBus = bus.val) (hneg : data.idxDev < 0) :
    callDrv table data.idxBus data.idxDev call f s = .error .outOfBounds s := by
  unfold callDrv
  rw [bind_of_ok (show busIndex data.idxBus s = .ok bus s by rw [hbus]; exact busIndex_val bus s)]
  exact bind_of_error (devIndex_of_not (by omega) s)

theorem performWrite_negDev {bus : Fin maxBusses} (hbus : data.idxBus = bus.val)
    (hneg : data.idxDev < 0) : performWrite table cb data s = .error .outOfBounds s := by
  unfold performWrite
  by_cases hsub : data.idxSubDev ≠ idxInvalid
  · rw [if_pos hsub]
    exact bind_of_error (callDrv_negDev hbus hneg)
  · rw [if_neg hsub]
    exact bind_of_error (callDrv_negDev hbus hneg)

theorem performRead_negDev {bus : Fin maxBusses} (hbus : data.idxBus = bus.val)
    (hneg : data.idxDev < 0) : performRead table cb data s = .error .outOfBounds s :=
  bind_of_error (callDrv_negDev hbus hneg)

theorem not_refused_of_error {e : Fault} {t : Sys ω δ β W}
    (h : performIo table cb data cmd s = .error e t) : ¬ Refused table cb data cmd s := by
  rintro ⟨msg, hok⟩
  rw [h] at hok
  cases hok

theorem callsInRange_of_notBelow (hbounded : s.config.Bounded)
    (h : NotBelowSentinel data s.config) : CallsInRange table cb data cmd s := by
  have hrefused : ¬ s.config.InRange data.idxBus data.idxDev → Refused table cb data cmd s := by
    intro hout
    rcases Classical.em (data.idxDev = idxInvalid) with hnone | hsome
    · exact performIo_noDev hnone
    by_cases hbus : data.idxBus = idxInvalid ∨ data.idxBus ≥ s.config.numBusses
    · exact performIo_badBus hbus
    · have hlow := h.1.resolve_right hsome
      have hmax := hbounded.busses.2
      simp only [idxInvalid, not_or] at hbus hlow
      have hpos : 0 ≤ data.idxBus := by omega
      have hlt : data.idxBus < s.config.numBusses := by omega
      obtain ⟨bus, heq, -⟩ := busIndex_of_lt hpos (by omega) s
      have hdev := h.2 hpos hlt
      simp only [idxInvalid] at hdev
      apply performIo_badDev heq hlt
      by_contra hin
      simp only [idxInvalid, not_or] at hin
      exact hout ⟨bus, heq, hlt, by omega, by omega⟩
  refine ⟨?_, hrefused⟩
  obtain ⟨calls, hcalls, hall⟩ := performIo_callsOnly table cb data cmd s callsOnly_start
  by_cases hin : s.config.InRange data.idxBus data.idxDev
  · refine ⟨calls, hcalls, ?_⟩
    intro call hmem
    rw [hall call hmem]
    exact hin
  · obtain ⟨msg, hok⟩ := hrefused hin
    refine ⟨[], ?_, by simp⟩
    rw [final_of_ok hok]
    simp

theorem performIo_belowBusses (hbounded : s.config.Bounded) (hbus : data.idxBus < idxInvalid)
    (hdev : data.idxDev ≠ idxInvalid) :
    performIo table cb data cmd s = .error .outOfBounds s := by
  have hknown : ¬ (data.idxBus = idxInvalid ∨ data.idxBus ≥ s.config.numBusses) := by
    have := hbounded.busses.1
    simp only [idxInvalid] at hbus ⊢
    omega
  have hneg : data.idxBus < 0 := by
    simp only [idxInvalid] at hbus
    omega
  unfold performIo
  rw [bind_of_ok (run_get s), if_neg hknown, if_neg hdev]
  exact bind_of_error (busIndex_of_not (by omega) s)

theorem performIo_belowDevices (hbounded : s.config.Bounded) (hcmd : cmd = .write ∨ cmd = .read)
    {bus : Fin maxBusses} (hbus : data.idxBus = bus.val)
    (hlt : data.idxBus < s.config.numBusses) (hdev : data.idxDev < idxInvalid) :
    performIo table cb data cmd s = .error .outOfBounds s := by
  have hknown : ¬ (data.idxDev = idxInvalid ∨
      data.idxDev ≥ (s.config.busses bus).numDevices) := by
    have := (hbounded.devices bus).1
    simp only [idxInvalid] at hdev ⊢
    omega
  have hneg : data.idxDev < 0 := by
    simp only [idxInvalid] at hdev
    omega
  rw [performIo_knownBus hbus hlt, if_neg hknown]
  rcases hcmd with rfl | rfl
  · exact performWrite_negDev hbus hneg
  · exact performRead_negDev hbus hneg

/-- With the counts of the configuration within its tables, `perform_io` stays
within them and refuses all else exactly if no index lies below the sentinel. -/
theorem callsInRange_iff (hbounded : s.config.Bounded) (hcmd : cmd = .write ∨ cmd = .read) :
    CallsInRange table cb data cmd s ↔ NotBelowSentinel data s.config := by
  refine ⟨?_, callsInRange_of_notBelow hbounded⟩
  rintro ⟨-, hrefused⟩
  by_contra hbelow
  have hcases : (data.idxBus < idxInvalid ∧ data.idxDev ≠ idxInvalid) ∨ (0 ≤ data.idxBus ∧
      data.idxBus < s.config.numBusses ∧ data.idxDev < idxInvalid) := by
    simp only [NotBelowSentinel, idxInvalid] at hbelow ⊢
    omega
  rcases hcases with ⟨hbus, hdev⟩ | ⟨hpos, hlt, hdev⟩
  · refine not_refused_of_error (performIo_belowBusses hbounded hbus hdev) (hrefused ?_)
    rintro ⟨bus, heq, -⟩
    simp only [idxInvalid] at hbus
    omega
  · have hmax := hbounded.busses.2
    obtain ⟨bus, heq, -⟩ := busIndex_of_lt hpos (by omega) s
    refine not_refused_of_error (performIo_belowDevices hbounded hcmd heq hlt hdev) (hrefused ?_)
    rintro ⟨_, -, -, hdevpos, -⟩
    simp only [idxInvalid] at hdev
    omega

/-- What `parse_uri` makes of a URI stays within the configured slots, and is
refused outside of them, exactly if no index lies below the sentinel. -/
theorem parsed_callsInRange_iff {uri : CString} {type : RequestT} {parts : IoData}
    (_hparse : parseUri uri = .ok (type, parts)) (htype : type ≠ .err)
    (hbounded : s.config.Bounded) :
    CallsInRange table cb parts type.cmd s ↔ NotBelowSentinel parts s.config := by
  apply callsInRange_iff hbounded
  cases type with
  | err => exact absurd rfl htype
  | get => exact .inr rfl
  | set => exact .inl rfl

end Guard

theorem ioExtConfig_bounded : ioExtConfig.Bounded := ⟨by decide, by decide⟩

/-- A driver whose calls all succeed. -/
def obligingDrv : DevDrv BusHandle DevHandle (List Event) Unit where
  init := none
  read _ _ value := pure (1, value)
  write _ _ _ := pure 1
  deinit := none

def ioExtIdle : Sys BusHandle DevHandle (List Event) Unit := ⟨ioExtConfig, [], (), []⟩

theorem parsed_callsInRange_iff_ioExt :
    CallsInRange (fun _ => obligingDrv) recorder ⟨0, 1, idxInvalid, 0xff⟩ IoCmd.write ioExtIdle ↔
      NotBelowSentinel ⟨0, 1, idxInvalid, 0xff⟩ ioExtConfig := by
  have hparse : parseUri ⟨"/0/1/ff".toList, by decide⟩ =
      .ok (.set, ⟨0, 1, idxInvalid, 0xff⟩) := by
    decide +kernel
  exact parsed_callsInRange_iff hparse (by decide) ioExtConfig_bounded

/-- Bus index -2 passes the guards and is looked up in front of the table. -/
theorem bus_below_sentinel_escapes :
    parseUri ⟨"/-2/0".toList, by decide⟩ = .ok (.get, ⟨-2, 0, idxInvalid, 0⟩) ∧
      ioExtIdle.config.Bounded ∧
      ¬ CallsInRange (fun _ => obligingDrv) recorder ⟨-2, 0, idxInvalid, 0⟩ IoCmd.read
        ioExtIdle := by
  refine ⟨by decide +kernel, ioExtConfig_bounded, ?_⟩
  rintro ⟨-, hrefused⟩
  have hfault : performIo (fun _ => obligingDrv) recorder ⟨-2, 0, idxInvalid, 0⟩ IoCmd.read
      ioExtIdle = .error .outOfBounds ioExtIdle := rfl
  refine not_refused_of_error hfault (hrefused ?_)
  rintro ⟨bus, hbus, -⟩
  have hnonneg : (0 : Int) ≤ bus.val := Int.natCast_nonneg _
  rw [← hbus] at hnonneg
  exact absurd hnonneg (by decide)

end Switcher
