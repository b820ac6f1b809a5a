import Switcher.Io.Perform
import Switcher.Lib.Program

/-!
Requests whose indices are in range, and the process serving them one after
another. Each request starts from a fresh reply buffer, as in the HTTP handler.
-/

namespace Switcher

open Lib.Program

/-- A `GET` or `SET` for a device slot, with an optional sub-device index below
the width of a value. -/
structure Request where
  slot : Slot
  subDev : Option (Fin 32)
  isSet : Bool
  value : Value
  deriving DecidableEq, Repr

def Request.idxSubDev (r : Request) : Int :=
  match r.subDev with
  | none => idxInvalid
  | some i => i.val

def Request.data (r : Request) : IoData :=
  ⟨r.slot.1.val, r.slot.2.val, r.idxSubDev, r.value⟩

def Request.cmd (r : Request) : IoCmd :=
  if r.isSet then .write else .read

/-- What one call of `perform_io` gives back. -/
structure Served (β : Type) where
  rc : Int
  data : IoData
  content : β
  deriving DecidableEq, Repr

/-- A call of one of the two callbacks. -/
inductive Event where
  | success (data : IoData)
  | error (msg : List Char)
  deriving DecidableEq, Repr

def Event.isSuccess : Event → Bool
  | .success _ => true
  | .error _ => false

/-- Callbacks that note how they were called. -/
def recorder : Callbacks (List Event) where
  success data events := events ++ [.success data]
  error msg events := events ++ [.error msg]

/-- `cb_success` was invoked. -/
def Served.acknowledged (served : Served (List Event)) : Bool :=
  served.content.any Event.isSuccess

variable {ω δ β W : Type}

def freshReply (fresh : β) : SysM ω δ β W Unit :=
  modify fun s => { s with buf := fresh }

def replyContent : SysM ω δ β W β := do
  return (← get).buf

/-- `perform_io` on a fresh reply buffer. -/
def serve (table : δ → DevDrv ω δ β W) (cb : Callbacks β) (fresh : β) (data : IoData)
    (cmd : IoCmd) : SysM ω δ β W (Served β) := do
  freshReply fresh
  let (rc, data) ← performIo table cb data cmd
  let content ← replyContent
  return ⟨rc, data, content⟩

def serveRequest (table : δ → DevDrv ω δ β W) (cb : Callbacks β) (fresh : β)
    (r : Request) : SysM ω δ β W (Served β) :=
  serve table cb fresh r.data r.cmd

theorem busIndex_val (bus : Fin maxBusses) (s : Sys ω δ β W) :
    busIndex (bus.val : Int) s = .ok bus s := by
  have h : 0 ≤ (bus.val : Int) ∧ (bus.val : Int) < maxBusses := by
    have := bus.isLt
    omega
  simp [busIndex, h, run_pure]

theorem devIndex_val (dev : Fin maxIoDevices) (s : Sys ω δ β W) :
    devIndex (dev.val : Int) s = .ok dev s := by
  have h : 0 ≤ (dev.val : Int) ∧ (dev.val : Int) < maxIoDevices := by
    have := dev.isLt
    omega
  simp [devIndex, h, run_pure]

theorem busIndex_of_not {idx : Int} (h : ¬ (0 ≤ idx ∧ idx < maxBusses)) (s : Sys ω δ β W) :
    busIndex idx s = .error .outOfBounds s := by
  unfold busIndex
  rw [dif_neg h]
  rfl

theorem devIndex_of_not {idx : Int} (h : ¬ (0 ≤ idx ∧ idx < maxIoDevices)) (s : Sys ω δ β W) :
    devIndex idx s = .error .outOfBounds s := by
  unfold devIndex
  rw [dif_neg h]
  rfl

/-- Two indices name a slot of the tables, or a driver is not reached. -/
theorem callDrv_cases {α : Type} (table : δ → DevDrv ω δ β W) (idxBus idxDev : Int)
    (call : DrvCall) (f : DevDrv ω δ β W → IoBus ω → DrvM δ β W α) (s : Sys ω δ β W) :
    (∃ slot : Slot, idxBus = slot.1.val ∧ idxDev = slot.2.val) ∨
      callDrv table idxBus idxDev call f s = .error .outOfBounds s := by
  by_cases hbus : 0 ≤ idxBus ∧ idxBus < maxBusses
  · let b : Fin maxBusses := ⟨idxBus.toNat, (Int.toNat_lt hbus.1).mpr hbus.2⟩
    have hb : idxBus = b.val := (Int.toNat_of_nonneg hbus.1).symm
    by_cases hdev : 0 ≤ idxDev ∧ idxDev < maxIoDevices
    · let d : Fin maxIoDevices := ⟨idxDev.toNat, (Int.toNat_lt hdev.1).mpr hdev.2⟩
      exact .inl ⟨(b, d), hb, (Int.toNat_of_nonneg hdev.1).symm⟩
    · right
      unfold callDrv
      rw [hb, bind_of_ok (busIndex_val b s), bind_of_error (devIndex_of_not hdev s)]
  · right
    unfold callDrv
    rw [bind_of_error (busIndex_of_not hbus s)]

theorem callDrv_null {α : Type} (table : δ → DevDrv ω δ β W) (slot : Slot)
    (call : DrvCall) (f : DevDrv ω δ β W → IoBus ω → DrvM δ β W α)
    {s : Sys ω δ β W} (hdrv : (s.config.devices slot).drvHandle = none) :
    callDrv table slot.1.val slot.2.val call f s = .error .nullDeref s := by
  unfold callDrv
  rw [bind_of_ok (busIndex_val slot.1 s), bind_of_ok (devIndex_val slot.2 s),
    bind_of_ok (run_get s), hdrv]
  rfl

theorem callDrv_slot {α : Type} (table : δ → DevDrv ω δ β W) (slot : Slot)
    (call : DrvCall) (f : DevDrv ω δ β W → IoBus ω → DrvM δ β W α)
    {s : Sys ω δ β W} {handle : δ} (hdrv : (s.config.devices slot).drvHandle = some handle) :
    callDrv table slot.1.val slot.2.val call f s =
      onDevice slot (f (table handle)) { s with calls := s.calls ++ [call] } := by
  unfold callDrv
  rw [bind_of_ok (busIndex_val slot.1 s), bind_of_ok (devIndex_val slot.2 s),
    bind_of_ok (run_get s), hdrv]
  rfl

theorem onDevice_of_ok {α : Type} {slot : Slot} {act : IoBus ω → DrvM δ β W α}
    {s : Sys ω δ β W} {a : α} {t : DrvState δ β W}
    (h : act (s.config.busses slot.1) (s.drvState slot) = .ok a t) :
    onDevice slot act s = .ok a (s.storeDrv slot t) := by
  simp only [onDevice, h]

/-- With the bus known, the device index decides. -/
theorem performIo_knownBus {table : δ → DevDrv ω δ β W} {cb : Callbacks β} {data : IoData}
    {cmd : IoCmd} {s : Sys ω δ β W} {bus : Fin maxBusses} (hbus : data.idxBus = bus.val)
    (hlt : data.idxBus < s.config.numBusses) :
    performIo table cb data cmd s =
      (if data.idxDev = idxInvalid ∨ data.idxDev ≥ (s.config.busses bus).numDevices then do
          reportError cb "Device ID not existing."
          return (exitFailure, data)
        else
          match cmd with
          | .none => do
              reportError cb "Illegal command."
              return (exitFailure, data)
          | .write => performWrite table cb data
          | .read => performRead table cb data) s := by
  have hknown : ¬ (data.idxBus = idxInvalid ∨ data.idxBus ≥ s.config.numBusses) := by
    simp only [idxInvalid]
    omega
  have hindex : busIndex data.idxBus s = .ok bus s := by
    rw [hbus]
    exact busIndex_val bus s
  unfold performIo
  rw [bind_of_ok (run_get s), if_neg hknown]
  by_cases hdev : data.idxDev = idxInvalid
  · rw [if_pos hdev, if_pos (.inl hdev)]
  · rw [if_neg hdev, bind_of_ok hindex]
    by_cases hcount : data.idxDev ≥ (s.config.busses bus).numDevices
    · rw [if_pos hcount, if_pos (.inr hcount)]
    · rw [if_neg (not_or.mpr ⟨hdev, hcount⟩)]
      exact congrFun (if_neg hcount) s

/-- With both indices within the configured counts the guards of `perform_io`
all pass. -/
theorem performIo_request (table : δ → DevDrv ω δ β W) (cb : Callbacks β) (r : Request)
    {s : Sys ω δ β W} (hslot : s.config.HasSlot r.slot) :
    performIo table cb r.data r.cmd s =
      (if r.isSet then performWrite table cb r.data else performRead table cb r.data) s := by
  have hdev : ¬ (r.data.idxDev = idxInvalid ∨
      r.data.idxDev ≥ (s.config.busses r.slot.1).numDevices) := by
    have := hslot.2
    simp only [Request.data, idxInvalid]
    omega
  have hbus : r.data.idxBus = r.slot.1.val := rfl
  rw [performIo_knownBus hbus hslot.1, if_neg hdev]
  cases hset : r.isSet with
  | true => simp [Request.cmd, hset]
  | false => simp [Request.cmd, hset]

theorem shiftOne_subDev (i : Fin 32) (s : Sys ω δ β W) :
    shiftOne (i.val : Int) s = .ok (1#32 <<< i.val) s := by
  have h : 0 ≤ (i.val : Int) ∧ (i.val : Int) < 32 := by
    have := i.isLt
    omega
  simp [shiftOne, h, run_pure]

/-- What a successful read of `value` reports. -/
def Request.picked (r : Request) (value : Value) : Value :=
  match r.subDev with
  | none => value
  | some i => value >>> i.val &&& 1

/-- What a sub-device write makes of the value read before. -/
def Request.masked (r : Request) (i : Fin 32) (value : Value) : Value :=
  if r.value ≠ 0 then value ||| 1#32 <<< i.val else value &&& ~~~(1#32 <<< i.val)

section Run

variable (table : δ → DevDrv ω δ β W) (cb : Callbacks β) {r : Request} {s t : Sys ω δ β W}

theorem Request.idxSubDev_none (h : r.subDev = none) : r.data.idxSubDev = idxInvalid := by
  simp [Request.data, Request.idxSubDev, h]

theorem Request.idxSubDev_some {i : Fin 32} (h : r.subDev = some i) :
    r.data.idxSubDev = i.val ∧ r.data.idxSubDev ≠ idxInvalid := by
  have heq : r.data.idxSubDev = i.val := by simp [Request.data, Request.idxSubDev, h]
  refine ⟨heq, ?_⟩
  simp only [heq, idxInvalid]
  omega

theorem writeValue_run {data : IoData} {value : Value} {numWritten : Int}
    (hwrite : drvWrite table cb data value s = .ok numWritten t) :
    writeValue table cb data value s =
      .ok (exitSuccess, data)
        (if 0 < numWritten then { t with buf := cb.success data t.buf } else t) := by
  unfold writeValue
  rw [bind_of_ok hwrite]
  by_cases hwritten : numWritten > 0
  · rw [if_pos hwritten, if_pos hwritten]
    rfl
  · rw [if_neg hwritten, if_neg hwritten]
    rfl

theorem performWrite_whole (h : r.subDev = none) :
    performWrite table cb r.data = writeValue table cb r.data r.value := by
  unfold performWrite
  rw [Request.idxSubDev_none h, if_neg (by simp)]
  rfl

theorem performWrite_subDev {i : Fin 32} (h : r.subDev = some i) {numRead : Int}
    {value : Value} (hread : drvRead table cb r.data s = .ok (numRead, value) t) :
    performWrite table cb r.data s =
      if numRead ≤ 0 then
        .ok (exitFailure, r.data)
          { t with buf := cb.error "Could not read from device.".toList t.buf }
      else
        writeValue table cb r.data (r.masked i value) t := by
  obtain ⟨hidx, hne⟩ := Request.idxSubDev_some h
  unfold performWrite
  rw [if_pos hne, bind_of_ok hread]
  by_cases hnum : numRead ≤ 0
  · simp only [if_pos hnum]
    rfl
  · simp only [if_neg hnum, hidx]
    rw [bind_of_ok (shiftOne_subDev i t)]
    rfl

theorem performRead_run {numRead : Int} {value : Value}
    (hread : drvRead table cb r.data s = .ok (numRead, value) t) :
    performRead table cb r.data s =
      if 0 < numRead then
        .ok (exitSuccess, { r.data with value := r.picked value })
          { t with buf := cb.success { r.data with value := r.picked value } t.buf }
      else
        .ok (exitSuccess, { r.data with value := value }) t := by
  unfold performRead
  rw [bind_of_ok hread]
  by_cases hnum : numRead > 0
  · simp only [if_pos hnum]
    cases hsub : r.subDev with
    | none =>
        rw [if_neg (by simp [Request.idxSubDev_none hsub]), Request.picked, hsub]
        rfl
    | some i =>
        obtain ⟨hidx, hne⟩ := Request.idxSubDev_some hsub
        have hrange : 0 ≤ r.data.idxSubDev ∧ r.data.idxSubDev < 32 := by
          have := i.isLt
          omega
        rw [if_pos hne, if_pos hrange, Request.picked, hsub, hidx]
        rfl
  · simp only [if_neg hnum]
    rfl

theorem serveRequest_run (fresh : β) (hslot : s.config.HasSlot r.slot) {rc : Int} {data : IoData}
    (hperform : (if r.isSet then performWrite table cb r.data else performRead table cb r.data)
      { s with buf := fresh } = .ok (rc, data) t) :
    serveRequest table cb fresh r s = .ok ⟨rc, data, t.buf⟩ t := by
  unfold serveRequest serve
  rw [bind_of_ok (show freshReply fresh s = .ok ⟨⟩ { s with buf := fresh } from rfl)]
  have hfresh : ({ s with buf := fresh } : Sys ω δ β W).config.HasSlot r.slot := hslot
  rw [bind_of_ok ((performIo_request table cb r hfresh).trans hperform)]
  rfl

end Run

/-- Two processes that serve `r` alike, as far as `R` compares them: the driver
calls on its device keep `R` and return the same, and so does every change of
the reply. -/
structure Compares {W₁ W₂ : Type} (table₁ : δ → DevDrv ω δ β W₁)
    (table₂ : δ → DevDrv ω δ β W₂) (cb : Callbacks β) (r : Request)
    (R : Sys ω δ β W₁ → Sys ω δ β W₂ → Prop) : Prop where
  slot : ∀ s t, R s t → s.config.HasSlot r.slot ∧ t.config.HasSlot r.slot
  content : ∀ s t, R s t → s.buf = t.buf
  reply : ∀ (s : Sys ω δ β W₁) (t : Sys ω δ β W₂) (f : β → β), R s t →
    R { s with buf := f s.buf } { t with buf := f t.buf }
  read : Matches R (drvRead table₁ cb r.data) (drvRead table₂ cb r.data)
  write : ∀ value,
    Matches R (drvWrite table₁ cb r.data value) (drvWrite table₂ cb r.data value)

section Compares

variable {W₁ W₂ : Type} {table₁ : δ → DevDrv ω δ β W₁} {table₂ : δ → DevDrv ω δ β W₂}
  {cb : Callbacks β} {r : Request} {R : Sys ω δ β W₁ → Sys ω δ β W₂ → Prop}
  (h : Compares table₁ table₂ cb r R)
include h

theorem Compares.reportSuccess (data : IoData) :
    Matches R (reportSuccess cb data) (reportSuccess cb data) :=
  Matches.modified fun s t hst => h.reply s t _ hst

theorem Compares.reportError (msg : String) :
    Matches R (reportError cb msg) (reportError cb msg) :=
  Matches.modified fun s t hst => h.reply s t _ hst

theorem Compares.writeValue (value : Value) :
    Matches R (writeValue table₁ cb r.data value) (writeValue table₂ cb r.data value) := by
  apply Matches.bind (h.write value)
  intro numWritten
  apply Matches.ite _ (Matches.pure _)
  exact Matches.bind (h.reportSuccess _) fun _ => Matches.pure _

theorem Compares.performWrite :
    Matches R (performWrite table₁ cb r.data) (performWrite table₂ cb r.data) := by
  cases hsub : r.subDev with
  | none =>
      have hidx : ¬ r.data.idxSubDev ≠ idxInvalid := by
        simp [Request.data, Request.idxSubDev, hsub]
      unfold Switcher.performWrite
      rw [if_neg hidx, if_neg hidx]
      exact h.writeValue _
  | some i =>
      have hidx : r.data.idxSubDev = i.val := by
        simp [Request.data, Request.idxSubDev, hsub]
      have hshift : Matches R (shiftOne (i.val : Int)) (shiftOne (i.val : Int)) :=
        fun s t hst => ⟨_, s, t, shiftOne_subDev i s, shiftOne_subDev i t, hst⟩
      unfold Switcher.performWrite
      rw [hidx]
      apply Matches.ite _ (h.writeValue _)
      apply Matches.bind h.read
      rintro ⟨numRead, value⟩
      apply Matches.ite
      · exact Matches.bind (h.reportError _) fun _ => Matches.pure _
      · exact Matches.bind hshift fun _ => h.writeValue _

theorem Compares.performRead :
    Matches R (performRead table₁ cb r.data) (performRead table₂ cb r.data) := by
  have hreport (data : IoData) : Matches R
      (do Switcher.reportSuccess cb data; return (exitSuccess, data) :
        SysM ω δ β W₁ (Int × IoData))
      (do Switcher.reportSuccess cb data; return (exitSuccess, data)) :=
    Matches.bind (h.reportSuccess data) fun _ => Matches.pure _
  apply Matches.bind h.read
  rintro ⟨numRead, value⟩
  apply Matches.ite _ (Matches.pure _)
  apply Matches.ite _ (hreport _)
  apply Matches.ite (hreport _)
  exact Matches.bind (h.reportError _) fun _ => hreport _

theorem Compares.performIo :
    Matches R (performIo table₁ cb r.data r.cmd) (performIo table₂ cb r.data r.cmd) := by
  intro s t hst
  obtain ⟨hs, ht⟩ := h.slot s t hst
  rw [performIo_request table₁ cb r hs, performIo_request table₂ cb r ht]
  exact Matches.ite h.performWrite h.performRead s t hst

theorem Compares.serveRequest (fresh : β) :
    Matches R (serveRequest table₁ cb fresh r) (serveRequest table₂ cb fresh r) := by
  apply Matches.bind (Matches.modified fun s t hst => h.reply s t (fun _ => fresh) hst)
  intro _
  apply Matches.bind h.performIo
  rintro ⟨rc, data⟩
  apply Matches.bind _ fun _ => Matches.pure _
  intro s t hst
  refine ⟨s.buf, s, t, rfl, ?_, hst⟩
  rw [h.content s t hst]
  rfl

end Compares

end Switcher
