import Mathlib.Data.Option.Basic
import Switcher.Http.Events
import Switcher.Io.Lifecycle
import Switcher.Lib.Outcome

/-!
The service run side by side over two worlds of drivers. A relation of the processes that
every call of a driver keeps is kept by all of the service, from `io_init` through any
events to `io_deinit`, which answers and logs the same over both, also where it crashes.
-/

namespace Switcher

open Lib.Program Lib.Interleaving Lib.Text

variable {ω δ β W W' α : Type}

/-- A relation of two processes with one configuration and one reply buffer, that what they
do beside their drivers' calls keeps. -/
structure KeptBySys (J : Sys ω δ β W → Sys ω δ β W' → Prop) : Prop where
  config : ∀ s t, J s t → t.config = s.config
  buf : ∀ s t, J s t → t.buf = s.buf
  reply : ∀ s t buf, J s t → J { s with buf := buf } { t with buf := buf }
  note : ∀ s t call, J s t →
    J { s with calls := s.calls ++ [call] } { t with calls := t.calls ++ [call] }

/-- The relation, while the device has this driver. -/
def WithDriver (J : Sys ω δ β W → Sys ω δ β W' → Prop) (slot : Slot) (handle : δ)
    (s : Sys ω δ β W) (t : Sys ω δ β W') : Prop :=
  J s t ∧ (s.config.devices slot).drvHandle = some handle

/-- Reading and writing the device keeps the relation. -/
structure KeptByIo (J : Sys ω δ β W → Sys ω δ β W' → Prop) (table : δ → DevDrv ω δ β W)
    (table' : δ → DevDrv ω δ β W') (slot : Slot) : Prop where
  read : ∀ handle cbError value, Mirrors (WithDriver J slot handle)
    (onDevice slot fun bus => (table handle).read cbError bus value)
    (onDevice slot fun bus => (table' handle).read cbError bus value) J J
  write : ∀ handle cbError value, Mirrors (WithDriver J slot handle)
    (onDevice slot fun bus => (table handle).write cbError bus value)
    (onDevice slot fun bus => (table' handle).write cbError bus value) J J

/-- The hooks of the bus and of its devices keep the relation, and are there in both worlds or
in none. -/
structure KeptByHooks (J : Sys ω δ β W → Sys ω δ β W' → Prop) (busTable : ω → BusDrv W)
    (busTable' : ω → BusDrv W') (table : δ → DevDrv ω δ β W) (table' : δ → DevDrv ω δ β W') :
    Prop where
  openBus : ∀ bus handle, Option.Rel (fun f g => Parallel J (onBus bus f) (onBus bus g))
    (busTable handle).openBus (busTable' handle).openBus
  closeBus : ∀ bus handle, Option.Rel (fun f g => Parallel J (onBus bus f) (onBus bus g))
    (busTable handle).closeBus (busTable' handle).closeBus
  init : ∀ slot handle, Option.Rel
    (fun f g => Mirrors (WithDriver J slot handle) (onDevice slot f) (onDevice slot g) J J)
    (table handle).init (table' handle).init
  deinit : ∀ slot handle, Option.Rel
    (fun f g => Mirrors (WithDriver J slot handle) (onDevice slot f) (onDevice slot g) J J)
    (table handle).deinit (table' handle).deinit

structure LifeAlike (J : Sys ω δ β W → Sys ω δ β W' → Prop) (s : Life ω δ β W)
    (t : Life ω δ β W') : Prop where
  sys : J s.sys t.sys
  trace : t.trace = s.trace

variable {J : Sys ω δ β W → Sys ω δ β W' → Prop}

section Indices

theorem busIndex_parallel (idx : Int) :
    Parallel J (busIndex idx : SysM ω δ β W _) (busIndex idx) := by
  unfold busIndex
  split
  · exact Parallel.pure _
  · exact Parallel.throw _

theorem devIndex_parallel (idx : Int) :
    Parallel J (devIndex idx : SysM ω δ β W _) (devIndex idx) := by
  unfold devIndex
  split
  · exact Parallel.pure _
  · exact Parallel.throw _

theorem shiftOne_parallel (idx : Int) :
    Parallel J (shiftOne idx : SysM ω δ β W _) (shiftOne idx) :=
  Mirrors.ite (Parallel.pure _) (Parallel.throw _)

end Indices

section Requests

variable (hJ : KeptBySys J)
include hJ

theorem reportSuccess_parallel (cb : Callbacks β) (data : IoData) :
    Parallel J (reportSuccess cb data : SysM ω δ β W _) (reportSuccess cb data) := by
  apply Mirrors.modified
  intro s t hst
  rw [hJ.buf s t hst]
  exact hJ.reply s t _ hst

theorem reportError_parallel (cb : Callbacks β) (msg : String) :
    Parallel J (reportError cb msg : SysM ω δ β W _) (reportError cb msg) := by
  apply Mirrors.modified
  intro s t hst
  rw [hJ.buf s t hst]
  exact hJ.reply s t _ hst

variable {table : δ → DevDrv ω δ β W} {table' : δ → DevDrv ω δ β W'} {data : IoData}

theorem callDrv_parallel (call : DrvCall) {f : DevDrv ω δ β W → IoBus ω → DrvM δ β W α}
    {g : DevDrv ω δ β W' → IoBus ω → DrvM δ β W' α}
    (h : ∀ slot : Slot, slot.1.val = data.idxBus → slot.2.val = data.idxDev → ∀ handle,
      Mirrors (WithDriver J slot handle) (onDevice slot (f (table handle)))
        (onDevice slot (g (table' handle))) J J) :
    Parallel J (callDrv table data.idxBus data.idxDev call f)
      (callDrv table' data.idxBus data.idxDev call g) := by
  intro s t hst
  by_cases hslot : ∃ slot : Slot, data.idxBus = slot.1.val ∧ data.idxDev = slot.2.val
  · obtain ⟨slot, hbus, hdev⟩ := hslot
    rw [hbus, hdev]
    cases hdrv : (s.config.devices slot).drvHandle with
    | none =>
        rw [callDrv_null table slot call f hdrv,
          callDrv_null table' slot call g (hJ.config s t hst ▸ hdrv)]
        exact .error hst
    | some handle =>
        rw [callDrv_slot table slot call f hdrv,
          callDrv_slot table' slot call g (hJ.config s t hst ▸ hdrv)]
        exact h slot hbus.symm hdev.symm handle _ _ ⟨hJ.note s t call hst, hdrv⟩
  · rw [(callDrv_cases table _ _ call f s).resolve_left hslot,
      (callDrv_cases table' _ _ call g t).resolve_left hslot]
    exact .error hst

variable (hio : ∀ slot : Slot, slot.1.val = data.idxBus → slot.2.val = data.idxDev →
  KeptByIo J table table' slot) (cb : Callbacks β)
include hio

theorem drvRead_parallel : Parallel J (drvRead table cb data) (drvRead table' cb data) :=
  callDrv_parallel hJ _ fun slot hbus hdev handle =>
    (hio slot hbus hdev).read handle cb.error data.value

theorem writeValue_parallel (value : Value) :
    Parallel J (writeValue table cb data value) (writeValue table' cb data value) := by
  have hwrite : Parallel J (drvWrite table cb data value) (drvWrite table' cb data value) :=
    callDrv_parallel hJ _ fun slot hbus hdev handle =>
      (hio slot hbus hdev).write handle cb.error value
  apply hwrite.bind
  intro numWritten
  apply Mirrors.ite
  · exact (reportSuccess_parallel hJ cb data).bind fun _ => Parallel.pure _
  · exact Parallel.pure _

theorem performWrite_parallel :
    Parallel J (performWrite table cb data) (performWrite table' cb data) := by
  apply Mirrors.ite
  · apply Parallel.bind (drvRead_parallel hJ hio cb)
    rintro ⟨numRead, value⟩
    apply Mirrors.ite
    · exact (reportError_parallel hJ cb _).bind fun _ => Parallel.pure _
    · apply Parallel.bind (shiftOne_parallel data.idxSubDev)
      intro bit
      exact writeValue_parallel hJ hio cb _
  · exact writeValue_parallel hJ hio cb data.value

theorem performRead_parallel :
    Parallel J (performRead table cb data) (performRead table' cb data) := by
  have hsuccess (data : IoData) : Parallel J
      (do reportSuccess cb data; return (exitSuccess, data) : SysM ω δ β W (Int × IoData))
      (do reportSuccess cb data; return (exitSuccess, data)) :=
    (reportSuccess_parallel hJ cb data).bind fun _ => Parallel.pure _
  apply Parallel.bind (drvRead_parallel hJ hio cb)
  rintro ⟨numRead, value⟩
  apply Mirrors.ite
  · apply Mirrors.ite
    · apply Mirrors.ite
      · exact hsuccess _
      · exact (reportError_parallel hJ cb _).bind fun _ => hsuccess _
    · exact hsuccess _
  · exact Parallel.pure _

theorem performIo_parallel (cmd : IoCmd) :
    Parallel J (performIo table cb data cmd) (performIo table' cb data cmd) := by
  have hrefused (msg : String) : Parallel J
      (do reportError cb msg; return (exitFailure, data) : SysM ω δ β W (Int × IoData))
      (do reportError cb msg; return (exitFailure, data)) :=
    (reportError_parallel hJ cb msg).bind fun _ => Parallel.pure _
  apply Mirrors.read_bind
  intro s t hst
  rw [hJ.config s t hst]
  refine Mirrors.ite (hrefused _) (Mirrors.ite (hrefused _) ?_)
  apply Parallel.bind (busIndex_parallel data.idxBus)
  intro bus
  apply Mirrors.ite
  · exact hrefused _
  · cases cmd with
    | none => exact hrefused _
    | write => exact performWrite_parallel hJ hio cb
    | read => exact performRead_parallel hJ hio cb

end Requests

section Events

variable {J : Sys ω δ (List Char) W → Sys ω δ (List Char) W' → Prop}

theorem logRequest_parallel (uri : CString) (parts : IoData) (type : RequestT) :
    Parallel J (logRequest uri parts type : SysM ω δ _ W _) (logRequest uri parts type) := by
  intro s t hst
  unfold logRequest
  cases printRequest uri parts type freshMessage with
  | ok line _ => exact .ok hst
  | error e _ => exact .error hst

variable (hJ : KeptBySys J) {table : δ → DevDrv ω δ (List Char) W}
  {table' : δ → DevDrv ω δ (List Char) W'}
include hJ

theorem httpRequestHandler_parallel (uri : CString)
    (hio : ∀ type parts, parseUri uri = .ok (type, parts) →
      ∀ slot : Slot, slot.1.val = parts.idxBus → slot.2.val = parts.idxDev →
        KeptByIo J table table' slot) :
    Parallel J (httpRequestHandler table uri) (httpRequestHandler table' uri) := by
  have hfresh : Parallel J (freshReply freshContent : SysM ω δ (List Char) W _)
      (freshReply freshContent) :=
    Mirrors.modified fun s t hst => hJ.reply s t freshContent hst
  have hreply (line : List Char) : Parallel J
      (do return (httpReply (← replyContent), line) : SysM ω δ (List Char) W _)
      (do return (httpReply (← replyContent), line)) := by
    apply Mirrors.read_bind
    intro s t hst
    rw [hJ.buf s t hst]
    exact Parallel.pure _
  apply hfresh.bind
  intro _
  cases hparse : parseUri uri with
  | error e => exact Parallel.throw e
  | ok request =>
      obtain ⟨type, parts⟩ := request
      apply Parallel.bind (logRequest_parallel uri parts type)
      intro line
      apply Mirrors.ite
      · exact (performIo_parallel hJ (hio type parts hparse) _ _).bind fun _ => hreply line
      · exact (reportError_parallel hJ _ _).bind fun _ => hreply line

theorem eventHandler_parallel (conn : MgConnection) (event : MgEvent)
    (hio : ∀ type parts, parseUri conn.uri = .ok (type, parts) →
      ∀ slot : Slot, slot.1.val = parts.idxBus → slot.2.val = parts.idxDev →
        KeptByIo J table table' slot) :
    Parallel J (eventHandler table conn event) (eventHandler table' conn event) := by
  cases event with
  | request =>
      apply Mirrors.ite
      · exact Parallel.pure _
      · apply Parallel.bind (httpRequestHandler_parallel hJ conn.uri hio)
        rintro ⟨reply, line⟩
        exact Parallel.pure _
  | auth => exact Parallel.pure _
  | other => exact Parallel.pure _

theorem pollServer_parallel (hio : ∀ slot, KeptByIo J table table' slot)
    (events : List (MgConnection × MgEvent)) :
    Parallel J (pollServer table events) (pollServer table' events) :=
  Parallel.runAll fun event _ =>
    eventHandler_parallel hJ event.1 event.2 fun _ _ _ slot _ _ => hio slot

end Events

section Hooks

theorem onSys_parallel {p : SysM ω δ β W α} {q : SysM ω δ β W' α}
    {I : Sys ω δ β W → Sys ω δ β W' → Prop} (h : Mirrors I p q J J) :
    Mirrors (LifeAlike I) (onSys p) (onSys q) (LifeAlike J) (LifeAlike J) := by
  intro s t hst
  have houtcome := h s.sys t.sys hst.sys
  unfold onSys
  generalize p s.sys = x, q t.sys = y at houtcome ⊢
  cases houtcome with
  | ok huv => exact .ok ⟨huv, hst.trace⟩
  | error huv => exact .error ⟨huv, hst.trace⟩

theorem bind_rel {κ ι ι' : Type} {S : κ → ι → ι' → Prop} {f : κ → Option ι} {g : κ → Option ι'}
    (handle : Option κ) (h : ∀ k, Option.Rel (S k) (f k) (g k)) :
    Option.Rel (fun a b => ∃ k, handle = some k ∧ S k a b) (handle.bind f) (handle.bind g) := by
  cases handle with
  | none => exact .none
  | some k =>
      have hk := h k
      simp only [Option.bind_some]
      generalize f k = p, g k = q at hk ⊢
      cases hk with
      | none => exact .none
      | some hab => exact .some ⟨k, rfl, hab⟩

variable (hJ : KeptBySys J) {busTable : ω → BusDrv W} {busTable' : ω → BusDrv W'}
  {table : δ → DevDrv ω δ β W} {table' : δ → DevDrv ω δ β W'}
include hJ

theorem callBusHook_parallel (bus : Fin maxBusses) (call : HookCall)
    {f : BusDrv W → Option (BusM W Int)} {g : BusDrv W' → Option (BusM W' Int)}
    (h : ∀ handle, Option.Rel (fun f g => Parallel J (onBus bus f) (onBus bus g))
      (f (busTable handle)) (g (busTable' handle))) :
    Parallel (LifeAlike J) (callBusHook busTable bus call f)
      (callBusHook busTable' bus call g) := by
  intro s t hst
  unfold callBusHook
  rw [bind_of_ok (run_get s), bind_of_ok (run_get t), hJ.config _ _ hst.sys]
  have hhook := bind_rel (s.sys.config.busses bus).drvHandle h
  generalize (s.sys.config.busses bus).drvHandle.bind (fun k => f (busTable k)) = p,
    (s.sys.config.busses bus).drvHandle.bind (fun k => g (busTable' k)) = q at hhook ⊢
  cases hhook with
  | none => exact .ok hst
  | some hfg =>
      obtain ⟨handle, -, hfg⟩ := hfg
      have hrun := (onSys_parallel hfg).bind fun _ => Parallel.pure (ε := Fault) PUnit.unit
      exact hrun _ _ ⟨hst.sys, congrArg (· ++ [call]) hst.trace⟩

theorem callDevHook_parallel (slot : Slot) (call : HookCall)
    {f : DevDrv ω δ β W → Option (IoBus ω → DrvM δ β W Int)}
    {g : DevDrv ω δ β W' → Option (IoBus ω → DrvM δ β W' Int)}
    (h : ∀ handle, Option.Rel
      (fun f g => Mirrors (WithDriver J slot handle) (onDevice slot f) (onDevice slot g) J J)
      (f (table handle)) (g (table' handle))) :
    Parallel (LifeAlike J) (callDevHook table slot call f) (callDevHook table' slot call g) := by
  intro s t hst
  unfold callDevHook
  rw [bind_of_ok (run_get s), bind_of_ok (run_get t), hJ.config _ _ hst.sys]
  have hhook := bind_rel (s.sys.config.devices slot).drvHandle h
  generalize (s.sys.config.devices slot).drvHandle.bind (fun k => f (table k)) = p,
    (s.sys.config.devices slot).drvHandle.bind (fun k => g (table' k)) = q at hhook ⊢
  cases hhook with
  | none => exact .ok hst
  | some hfg =>
      obtain ⟨handle, hhandle, hfg⟩ := hfg
      have hrun := (onSys_parallel hfg).bind fun _ => Parallel.pure (ε := Fault) PUnit.unit
      exact hrun _ _ ⟨⟨hst.sys, hhandle⟩, congrArg (· ++ [call]) hst.trace⟩

variable (hhooks : KeptByHooks J busTable busTable' table table')
include hhooks

theorem ioInit_parallel :
    Parallel (LifeAlike J) (ioInit busTable table) (ioInit busTable' table') := by
  have hdevice (bus : Fin maxBusses) (cntDev : Nat) : Parallel (LifeAlike J)
      (initDevice table bus cntDev) (initDevice table' bus cntDev) :=
    Parallel.bind (onSys_parallel (devIndex_parallel _)) fun dev =>
      callDevHook_parallel hJ _ _ (hhooks.init (bus, dev))
  have hbus (cntBus : Nat) : Parallel (LifeAlike J) (initBus busTable table cntBus)
      (initBus busTable' table' cntBus) := by
    apply Parallel.bind (onSys_parallel (busIndex_parallel _))
    intro bus
    apply Parallel.bind (callBusHook_parallel hJ bus _ (hhooks.openBus bus))
    intro _
    apply Mirrors.read_bind
    intro s t hst
    rw [hJ.config _ _ hst.sys]
    exact (Parallel.runAll fun cntDev _ => hdevice bus cntDev).bind fun _ => Parallel.pure _
  apply Mirrors.read_bind
  intro s t hst
  rw [hJ.config _ _ hst.sys]
  exact (Parallel.runAll fun cntBus _ => hbus cntBus).bind fun _ => Parallel.pure _

theorem ioDeinit_parallel :
    Parallel (LifeAlike J) (ioDeinit busTable table) (ioDeinit busTable' table') := by
  have hdevice (bus : Fin maxBusses) (cntDev : Nat) : Parallel (LifeAlike J)
      (deinitDevice table bus cntDev) (deinitDevice table' bus cntDev) :=
    Parallel.bind (onSys_parallel (devIndex_parallel _)) fun dev =>
      callDevHook_parallel hJ _ _ (hhooks.deinit (bus, dev))
  have hbus (cntBus : Nat) : Parallel (LifeAlike J) (deinitBus busTable table cntBus)
      (deinitBus busTable' table' cntBus) := by
    apply Parallel.bind (onSys_parallel (busIndex_parallel _))
    intro bus
    apply Mirrors.read_bind
    intro s t hst
    rw [hJ.config _ _ hst.sys]
    apply Parallel.bind (Parallel.runAll fun cntDev _ => hdevice bus cntDev)
    intro _
    exact callBusHook_parallel hJ bus _ (hhooks.closeBus bus)
  apply Mirrors.read_bind
  intro s t hst
  rw [hJ.config _ _ hst.sys]
  exact (Parallel.runAll fun cntBus _ => hbus cntBus).bind fun _ => Parallel.pure _

end Hooks

end Switcher
