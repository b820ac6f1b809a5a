import Switcher.Service.Brackets
import Switcher.Service.Hooks

/-!
The driver calls of a whole service: `io_init`, any number of requests and
`io_deinit`, over arbitrary drivers whose hooks may or may not be there. The drivers
have to return only where the order of their calls allows a call, from the states
that their own invariant allows; those of this program do.
-/

namespace Switcher

open Lib.Program Lib.Interleaving

variable {ω δ β W α : Type} (busTable : ω → BusDrv W) (table : δ → DevDrv ω δ β W)

/-- `io_init`, the requests one after another, and `io_deinit`. -/
def serviceRun (cb : Callbacks β) (requests : List (IoData × IoCmd)) : LifeM ω δ β W Int := do
  let _ ← ioInit busTable table
  let _ ← runAll (fun r => serveIo table cb r.1 r.2) requests
  ioDeinit busTable table

section Statement

variable (config : IoConfig ω δ) (I : Life ω δ β W → Prop)

/-- The counts fit the tables, and every device within them has a driver. -/
structure IoConfig.Serviceable : Prop where
  busses : config.numBusses ≤ maxBusses
  devices : ∀ b : Fin maxBusses, b.val < config.numBusses →
    (config.busses b).numDevices ≤ maxIoDevices
  driver : ∀ slot, config.HasSlot slot → (config.devices slot).drvHandle.isSome

/-- What a driver may rely on when it is called: the counts and drivers are as
configured, its own invariant holds, and the calls so far with this one begin a
bracketed sequence. -/
structure Callable (call : HookCall) (s : Life ω δ β W) : Prop where
  shaped : Shaped config s.sys
  inv : I s
  order : Bracketable busTable table config (s.trace ++ [call])

/-- Called where it may be, the function returns, with whatever result, and the
invariant holds again. -/
def BusReturns (b : Fin maxBusses) (call : HookCall) (act : BusM W α) : Prop :=
  ∀ s, Callable busTable table config I call s →
    ∃ a t, act ⟨(s.sys.config.busses b).busData, s.sys.world⟩ = .ok a t ∧
      I ⟨s.sys.storeBus b t, s.trace ++ [call]⟩

/-- So does a function of a device driver, and it leaves `drv_handle` alone. -/
def DevReturns (slot : Slot) (call : HookCall) (act : IoBus ω → DrvM δ β W α) : Prop :=
  ∀ s, Callable busTable table config I call s →
    ∃ a t, act (s.sys.config.busses slot.1) (s.sys.drvState slot) = .ok a t ∧
      t.dev.drvHandle = (s.sys.drvState slot).dev.drvHandle ∧
      I ⟨s.sys.storeDrv slot t, s.trace ++ [call]⟩

/-- The drivers of the configured buses and devices return. Their invariant is about
what they can see: the configuration, the world and the calls so far. -/
structure DriversReturn : Prop where
  seen : ∀ s t, I s → t.sys.config = s.sys.config → t.sys.world = s.sys.world →
    t.trace = s.trace → I t
  openBus : ∀ b handle hook, (b.val : Int) < config.numBusses →
    (config.busses b).drvHandle = some handle → (busTable handle).openBus = some hook →
      BusReturns busTable table config I b (.openBus b) hook
  closeBus : ∀ b handle hook, (b.val : Int) < config.numBusses →
    (config.busses b).drvHandle = some handle → (busTable handle).closeBus = some hook →
      BusReturns busTable table config I b (.closeBus b) hook
  init : ∀ slot handle hook, config.HasSlot slot →
    (config.devices slot).drvHandle = some handle → (table handle).init = some hook →
      DevReturns busTable table config I slot (.init slot) hook
  deinit : ∀ slot handle hook, config.HasSlot slot →
    (config.devices slot).drvHandle = some handle → (table handle).deinit = some hook →
      DevReturns busTable table config I slot (.deinit slot) hook
  read : ∀ slot handle cb value, config.HasSlot slot →
    (config.devices slot).drvHandle = some handle →
      DevReturns busTable table config I slot (.io (.read slot.1.val slot.2.val))
        fun bus => (table handle).read cb bus value
  write : ∀ slot handle cb value, config.HasSlot slot →
    (config.devices slot).drvHandle = some handle →
      DevReturns busTable table config I slot (.io (.write slot.1.val slot.2.val))
        fun bus => (table handle).write cb bus value

/-- The indices of the request are in range, where they are used. -/
def RequestInRange (r : IoData × IoCmd) : Prop :=
  config.InRange r.1.idxBus r.1.idxDev ∧
    (r.2 = .write → r.1.idxSubDev = idxInvalid ∨ 0 ≤ r.1.idxSubDev ∧ r.1.idxSubDev < 32)

end Statement

section Serving

variable {busTable table} {config : IoConfig ω δ} {I : Life ω δ β W → Prop} {cb : Callbacks β}
  {data : IoData} {trace : List HookCall}

/-- In the midst of a request: its driver calls come behind `trace`. -/
structure MidRequest (config : IoConfig ω δ) (I : Life ω δ β W → Prop) (trace : List HookCall)
    (s : Sys ω δ β W) : Prop where
  shaped : Shaped config s
  inRange : ∀ call ∈ s.calls, config.InRange call.indices.1 call.indices.2
  inv : I ⟨s, trace ++ s.calls.map .io⟩

variable (hdrivers : DriversReturn busTable table config I) (hconfig : config.Serviceable)
include hdrivers

theorem reply_returns (f : β → β) :
    Returns (MidRequest config I trace)
      (modify fun t => { t with buf := f t.buf } : SysM ω δ β W Unit)
      (fun _ => MidRequest config I trace) :=
  Returns.modified fun _ h =>
    ⟨⟨h.shaped.numBusses, h.shaped.numDevices, h.shaped.busHandle, h.shaped.drvHandle⟩, h.inRange,
      hdrivers.seen _ _ h.inv rfl rfl rfl⟩

theorem answered_returns (f : β → β) (result : Int × IoData) :
    Returns (MidRequest config I trace)
      (do modify fun t => { t with buf := f t.buf }
          return result : SysM ω δ β W (Int × IoData)) (fun _ => MidRequest config I trace) :=
  (reply_returns hdrivers f).bind fun _ => Returns.pure fun _ h => h

variable (htrace : Receptive busTable table config trace)
include hconfig htrace

/-- A driver call on a configured device. -/
theorem callDrv_returns (hrange : config.InRange data.idxBus data.idxDev)
    {kind : Int → Int → DrvCall} (hkind : ∀ i j, (kind i j).indices = (i, j))
    {f : DevDrv ω δ β W → IoBus ω → DrvM δ β W α}
    (hf : ∀ slot handle, config.HasSlot slot → (config.devices slot).drvHandle = some handle →
      DevReturns busTable table config I slot (.io (kind slot.1.val slot.2.val))
        (f (table handle))) :
    Returns (MidRequest config I trace)
      (callDrv table data.idxBus data.idxDev (kind data.idxBus data.idxDev) f)
      (fun _ => MidRequest config I trace) := by
  obtain ⟨b, hb, hbus, hdev, hcount⟩ := id hrange
  intro s hs
  have hlt := hconfig.devices b (by omega)
  let d : Fin maxIoDevices := ⟨data.idxDev.toNat, by omega⟩
  have hd : data.idxDev = d.val := (Int.toNat_of_nonneg hdev).symm
  have hslot : config.HasSlot (b, d) := by
    constructor <;> simp only <;> omega
  rw [hb, hd] at hrange ⊢
  obtain ⟨handle, hhandle⟩ := Option.isSome_iff_exists.mp (hconfig.driver (b, d) hslot)
  have hdrv := (hs.shaped.drvHandle (b, d)).trans hhandle
  let noted : Sys ω δ β W := { s with calls := s.calls ++ [kind b.val d.val] }
  have hnoted : Shaped config noted :=
    ⟨hs.shaped.numBusses, hs.shaped.numDevices, hs.shaped.busHandle, hs.shaped.drvHandle⟩
  have hcalls : ∀ call ∈ noted.calls, config.InRange call.indices.1 call.indices.2 := by
    intro call hcall
    rcases List.mem_append.mp hcall with hold | hnew
    · exact hs.inRange call hold
    · rw [List.mem_singleton.mp hnew, hkind]
      exact hrange
  have hall : trace ++ noted.calls.map .io =
      trace ++ s.calls.map .io ++ [.io (kind b.val d.val)] := by
    rw [List.map_append, List.append_assoc]
    rfl
  have hcallable : Callable busTable table config I (.io (kind b.val d.val))
      ⟨noted, trace ++ s.calls.map .io⟩ := by
    refine ⟨hnoted, hdrivers.seen _ _ hs.inv rfl rfl rfl, ?_⟩
    rw [← hall]
    exact htrace _ hcalls
  obtain ⟨a, u, hrun, hkept, hinv⟩ := hf (b, d) handle hslot hhandle _ hcallable
  refine ⟨a, noted.storeDrv (b, d) u, ?_, hnoted.storeDrv hkept, hcalls, ?_⟩
  · exact (callDrv_slot table (b, d) _ f hdrv).trans (onDevice_of_ok hrun)
  · rw [← hall] at hinv
    exact hinv

theorem writeValue_returns (hrange : config.InRange data.idxBus data.idxDev) (value : Value) :
    Returns (MidRequest config I trace) (writeValue table cb data value)
      (fun _ => MidRequest config I trace) := by
  refine (callDrv_returns hdrivers hconfig htrace hrange (fun _ _ => rfl) fun slot handle =>
    hdrivers.write slot handle _ _).bind ?_
  intro numWritten
  by_cases hwritten : numWritten > 0
  · rw [if_pos hwritten]
    exact answered_returns hdrivers _ _
  · rw [if_neg hwritten]
    exact Returns.pure fun _ h => h

theorem performWrite_returns (hrange : config.InRange data.idxBus data.idxDev)
    (hsub : data.idxSubDev = idxInvalid ∨ 0 ≤ data.idxSubDev ∧ data.idxSubDev < 32) :
    Returns (MidRequest config I trace) (performWrite table cb data)
      (fun _ => MidRequest config I trace) := by
  unfold performWrite
  by_cases hnone : data.idxSubDev = idxInvalid
  · rw [if_neg (not_not_intro hnone)]
    exact writeValue_returns hdrivers hconfig htrace hrange _
  · rw [if_pos hnone]
    refine (callDrv_returns hdrivers hconfig htrace hrange (fun _ _ => rfl) fun slot handle =>
      hdrivers.read slot handle _ _).bind ?_
    rintro ⟨numRead, value⟩
    by_cases hread : numRead ≤ 0
    · simp only [if_pos hread]
      exact answered_returns hdrivers _ _
    · simp only [if_neg hread, shiftOne, if_pos (hsub.resolve_left hnone)]
      exact (Returns.pure (Q := fun _ => MidRequest config I trace) fun _ h => h).bind fun _ =>
        writeValue_returns hdrivers hconfig htrace hrange _

theorem performRead_returns (hrange : config.InRange data.idxBus data.idxDev) :
    Returns (MidRequest config I trace) (performRead table cb data)
      (fun _ => MidRequest config I trace) := by
  refine (callDrv_returns hdrivers hconfig htrace hrange (fun _ _ => rfl) fun slot handle =>
    hdrivers.read slot handle _ _).bind ?_
  rintro ⟨numRead, value⟩
  simp only
  by_cases hread : numRead > 0
  · rw [if_pos hread]
    by_cases hsub : data.idxSubDev ≠ idxInvalid
    · rw [if_pos hsub]
      by_cases hin : 0 ≤ data.idxSubDev ∧ data.idxSubDev < 32
      · rw [if_pos hin]
        exact answered_returns hdrivers _ _
      · rw [if_neg hin]
        exact (reply_returns hdrivers _).bind fun _ => answered_returns hdrivers _ _
    · rw [if_neg hsub]
      exact answered_returns hdrivers _ _
  · rw [if_neg hread]
    exact Returns.pure fun _ h => h

theorem performIo_returns (cb : Callbacks β) {cmd : IoCmd}
    (hrange : RequestInRange config (data, cmd)) :
    Returns (MidRequest config I trace) (performIo table cb data cmd)
      (fun _ => MidRequest config I trace) := by
  have hslot : config.InRange data.idxBus data.idxDev := hrange.1
  have hsub := hrange.2
  obtain ⟨b, hb, hbus, hdev, hcount⟩ := id hslot
  intro s hs
  have hknown : ¬ (data.idxDev = idxInvalid ∨
      data.idxDev ≥ (s.config.busses b).numDevices) := by
    rw [hs.shaped.numDevices, idxInvalid]
    omega
  rw [performIo_knownBus hb (by rw [hs.shaped.numBusses]; exact hbus), if_neg hknown]
  cases cmd with
  | none => exact answered_returns hdrivers _ _ s hs
  | write => exact performWrite_returns hdrivers hconfig htrace hslot (hsub rfl) s hs
  | read => exact performRead_returns hdrivers hconfig htrace hslot s hs

end Serving

section Passes

variable {busTable table} {config : IoConfig ω δ} {I : Life ω δ β W → Prop}
  {trace : List HookCall}

/-- The counts and drivers are as configured, the invariant of the drivers holds, and
these calls have been made. -/
structure Traced (config : IoConfig ω δ) (I : Life ω δ β W → Prop) (trace : List HookCall)
    (s : Life ω δ β W) : Prop where
  shaped : Shaped config s.sys
  inv : I s
  trace : s.trace = trace

theorem callDevHook_returns {f : DevDrv ω δ β W → Option (IoBus ω → DrvM δ β W Int)}
    {slot : Slot} {call : HookCall}
    (hf : ∀ handle hook, (config.devices slot).drvHandle = some handle →
      f (table handle) = some hook → DevReturns busTable table config I slot call hook)
    (hplace : Bracketable busTable table config
      (trace ++ noteIf (hasDevHook table config f slot) call)) :
    Returns (Traced config I trace) (callDevHook table slot call f)
      (fun _ => Traced config I (trace ++ noteIf (hasDevHook table config f slot) call)) := by
  rintro s ⟨hs, hinv, rfl⟩
  have hhandle := hs.drvHandle slot
  cases hhook : (config.devices slot).drvHandle.bind fun handle => f (table handle) with
  | none =>
      have hnote : noteIf (hasDevHook table config f slot) call = [] := by
        simp [noteIf, hasDevHook, hhook]
      rw [hnote, List.append_nil]
      exact ⟨(), s, callDevHook_none (by rw [hhandle, hhook]), hs, hinv, rfl⟩
  | some hook =>
      have hnote : noteIf (hasDevHook table config f slot) call = [call] := by
        simp [noteIf, hasDevHook, hhook]
      rw [hnote] at hplace ⊢
      obtain ⟨handle, hsome, hdrv⟩ := Option.bind_eq_some_iff.mp hhook
      obtain ⟨rc, t, hrun, hkept, ht⟩ := hf handle hook hsome hdrv s ⟨hs, hinv, hplace⟩
      exact ⟨(), _, callDevHook_ok (by rw [hhandle, hhook]) hrun, hs.storeDrv hkept, ht, rfl⟩

theorem callBusHook_returns {f : BusDrv W → Option (BusM W Int)} {b : Fin maxBusses}
    {call : HookCall}
    (hf : ∀ handle hook, (config.busses b).drvHandle = some handle →
      f (busTable handle) = some hook → BusReturns busTable table config I b call hook)
    (hplace : Bracketable busTable table config
      (trace ++ noteIf (hasBusHook busTable config f b) call)) :
    Returns (Traced config I trace) (callBusHook busTable b call f)
      (fun _ => Traced config I (trace ++ noteIf (hasBusHook busTable config f b) call)) := by
  rintro s ⟨hs, hinv, rfl⟩
  have hhandle := hs.busHandle b
  cases hhook : (config.busses b).drvHandle.bind fun handle => f (busTable handle) with
  | none =>
      have hnote : noteIf (hasBusHook busTable config f b) call = [] := by
        simp [noteIf, hasBusHook, hhook]
      rw [hnote, List.append_nil]
      exact ⟨(), s, callBusHook_none (by rw [hhandle, hhook]), hs, hinv, rfl⟩
  | some hook =>
      have hnote : noteIf (hasBusHook busTable config f b) call = [call] := by
        simp [noteIf, hasBusHook, hhook]
      rw [hnote] at hplace ⊢
      obtain ⟨handle, hsome, hdrv⟩ := Option.bind_eq_some_iff.mp hhook
      obtain ⟨rc, t, hrun, ht⟩ := hf handle hook hsome hdrv s ⟨hs, hinv, hplace⟩
      exact ⟨(), _, callBusHook_ok (by rw [hhandle, hhook]) hrun, hs.storeBus b t, ht, rfl⟩

/-- A loop whose rounds each add their calls to the trace. -/
theorem loop_returns {step : Nat → LifeM ω δ β W Unit} {part : Nat → List HookCall} {n : Nat}
    (hplace : Bracketable busTable table config (trace ++ (List.range n).flatMap part))
    (hstep : ∀ i < n, ∀ trace, Bracketable busTable table config (trace ++ part i) →
      Returns (Traced config I trace) (step i) (fun _ => Traced config I (trace ++ part i))) :
    Returns (Traced config I trace) (runAll step (List.range n))
      (fun _ => Traced config I (trace ++ (List.range n).flatMap part)) := by
  have hloop := runAll_range_returns (n := n)
    (I := fun i => Traced config I (trace ++ (List.range i).flatMap part))
    fun i hi => (hstep i hi _ (hplace.round hi)).imp (fun _ h => h) fun _ t h => by
      rwa [List.append_assoc, ← List.flatMap_singleton part i, ← List.flatMap_append,
        ← List.range_succ] at h
  exact hloop.imp (fun _ h => by simpa using h) fun _ _ h => h

/-- A loop with as many rounds as a counter of the configuration says. -/
theorem counted_returns (count : Life ω δ β W → Int) {n : Int}
    (hcount : ∀ s, Traced config I trace s → count s = n) {step : Nat → LifeM ω δ β W Unit}
    {part : Nat → List HookCall}
    (hplace : Bracketable busTable table config (trace ++ (List.range n.toNat).flatMap part))
    (hstep : ∀ i < n.toNat, ∀ trace, Bracketable busTable table config (trace ++ part i) →
      Returns (Traced config I trace) (step i) (fun _ => Traced config I (trace ++ part i)))
    {next : LifeM ω δ β W α} {Q : α → Life ω δ β W → Prop}
    (hnext : Returns (Traced config I (trace ++ (List.range n.toNat).flatMap part)) next Q) :
    Returns (Traced config I trace)
      (do let s ← get
          let _ ← runAll step (List.range (count s).toNat)
          next) Q := by
  refine Returns.get_bind fun s hs => ?_
  rw [hcount s hs]
  refine ((loop_returns hplace hstep).imp ?_ fun _ _ h => h).bind fun _ => hnext
  rintro _ rfl
  exact hs

variable (hdrivers : DriversReturn busTable table config I) (hconfig : config.Serviceable)
include hconfig

/-- The body of the loops over the devices of a bus. -/
theorem device_returns {f : DevDrv ω δ β W → Option (IoBus ω → DrvM δ β W Int)}
    {call : Slot → HookCall}
    (hf : ∀ slot handle hook, config.HasSlot slot → (config.devices slot).drvHandle = some handle →
      f (table handle) = some hook → DevReturns busTable table config I slot (call slot) hook)
    {b : Fin maxBusses} (hb : (b.val : Int) < config.numBusses) {j : Nat}
    (hj : j < (config.busses b).numDevices.toNat) (trace : List HookCall)
    (hplace : Bracketable busTable table config (trace ++ atIndex (fun d =>
      noteIf (hasDevHook table config f (b, d)) (call (b, d))) j)) :
    Returns (Traced config I trace)
      (do let dev ← onSys (devIndex j)
          callDevHook table (b, dev) (call (b, dev)) f)
      (fun _ => Traced config I (trace ++ atIndex (fun d =>
        noteIf (hasDevHook table config f (b, d)) (call (b, d))) j)) := by
  have hlt : j < maxIoDevices := by
    have := hconfig.devices b hb
    omega
  have hslot : config.HasSlot (b, ⟨j, hlt⟩) := ⟨hb, Int.lt_toNat.mp hj⟩
  intro s hs
  rw [atIndex, dif_pos hlt] at hplace ⊢
  rw [bind_of_ok (devIndex_nat j hlt s)]
  exact callDevHook_returns (fun handle hook => hf _ handle hook hslot) hplace s hs

include hdrivers

theorem initBus_returns {i : Nat} (hi : i < config.numBusses.toNat) (trace : List HookCall)
    (hplace : Bracketable busTable table config (trace ++ atIndex (fun b =>
      noteIf (hasBusHook busTable config (·.openBus) b) (.openBus b) ++
        (List.range (config.busses b).numDevices.toNat).flatMap (atIndex fun d =>
          noteIf (hasDevHook table config (·.init) (b, d)) (.init (b, d))) ++ []) i)) :
    Returns (Traced config I trace) (initBus busTable table i)
      (fun _ => Traced config I (trace ++ atIndex (fun b =>
        noteIf (hasBusHook busTable config (·.openBus) b) (.openBus b) ++
          (List.range (config.busses b).numDevices.toNat).flatMap (atIndex fun d =>
            noteIf (hasDevHook table config (·.init) (b, d)) (.init (b, d))) ++ []) i)) := by
  have hlt : i < maxBusses := by
    have := hconfig.busses
    omega
  have hb : ((⟨i, hlt⟩ : Fin maxBusses).val : Int) < config.numBusses := Int.lt_toNat.mp hi
  intro s hs
  rw [atIndex, dif_pos hlt, List.append_nil, ← List.append_assoc] at hplace ⊢
  rw [initBus, bind_of_ok (busIndex_nat i hlt s)]
  refine ((callBusHook_returns (fun handle hook => hdrivers.openBus _ handle hook hb)
    hplace.append_left).bind fun _ => ?_) s hs
  exact counted_returns _ (fun _ ht => ht.shaped.numDevices ⟨i, hlt⟩) hplace
    (fun j hj => device_returns hconfig hdrivers.init hb hj) (Returns.pure fun _ h => h)

theorem deinitBus_returns {i : Nat} (hi : i < config.numBusses.toNat) (trace : List HookCall)
    (hplace : Bracketable busTable table config (trace ++ atIndex (fun b =>
      [] ++ (List.range (config.busses b).numDevices.toNat).flatMap (atIndex fun d =>
          noteIf (hasDevHook table config (·.deinit) (b, d)) (.deinit (b, d))) ++
        noteIf (hasBusHook busTable config (·.closeBus) b) (.closeBus b)) i)) :
    Returns (Traced config I trace) (deinitBus busTable table i)
      (fun _ => Traced config I (trace ++ atIndex (fun b =>
        [] ++ (List.range (config.busses b).numDevices.toNat).flatMap (atIndex fun d =>
            noteIf (hasDevHook table config (·.deinit) (b, d)) (.deinit (b, d))) ++
          noteIf (hasBusHook busTable config (·.closeBus) b) (.closeBus b)) i)) := by
  have hlt : i < maxBusses := by
    have := hconfig.busses
    omega
  have hb : ((⟨i, hlt⟩ : Fin maxBusses).val : Int) < config.numBusses := Int.lt_toNat.mp hi
  intro s hs
  rw [atIndex, dif_pos hlt, List.nil_append, ← List.append_assoc] at hplace ⊢
  rw [deinitBus, bind_of_ok (busIndex_nat i hlt s)]
  exact counted_returns _ (fun _ ht => ht.shaped.numDevices ⟨i, hlt⟩) hplace.append_left
    (fun j hj => device_returns hconfig hdrivers.deinit hb hj)
    (callBusHook_returns (fun handle hook => hdrivers.closeBus _ handle hook hb) hplace) s hs

/-- The calls of `io_init`. -/
theorem ioInit_returns (trace : List HookCall)
    (hplace : Bracketable busTable table config (trace ++ initTrace busTable table config)) :
    Returns (Traced config I trace) (ioInit busTable table)
      (fun _ => Traced config I (trace ++ initTrace busTable table config)) :=
  counted_returns _ (fun _ hs => hs.shaped.numBusses) hplace
    (fun _ hi => initBus_returns hdrivers hconfig hi) (Returns.pure fun _ h => h)

/-- The calls of `io_deinit`. -/
theorem ioDeinit_returns (trace : List HookCall)
    (hplace : Bracketable busTable table config (trace ++ deinitTrace busTable table config)) :
    Returns (Traced config I trace) (ioDeinit busTable table)
      (fun _ => Traced config I (trace ++ deinitTrace busTable table config)) :=
  counted_returns _ (fun _ hs => hs.shaped.numBusses) hplace
    (fun _ hi => deinitBus_returns hdrivers hconfig hi) (Returns.pure fun _ h => h)

/-- After `io_init` and some requests. -/
def InUse (busTable : ω → BusDrv W) (table : δ → DevDrv ω δ β W) (config : IoConfig ω δ)
    (I : Life ω δ β W → Prop) (s : Life ω δ β W) : Prop :=
  ∃ calls : List DrvCall, (∀ call ∈ calls, config.InRange call.indices.1 call.indices.2) ∧
    Traced config I (initTrace busTable table config ++ calls.map .io) s

/-- A request adds calls of configured devices to the trace. -/
theorem serveIo_returns (cb : Callbacks β) {r : IoData × IoCmd}
    (hrange : RequestInRange config r) :
    Returns (InUse busTable table config I) (serveIo table cb r.1 r.2)
      (fun _ => InUse busTable table config I) := by
  rintro s ⟨calls, hcalls, hs, hinv, htrace⟩
  have hfresh : MidRequest config I s.trace { s.sys with calls := [] } := by
    refine ⟨⟨hs.numBusses, hs.numDevices, hs.busHandle, hs.drvHandle⟩,
      fun _ h => absurd h List.not_mem_nil, hdrivers.seen _ _ hinv rfl rfl ?_⟩
    rw [List.map_nil, List.append_nil]
  have hreceptive : Receptive busTable table config s.trace := by
    rw [htrace]
    exact initTrace_receptive hcalls
  obtain ⟨a, t, hrun, ht⟩ :=
    performIo_returns hdrivers hconfig hreceptive cb hrange _ hfresh
  refine ⟨a, ⟨t, s.trace ++ t.calls.map .io⟩, by simp only [serveIo, hrun], calls ++ t.calls, ?_,
    ht.shaped, ht.inv, ?_⟩
  · intro call hcall
    rcases List.mem_append.mp hcall with hold | hnew
    · exact hcalls call hold
    · exact ht.inRange call hnew
  · rw [htrace, List.map_append, ← List.append_assoc]

end Passes

section Drivers

variable {K : Kernel κ} {config : IoConfig BusHandle DevHandle}
  {s : Life BusHandle DevHandle β (Env κ)} {slot : Slot} {call : HookCall}

/-- The hooks that the device needs have been called, and it has not been given back. -/
def Prepared (table : DevHandle → DevDrv BusHandle DevHandle β (Env κ))
    (config : IoConfig BusHandle DevHandle) (trace : List HookCall) (slot : Slot) : Prop :=
  (hasDevHook table config (·.init) slot → .init slot ∈ trace) ∧ .deinit slot ∉ trace

/-- What the drivers of this program keep to between their calls: the pointers that
they follow are there, and whatever device is ready works. -/
structure Manned (K : Kernel κ) (config : IoConfig BusHandle DevHandle)
    (s : Life BusHandle DevHandle β (Env κ)) : Prop where
  equipped : s.sys.config.Equipped
  paths : s.sys.config.PathsFit
  works : ∀ slot, config.HasSlot slot → Prepared (β := β) (devDrv K) config s.trace slot →
    Works s.sys slot

/-- A call that takes no pointer away. -/
theorem Manned.grows {t : Daemon β κ} (hs : Manned K config s) (hgrows : Grows s.sys t)
    (hpaths : t.config.PathsFit)
    (hnew : ∀ slot, config.HasSlot slot → call = .init slot → Works t slot) :
    Manned K config ⟨t, s.trace ++ [call]⟩ where
  equipped := hgrows.equipped hs.equipped
  paths := hpaths
  works slot hslot hready := by
    by_cases hcall : call = .init slot
    · exact hnew slot hslot hcall
    · refine hgrows.works (hs.works slot hslot ⟨fun hhook => ?_, fun hmem => ?_⟩)
      · rcases List.mem_append.mp (hready.1 hhook) with hold | hlast
        · exact hold
        · exact absurd (List.mem_singleton.mp hlast).symm hcall
      · exact hready.2 (List.mem_append_left _ hmem)

/-- By the time of a call that it needs its hooks for, the device works. -/
theorem Manned.works_of_order (hs : Manned K config s) (hslot : config.HasSlot slot)
    (horder : Bracketable (β := β) (busDrv K) (devDrv K) config (s.trace ++ [call]))
    (hinit : MustPrecede (.init slot) call) (hdeinit : .deinit slot ∉ s.trace) :
    Works s.sys slot :=
  hs.works slot hslot ⟨horder.init_mem hslot hinit, hdeinit⟩

theorem drvHandle_of_grows {s : Daemon β κ} {t : DrvState DevHandle β (Env κ)}
    (h : Grows s (s.storeDrv slot t)) : t.dev.drvHandle = (s.drvState slot).dev.drvHandle := by
  have hkept := h.drvHandle slot
  rwa [Sys.storeDrv, IoConfig.devices_setDev] at hkept

variable {b : Fin maxBusses} {handle : BusHandle} {hook : BusM (Env κ) Int}

theorem openBus_returns (hb : (b.val : Int) < config.numBusses)
    (hhandle : (config.busses b).drvHandle = some handle)
    (hhook : (busDrv K handle).openBus = some hook) :
    BusReturns (busDrv K) (devDrv K) config (Manned (β := β) K config) b (.openBus b) hook := by
  intro s hs
  have hsome : ((s.sys.config.busses b).drvHandle.bind fun h => (busDrv K h).openBus) =
      some hook := by
    rw [hs.shaped.busHandle, hhandle]
    exact hhook
  have hin : (b.val : Int) < s.sys.config.numBusses := by
    rw [hs.shaped.numBusses]
    exact hb
  obtain ⟨v, hrun, hgrows, hpaths⟩ :=
    openHook_returns (.openBus b) hs.inv.equipped hin hs.inv.paths
  obtain ⟨rc, t, hact, rfl⟩ := hook_of_callBusHook hsome hrun
  exact ⟨rc, t, hact, hs.inv.grows hgrows hpaths fun _ _ h => by cases h⟩

theorem closeBus_returns (hb : (b.val : Int) < config.numBusses)
    (hhandle : (config.busses b).drvHandle = some handle)
    (hhook : (busDrv K handle).closeBus = some hook) :
    BusReturns (busDrv K) (devDrv K) config (Manned (β := β) K config) b (.closeBus b) hook := by
  intro s hs
  have hsome : ((s.sys.config.busses b).drvHandle.bind fun h => (busDrv K h).closeBus) =
      some hook := by
    rw [hs.shaped.busHandle, hhandle]
    exact hhook
  have hin : (b.val : Int) < s.sys.config.numBusses := by
    rw [hs.shaped.numBusses]
    exact hb
  obtain ⟨v, hrun, hconfig, hspi⟩ :=
    closeHook_returns (.closeBus b) (hs.inv.equipped.busData b hin)
  obtain ⟨rc, t, hact, rfl⟩ := hook_of_callBusHook hsome hrun
  refine ⟨rc, t, hact, hs.inv.grows (grows_of_config hconfig hspi) ?_ fun _ _ h => by cases h⟩
  rw [hconfig]
  exact hs.inv.paths

variable {drv : DevHandle} {act : IoBus BusHandle → DrvM DevHandle β (Env κ) Int}

theorem init_returns (hK : K.Allocates) (hslot : config.HasSlot slot)
    (hdrv : (config.devices slot).drvHandle = some drv)
    (hhook : (devDrv K drv).init = some act) :
    DevReturns (busDrv K) (devDrv K) config (Manned K config) slot (.init slot) act := by
  intro s hs
  have hsome : ((s.sys.config.devices slot).drvHandle.bind fun h => (devDrv K h).init) =
      some act := by
    rw [hs.shaped.drvHandle, hdrv]
    exact hhook
  obtain ⟨v, hrun, hgrows, hworks⟩ := initHook_returns (.init slot) hK hs.inv.equipped
    ((hs.shaped.hasSlot slot).mpr hslot)
  obtain ⟨rc, t, hact, rfl⟩ := hook_of_callDevHook hsome hrun
  refine ⟨rc, t, hact, ?_, hs.inv.grows hgrows hs.inv.paths ?_⟩
  · exact drvHandle_of_grows hgrows
  · intro other _ hsame
    rw [← HookCall.init.inj hsame]
    exact hworks

theorem deinit_returns (hone : config.OnePiface) (hslot : config.HasSlot slot)
    (hdrv : (config.devices slot).drvHandle = some drv)
    (hhook : (devDrv K drv).deinit = some act) :
    DevReturns (busDrv K) (devDrv K) config (Manned K config) slot (.deinit slot) act := by
  intro s hs
  have hfirst : .deinit slot ∉ s.trace := hs.order.deinit_notMem
  have hworks := hs.inv.works_of_order hslot hs.order (.initDeinit slot) hfirst
  have hsome : ((s.sys.config.devices slot).drvHandle.bind fun h => (devDrv K h).deinit) =
      some act := by
    rw [hs.shaped.drvHandle, hdrv]
    exact hhook
  have hpresent : (s.sys.config.devices slot).drvHandle.isSome := by
    rw [hs.shaped.drvHandle, hdrv]
    rfl
  obtain ⟨v, hrun, hwired, -, hothers⟩ := deinitHook_returns (.deinit slot)
    (hs.shaped.onePiface hone) ((hs.shaped.hasSlot slot).mpr hslot) hpresent hworks.piface
  obtain ⟨rc, t, hact, rfl⟩ := hook_of_callDevHook hsome hrun
  refine ⟨rc, t, hact, ?_, hwired.equipped hs.inv.equipped, hs.inv.paths, ?_⟩
  · have hkept := hwired.drvHandle slot
    rwa [Sys.storeDrv, IoConfig.devices_setDev] at hkept
  · intro other hother hready
    have hne : other ≠ slot := by
      rintro rfl
      exact hready.2 (by simp)
    have hbefore : Works s.sys other := by
      refine hs.inv.works other hother ⟨fun hhook => ?_, fun hmem => ?_⟩
      · simpa using hready.1 hhook
      · exact hready.2 (List.mem_append_left _ hmem)
    have hdev : (s.sys.storeDrv slot t).config.devices other = s.sys.config.devices other :=
      s.sys.config.devices_setDev_of_ne _ hne
    constructor
    · rw [hdev]
      exact hbefore.i2c
    · exact (hothers other hne ((hs.shaped.hasSlot other).mpr hother)).1 hbefore.piface

/-- A request to a device comes between its hooks. -/
theorem io_returns {f : DevDrv BusHandle DevHandle β (Env κ) → IoBus BusHandle →
      DrvM DevHandle β (Env κ) α} (hf : RunsOnWorking K f) {io : DrvCall}
    (hindices : io.indices = (↑slot.1.val, ↑slot.2.val)) (hslot : config.HasSlot slot)
    (hdrv : (config.devices slot).drvHandle = some drv) :
    DevReturns (busDrv K) (devDrv K) config (Manned K config) slot (.io io)
      (f (devDrv K drv)) := by
  intro s hs
  have hworks := hs.inv.works_of_order hslot hs.order (.initIo slot io hindices)
    (hs.order.not_mem (.ioDeinit slot io hindices))
  obtain ⟨a, t, hrun, hgrows⟩ :=
    drv_working hf hworks ((hs.shaped.drvHandle slot).trans hdrv)
  refine ⟨a, t, hrun, ?_, hs.inv.grows hgrows hs.inv.paths fun _ _ h => by cases h⟩
  exact drvHandle_of_grows hgrows

/-- The drivers of this program return wherever the order of their calls allows one. -/
theorem drivers_return (hK : K.Allocates) (hone : config.OnePiface) :
    DriversReturn (busDrv K) (devDrv K) config (Manned (β := β) K config) where
  seen s t hs hconfig hworld htrace := by
    refine ⟨by rw [hconfig]; exact hs.equipped, by rw [hconfig]; exact hs.paths, ?_⟩
    intro slot hslot hready
    rw [htrace] at hready
    exact (grows_of_same hconfig hworld).works (hs.works slot hslot hready)
  openBus _ _ _ hb hhandle hhook := openBus_returns hb hhandle hhook
  closeBus _ _ _ hb hhandle hhook := closeBus_returns hb hhandle hhook
  init _ _ _ hslot hdrv hhook := init_returns hK hslot hdrv hhook
  deinit _ _ _ hslot hdrv hhook := deinit_returns hone hslot hdrv hhook
  read _ _ cb value hslot hdrv := io_returns (read_runsOnWorking cb value) rfl hslot hdrv
  write _ _ cb value hslot hdrv := io_returns (write_runsOnWorking cb value) rfl hslot hdrv

/-- Before `io_init` only those devices have to work that need no hook for it. -/
theorem manned_start (hequipped : config.Equipped) (hpaths : config.PathsFit) (buf : β)
    (w : Env κ) : Manned K config ⟨⟨config, buf, w, []⟩, []⟩ := by
  refine ⟨hequipped, hpaths, ?_⟩
  intro slot hslot hready
  obtain ⟨drv, hdrv⟩ := Option.isSome_iff_exists.mp (hequipped.driver slot hslot)
  have hnohook : hasDevHook (β := β) (devDrv K) config (·.init) slot = false := by
    cases hhook : hasDevHook (β := β) (devDrv K) config (·.init) slot with
    | false => rfl
    | true => exact absurd (hready.1 hhook) List.not_mem_nil
  cases drv with
  | pcf8574 =>
      constructor
      · intro handle hhandle hi2c
        obtain rfl := Option.some.inj (hdrv.symm.trans hhandle)
        obtain ⟨hbus, hdev⟩ := hequipped.i2c slot _ hslot hdrv hi2c
        exact exists_i2cDevice hi2c hbus hdev fun h => by cases h
      · intro hpiface
        cases hdrv.symm.trans hpiface
  | mcp23017 =>
      rw [hasDevHook, hdrv] at hnohook
      cases hnohook
  | piface =>
      rw [hasDevHook, hdrv] at hnohook
      cases hnohook

theorem IoConfig.Equipped.serviceable (h : config.Equipped) : config.Serviceable :=
  ⟨h.bounded.busses.2, fun b _ => (h.bounded.devices b).2, h.driver⟩

end Drivers

section Bracketed

variable {busTable table} {config : IoConfig ω δ} {I : Life ω δ β W → Prop}

/-- The driver calls of a whole service are properly bracketed. -/
theorem serviceRun_bracketed (hdrivers : DriversReturn busTable table config I)
    (hconfig : config.Serviceable) (cb : Callbacks β) {requests : List (IoData × IoCmd)}
    (hrequests : ∀ r ∈ requests, RequestInRange config r) (buf : β) (w : W)
    (hstart : I ⟨⟨config, buf, w, []⟩, []⟩) :
    ∃ rc t, serviceRun busTable table cb requests ⟨⟨config, buf, w, []⟩, []⟩ = .ok rc t ∧
      Bracketed busTable table config t.trace := by
  have htraced : Traced config I [] (⟨⟨config, buf, w, []⟩, []⟩ : Life ω δ β W) :=
    ⟨⟨rfl, fun _ => rfl, fun _ => rfl, fun _ => rfl⟩, hstart, rfl⟩
  have hinit : Bracketable busTable table config ([] ++ initTrace busTable table config) := by
    have hreceptive : Receptive busTable table config
        (initTrace busTable table config ++ ([] : List DrvCall).map .io) :=
      initTrace_receptive (by simp)
    simpa using hreceptive [] (by simp)
  have hrun : Returns (Traced config I []) (serviceRun busTable table cb requests)
      (fun _ t => Bracketed busTable table config t.trace) := by
    refine (ioInit_returns hdrivers hconfig [] hinit).bind fun _ => ?_
    have hserve := runAll_returns fun r hr =>
      serveIo_returns hdrivers hconfig cb (hrequests r hr)
    refine (hserve.imp ?_ fun _ _ h => h).bind fun _ => ?_
    · exact fun s hs => ⟨[], by simp, by simpa using hs⟩
    · rintro s ⟨calls, hcalls, hs⟩
      have hbracketed : Bracketed busTable table config
          (initTrace busTable table config ++ calls.map .io ++
            deinitTrace busTable table config) :=
        bracketed_of_traces hcalls
      obtain ⟨rc, t, hdeinit, ht⟩ := ioDeinit_returns hdrivers hconfig _
        ⟨[], by rwa [List.append_nil]⟩ s hs
      refine ⟨rc, t, hdeinit, ?_⟩
      show Bracketed busTable table config t.trace
      rw [ht.trace]
      exact hbracketed
  exact hrun _ htraced

/-- `config/io_ext.ini` with an MCP23017 in place of its second expander. -/
def mixedConfig : IoConfig BusHandle DevHandle :=
  ioExtConfig.setDev (0, 1) ⟨some .mcp23017, some ⟨0x38⟩, none⟩

theorem mixedConfig_equipped : mixedConfig.Equipped := by
  refine ⟨⟨by decide, by decide⟩, ?_, by decide, ?_⟩
  · intro slot hslot
    rcases ioExtConfig_slots hslot with rfl | rfl | rfl <;> rfl
  · intro slot handle hslot hhandle hi2c
    rcases ioExtConfig_slots hslot with rfl | rfl | rfl
    · exact ⟨rfl, rfl⟩
    · exact ⟨rfl, rfl⟩
    · exact absurd (Option.some.inj hhandle).symm hi2c

theorem mixedConfig_pathsFit : mixedConfig.PathsFit := by
  have hfit : ∀ b, ∀ data ∈ (mixedConfig.busses b).busData, data.device.length < i2cDevLen := by
    decide
  exact hfit

theorem mixedConfig_onePiface : mixedConfig.OnePiface := by
  have honly {slot : Slot} (h : mixedConfig.HasPiface slot) : slot = (1, 0) := by
    have hpiface := h.piface
    rcases ioExtConfig_slots h.hasSlot with rfl | rfl | rfl
    · cases hpiface
    · cases hpiface
    · rfl
  intro slot other hslot hother
  rw [honly hslot, honly hother]

theorem serviceRun_bracketed_mixed :
    ∃ rc t, serviceRun (busDrv calmKernel) (devDrv calmKernel) recorder
        [(⟨0, 1, 3, 1⟩, IoCmd.write), (⟨1, 0, idxInvalid, 0⟩, IoCmd.read),
          (⟨0, 0, idxInvalid, 0⟩, IoCmd.none)]
        ⟨⟨mixedConfig, [], calmWorld, []⟩, []⟩ = .ok rc t ∧
      Bracketed (β := List Event) (busDrv calmKernel) (devDrv calmKernel) mixedConfig t.trace := by
  refine serviceRun_bracketed (drivers_return (fun _ => rfl) mixedConfig_onePiface)
    mixedConfig_equipped.serviceable recorder ?_ [] calmWorld
    (manned_start mixedConfig_equipped mixedConfig_pathsFit [] calmWorld)
  intro r hr
  simp only [List.mem_cons, List.not_mem_nil, or_false] at hr
  rcases hr with rfl | rfl | rfl
  · exact ⟨⟨0, rfl, by decide, by decide, by decide⟩, fun _ => .inr (by decide)⟩
  · exact ⟨⟨1, rfl, by decide, by decide, by decide⟩, fun h => by cases h⟩
  · exact ⟨⟨0, rfl, by decide, by decide, by decide⟩, fun h => by cases h⟩

end Bracketed

end Switcher
