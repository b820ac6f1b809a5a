import Switcher.Driver.Rounds
import Switcher.Service.Direction

/-!
Writing one output of an MCP23017. `perform_io` reads the device, replaces one
bit and writes the result back; but the read turns all pins to inputs, so what
it finds is the levels outside them and not the latch it is about to rewrite.
-/

namespace Switcher

open Lib.Program Lib.Bits Lib.Interleaving

/-- The direction the driver believes in. -/
def IoDev.ioState {δ : Type} (dev : IoDev δ) : Mcp23017IoState :=
  match dev.devData with
  | none => .none
  | some data => data.ioState

/-- An MCP23017 as the whole system, with no success reported so far. -/
structure ExpanderAt (slot : Slot) (chip : ChipId) (t : Daemon (List Event) Expander) :
    Prop where
  wired : Wired expanders t.config t.world.spi slot .mcp23017 chip
  hasSlot : t.config.HasSlot slot
  notStale : NotStale (t.config.devices slot) t.world.os
  quiet : t.buf.any Event.isSuccess = false

/-- What the next read of the device in `slot` samples. -/
def Sys.sampled (t : Daemon (List Event) Expander) (slot : Slot) : BitVec 16 :=
  t.world.os.sampled (t.config.devices slot).ioState

theorem recorder_quiet {events events' : List Event}
    (h : events' = events ∨ ∃ msg, events' = recorder.error msg events)
    (hquiet : events.any Event.isSuccess = false) : events'.any Event.isSuccess = false := by
  rcases h with rfl | ⟨msg, rfl⟩
  · exact hquiet
  · simp [recorder, hquiet, Event.isSuccess]

section Alone

variable {r : Request} {chip : ChipId} {t : Daemon (List Event) Expander}

theorem ExpanderAt.store {slot : Slot} (h : ExpanderAt slot chip t)
    {u : DrvState DevHandle (List Event) (Env Expander)} (call : DrvCall) {fh : Int}
    {address : BitVec 8} {lo : Nat}
    (htalked : Talked (expanders.chipKernel chip) fh address lo (t.drvState slot) u)
    (hdriven : Driven recorder.error (t.drvState slot) u) :
    ExpanderAt slot chip (Sys.storeDrv { t with calls := t.calls ++ [call] } slot u) := by
  refine ⟨?_, h.hasSlot, ?_, recorder_quiet hdriven.buf h.quiet⟩
  · have hspi : u.world.spi = t.world.spi := htalked.spi
    have hwiring : (t.config.devices slot).SameWiring
        ((t.config.setDev slot u.dev).devices slot) := by
      rw [IoConfig.devices_setDev]
      exact htalked.wiring
    simp only [Sys.storeDrv, hspi]
    exact h.wired.transfer (IoConfig.busses_setDev _ _ _) hwiring
  · simp only [Sys.storeDrv, IoConfig.devices_setDev]
    exact hdriven.notStale

theorem drvRead_expander (h : ExpanderAt r.slot chip t) :
    ∃ numRead value t', drvRead (devDrv (expanders.chipKernel chip)) recorder r.data t =
        .ok (numRead, value) t' ∧
      ExpanderAt r.slot chip t' ∧ t'.world.os.latch = t.world.os.latch ∧
      (0 < numRead → value = (t.sampled r.slot).setWidth 32) := by
  cases h.wired with
  | @mcp23017 busData devBusData hdrv hdata hbus hdev =>
      obtain ⟨data, hsome⟩ := Option.isSome_iff_exists.mp hdata
      obtain ⟨numRead, value, u, hrun, hdriven, hlatch, hvalue⟩ :=
        mcp23017Read_expander hbus (s := t.drvState r.slot) hdev hsome
          (h.notStale data hsome) recorder.error r.value
      obtain ⟨_, u', hrun', htalked⟩ := read_talked (t := t.drvState r.slot)
        (.mcp23017 hsome hbus hdev rfl rfl) recorder.error r.value
      obtain ⟨-, rfl⟩ := EStateM.Result.ok.inj (hrun.symm.trans hrun')
      refine ⟨numRead, value, _, (callDrv_slot _ r.slot _ _ hdrv).trans (onDevice_of_ok hrun),
        h.store _ htalked hdriven, hlatch, ?_⟩
      simp only [Sys.sampled, IoDev.ioState, hsome]
      exact hvalue

theorem drvWrite_expander (h : ExpanderAt r.slot chip t) (value : Value) :
    ∃ numWritten t', drvWrite (devDrv (expanders.chipKernel chip)) recorder r.data value t =
        .ok numWritten t' ∧
      ExpanderAt r.slot chip t' ∧ (0 < numWritten → t'.world.os.latch = value.setWidth 16) := by
  cases h.wired with
  | @mcp23017 busData devBusData hdrv hdata hbus hdev =>
      obtain ⟨data, hsome⟩ := Option.isSome_iff_exists.mp hdata
      obtain ⟨numWritten, u, hrun, hdriven, hlatch⟩ :=
        mcp23017Write_expander hbus (s := t.drvState r.slot) hdev hsome
          (h.notStale data hsome) recorder.error value
      obtain ⟨_, u', hrun', htalked⟩ := write_talked (t := t.drvState r.slot)
        (.mcp23017 hsome hbus hdev rfl rfl) recorder.error value
      obtain ⟨-, rfl⟩ := EStateM.Result.ok.inj (hrun.symm.trans hrun')
      exact ⟨numWritten, _, (callDrv_slot _ r.slot _ _ hdrv).trans (onDevice_of_ok hrun),
        h.store _ htalked hdriven, hlatch⟩

/-- What serving a request leaves of an `ExpanderAt`. -/
structure ExpanderAfter (slot : Slot) (chip : ChipId) (t : Daemon (List Event) Expander) :
    Prop where
  wired : Wired expanders t.config t.world.spi slot .mcp23017 chip
  notStale : NotStale (t.config.devices slot) t.world.os

theorem ExpanderAt.after {slot : Slot} (h : ExpanderAt slot chip t) (events : List Event) :
    ExpanderAfter slot chip { t with buf := events } :=
  ⟨h.wired, h.notStale⟩

theorem writeValue_expander (h : ExpanderAt r.slot chip t) (value : Value) :
    ∃ result t', writeValue (devDrv (expanders.chipKernel chip)) recorder r.data value t =
        .ok result t' ∧
      ExpanderAfter r.slot chip t' ∧
      (t'.buf.any Event.isSuccess → t'.world.os.latch = value.setWidth 16) := by
  obtain ⟨numWritten, t', hrun, ht', hlatch⟩ := drvWrite_expander h value
  refine ⟨_, _, writeValue_run _ recorder hrun, ?_⟩
  by_cases hwritten : 0 < numWritten
  · rw [if_pos hwritten]
    exact ⟨ht'.after _, fun _ => hlatch hwritten⟩
  · rw [if_neg hwritten]
    exact ⟨ht'.after _, fun hsuccess => absurd hsuccess (by simp [ht'.quiet])⟩

/-- A successful sub-device write puts into the latch what it sampled outside
the pins, with one bit replaced. -/
theorem performWrite_expander (h : ExpanderAt r.slot chip t) :
    ∃ result t', performWrite (devDrv (expanders.chipKernel chip)) recorder r.data t =
        .ok result t' ∧
      ExpanderAfter r.slot chip t' ∧
      (t'.buf.any Event.isSuccess → ∀ i, r.subDev = some i →
        t'.world.os.latch = setBit (t.sampled r.slot) i (r.value ≠ 0)) := by
  cases hsub : r.subDev with
  | none =>
      obtain ⟨result, t', hrun, ht', -⟩ := writeValue_expander h r.value
      rw [performWrite_whole _ recorder hsub]
      exact ⟨result, t', hrun, ht', by simp⟩
  | some i =>
      obtain ⟨numRead, value, u, hrun, hu, -, hvalue⟩ := drvRead_expander h
      rw [performWrite_subDev _ recorder hsub hrun]
      by_cases hread : numRead ≤ 0
      · rw [if_pos hread]
        refine ⟨_, _, rfl, hu.after _, ?_⟩
        intro hsuccess
        exact absurd ((recorder_quiet (.inr ⟨_, rfl⟩) hu.quiet).symm.trans hsuccess) (by simp)
      · rw [if_neg hread]
        obtain ⟨result, t', hrun', ht', hlatch⟩ := writeValue_expander hu (r.masked i value)
        refine ⟨result, t', hrun', ht', ?_⟩
        intro hsuccess j hj
        obtain rfl := Option.some.inj hj
        rw [hlatch hsuccess, hvalue (by simpa using hread)]
        have hmask := setWidth_masked ((t.sampled r.slot).setWidth 32) i.isLt
          (w := 16) (by decide) (r.value ≠ 0)
        rw [Request.masked, hmask]
        simp

theorem performRead_expander (h : ExpanderAt r.slot chip t) :
    ∃ result t', performRead (devDrv (expanders.chipKernel chip)) recorder r.data t =
        .ok result t' ∧ ExpanderAfter r.slot chip t' := by
  obtain ⟨numRead, value, u, hrun, hu, -, -⟩ := drvRead_expander h
  rw [performRead_run _ recorder hrun]
  by_cases hread : 0 < numRead
  · rw [if_pos hread]
    exact ⟨_, _, rfl, hu.after _⟩
  · rw [if_neg hread]
    exact ⟨_, _, rfl, hu.after _⟩

/-- A request served on an MCP23017 alone, from a fresh reply. -/
theorem serveRequest_expander (h : ExpanderAt r.slot chip { t with buf := [] }) :
    ∃ served t', serveRequest (devDrv (expanders.chipKernel chip)) recorder [] r t =
        .ok served t' ∧
      ExpanderAfter r.slot chip t' ∧
      (r.isSet → served.acknowledged → ∀ i, r.subDev = some i →
        t'.world.os.latch = setBit (t.sampled r.slot) i (r.value ≠ 0)) := by
  cases hset : r.isSet with
  | true =>
      obtain ⟨⟨rc, data⟩, t', hrun, ht', hlatch⟩ := performWrite_expander h
      exact ⟨_, t', serveRequest_run _ recorder [] h.hasSlot (by simpa [hset] using hrun), ht',
        fun _ => hlatch⟩
  | false =>
      obtain ⟨⟨rc, data⟩, t', hrun, ht'⟩ := performRead_expander h
      exact ⟨_, t', serveRequest_run _ recorder [] h.hasSlot (by simpa [hset] using hrun), ht',
        by simp⟩

end Alone

variable {chipOf : Slot → ChipId}

theorem Tracked.populated {s : Rack (List Event) ChipId Expander} (h : Tracked chipOf s) :
    Populated expanders chipOf s :=
  ⟨fun _ hslot => ⟨_, h.wired hslot⟩, h.installed.distinct⟩

theorem Tracked.serveRequest {s : Rack (List Event) ChipId Expander} (h : Tracked chipOf s)
    {r : Request} (hslot : s.config.HasSlot r.slot) :
    ∃ served s', serveRequest (devDrv expanders.kernel) recorder [] r s = .ok served s' ∧
      Tracked chipOf s' ∧ (∀ slot, s'.config.HasSlot slot ↔ s.config.HasSlot slot) ∧
      (r.isSet → served.acknowledged → ∀ i, r.subDev = some i →
        (s'.chips (chipOf r.slot)).latch =
          setBit ((s.chips (chipOf r.slot)).sampled (s.config.devices r.slot).ioState) i
            (r.value ≠ 0)) := by
  obtain ⟨served, s', t, hrun, hlocal, hstep⟩ := h.populated.serveRequest recorder [] hslot
  let s₁ : Rack (List Event) ChipId Expander := { s with buf := [] }
  have hdev : (s₁.alone r.slot (chipOf r.slot)).config.devices r.slot =
      s.config.devices r.slot := by
    simp [Sys.alone, s₁]
  have hstart : ExpanderAt r.slot (chipOf r.slot)
      { s₁.alone r.slot (chipOf r.slot) with buf := [] } := by
    refine ⟨?_, hslot, ?_, rfl⟩
    · exact Wired.alone (s := s₁) (h.wired hslot)
    · exact hdev ▸ h.notStale r.slot hslot
  obtain ⟨served', t', hlocal', hafter, hlatch⟩ := serveRequest_expander hstart
  obtain ⟨rfl, rfl⟩ := EStateM.Result.ok.inj (hlocal.symm.trans hlocal')
  refine ⟨served, s', hrun, h.of_inStep hslot hstep hafter.notStale, hstep.hasSlot_iff, ?_⟩
  intro hset hack i hsub
  have hvalue := hlatch hset hack i hsub
  rw [hstep.os, Sys.sampled, hdev] at hvalue
  exact hvalue

/-- After any run of requests, a successful write of output `i` sets it as told
and keeps the others exactly if the levels outside the other pins are what the
latch holds for them. -/
theorem subDevice_write_keeps_others_iff {s₀ : Rack (List Event) ChipId Expander}
    (h : Installed chipOf s₀) (slots : List Slot)
    (hslots : ∀ slot, s₀.config.HasSlot slot → slot ∈ slots) (requests : List Request)
    (hrequests : ∀ r ∈ requests, s₀.config.HasSlot r.slot) {r : Request}
    (hslot : s₀.config.HasSlot r.slot) (hset : r.isSet) {i : Fin 32}
    (hsub : r.subDev = some i) (hi : i.val < 16) :
    ∃ codes u replies s served s',
      runAll (initDev expanders.kernel) slots s₀ = .ok codes u ∧
      runAll (serveRequest (devDrv expanders.kernel) recorder []) requests u =
        .ok replies s ∧
      serveRequest (devDrv expanders.kernel) recorder [] r s = .ok served s' ∧
      (served.acknowledged →
        let before := (s.chips (chipOf r.slot)).latch
        let after := (s'.chips (chipOf r.slot)).latch
        let outside := (s.chips (chipOf r.slot)).sampled (s.config.devices r.slot).ioState
        (after.getLsbD i = decide (r.value ≠ 0) ∧
            ∀ j < 16, j ≠ i.val → after.getLsbD j = before.getLsbD j) ↔
          ∀ j < 16, j ≠ i.val → outside.getLsbD j = before.getLsbD j) := by
  obtain ⟨codes, u, hinit, hstart, hsame⟩ := h.tracked hslots
  have hstep (q : Request) (t : Rack (List Event) ChipId Expander) (ht : Tracked chipOf t)
      (hin : t.config.HasSlot q.slot) :
      ∃ served t', serveRequest (devDrv expanders.kernel) recorder [] q t = .ok served t' ∧
        Tracked chipOf t' ∧ ∀ slot, t'.config.HasSlot slot ↔ t.config.HasSlot slot := by
    obtain ⟨served, t', hserve, ht', hsame', -⟩ := ht.serveRequest hin
    exact ⟨served, t', hserve, ht', hsame'⟩
  obtain ⟨replies, s, hruns, ht, hin⟩ :=
    hstart.runAll (f := Request.slot) hstep hrequests hsame
  obtain ⟨served, s', hserve, -, -, hlatch⟩ := ht.serveRequest ((hin r.slot).mpr hslot)
  refine ⟨codes, u, replies, s, served, s', hinit, hruns, hserve, ?_⟩
  intro hack
  have hafter := hlatch hset hack i hsub
  simp only
  rw [hafter]
  exact setBit_keeps_iff hi _ _ _

/-- One output is on and the levels outside are low. -/
theorem subDevice_write_keeps_others_iff_pair :
    ∃ codes u replies s served s',
      runAll (initDev expanders.kernel) [(0, 0), (0, 1)] (expanderRack .done []) =
        .ok codes u ∧
      runAll (serveRequest (devDrv expanders.kernel) recorder [])
        [⟨(0, 0), none, true, 0x0001⟩] u = .ok replies s ∧
      serveRequest (devDrv expanders.kernel) recorder [] ⟨(0, 0), some 1, true, 1⟩ s =
        .ok served s' ∧
      (served.acknowledged →
        let before := (s.chips (expanderChip (0, 0))).latch
        let after := (s'.chips (expanderChip (0, 0))).latch
        let outside :=
          (s.chips (expanderChip (0, 0))).sampled (s.config.devices (0, 0)).ioState
        (after.getLsbD 1 = decide ((1 : Value) ≠ 0) ∧
            ∀ j < 16, j ≠ 1 → after.getLsbD j = before.getLsbD j) ↔
          ∀ j < 16, j ≠ 1 → outside.getLsbD j = before.getLsbD j) :=
  subDevice_write_keeps_others_iff (fatedRack_installed (fun _ => .done) []) [(0, 0), (0, 1)]
    fatedRack_slots [⟨(0, 0), none, true, 0x0001⟩] (by decide)
    (r := ⟨(0, 0), some 1, true, 1⟩) (by decide) rfl (i := 1) rfl (by decide)

/-- Output 0 is on; switching output 1 on, with success reported, switches it
off. -/
theorem subDevice_write_loses_output :
    Installed expanderChip (expanderRack .done ([] : List Event)) ∧
    ∃ codes u replies s served s',
      runAll (initDev expanders.kernel) [(0, 0), (0, 1)] (expanderRack .done []) =
        .ok codes u ∧
      runAll (serveRequest (devDrv expanders.kernel) recorder [])
        [⟨(0, 0), none, true, 0x0001⟩] u = .ok replies s ∧
      serveRequest (devDrv expanders.kernel) recorder [] ⟨(0, 0), some 1, true, 1⟩ s =
        .ok served s' ∧
      (∀ reply ∈ replies, reply.acknowledged) ∧ served.acknowledged ∧
      (s.chips (expanderChip (0, 0))).latch.getLsbD 0 = true ∧
      (s'.chips (expanderChip (0, 0))).latch.getLsbD 0 = false := by
  have hruns : yields (runAll (initDev expanders.kernel) [(0, 0), (0, 1)])
      (expanderRack .done []) (fun _ u =>
        yields (runAll (serveRequest (devDrv expanders.kernel) recorder [])
          [⟨(0, 0), none, true, 0x0001⟩]) u fun replies s =>
        yields (serveRequest (devDrv expanders.kernel) recorder []
          ⟨(0, 0), some 1, true, 1⟩) s fun served s' =>
        replies.all Served.acknowledged && served.acknowledged &&
          (s.chips (expanderChip (0, 0))).latch.getLsbD 0 &&
          !(s'.chips (expanderChip (0, 0))).latch.getLsbD 0) = true := by
    decide +kernel
  obtain ⟨codes, u, hinit, hruns⟩ := exists_of_yields hruns
  obtain ⟨replies, s, hrequests, hruns⟩ := exists_of_yields hruns
  obtain ⟨served, s', hserve, htest⟩ := exists_of_yields hruns
  simp only [Bool.and_eq_true, List.all_eq_true, Bool.not_eq_true'] at htest
  obtain ⟨⟨⟨hreplies, hserved⟩, hbefore⟩, hafter⟩ := htest
  exact ⟨fatedRack_installed (fun _ => .done) [], codes, u, replies, s, served, s', hinit,
    hrequests, hserve, hreplies, hserved, hbefore, hafter⟩

end Switcher
