import Switcher.Hardware.Latch
import Switcher.Lib.Bits
import Switcher.Lib.Interleaving

/-!
What a panel of output latches is for: each latch is what the acknowledged
writes to it, and nothing else, have made of it, and an acknowledged read tells
what it is.
-/

namespace Switcher

open Lib.Program Lib.Bits Lib.Interleaving

/-- What an acknowledged write makes of the latch of its device. -/
def Request.apply (latch : BitVec 8) (r : Request) : BitVec 8 :=
  match r.subDev with
  | none => r.value.setWidth 8
  | some i => setBit latch i (r.value ≠ 0)

/-- The value an acknowledged read reports. -/
def Request.reads (r : Request) (latch : BitVec 8) : Value :=
  match r.subDev with
  | none => latch.setWidth 32
  | some i => if latch.getLsbD i then 1 else 0

theorem Request.setWidth_masked {r : Request} {i : Fin 32} (hsub : r.subDev = some i)
    (latch : BitVec 8) : (r.masked i (latch.setWidth 32)).setWidth 8 = r.apply latch := by
  have hmask : (r.masked i (latch.setWidth 32)).setWidth 8 =
      setBit ((latch.setWidth 32).setWidth 8) i (r.value ≠ 0) :=
    Lib.Bits.setWidth_masked (latch.setWidth 32) i.isLt (by decide) (r.value ≠ 0)
  simpa [Request.apply, hsub] using hmask

theorem Request.picked_latch (r : Request) (latch : BitVec 8) :
    r.picked (latch.setWidth 32) = r.reads latch := by
  cases hsub : r.subDev with
  | none => simp [Request.picked, Request.reads, hsub]
  | some i =>
      have hbit := shiftRight_and_one (latch.setWidth 32) i.val
      have hlatch : latch.getLsbD i = (latch.setWidth 32).getLsbD i.val := by simp
      simp only [Request.picked, Request.reads, hsub]
      rw [hlatch]
      exact hbit

/-- The latch of the device in `slot`, on a chip that is the whole system. -/
structure LatchAt (slot : Slot) (handle : DevHandle) (chip : ChipId) (events : List Event)
    (value : BitVec 8) (t : Daemon (List Event) Latch) : Prop where
  wired : Wired latches t.config t.world.spi slot handle chip
  hasSlot : t.config.HasSlot slot
  events : t.buf = events
  value : t.world.os.value = value

section Request

variable {r : Request} {handle : DevHandle} {chip : ChipId} {events : List Event}
  {latch : BitVec 8}

theorem callDrv_latch {α : Type} (call : DrvCall)
    {f : DevDrv BusHandle DevHandle (List Event) (Env Latch) →
      IoBus BusHandle → DrvM DevHandle (List Event) (Env Latch) α}
    {after : α → BitVec 8} {Q : α → Prop} {slot : Slot}
    (hdrv : ∀ config spi, Wired latches config spi slot handle chip →
      Returns (AtLatch (config.devices slot) spi events latch)
        (f (devDrv (latches.chipKernel chip) handle) (config.busses slot.1))
        (fun a t => AtLatch (config.devices slot) spi events (after a) t ∧ Q a)) :
    Returns (LatchAt slot handle chip events latch)
      (callDrv (devDrv (latches.chipKernel chip)) slot.1.val slot.2.val call f)
      (fun a t => LatchAt slot handle chip events (after a) t ∧ Q a) := by
  intro t ht
  obtain ⟨a, u, hact, hu, hq⟩ :=
    hdrv t.config t.world.spi ht.wired (t.drvState slot) ⟨rfl, rfl, ht.events, ht.value⟩
  refine ⟨a, Sys.storeDrv { t with calls := t.calls ++ [call] } slot u, ?_, ⟨?_, ?_, ?_, ?_⟩, hq⟩
  · rw [callDrv_slot _ slot call f ht.wired.drvHandle]
    exact onDevice_of_ok hact
  · simp only [Sys.storeDrv, hu.dev, hu.spi, IoConfig.setDev_devices]
    exact ht.wired
  · exact ht.hasSlot
  · exact hu.buf
  · exact hu.value

variable (hlatch : handle.IsLatch)
include hlatch

theorem drvRead_latch :
    Returns (LatchAt r.slot handle chip events latch)
      (drvRead (devDrv (latches.chipKernel chip)) recorder r.data)
      (fun result t => LatchAt r.slot handle chip events latch t ∧
        (0 < result.1 → result.2 = latch.setWidth 32)) :=
  callDrv_latch _ fun _ _ hw => read_latch hw hlatch _ _

theorem drvWrite_latch (value : Value) :
    Returns (LatchAt r.slot handle chip events latch)
      (drvWrite (devDrv (latches.chipKernel chip)) recorder r.data value)
      (fun numWritten t => LatchAt r.slot handle chip events
        (if 0 < numWritten then value.setWidth 8 else latch) t ∧ True) :=
  callDrv_latch _ fun _ _ hw =>
    (write_latch hw hlatch _ _).imp (fun _ h => h) fun _ _ h => ⟨h, trivial⟩

theorem writeValue_latch (value : Value) :
    Returns (LatchAt r.slot handle chip [] latch)
      (writeValue (devDrv (latches.chipKernel chip)) recorder r.data value)
      (fun _ t => ∃ events, LatchAt r.slot handle chip events
        (if events.any Event.isSuccess then value.setWidth 8 else latch) t) := by
  intro t ht
  obtain ⟨numWritten, u, hrun, hu, -⟩ := drvWrite_latch hlatch value t ht
  refine ⟨_, _, writeValue_run _ recorder hrun, ?_⟩
  by_cases hwritten : 0 < numWritten
  · rw [if_pos hwritten] at hu ⊢
    exact ⟨[.success r.data], hu.wired, hu.hasSlot, by simp [recorder, hu.events], hu.value⟩
  · rw [if_neg hwritten] at hu ⊢
    exact ⟨[], hu⟩

theorem performWrite_latch :
    Returns (LatchAt r.slot handle chip [] latch)
      (performWrite (devDrv (latches.chipKernel chip)) recorder r.data)
      (fun _ t => ∃ events, LatchAt r.slot handle chip events
        (if events.any Event.isSuccess then r.apply latch else latch) t) := by
  cases hsub : r.subDev with
  | none =>
      have happly : r.apply latch = r.value.setWidth 8 := by simp [Request.apply, hsub]
      rw [performWrite_whole _ recorder hsub, happly]
      exact writeValue_latch hlatch r.value
  | some i =>
      intro t ht
      obtain ⟨⟨numRead, value⟩, u, hrun, hu, hvalue⟩ := drvRead_latch hlatch t ht
      rw [performWrite_subDev _ recorder hsub hrun]
      by_cases hread : numRead ≤ 0
      · rw [if_pos hread]
        refine ⟨_, _, rfl, [.error "Could not read from device.".toList], hu.wired, hu.hasSlot,
          ?_, hu.value⟩
        rw [hu.events]
        rfl
      · have hlatched : value = latch.setWidth 32 := hvalue (by simpa using hread)
        obtain ⟨result, u', hrun', events, hu'⟩ :=
          writeValue_latch hlatch (r.masked i value) u hu
        rw [hlatched, Request.setWidth_masked hsub latch] at hu'
        rw [if_neg hread]
        exact ⟨result, u', hrun', events, hu'⟩

theorem performRead_latch :
    Returns (LatchAt r.slot handle chip [] latch)
      (performRead (devDrv (latches.chipKernel chip)) recorder r.data)
      (fun _ t => ∃ events, LatchAt r.slot handle chip events latch t ∧
        (events.any Event.isSuccess →
          events = [.success { r.data with value := r.reads latch }])) := by
  intro t ht
  obtain ⟨⟨numRead, value⟩, u, hrun, hu, hvalue⟩ := drvRead_latch hlatch t ht
  rw [performRead_run _ recorder hrun]
  by_cases hread : 0 < numRead
  · have hlatched : value = latch.setWidth 32 := hvalue hread
    rw [if_pos hread, hlatched, r.picked_latch]
    refine ⟨_, _, rfl, [.success { r.data with value := r.reads latch }],
      ⟨hu.wired, hu.hasSlot, ?_, hu.value⟩, fun _ => rfl⟩
    rw [hu.events]
    rfl
  · rw [if_neg hread]
    exact ⟨_, u, rfl, [], hu, by simp⟩

/-- A request served on the chip of its device alone. -/
theorem serveRequest_latch (events : List Event) :
    Returns (LatchAt r.slot handle chip events latch)
      (serveRequest (devDrv (latches.chipKernel chip)) recorder [] r)
      (fun served t => LatchAt r.slot handle chip served.content
          (if r.isSet ∧ served.acknowledged then r.apply latch else latch) t ∧
        (r.isSet = false → served.acknowledged →
          served.content = [.success { r.data with value := r.reads latch }])) := by
  intro t ht
  have hfresh : LatchAt r.slot handle chip [] latch { t with buf := [] } :=
    ⟨ht.wired, ht.hasSlot, rfl, ht.value⟩
  cases hset : r.isSet with
  | true =>
      obtain ⟨⟨rc, data⟩, u, hrun, events, hu⟩ := performWrite_latch hlatch _ hfresh
      refine ⟨_, u, serveRequest_run _ recorder [] ht.hasSlot (by simpa [hset] using hrun),
        ?_, by simp⟩
      simpa [Served.acknowledged, hu.events] using hu
  | false =>
      obtain ⟨⟨rc, data⟩, u, hrun, events, hu, hreads⟩ := performRead_latch hlatch _ hfresh
      refine ⟨_, u, serveRequest_run _ recorder [] ht.hasSlot (by simpa [hset] using hrun),
        ?_, ?_⟩
      · simpa [hu.events] using hu
      · intro _
        simpa [Served.acknowledged, hu.events] using hreads

end Request

/-- A board on which every configured device is a latch of its own. -/
structure LatchRack (chipOf : Slot → ChipId) (s : Rack (List Event) ChipId Latch) : Prop where
  populated : Populated latches chipOf s
  isLatch : ∀ slot handle, s.config.HasSlot slot →
    (s.config.devices slot).drvHandle = some handle → handle.IsLatch

/-- The latch of the device in `slot`. -/
def Sys.latch (s : Rack (List Event) ChipId Latch) (chipOf : Slot → ChipId) (slot : Slot) :
    BitVec 8 :=
  (s.chips (chipOf slot)).value

/-- A request with what serving it gave back. -/
abbrev LogEntry := Request × Served (List Event)

def LogEntry.writes (slot : Slot) (entry : LogEntry) : Bool :=
  entry.1.slot = slot ∧ entry.1.isSet ∧ entry.2.acknowledged

/-- The writes to `slot` on which `cb_success` was invoked, in order. -/
def acknowledgedWrites (slot : Slot) (log : List LogEntry) : List Request :=
  (log.filter (LogEntry.writes slot)).map Prod.fst

/-- The latch in `slot` after `log`, if it was `latch` before. -/
def latchAfter (latch : BitVec 8) (slot : Slot) (log : List LogEntry) : BitVec 8 :=
  (acknowledgedWrites slot log).foldl Request.apply latch

theorem latchAfter_cons (latch : BitVec 8) (slot : Slot) (entry : LogEntry)
    (log : List LogEntry) :
    latchAfter latch slot (entry :: log) =
      latchAfter (if entry.writes slot then entry.1.apply latch else latch) slot log := by
  cases hwrites : entry.writes slot with
  | true => simp [latchAfter, acknowledgedWrites, hwrites]
  | false => simp [latchAfter, acknowledgedWrites, hwrites]

/-- An acknowledged read reports the latch of its device. -/
def LogEntry.Truthful (entry : LogEntry) (latch : BitVec 8) : Prop :=
  entry.1.isSet = false → entry.2.acknowledged →
    entry.2.content = [.success { entry.1.data with value := entry.1.reads latch }]

variable {chipOf : Slot → ChipId}

theorem LatchRack.step {s : Rack (List Event) ChipId Latch} (h : LatchRack chipOf s)
    {r : Request} (hslot : s.config.HasSlot r.slot) :
    ∃ served s', serveRequest (devDrv latches.kernel) recorder [] r s = .ok served s' ∧
      LatchRack chipOf s' ∧
      (∀ slot, s'.config.HasSlot slot ↔ s.config.HasSlot slot) ∧
      (∀ slot, s.config.HasSlot slot →
        s'.latch chipOf slot = latchAfter (s.latch chipOf slot) slot [(r, served)]) ∧
      LogEntry.Truthful (r, served) (s.latch chipOf r.slot) := by
  obtain ⟨served, s', t', hrun, hlocal, hstep⟩ := h.populated.serveRequest recorder [] hslot
  obtain ⟨handle, hw⟩ := h.populated.wired r.slot hslot
  have hlatch : handle.IsLatch := h.isLatch r.slot handle hslot hw.drvHandle
  have hstart : LatchAt r.slot handle (chipOf r.slot) [] (s.latch chipOf r.slot)
      (Sys.alone { s with buf := [] } r.slot (chipOf r.slot)) := by
    refine ⟨Wired.alone ?_, hslot, rfl, rfl⟩
    exact hw
  obtain ⟨served', u, hlocal', hu, htruthful⟩ := serveRequest_latch hlatch [] _ hstart
  rw [hlocal] at hlocal'
  obtain ⟨rfl, rfl⟩ : served = served' ∧ t' = u := by simpa using hlocal'
  have hlatches : ∀ slot, s.config.HasSlot slot →
      s'.latch chipOf slot = latchAfter (s.latch chipOf slot) slot [(r, served)] := by
    intro slot hin
    rw [latchAfter_cons]
    by_cases heq : r.slot = slot
    · subst heq
      have hvalue := hu.value
      rw [hstep.os] at hvalue
      simpa [latchAfter, acknowledgedWrites, LogEntry.writes, Sys.latch] using hvalue
    · have hchip : chipOf slot ≠ chipOf r.slot := fun hsame =>
        heq (h.populated.distinct r.slot slot hslot hin hsame.symm)
      simp [latchAfter, acknowledgedWrites, LogEntry.writes, heq, Sys.latch,
        hstep.chip_of_ne hchip]
  refine ⟨served, s', hrun, ⟨hstep.populated h.populated, ?_⟩, hstep.hasSlot_iff, hlatches,
    htruthful⟩
  intro slot handle' hin hdrv
  have hin₀ := (hstep.hasSlot_iff slot).mp hin
  by_cases heq : slot = r.slot
  · subst heq
    exact h.isLatch r.slot handle' hin₀ (hstep.wiring.drvHandle ▸ hdrv)
  · rw [hstep.dev_of_ne heq] at hdrv
    exact h.isLatch slot handle' hin₀ hdrv

theorem latchAfter_append (latch : BitVec 8) (slot : Slot) (before after : List LogEntry) :
    latchAfter latch slot (before ++ after) =
      latchAfter (latchAfter latch slot before) slot after := by
  simp [latchAfter, acknowledgedWrites]

/-- After any run of requests each latch is the fold of the writes to it that
were acknowledged, and every acknowledged read reported what the latch was when
it was served. -/
theorem latches_refine_acknowledged {s : Rack (List Event) ChipId Latch}
    (h : LatchRack chipOf s) (requests : List Request)
    (hslots : ∀ r ∈ requests, s.config.HasSlot r.slot) :
    ∃ replies s', runAll (serveRequest (devDrv latches.kernel) recorder []) requests s =
        .ok replies s' ∧
      replies.length = requests.length ∧
      (∀ slot, s.config.HasSlot slot → s'.latch chipOf slot =
        latchAfter (s.latch chipOf slot) slot (requests.zip replies)) ∧
      (∀ before (entry : LogEntry) after, requests.zip replies = before ++ entry :: after →
        entry.Truthful (latchAfter (s.latch chipOf entry.1.slot) entry.1.slot before)) := by
  induction requests generalizing s with
  | nil =>
      refine ⟨[], s, rfl, rfl, fun _ _ => rfl, ?_⟩
      intro before entry after hlog
      simp at hlog
  | cons r rest ih =>
      obtain ⟨served, s₁, hrun, h₁, hsame, hstep, htruthful⟩ := h.step (hslots r (by simp))
      have hrest : ∀ r ∈ rest, s₁.config.HasSlot r.slot := fun r hr =>
        (hsame r.slot).mpr (hslots r (List.mem_cons_of_mem _ hr))
      obtain ⟨replies, s', hruns, hlength, hlatches, hreads⟩ := ih h₁ hrest
      refine ⟨served :: replies, s', runAll_cons_of_ok hrun hruns, by simp [hlength], ?_, ?_⟩
      · intro slot hin
        rw [hlatches slot ((hsame slot).mpr hin), hstep slot hin, ← latchAfter_append]
        rfl
      · intro before entry after hlog
        cases before with
        | nil =>
            obtain ⟨rfl, -⟩ : (r, served) = entry ∧ rest.zip replies = after := by
              simpa using hlog
            exact htruthful
        | cons first before =>
            obtain ⟨rfl, hlog'⟩ : (r, served) = first ∧
                rest.zip replies = before ++ entry :: after := by simpa using hlog
            have hin : s.config.HasSlot entry.1.slot := by
              have hmem : entry ∈ rest.zip replies := by simp [hlog']
              exact hslots _ (List.mem_cons_of_mem _ (List.of_mem_zip hmem).1)
            have hread := hreads before entry after hlog'
            rw [hstep _ hin, ← latchAfter_append] at hread
            exact hread

theorem flakyRack_latchRack (fails : Nat → Bool) : LatchRack ioExtChip (flakyRack fails []) := by
  refine ⟨flakyRack_populated fails [], ?_⟩
  intro slot handle hslot hdrv
  rcases ioExtConfig_slots hslot with rfl | rfl | rfl
  all_goals
    obtain rfl := Option.some.inj hdrv
    exact trivial

/-- Two clients of `config/io_ext.ini` write different bits of one PCF8574; the transfer
that is to set the second one fails. -/
theorem latches_refine_acknowledged_ioExt :
    let requests : List Request :=
      [⟨(0, 0), some 3, true, 1⟩, ⟨(0, 0), some 5, true, 1⟩, ⟨(0, 0), none, false, 0⟩]
    ∃ replies s', runAll (serveRequest (devDrv latches.kernel) recorder []) requests
        (flakyRack (· = 3) []) = .ok replies s' ∧
      replies.length = requests.length ∧
      (∀ slot, ioExtConfig.HasSlot slot → s'.latch ioExtChip slot =
        latchAfter 0 slot (requests.zip replies)) ∧
      (∀ before (entry : LogEntry) after, requests.zip replies = before ++ entry :: after →
        entry.Truthful (latchAfter 0 entry.1.slot before)) :=
  latches_refine_acknowledged (flakyRack_latchRack _) _ (by decide)

end Switcher
