import Switcher.Hardware.Latch
import Switcher.Lib.Interleaving

/-!
Streams of requests to disjoint sets of devices do not disturb each other, also
where the devices share a bus, its handle and the slave address selected on it.
-/

namespace Switcher

open Lib.Program Lib.Interleaving

variable {Chip σ β κ : Type} {P : Population Chip σ} {chipOf : Slot → Chip}

/-- The two racks have the configured slots `scope` and are the same as far as
requests to those in `A` can see. -/
structure SameOn (P : Population Chip σ) (chipOf : Slot → Chip) (scope A : Set Slot)
    (s t : Rack β Chip σ) : Prop where
  left : Populated P chipOf s
  right : Populated P chipOf t
  numBusses : t.config.numBusses = s.config.numBusses
  busses : t.config.busses = s.config.busses
  spi : t.world.spi = s.world.spi
  configured : ∀ slot, s.config.HasSlot slot ↔ slot ∈ scope
  dev : ∀ slot ∈ A, t.config.devices slot = s.config.devices slot
  chip : ∀ slot ∈ A, t.chips (chipOf slot) = s.chips (chipOf slot)

variable [DecidableEq Chip]

section Unwinding

variable {scope A : Set Slot} {s t : Rack β Chip σ} {r : Request}

omit [DecidableEq Chip] in
theorem SameOn.hasSlot (h : SameOn P chipOf scope A s t) {slot : Slot} (hslot : slot ∈ scope) :
    s.config.HasSlot slot ∧ t.config.HasSlot slot := by
  have hs : s.config.HasSlot slot := (h.configured slot).mpr hslot
  refine ⟨hs, ?_⟩
  simpa only [IoConfig.HasSlot, h.numBusses, h.busses] using hs

omit [DecidableEq Chip] in
/-- Seen from a slot in `A`, the two racks are one and the same device. -/
theorem SameOn.alone (h : SameOn P chipOf scope A s t) {slot : Slot} (hmem : slot ∈ A)
    (fresh : β) :
    Sys.alone { t with buf := fresh } slot (chipOf slot) =
      Sys.alone { s with buf := fresh } slot (chipOf slot) := by
  have hchip := h.chip slot hmem
  simp only [Sys.chips] at hchip
  simp only [Sys.alone, Sys.chips, h.numBusses, h.busses, h.dev slot hmem, h.spi, hchip]

variable (hA : A ⊆ scope) (cb : Callbacks β) (fresh : β)
include hA

theorem sameOn_mine (hmem : r.slot ∈ A) :
    Matches (SameOn P chipOf scope A) (serveRequest (devDrv P.kernel) cb fresh r)
      (serveRequest (devDrv P.kernel) cb fresh r) := by
  intro s t hst
  obtain ⟨hs, ht⟩ := hst.hasSlot (hA hmem)
  obtain ⟨served, s', u, hrun, hlocal, hstep⟩ := hst.left.serveRequest cb fresh hs
  obtain ⟨served', t', u', hrun', hlocal', hstep'⟩ := hst.right.serveRequest cb fresh ht
  rw [hst.alone hmem fresh, hlocal] at hlocal'
  obtain ⟨rfl, rfl⟩ : served = served' ∧ u = u' := by simpa using hlocal'
  refine ⟨served, s', t', hrun, hrun', ?_⟩
  exact
    { left := hstep.populated hst.left
      right := hstep'.populated hst.right
      numBusses := by rw [hstep'.numBusses, hstep.numBusses, hst.numBusses]
      busses := by rw [hstep'.busses, hstep.busses, hst.busses]
      spi := by rw [hstep'.spi, hstep.spi, hst.spi]
      configured := fun slot => (hstep.hasSlot_iff slot).trans (hst.configured slot)
      dev := by
        intro slot hslot
        by_cases heq : slot = r.slot
        · rw [heq, ← hstep.dev, ← hstep'.dev]
        · rw [hstep.dev_of_ne heq, hstep'.dev_of_ne heq, hst.dev slot hslot]
      chip := by
        intro slot hslot
        by_cases heq : chipOf slot = chipOf r.slot
        · rw [heq, ← hstep.os, ← hstep'.os]
        · rw [hstep.chip_of_ne heq, hstep'.chip_of_ne heq, hst.chip slot hslot] }

theorem sameOn_other (hslot : r.slot ∈ scope) (hmem : r.slot ∉ A)
    (hst : SameOn P chipOf scope A s t) :
    ∃ served s', serveRequest (devDrv P.kernel) cb fresh r s = .ok served s' ∧
      SameOn P chipOf scope A s' t := by
  obtain ⟨hs, -⟩ := hst.hasSlot hslot
  obtain ⟨served, s', u, hrun, -, hstep⟩ := hst.left.serveRequest cb fresh hs
  have hne : ∀ slot ∈ A, slot ≠ r.slot := by
    rintro slot hin rfl
    exact hmem hin
  refine ⟨served, s', hrun, ?_⟩
  exact
    { left := hstep.populated hst.left
      right := hst.right
      numBusses := by rw [hstep.numBusses, hst.numBusses]
      busses := by rw [hstep.busses, hst.busses]
      spi := by rw [hstep.spi, hst.spi]
      configured := fun slot => (hstep.hasSlot_iff slot).trans (hst.configured slot)
      dev := by
        intro slot hin
        rw [hstep.dev_of_ne (hne slot hin), hst.dev slot hin]
      chip := by
        intro slot hin
        have hchip : chipOf slot ≠ chipOf r.slot := fun heq =>
          hne slot hin (hst.left.distinct slot r.slot (hst.hasSlot (hA hin)).1 hs heq)
        rw [hstep.chip_of_ne hchip, hst.chip slot hin] }

theorem sameOn_unwinding :
    Unwinding (serveRequest (devDrv P.kernel) cb fresh) (fun r => r.slot ∈ A)
      (fun r => r.slot ∈ scope \ A) (SameOn P chipOf scope A) :=
  { mine := fun _ hmem => sameOn_mine hA cb fresh hmem
    other := fun _ hmem _ _ hst => sameOn_other hA cb fresh hmem.1 hmem.2 hst }

end Unwinding

/-- Requests of several streams, tagged by stream, whose streams share no device:
interleaved with the others in any way, a stream gets the replies it gets alone
and leaves its devices, driver data included, and their chips as it does alone. -/
theorem streams_isolated [DecidableEq κ] {s : Rack β Chip σ} (hp : Populated P chipOf s)
    (cb : Callbacks β) (fresh : β) (trace : List (κ × Request))
    (hslots : ∀ entry ∈ trace, s.config.HasSlot entry.2.slot)
    (hdisjoint : ∀ a ∈ trace, ∀ b ∈ trace, a.1 ≠ b.1 → a.2.slot ≠ b.2.slot) (tag : κ) :
    ∃ replies s' t',
      runTagged (serveRequest (devDrv P.kernel) cb fresh) trace s = .ok replies s' ∧
      runAll (serveRequest (devDrv P.kernel) cb fresh) (own tag trace) s =
        .ok (own tag replies) t' ∧
      ∀ r ∈ own tag trace,
        s'.chips (chipOf r.slot) = t'.chips (chipOf r.slot) ∧
        s'.config.devices r.slot = t'.config.devices r.slot := by
  let A : Set Slot := { slot | ∃ r ∈ own tag trace, r.slot = slot }
  let scope : Set Slot := { slot | s.config.HasSlot slot }
  have hA : A ⊆ scope := by
    rintro slot ⟨r, hr, rfl⟩
    exact hslots (tag, r) (mem_own.mp hr)
  have hmine : ∀ entry ∈ trace, entry.1 = tag → entry.2.slot ∈ A := by
    rintro ⟨k, r⟩ hentry rfl
    exact ⟨r, mem_own.mpr hentry, rfl⟩
  have hother : ∀ entry ∈ trace, entry.1 ≠ tag → entry.2.slot ∈ scope \ A := by
    intro entry hentry hne
    refine ⟨hslots entry hentry, ?_⟩
    rintro ⟨r, hr, heq⟩
    exact hdisjoint (tag, r) (mem_own.mp hr) entry hentry (Ne.symm hne) heq
  have hstart : SameOn P chipOf scope A s s :=
    ⟨hp, hp, rfl, rfl, rfl, fun _ => Iff.rfl, fun _ _ => rfl, fun _ _ => rfl⟩
  obtain ⟨replies, s', t', hrun, halone, hst⟩ :=
    (sameOn_unwinding hA cb fresh).isolated tag trace hmine hother s s hstart
  refine ⟨replies, s', t', hrun, halone, ?_⟩
  intro r hr
  exact ⟨(hst.chip r.slot ⟨r, hr, rfl⟩).symm, (hst.dev r.slot ⟨r, hr, rfl⟩).symm⟩

/-- The two PCF8574s of `config/io_ext.ini`, on one bus, serve a client each. -/
theorem streams_isolated_ioExt :
    let step := serveRequest (devDrv latches.kernel)
      ⟨fun data _ => some data, fun _ _ => none⟩ (none : Option IoData)
    let trace : List (Bool × Request) :=
      [(true, ⟨(0, 0), some 3, true, 1⟩), (false, ⟨(0, 1), none, true, 0x55⟩),
        (true, ⟨(0, 0), none, false, 0⟩)]
    ∃ replies s' t', runTagged step trace (ioExtRack none) = .ok replies s' ∧
      runAll step (own true trace) (ioExtRack none) = .ok (own true replies) t' ∧
      ∀ r ∈ own true trace,
        s'.chips (ioExtChip r.slot) = t'.chips (ioExtChip r.slot) ∧
        s'.config.devices r.slot = t'.config.devices r.slot :=
  streams_isolated (flakyRack_populated _ none) _ none _ (by decide) (by decide) true

end Switcher
