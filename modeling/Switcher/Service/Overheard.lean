import Switcher.Http.Events
import Switcher.Http.Heard
import Switcher.Service.Named
import Switcher.Service.Panel

/-!
Someone who hears every reply and sees no request knows the board: the last success
object for a latch, or for one of its outputs, says what it is. A reply to a `GET`
only confirms what was known, and no failure is taken for a success.
-/

namespace Switcher

open Lib.Program Lib.Bits Lib.Interleaving Lib.Numeral Lib.Text

/-- What the object says of the latch in `slot`, to someone who takes it for
`latch`. An object with an index outside the value says nothing. -/
def IoData.tells (data : IoData) (slot : Slot) (latch : BitVec 8) : BitVec 8 :=
  if data.idxBus = slot.1.val ∧ data.idxDev = slot.2.val then
    if data.idxSubDev = idxInvalid then data.value.setWidth 8
    else if 0 ≤ data.idxSubDev ∧ data.idxSubDev < 32 then
      setBit latch data.idxSubDev.toNat (data.value ≠ 0)
    else latch
  else latch

/-- What is known of the latch in `slot` after a reply. -/
def believed (slot : Slot) (latch : BitVec 8) (reply : List Char) : BitVec 8 :=
  (heard reply).elim latch fun data => data.tells slot latch

/-- A board on which every configured device is a latch of its own. -/
structure LatchBoard {β : Type} (chipOf : Slot → ChipId) (s : Rack β ChipId Latch) : Prop where
  populated : Populated latches chipOf s
  isLatch : ∀ slot handle, s.config.HasSlot slot →
    (s.config.devices slot).drvHandle = some handle → handle.IsLatch

def Sys.latchAt {β : Type} (s : Rack β ChipId Latch) (chipOf : Slot → ChipId) (slot : Slot) :
    BitVec 8 :=
  (s.chips (chipOf slot)).value

/-- From `s` to `t` the latch in `slot` has become `latch`, and nothing else has
changed that a later request could notice. -/
structure Relatched {β : Type} (chipOf : Slot → ChipId) (slot : Slot) (latch : BitVec 8)
    (s t : Rack β ChipId Latch) : Prop where
  board : LatchBoard chipOf t
  hasSlot : ∀ other, t.config.HasSlot other ↔ s.config.HasSlot other
  latch : t.latchAt chipOf slot = latch
  others : ∀ other, s.config.HasSlot other → other ≠ slot →
    t.latchAt chipOf other = s.latchAt chipOf other

/-- The replies say how the latches have changed from `s` to `t`. -/
structure Overheard {β : Type} (chipOf : Slot → ChipId) (replies : List (List Char))
    (s t : Rack β ChipId Latch) : Prop where
  board : LatchBoard chipOf t
  hasSlot : ∀ slot, t.config.HasSlot slot ↔ s.config.HasSlot slot
  latch : ∀ slot, s.config.HasSlot slot →
    t.latchAt chipOf slot = replies.foldl (believed slot) (s.latchAt chipOf slot)

section Says

variable {data : IoData} {slot other : Slot} {latch : BitVec 8}

theorem IoData.tells_other (hbus : data.idxBus = slot.1.val) (hdev : data.idxDev = slot.2.val)
    (hne : other ≠ slot) : data.tells other latch = latch := by
  apply if_neg
  rintro ⟨hbus', hdev'⟩
  apply hne
  apply Prod.ext
  · apply Fin.ext
    omega
  · apply Fin.ext
    omega

/-- A request served with success says what its write has made of the latch. -/
theorem Request.data_tells (r : Request) (latch : BitVec 8) :
    r.data.tells r.slot latch = r.apply latch := by
  unfold IoData.tells
  rw [if_pos ⟨rfl, rfl⟩]
  cases hsub : r.subDev with
  | none =>
      rw [if_pos (Request.idxSubDev_none hsub), Request.apply, hsub]
      rfl
  | some i =>
      obtain ⟨hidx, hne⟩ := Request.idxSubDev_some hsub
      have hrange : 0 ≤ r.data.idxSubDev ∧ r.data.idxSubDev < 32 := by omega
      rw [if_neg hne, if_pos hrange, hidx, Request.apply, hsub]
      rfl

/-- What a read reports of a latch confirms it. -/
theorem Request.reads_tells (r : Request) (latch : BitVec 8) :
    IoData.tells { r.data with value := r.reads latch } r.slot latch = latch := by
  have happly := Request.data_tells { r with value := r.reads latch } latch
  have hkept : Request.apply latch { r with value := r.reads latch } = latch := by
    rcases r.subDev.eq_none_or_eq_some with hsub | ⟨i, hsub⟩
    · simp [Request.apply, Request.reads, hsub]
    · have hon : decide (r.reads latch ≠ 0) = latch.getLsbD i := by
        simp only [Request.reads, hsub]
        cases latch.getLsbD i <;> rfl
      have hset : Request.apply latch { r with value := r.reads latch } =
          setBit latch i (decide (r.reads latch ≠ 0)) := by
        simp only [Request.apply, hsub]
      rw [hset, hon, setBit_self]
  exact happly.trans hkept

theorem IoData.tells_outside (hout : OutsideValue data.idxSubDev) :
    data.tells slot latch = latch := by
  unfold IoData.tells
  rw [if_neg hout.1, if_neg hout.2]
  split <;> rfl

end Says

variable {chipOf : Slot → ChipId}

section Board

variable {β : Type} {s t : Rack β ChipId Latch} {slot : Slot} {latch : BitVec 8}

/-- The reply buffer and the record of calls do not belong to the board. -/
theorem LatchBoard.of_same (h : LatchBoard chipOf s) (hconfig : t.config = s.config)
    (hworld : t.world = s.world) : LatchBoard chipOf t := by
  obtain ⟨config, buf, world, calls⟩ := t
  obtain rfl : config = s.config := hconfig
  obtain rfl : world = s.world := hworld
  exact ⟨⟨h.populated.wired, h.populated.distinct⟩, h.isLatch⟩

theorem Relatched.trans {latch' : BitVec 8} {u : Rack β ChipId Latch}
    (h : Relatched chipOf slot latch s t) (h' : Relatched chipOf slot latch' t u) :
    Relatched chipOf slot latch' s u where
  board := h'.board
  hasSlot other := (h'.hasSlot other).trans (h.hasSlot other)
  latch := h'.latch
  others other hother hne :=
    (h'.others other ((h.hasSlot other).mpr hother) hne).trans (h.others other hother hne)

theorem Relatched.of_same (h : Relatched chipOf slot latch s t) {u : Rack β ChipId Latch}
    (hconfig : u.config = t.config) (hworld : u.world = t.world) :
    Relatched chipOf slot latch s u where
  board := h.board.of_same hconfig hworld
  hasSlot other := by rw [hconfig]; exact h.hasSlot other
  latch := by rw [Sys.latchAt, Sys.chips, hworld]; exact h.latch
  others other hother hne := by
    rw [Sys.latchAt, Sys.chips, hworld]
    exact h.others other hother hne

theorem relatched_of_inStep {local' : Daemon β Latch} (h : LatchBoard chipOf s)
    (hslot : s.config.HasSlot slot) (hstep : InStep s slot (chipOf slot) t local')
    (hvalue : local'.world.os.value = latch) : Relatched chipOf slot latch s t := by
  refine ⟨⟨hstep.populated h.populated, ?_⟩, hstep.hasSlot_iff, ?_, ?_⟩
  · intro other handle hother hdrv
    rw [(hstep.sameWiring other).drvHandle] at hdrv
    exact h.isLatch other handle ((hstep.hasSlot_iff other).mp hother) hdrv
  · rw [Sys.latchAt, ← hstep.os]
    exact hvalue
  · intro other hother hne
    have hchip : chipOf other ≠ chipOf slot := fun hsame =>
      hne (h.populated.distinct other slot hother hslot hsame)
    rw [Sys.latchAt, hstep.chip_of_ne hchip]
    rfl

/-- A driver call on the board: what it does to the latch of its device, it does to
the board. -/
theorem callDrv_relatches {α : Type} (h : LatchBoard chipOf s) (hslot : s.config.HasSlot slot)
    (call : DrvCall)
    {f : (κ : Type) → DevDrv BusHandle DevHandle β (Env κ) →
      IoBus BusHandle → DrvM DevHandle β (Env κ) α}
    {after : α → BitVec 8} {Q : α → Prop}
    (hmatch : ∀ handle bus dev spi, Serves latches.kernel (latches.chipKernel (chipOf slot))
        (OnlyChip s.chips (chipOf slot)) bus dev spi handle →
      Matches (Alike dev spi (OnlyChip s.chips (chipOf slot)))
        (f _ (devDrv latches.kernel handle) bus)
        (f _ (devDrv (latches.chipKernel (chipOf slot)) handle) bus))
    (hlocal : ∀ handle config spi, Wired latches config spi slot handle (chipOf slot) →
      handle.IsLatch →
      Returns (AtLatch (config.devices slot) spi s.buf (s.latchAt chipOf slot))
        (f _ (devDrv (latches.chipKernel (chipOf slot)) handle) (config.busses slot.1))
        (fun a t => AtLatch (config.devices slot) spi s.buf (after a) t ∧ Q a)) :
    ∃ a t, callDrv (devDrv latches.kernel) slot.1.val slot.2.val call (f _) s = .ok a t ∧
      t.buf = s.buf ∧ Relatched chipOf slot (after a) s t ∧ Q a := by
  obtain ⟨handle, hw⟩ := h.populated.wired slot hslot
  have hlatch := h.isLatch slot handle hslot hw.drvHandle
  obtain ⟨a, t, u, hrun, hrun', hstep⟩ := callDrv_matches hw call (hmatch handle) s _
    (InStep.start s slot (chipOf slot))
  have halone := hw.alone
  obtain ⟨a', v, hact, hv, hq⟩ := hlocal handle _ _ halone hlatch
    ((s.alone slot (chipOf slot)).drvState slot) ⟨rfl, rfl, rfl, rfl⟩
  rw [callDrv_slot _ slot call _ halone.drvHandle] at hrun'
  obtain ⟨rfl, hu⟩ := EStateM.Result.ok.inj (hrun'.symm.trans (onDevice_of_ok hact))
  refine ⟨a, t, hrun, ?_, relatched_of_inStep h hslot hstep ?_, hq⟩
  · rw [hstep.buf, hu]
    exact hv.buf
  · rw [hu]
    exact hv.value

variable (h : LatchBoard chipOf s) (hslot : s.config.HasSlot slot) (cb : Callbacks β)
  (idxSubDev : Int) (value : Value)
include h hslot

theorem drvRead_relatches :
    ∃ result t, drvRead (devDrv latches.kernel) cb (slotData slot idxSubDev value) s =
        .ok result t ∧ t.buf = s.buf ∧ Relatched chipOf slot (s.latchAt chipOf slot) s t ∧
      (0 < result.1 → result.2 = (s.latchAt chipOf slot).setWidth 32) := by
  exact callDrv_relatches h hslot (.read slot.1.val slot.2.val)
    (f := fun _ drv bus => drv.read cb.error bus value)
    (Q := fun result => 0 < result.1 → result.2 = (s.latchAt chipOf slot).setWidth 32)
    (fun handle bus dev spi hserves => read_matches hserves value)
    (fun handle config spi hw hlatch => read_latch hw hlatch cb.error value)

theorem drvWrite_relatches (written : Value) :
    ∃ numWritten t,
      drvWrite (devDrv latches.kernel) cb (slotData slot idxSubDev value) written s =
        .ok numWritten t ∧ t.buf = s.buf ∧
      Relatched chipOf slot
        (if 0 < numWritten then written.setWidth 8 else s.latchAt chipOf slot) s t := by
  obtain ⟨numWritten, t, hrun, hbuf, ht, -⟩ := callDrv_relatches h hslot
    (.write slot.1.val slot.2.val) (f := fun _ drv bus => drv.write cb.error bus written)
    (Q := fun _ => True)
    (fun handle bus dev spi hserves => write_matches hserves written)
    (fun handle config spi hw hlatch =>
      (write_latch hw hlatch cb.error written).imp (fun _ ht => ht) fun _ _ ht => ⟨ht, trivial⟩)
  exact ⟨numWritten, t, hrun, hbuf, ht⟩

end Board

/-- What a request on `slot` leaves behind: an object that says what has become of the
latch, or nothing that is taken for one. -/
structure Reported (chipOf : Slot → ChipId) (slot : Slot) (s t : Rack (List Char) ChipId Latch) :
    Prop where
  report : ∃ latch, Relatched chipOf slot latch s t ∧
    ((∃ data buf, t.buf = ioDataToJson data buf ∧ data.FitsIdxs ∧
        data.idxBus = slot.1.val ∧ data.idxDev = slot.2.val ∧
        data.tells slot (s.latchAt chipOf slot) = latch) ∨
      (heard (httpReply t.buf) = none ∧ latch = s.latchAt chipOf slot))

section Perform

variable {s t u : Rack (List Char) ChipId Latch} {slot : Slot} {latch : BitVec 8}
  {data : IoData}

theorem fits_slot (slot : Slot) : FitsIdx slot.1.val ∧ FitsIdx slot.2.val := by
  have hbus := slot.1.isLt
  have hdev := slot.2.isLt
  simp only [maxBusses, maxIoDevices] at hbus hdev
  unfold FitsIdx
  omega

theorem Relatched.reported (h : Relatched chipOf slot latch s t) (hbus : data.idxBus = slot.1.val)
    (hdev : data.idxDev = slot.2.val) (hsub : FitsIdx data.idxSubDev)
    (htells : data.tells slot (s.latchAt chipOf slot) = latch) (buf : List Char) :
    Reported chipOf slot s { t with buf := ioDataToJson data buf } := by
  obtain ⟨hfitsBus, hfitsDev⟩ := fits_slot slot
  refine ⟨latch, h.of_same rfl rfl, .inl ⟨data, buf, rfl, ⟨?_, ?_, hsub⟩, hbus, hdev, htells⟩⟩
  · rw [hbus]
    exact hfitsBus
  · rw [hdev]
    exact hfitsDev

/-- Nothing has changed, and nothing is acknowledged. -/
theorem Relatched.silent (h : Relatched chipOf slot (s.latchAt chipOf slot) s t)
    (hbuf : heard (httpReply t.buf) = none) : Reported chipOf slot s t :=
  ⟨_, h, .inr ⟨hbuf, rfl⟩⟩

theorem Relatched.failed (h : Relatched chipOf slot (s.latchAt chipOf slot) s t)
    (msg buf : List Char) :
    Reported chipOf slot s { t with buf := errorToJson msg buf } := by
  have ht : Relatched chipOf slot (s.latchAt chipOf slot) s
      { t with buf := errorToJson msg buf } := h.of_same rfl rfl
  exact ht.silent (heard_error msg buf)

/-- The latch is first read, which leaves it as it is. -/
theorem Relatched.andReported (h : Relatched chipOf slot (s.latchAt chipOf slot) s t)
    (h' : Reported chipOf slot t u) : Reported chipOf slot s u := by
  obtain ⟨latch, hlatch, hreport⟩ := h'
  rw [h.latch] at hreport
  exact ⟨latch, h.trans hlatch, hreport⟩

theorem Request.fits_idxSubDev (r : Request) : FitsIdx r.data.idxSubDev := by
  unfold FitsIdx
  rcases r.subDev.eq_none_or_eq_some with hsub | ⟨i, hsub⟩
  · rw [Request.idxSubDev_none hsub]
    decide
  · rw [(Request.idxSubDev_some hsub).1]
    omega

variable {r : Request} (h : LatchBoard chipOf s) (hslot : s.config.HasSlot r.slot)
  (hbuf : heard (httpReply s.buf) = none)
include h hslot hbuf

theorem writeValue_reported {written : Value}
    (hwritten : written.setWidth 8 = r.apply (s.latchAt chipOf r.slot)) :
    ∃ result t, writeValue (devDrv latches.kernel) httpCallbacks r.data written s =
      .ok result t ∧ Reported chipOf r.slot s t := by
  obtain ⟨numWritten, t, hrun, hsame, ht⟩ :=
    drvWrite_relatches h hslot httpCallbacks r.idxSubDev r.value written
  refine ⟨_, _, writeValue_run _ httpCallbacks hrun, ?_⟩
  split at ht
  · next hpositive =>
      rw [if_pos hpositive]
      refine ht.reported rfl rfl r.fits_idxSubDev ?_ t.buf
      rw [Request.data_tells, hwritten]
  · next hfailed =>
      rw [if_neg hfailed]
      exact ht.silent (by rw [hsame]; exact hbuf)

theorem performWrite_reported :
    ∃ result t, performWrite (devDrv latches.kernel) httpCallbacks r.data s = .ok result t ∧
      Reported chipOf r.slot s t := by
  rcases r.subDev.eq_none_or_eq_some with hsub | ⟨i, hsub⟩
  · rw [performWrite_whole _ httpCallbacks hsub]
    apply writeValue_reported h hslot hbuf
    simp only [Request.apply, hsub]
  · obtain ⟨⟨numRead, value⟩, t, hrun, hsame, ht, hvalue⟩ :=
      drvRead_relatches h hslot httpCallbacks r.idxSubDev r.value
    rw [performWrite_subDev _ httpCallbacks hsub hrun]
    by_cases hread : numRead ≤ 0
    · rw [if_pos hread]
      exact ⟨_, _, rfl, ht.failed _ _⟩
    · rw [if_neg hread]
      have hslot' : t.config.HasSlot r.slot := (ht.hasSlot _).mpr hslot
      have hwritten : (r.masked i value).setWidth 8 = r.apply (t.latchAt chipOf r.slot) := by
        have hlatched : value = (s.latchAt chipOf r.slot).setWidth 32 :=
          hvalue (Int.not_le.mp hread)
        rw [hlatched, ht.latch]
        exact Request.setWidth_masked hsub _
      obtain ⟨result, u, hwrite, hu⟩ :=
        writeValue_reported ht.board hslot' (by rw [hsame]; exact hbuf) hwritten
      exact ⟨result, u, hwrite, ht.andReported hu⟩

theorem performRead_reported :
    ∃ result t, performRead (devDrv latches.kernel) httpCallbacks r.data s = .ok result t ∧
      Reported chipOf r.slot s t := by
  obtain ⟨⟨numRead, value⟩, t, hrun, hsame, ht, hvalue⟩ :=
    drvRead_relatches h hslot httpCallbacks r.idxSubDev r.value
  rw [performRead_run _ httpCallbacks hrun]
  by_cases hread : 0 < numRead
  · have hlatched : value = (s.latchAt chipOf r.slot).setWidth 32 := hvalue hread
    rw [if_pos hread, hlatched, r.picked_latch]
    refine ⟨_, _, rfl, ht.reported rfl rfl ?_ (r.reads_tells _) _⟩
    exact r.fits_idxSubDev
  · rw [if_neg hread]
    exact ⟨_, _, rfl, ht.silent (by rw [hsame]; exact hbuf)⟩

end Perform

section Outside

variable {s t : Rack (List Char) ChipId Latch} {slot : Slot} {idxSubDev : Int} {value : Value}
  {result : Int × IoData} (h : LatchBoard chipOf s) (hslot : s.config.HasSlot slot)
  (hout : OutsideValue idxSubDev)
include h hslot hout

/-- A write to an output that no value has gets through only by not being made. -/
theorem performWrite_outside_reported
    (hrun : performWrite (devDrv latches.kernel) httpCallbacks (slotData slot idxSubDev value) s =
      .ok result t) : Reported chipOf slot s t := by
  obtain ⟨⟨numRead, before⟩, u, hread, -, hu, -⟩ :=
    drvRead_relatches h hslot httpCallbacks idxSubDev value
  rw [performWrite_outside hout hread] at hrun
  split at hrun
  · obtain ⟨-, rfl⟩ := EStateM.Result.ok.inj hrun
    exact hu.failed _ _
  · cases hrun

theorem performRead_outside_reported (hbuf : heard (httpReply s.buf) = none)
    (hfits : FitsIdx idxSubDev)
    (hrun : performRead (devDrv latches.kernel) httpCallbacks (slotData slot idxSubDev value) s =
      .ok result t) : Reported chipOf slot s t := by
  obtain ⟨⟨numRead, before⟩, u, hread, hsame, hu, -⟩ :=
    drvRead_relatches h hslot httpCallbacks idxSubDev value
  rw [performRead_outside hout hread] at hrun
  obtain ⟨-, rfl⟩ := EStateM.Result.ok.inj hrun
  by_cases hpositive : 0 < numRead
  · rw [if_pos hpositive]
    exact hu.reported rfl rfl hfits (IoData.tells_outside hout) _
  · rw [if_neg hpositive]
    exact hu.silent (by rw [hsame]; exact hbuf)

end Outside

section Requests

variable {s t u : Rack (List Char) ChipId Latch}

theorem Overheard.refl (h : LatchBoard chipOf s) : Overheard chipOf [] s s :=
  ⟨h, fun _ => Iff.rfl, fun _ _ => rfl⟩

theorem Overheard.trans {replies more : List (List Char)} (h : Overheard chipOf replies s t)
    (h' : Overheard chipOf more t u) : Overheard chipOf (replies ++ more) s u where
  board := h'.board
  hasSlot slot := (h'.hasSlot slot).trans (h.hasSlot slot)
  latch slot hslot := by
    rw [h'.latch slot ((h.hasSlot slot).mpr hslot), h.latch slot hslot, List.foldl_append]

theorem Overheard.start {replies : List (List Char)} {buf : List Char}
    (h : Overheard chipOf replies { s with buf := buf } t) : Overheard chipOf replies s t :=
  ⟨h.board, h.hasSlot, h.latch⟩

theorem believed_of_heard_none {reply : List Char} (h : heard reply = none) (slot : Slot)
    (latch : BitVec 8) : believed slot latch reply = latch := by
  rw [believed, h, Option.elim_none]

/-- A reply that acknowledges nothing, and a board that stays as it is. -/
theorem overheard_of_silent {reply : List Char} (h : LatchBoard chipOf s)
    (hconfig : t.config = s.config) (hworld : t.world = s.world) (hreply : heard reply = none) :
    Overheard chipOf [reply] s t := by
  refine ⟨h.of_same hconfig hworld, fun slot => by rw [hconfig], fun slot _ => ?_⟩
  rw [List.foldl_cons, List.foldl_nil, believed_of_heard_none hreply, Sys.latchAt, Sys.chips,
    hworld]
  rfl

theorem Reported.overheard {slot : Slot} (h : Reported chipOf slot s t) :
    Overheard chipOf [httpReply t.buf] s t := by
  obtain ⟨latch, hlatch, hreport⟩ := h
  refine ⟨hlatch.board, hlatch.hasSlot, fun other hother => ?_⟩
  rw [List.foldl_cons, List.foldl_nil]
  rcases hreport with ⟨data, buf, hbuf, hfits, hbus, hdev, htells⟩ | ⟨hsilent, rfl⟩
  · rw [hbuf, believed, heard_success hfits, Option.elim_some]
    by_cases hne : other = slot
    · rw [hne, hlatch.latch, htells]
    · rw [hlatch.others other hother hne, IoData.tells_other hbus hdev hne]
  · rw [believed_of_heard_none hsilent]
    by_cases hne : other = slot
    · rw [hne, hlatch.latch]
    · rw [hlatch.others other hother hne]

theorem fits_keptIdx (z : Int) : FitsIdx (keptIdx z) := by
  have hlow := Int.le_bmod (x := max longMin (min z longMax)) (m := 2 ^ 32) (by decide)
  have hhigh := Int.bmod_lt (x := max longMin (min z longMax)) (m := 2 ^ 32) (by decide)
  unfold FitsIdx keptIdx toIdx
  omega

theorem fits_of_parseUri {uri : CString} {type : RequestT} {parts : IoData}
    (hparse : parseUri uri = .ok (type, parts)) (htype : type ≠ .err) :
    FitsIdx parts.idxSubDev := by
  rcases parseUri_eq_ok hparse with ⟨herr, -⟩ | ⟨w, -, -, -, rfl⟩
  · exact absurd herr htype
  · cases hsub : w.subDev with
    | none =>
        simp only [Spelled.kept, hsub, Option.elim_none]
        exact ⟨by decide, by decide⟩
    | some sub =>
        simp only [Spelled.kept, hsub, Option.elim_some]
        exact fits_keptIdx sub

/-- A request served on a configured slot. -/
theorem performIo_reported {slot : Slot} {idxSubDev : Int} {value : Value} {cmd : IoCmd}
    {result : Int × IoData} (h : LatchBoard chipOf s) (hslot : s.config.HasSlot slot)
    (hbuf : heard (httpReply s.buf) = none) (hcmd : cmd = .write ∨ cmd = .read)
    (hfits : FitsIdx idxSubDev)
    (hrun : performIo (devDrv latches.kernel) httpCallbacks (slotData slot idxSubDev value) cmd s =
      .ok result t) : Reported chipOf slot s t := by
  rw [performIo_slot _ _ hslot idxSubDev value hcmd] at hrun
  rcases request_or_outside slot idxSubDev value with ⟨r, rfl, hdata⟩ | hout
  · rw [← hdata] at hrun
    rcases hcmd with rfl | rfl
    · obtain ⟨result', t', hrun', ht⟩ := performWrite_reported h hslot hbuf
      obtain ⟨-, rfl⟩ := EStateM.Result.ok.inj (hrun.symm.trans hrun')
      exact ht
    · obtain ⟨result', t', hrun', ht⟩ := performRead_reported h hslot hbuf
      obtain ⟨-, rfl⟩ := EStateM.Result.ok.inj (hrun.symm.trans hrun')
      exact ht
  · rcases hcmd with rfl | rfl
    · exact performWrite_outside_reported h hslot hout hrun
    · exact performRead_outside_reported h hslot hout hbuf hfits hrun

theorem performIo_overheard {data : IoData} {cmd : IoCmd} {result : Int × IoData}
    (h : LatchBoard chipOf s) (hbuf : heard (httpReply s.buf) = none)
    (hcmd : cmd = .write ∨ cmd = .read) (hfits : FitsIdx data.idxSubDev)
    (hrun : performIo (devDrv latches.kernel) httpCallbacks data cmd s = .ok result t) :
    Overheard chipOf [httpReply t.buf] s t := by
  by_cases hconfigured : Unconfigured data s.config
  · have hrefused : Refused (devDrv latches.kernel) httpCallbacks data cmd s :=
      refused_of_unconfigured hconfigured
    obtain ⟨msg, hrun'⟩ := hrefused
    obtain ⟨-, rfl⟩ := EStateM.Result.ok.inj (hrun.symm.trans hrun')
    exact overheard_of_silent h rfl rfl (heard_error _ _)
  · obtain ⟨slot, hbus, hdev, hslot, -⟩ := slot_of_performIo hcmd hrun hconfigured
    have hdata : data = slotData slot data.idxSubDev data.value := by
      rw [slotData, ← hbus, ← hdev]
    rw [hdata] at hrun
    exact (performIo_reported h hslot hbuf hcmd hfits hrun).overheard

theorem httpRequestHandler_overheard {uri : CString} {reply line : List Char}
    (h : LatchBoard chipOf s)
    (hrun : httpRequestHandler (devDrv latches.kernel) uri s = .ok (reply, line) t) :
    Overheard chipOf [reply] s t := by
  obtain ⟨type, parts, hparse, -, -, rfl, heffect⟩ := httpRequestHandler_ok hrun
  rcases heffect with ⟨-, rfl⟩ | ⟨htype, result, hperform⟩
  · exact overheard_of_silent h rfl rfl (heard_error _ _)
  · have hboard : LatchBoard chipOf { s with buf := freshContent } := h.of_same rfl rfl
    have hoverheard := performIo_overheard hboard heard_fresh (RequestT.cmd_of_ne_err htype)
      (fits_of_parseUri hparse htype) hperform
    exact hoverheard.start

theorem eventHandler_overheard {conn : MgConnection} {event : MgEvent} {answer : Answer}
    (h : LatchBoard chipOf s)
    (hrun : eventHandler (devDrv latches.kernel) conn event s = .ok answer t) :
    Overheard chipOf answer.reply.toList s t := by
  have hnothing {rc : Int} (hquiet : (pure ⟨rc, none, none⟩ : SysM BusHandle DevHandle (List Char)
      (Env (Board (ChipId → Latch))) Answer) s = .ok answer t) :
      Overheard chipOf answer.reply.toList s t := by
    obtain ⟨rfl, rfl⟩ := EStateM.Result.ok.inj hquiet
    exact .refl h
  cases event with
  | request =>
      unfold eventHandler at hrun
      by_cases hwebsocket : conn.isWebsocket = true
      · simp only [if_pos hwebsocket] at hrun
        exact hnothing hrun
      · simp only [if_neg hwebsocket, run_bind] at hrun
        cases hanswer : httpRequestHandler (devDrv latches.kernel) conn.uri s with
        | error e u => simp [hanswer] at hrun
        | ok pair u =>
            simp only [hanswer, run_pure] at hrun
            obtain ⟨rfl, rfl⟩ := EStateM.Result.ok.inj hrun
            exact httpRequestHandler_overheard h hanswer
  | auth => exact hnothing hrun
  | other => exact hnothing hrun

/-- The replies that were sent. -/
def sentReplies (answers : List Answer) : List (List Char) := answers.filterMap Answer.reply

end Requests

theorem ioExtRack_latchBoard {β : Type} (buf : β) : LatchBoard ioExtChip (ioExtRack buf) := by
  refine ⟨flakyRack_populated _ buf, ?_⟩
  intro slot handle hslot hdrv
  rcases ioExtConfig_slots hslot with rfl | rfl | rfl
  all_goals
    obtain rfl := Option.some.inj hdrv
    exact trivial

/-- Two writes to one device, a read of an output that it does not have, a request for
a bus that does not exist, and a websocket. -/
def ioExtEvents : List (MgConnection × MgEvent) :=
  [(⟨false, ⟨"/0/0/ff".toList, by decide⟩⟩, .request),
    (⟨false, ⟨"/0/0.3/0".toList, by decide⟩⟩, .request),
    (⟨false, ⟨"/0/1.40".toList, by decide⟩⟩, .request),
    (⟨false, ⟨"/9/0".toList, by decide⟩⟩, .request),
    (⟨true, ⟨"/".toList, by decide⟩⟩, .request)]

end Switcher
