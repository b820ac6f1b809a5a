import Switcher.Http.Numbers
import Switcher.Lib.Bits
import Switcher.Service.SubIndex
import Switcher.Service.Truth

/-!
The output that a URI names with a dot and a number. The parser cuts the device
component at dots and drops empty pieces, narrows the numbers and leaves it to
`perform_io` to tell a sub-device from none by the value -1.
-/

namespace Switcher

open Lib.Program Lib.Numeral Lib.Text Lib.Bits

variable {ω δ W : Type}

/-- The pieces of a device component between its dots, the empty ones too. -/
def devicePieces (devTok : List Char) : List (List Char) := devTok.splitOnP (· ∈ devDelim)

/-- The first number that stands right behind a dot. -/
def namedSubDev (devTok : List Char) : Option Int :=
  (devicePieces devTok).tail.findSome? (readInt 10)

/-- The number in front of the first dot. -/
def namedDev (devTok : List Char) : Option Int :=
  (devicePieces devTok).head?.bind (readInt 10)

/-- The URI names this output of this device. -/
def NamesOutput (comps : List (List Char)) (slot : Slot) (i : Fin 32) : Prop :=
  ∃ busTok devTok more, comps = busTok :: devTok :: more ∧
    readInt 10 busTok = some (slot.1.val : Int) ∧ namedDev devTok = some (slot.2.val : Int) ∧
    namedSubDev devTok = some (i.val : Int)

/-- What a request for output `i` is for: a `GET` answers with bit `i` of what
the driver reads, a `SET` writes that back with bit `i` replaced. -/
def operateOutput (table : δ → DevDrv ω δ (List Char) W) (cb : Callbacks (List Char))
    (r : Request) (i : Fin 32) : SysM ω δ (List Char) W Unit := do
  let (numRead, value) ← drvRead table cb r.data
  if numRead ≤ 0 then
    if r.isSet then reportError cb "Could not read from device."
  else if r.isSet then do
    let numWritten ← drvWrite table cb r.data (setBit value i (decide (r.value ≠ 0)))
    if 0 < numWritten then reportSuccess cb r.data
  else
    reportSuccess cb { r.data with value := if value.getLsbD i then 1 else 0 }

/-- The handler answers with an error, and nothing is written. -/
def AnswersError (table : δ → DevDrv ω δ (List Char) W) (uri : CString)
    (s : Sys ω δ (List Char) W) : Prop :=
  ∃ t line msg, httpRequestHandler table uri s = .ok (httpReply t.buf, line) t ∧
    cText t.buf = errorBody msg ∧ NoWrite s t

/-- The handler performs the operation on the output that the URI names, on a
device with a driver, and logs the request. -/
def ActsOnOutput (table : δ → DevDrv ω δ (List Char) W) (uri : CString)
    (s : Sys ω δ (List Char) W) : Prop :=
  ∃ (r : Request) (i : Fin 32), r.subDev = some i ∧
    NamesOutput (uriComponents uri) r.slot i ∧ parseUri uri = .ok (r.type, r.data) ∧
    s.config.HasSlot r.slot ∧ (s.config.devices r.slot).drvHandle.isSome ∧
    httpRequestHandler table uri s =
      (answered (operateOutput table httpCallbacks r i) >>= fun reply =>
        pure (reply, requestLine uri)) s

/-- `perform_io` refuses the bus or the device. -/
def Unconfigured (data : IoData) (config : IoConfig ω δ) : Prop :=
  data.idxBus = idxInvalid ∨ data.idxBus ≥ config.numBusses ∨ data.idxDev = idxInvalid ∨
    ∃ bus : Fin maxBusses, data.idxBus = bus.val ∧ data.idxDev ≥ (config.busses bus).numDevices

/-- The driver fails to read, and that ends the request with an error: a `GET` if
the driver reports one, a `SET` if the code takes it for one of a sub-device. -/
def ReadEnds (table : δ → DevDrv ω δ (List Char) W) (slot : Slot) (w : Spelled)
    (s : Sys ω δ (List Char) W) : Prop :=
  ∃ handle numRead value t, (s.config.devices slot).drvHandle = some handle ∧
    (table handle).read httpCallbacks.error (s.config.busses slot.1) w.kept.value
      (s.drvState slot) = .ok (numRead, value) t ∧ numRead ≤ 0 ∧
    if w.value.isSome then w.kept.idxSubDev ≠ idxInvalid else ∃ msg, cText t.buf = errorBody msg

/-- The numbers in front of the dot are the configured ones, the one behind it is
below 32, and none of them is another one once narrowed. -/
def PlainlyNamed (devTok : List Char) (z : Int) (w : Spelled) (slot : Slot) : Prop :=
  devTok.head? ≠ some '.' ∧ w.bus = slot.1.val ∧ w.dev = slot.2.val ∧ 0 ≤ z ∧ z < 32

/-- The conditions under which a named sub-device is respected. -/
def Respectable (table : δ → DevDrv ω δ (List Char) W) (uri : CString) (devTok : List Char)
    (z : Int) (s : Sys ω δ (List Char) W) : Prop :=
  (requestLine uri).length < bufLen ∧
    (Rejects true (uriComponents uri) ∨
      ∃ w, spelled (uriComponents uri) = some w ∧
        (Unconfigured w.kept s.config ∨
          ∃ slot : Slot, w.kept.idxBus = slot.1.val ∧ w.kept.idxDev = slot.2.val ∧
            s.config.HasSlot slot ∧ (s.config.devices slot).drvHandle.isSome ∧
            (ReadEnds table slot w { s with buf := freshContent } ∨ PlainlyNamed devTok z w slot)))

section Pieces

variable {devTok : List Char}

theorem devicePieces_dot (tail : List Char) :
    devicePieces ('.' :: tail) = [] :: devicePieces tail := by
  rw [devicePieces, List.splitOnP_cons_eq_if_modifyHead]
  simp [devDelim, devicePieces]

/-- The first piece is empty only if a dot stands in front, or nothing at all. -/
theorem dot_of_devicePieces {rest : List (List Char)} (h : devicePieces devTok = [] :: rest) :
    devTok.head? = some '.' ∨ rest = [] := by
  cases devTok with
  | nil =>
      rw [devicePieces, List.splitOnP_nil] at h
      exact .inr (List.cons.inj h).2.symm
  | cons c tail =>
      by_cases hc : c = '.'
      · exact .inl (by rw [hc]; rfl)
      · have hplain : ¬ (decide (c ∈ devDelim) = true) := by simpa [devDelim] using hc
        rw [devicePieces, List.splitOnP_cons_eq_if_modifyHead, if_neg hplain] at h
        obtain ⟨first, more, hsplit⟩ :=
          List.exists_cons_of_ne_nil (List.splitOnP_ne_nil (· ∈ devDelim) tail)
        rw [hsplit] at h
        cases h

theorem findSome_readInt (pieces : List (List Char)) :
    (pieces.filter (· ≠ [])).findSome? (readInt 10) = pieces.findSome? (readInt 10) := by
  induction pieces with
  | nil => rfl
  | cons piece rest ih =>
      cases piece with
      | nil => simpa [readInt_nil, List.findSome?_cons] using ih
      | cons c tail =>
          rw [List.filter_cons_of_pos (by simp), List.findSome?_cons, List.findSome?_cons, ih]

/-- Unless a dot stands in front, the code takes the named numbers. -/
theorem numbers_named {dev z : Int} {subDev : Option Int}
    (hnumbers : deviceNumbers (deviceParts devTok) = some (dev, subDev))
    (hnamed : namedSubDev devTok = some z) (hdot : devTok.head? ≠ some '.') :
    namedDev devTok = some dev ∧ subDev = some z := by
  have hparts : deviceParts devTok = (devicePieces devTok).filter (· ≠ []) := rfl
  unfold namedSubDev at hnamed
  unfold namedDev
  obtain ⟨piece, rest, hpieces⟩ : ∃ piece rest, devicePieces devTok = piece :: rest :=
    List.exists_cons_of_ne_nil (List.splitOnP_ne_nil _ _)
  rw [hpieces] at hparts hnamed ⊢
  have hne : piece ≠ [] := by
    rintro rfl
    rcases dot_of_devicePieces hpieces with h | rfl
    · exact hdot h
    · cases hnamed
  rw [List.filter_cons_of_pos (by simpa using hne)] at hparts
  rw [hparts] at hnumbers
  rw [List.tail_cons, ← findSome_readInt] at hnamed
  cases hdev : readInt 10 piece with
  | none => simp [deviceNumbers, hdev] at hnumbers
  | some dev' =>
      cases hmore : rest.filter (· ≠ []) with
      | nil =>
          rw [hmore] at hnamed
          cases hnamed
      | cons subTok more =>
          rw [hmore] at hnumbers hnamed
          cases hsub : readInt 10 subTok with
          | none => simp [deviceNumbers, hdev, hsub] at hnumbers
          | some sub =>
              simp only [deviceNumbers, hdev, hsub, Option.some.injEq, Prod.mk.injEq] at hnumbers
              rw [List.findSome?_cons, hsub] at hnamed
              obtain ⟨rfl, rfl⟩ := hnumbers
              exact ⟨hdev, hnamed⟩

theorem no_dot_of_namedDev {dev : Int} (h : namedDev devTok = some dev) :
    devTok.head? ≠ some '.' := by
  intro hdot
  cases devTok with
  | nil => cases hdot
  | cons c tail =>
      obtain rfl := Option.some.inj hdot
      rw [namedDev, devicePieces_dot] at h
      simp [readInt_nil] at h

end Pieces

section Operate

variable {table : δ → DevDrv ω δ (List Char) W} {r : Request} {i : Fin 32}
  {s : Sys ω δ (List Char) W}

theorem Request.masked_eq_setBit (r : Request) (i : Fin 32) (value : Value) :
    r.masked i value = setBit value i (decide (r.value ≠ 0)) := by
  have hmask := Lib.Bits.setWidth_masked value i.isLt (Nat.le_refl 32) (r.value ≠ 0)
  rw [BitVec.setWidth_eq, BitVec.setWidth_eq] at hmask
  exact hmask

theorem Request.picked_some {r : Request} (hsub : r.subDev = some i) (value : Value) :
    r.picked value = if value.getLsbD i then 1 else 0 := by
  simp only [Request.picked, hsub]
  exact shiftRight_and_one value i.val

/-- Both programs leave the same, by a value or by the same fault. -/
def SameEffect {α α' : Type} (m : SysM ω δ (List Char) W α) (m' : SysM ω δ (List Char) W α')
    (s : Sys ω δ (List Char) W) : Prop :=
  (∃ e t, m s = .error e t ∧ m' s = .error e t) ∨ ∃ a a' t, m s = .ok a t ∧ m' s = .ok a' t

theorem SameEffect.answered {α α' : Type} {m : SysM ω δ (List Char) W α}
    {m' : SysM ω δ (List Char) W α'} (h : SameEffect m m' { s with buf := freshContent }) :
    Switcher.answered m s = Switcher.answered m' s := by
  rcases h with ⟨e, t, hrun, hrun'⟩ | ⟨a, a', t, hrun, hrun'⟩
  · exact (answered_of_error hrun).trans (answered_of_error hrun').symm
  · exact (answered_of_ok hrun).trans (answered_of_ok hrun').symm

section Read

variable {numRead : Int} {value : Value} {t : Sys ω δ (List Char) W}
  (hread : drvRead table httpCallbacks r.data s = .ok (numRead, value) t)
include hread

theorem operateOutput_refused (hnum : numRead ≤ 0) :
    operateOutput table httpCallbacks r i s =
      .ok ⟨⟩ (if r.isSet then
        { t with buf := errorToJson "Could not read from device.".toList t.buf } else t) := by
  unfold operateOutput
  rw [bind_of_ok hread]
  simp only [if_pos hnum]
  cases r.isSet <;> rfl

theorem operateOutput_set (hnum : ¬ numRead ≤ 0) (hset : r.isSet = true) :
    operateOutput table httpCallbacks r i s =
      (do
        let numWritten ← drvWrite table httpCallbacks r.data
          (setBit value i (decide (r.value ≠ 0)))
        if 0 < numWritten then reportSuccess httpCallbacks r.data) t := by
  unfold operateOutput
  rw [bind_of_ok hread]
  simp only [if_neg hnum, if_pos hset]

theorem operateOutput_get (hnum : ¬ numRead ≤ 0) (hset : ¬ r.isSet = true) :
    operateOutput table httpCallbacks r i s =
      .ok ⟨⟩ { t with
        buf := ioDataToJson { r.data with value := if value.getLsbD i then 1 else 0 } t.buf } := by
  unfold operateOutput
  rw [bind_of_ok hread]
  simp only [if_neg hnum, if_neg hset]
  rfl

end Read

theorem writeValue_operates (r : Request) (value : Value) :
    SameEffect (writeValue table httpCallbacks r.data value)
      (do
        let numWritten ← drvWrite table httpCallbacks r.data value
        if 0 < numWritten then reportSuccess httpCallbacks r.data) s := by
  cases hwrite : drvWrite table httpCallbacks r.data value s with
  | error e t => exact .inl ⟨e, t, bind_of_error hwrite, bind_of_error hwrite⟩
  | ok numWritten t =>
      refine .inr ⟨_, ⟨⟩, _, writeValue_run _ _ hwrite, ?_⟩
      rw [bind_of_ok hwrite]
      by_cases hwritten : 0 < numWritten
      · rw [if_pos hwritten, if_pos hwritten]
        rfl
      · rw [if_neg hwritten, if_neg hwritten]
        rfl

theorem performWrite_operates (hsub : r.subDev = some i) (hset : r.isSet = true) :
    SameEffect (performWrite table httpCallbacks r.data)
      (operateOutput table httpCallbacks r i) s := by
  cases hread : drvRead table httpCallbacks r.data s with
  | error e t =>
      refine .inl ⟨e, t, ?_, bind_of_error hread⟩
      unfold performWrite
      rw [if_pos (Request.idxSubDev_some hsub).2]
      exact bind_of_error hread
  | ok a t =>
      obtain ⟨numRead, value⟩ := a
      have hcode := performWrite_subDev table httpCallbacks hsub hread
      by_cases hnum : numRead ≤ 0
      · rw [if_pos hnum] at hcode
        refine .inr ⟨_, ⟨⟩, _, hcode, ?_⟩
        rw [operateOutput_refused hread hnum, if_pos hset]
        rfl
      · rw [if_neg hnum, Request.masked_eq_setBit] at hcode
        have hspec := operateOutput_set (i := i) hread hnum hset
        unfold SameEffect
        rw [hcode, hspec]
        exact writeValue_operates r _

theorem performRead_operates (hsub : r.subDev = some i) (hset : ¬ r.isSet = true) :
    SameEffect (performRead table httpCallbacks r.data)
      (operateOutput table httpCallbacks r i) s := by
  cases hread : drvRead table httpCallbacks r.data s with
  | error e t => exact .inl ⟨e, t, bind_of_error hread, bind_of_error hread⟩
  | ok a t =>
      obtain ⟨numRead, value⟩ := a
      have hcode := performRead_run table httpCallbacks hread
      by_cases hnum : numRead ≤ 0
      · rw [if_neg (by omega)] at hcode
        refine .inr ⟨_, ⟨⟩, _, hcode, ?_⟩
        rw [operateOutput_refused hread hnum, if_neg hset]
      · rw [if_pos (by omega), Request.picked_some hsub] at hcode
        exact .inr ⟨_, ⟨⟩, _, hcode, operateOutput_get hread hnum hset⟩

/-- For a request that names an output, `perform_io` is the operation on it. -/
theorem performIo_operates (hsub : r.subDev = some i) (hslot : s.config.HasSlot r.slot) :
    answered (performIo table httpCallbacks r.data r.cmd) s =
      answered (operateOutput table httpCallbacks r i) s := by
  apply SameEffect.answered
  have hfresh : ({ s with buf := freshContent } : Sys ω δ (List Char) W).config.HasSlot r.slot :=
    hslot
  unfold SameEffect
  rw [performIo_request table httpCallbacks r hfresh]
  by_cases hset : r.isSet = true
  · rw [if_pos hset]
    exact performWrite_operates hsub hset
  · rw [if_neg hset]
    exact performRead_operates hsub hset

/-- The operation begins with a call of the driver. -/
theorem operateOutput_calls (hdrv : (s.config.devices r.slot).drvHandle.isSome) :
    (final (operateOutput table httpCallbacks r i) s).calls ≠ s.calls := by
  obtain ⟨handle, hhandle⟩ := Option.isSome_iff_exists.mp hdrv
  let call : DrvCall := .read r.data.idxBus r.data.idxDev
  let I := CallsOnly { s with calls := s.calls ++ [call] } r.data.idxBus r.data.idxDev
  have hread : I (final (drvRead table httpCallbacks r.data) s) := by
    have hcode : drvRead table httpCallbacks r.data s = _ :=
      callDrv_slot table r.slot call (fun drv bus => drv.read httpCallbacks.error bus r.value)
        hhandle
    rw [final_congr hcode]
    exact onDevice_callsOnly _ _ _ callsOnly_start
  have hwrite (value : Value) : Keeps I (drvWrite table httpCallbacks r.data value) :=
    callDrv_callsOnly table (.write r.data.idxBus r.data.idxDev) rfl _
  have hend : I (final (operateOutput table httpCallbacks r i) s) := by
    refine final_bind_keeps hread ?_
    rintro ⟨numRead, value⟩
    refine Keeps.ite (Keeps.ite (reply_callsOnly _) (Keeps.pure _)) (Keeps.ite ?_ ?_)
    · exact (hwrite _).bind fun _ => Keeps.ite (reply_callsOnly _) (Keeps.pure _)
    · exact reply_callsOnly _
  obtain ⟨calls, hcalls, -⟩ := hend
  rw [hcalls]
  simp

end Operate

section Answers

variable {table : δ → DevDrv ω δ (List Char) W} {slot : Slot} {handle : δ}
  {s t : Sys ω δ (List Char) W} {a : Int × IoData} {idxSubDev : Int} {value : Value}

theorem not_errorBody_of_success {data : IoData} {buf msg : List Char} :
    cText (ioDataToJson data buf) ≠ errorBody msg := by
  intro h
  have hhead := congrArg List.head? h
  rw [cText_ioDataToJson, successBody_head, errorBody_head] at hhead
  exact absurd hhead (by decide)

/-- A read answered with an error is one that the driver failed, and the error is
the driver's. -/
theorem performRead_error (hdrv : (s.config.devices slot).drvHandle = some handle)
    (hrun : performRead table httpCallbacks (slotData slot idxSubDev value) s = .ok a t)
    {msg : List Char} (hbody : cText t.buf = errorBody msg) :
    ∃ numRead value' u, (table handle).read httpCallbacks.error (s.config.busses slot.1) value
      (s.drvState slot) = .ok (numRead, value') u ∧ numRead ≤ 0 ∧ t.buf = u.buf := by
  cases hread : (table handle).read httpCallbacks.error (s.config.busses slot.1) value
      (s.drvState slot) with
  | error e u =>
      cases (bind_of_error (drvRead_of_error httpCallbacks hdrv idxSubDev hread)).symm.trans hrun
  | ok result u =>
      obtain ⟨numRead, value'⟩ := result
      have hcode := drvRead_of_ok httpCallbacks hdrv idxSubDev hread
      unfold performRead at hrun
      rw [bind_of_ok hcode] at hrun
      by_cases hnum : numRead > 0
      · exfalso
        have hsuccess : ∃ data buf, t.buf = ioDataToJson data buf := by
          simp only [if_pos hnum] at hrun
          split at hrun
          · split at hrun
            · obtain ⟨-, rfl⟩ := EStateM.Result.ok.inj hrun
              exact ⟨_, _, rfl⟩
            · obtain ⟨-, rfl⟩ := EStateM.Result.ok.inj hrun
              exact ⟨_, _, rfl⟩
          · obtain ⟨-, rfl⟩ := EStateM.Result.ok.inj hrun
            exact ⟨_, _, rfl⟩
        obtain ⟨data, buf, hbuf⟩ := hsuccess
        rw [hbuf] at hbody
        exact not_errorBody_of_success hbody
      · simp only [if_neg hnum] at hrun
        obtain ⟨-, rfl⟩ := EStateM.Result.ok.inj hrun
        exact ⟨numRead, value', u, rfl, by omega, rfl⟩

theorem drvWrite_calls {written : Value} {numWritten : Int}
    (hrun : drvWrite table httpCallbacks (slotData slot idxSubDev value) written s =
      .ok numWritten t) : t.calls = s.calls ++ [.write slot.1.val slot.2.val] := by
  cases hdrv : (s.config.devices slot).drvHandle with
  | none => cases (callDrv_null table slot (.write slot.1.val slot.2.val) _ hdrv).symm.trans hrun
  | some handle =>
      have hcode := (callDrv_slot table slot (.write slot.1.val slot.2.val)
        (fun drv bus => drv.write httpCallbacks.error bus written) hdrv).symm.trans hrun
      cases hwrite : (table handle).write httpCallbacks.error (s.config.busses slot.1) written
          (s.drvState slot) with
      | error e u => cases (onDevice_of_error hwrite).symm.trans hcode
      | ok n u =>
          obtain ⟨-, rfl⟩ := EStateM.Result.ok.inj ((onDevice_of_ok hwrite).symm.trans hcode)
          rfl

theorem writeValue_calls {written : Value}
    (hrun : writeValue table httpCallbacks (slotData slot idxSubDev value) written s =
      .ok a t) : t.calls = s.calls ++ [.write slot.1.val slot.2.val] := by
  cases hwrite : drvWrite table httpCallbacks (slotData slot idxSubDev value) written s with
  | error e u => cases (bind_of_error hwrite).symm.trans hrun
  | ok numWritten u =>
      obtain ⟨-, rfl⟩ := EStateM.Result.ok.inj ((writeValue_run _ _ hwrite).symm.trans hrun)
      rw [← drvWrite_calls hwrite]
      split <;> rfl

theorem shiftOne_ok {idx : Int} {bit : Value} (h : shiftOne idx s = .ok bit t) : t = s := by
  unfold shiftOne at h
  split at h
  · exact (EStateM.Result.ok.inj h).2.symm
  · cases h

/-- A write that issues no driver write is one of a sub-device, of which the
driver fails the read. -/
theorem performWrite_noWrite (hdrv : (s.config.devices slot).drvHandle = some handle)
    (hrun : performWrite table httpCallbacks (slotData slot idxSubDev value) s = .ok a t)
    (hnowrite : NoWrite s t) :
    idxSubDev ≠ idxInvalid ∧ ∃ numRead value' u,
      (table handle).read httpCallbacks.error (s.config.busses slot.1) value
        (s.drvState slot) = .ok (numRead, value') u ∧ numRead ≤ 0 := by
  obtain ⟨calls, hcalls, hnone⟩ := hnowrite
  unfold performWrite at hrun
  by_cases hsub : (slotData slot idxSubDev value).idxSubDev ≠ idxInvalid
  · rw [if_pos hsub] at hrun
    refine ⟨hsub, ?_⟩
    cases hread : (table handle).read httpCallbacks.error (s.config.busses slot.1) value
        (s.drvState slot) with
    | error e u =>
        cases (bind_of_error (drvRead_of_error httpCallbacks hdrv idxSubDev hread)).symm.trans hrun
    | ok result u =>
        obtain ⟨numRead, value'⟩ := result
        have hcode := drvRead_of_ok httpCallbacks hdrv idxSubDev hread
        refine ⟨numRead, value', u, rfl, ?_⟩
        by_contra hnum
        rw [bind_of_ok hcode] at hrun
        simp only [if_neg hnum] at hrun
        cases hshift : shiftOne (slotData slot idxSubDev value).idxSubDev (s.afterRead slot u) with
        | error e v => cases (bind_of_error hshift).symm.trans hrun
        | ok bit v =>
            rw [bind_of_ok hshift] at hrun
            obtain rfl := shiftOne_ok hshift
            rw [writeValue_calls hrun] at hcalls
            simp only [Sys.afterRead, Sys.storeDrv, List.append_assoc] at hcalls
            obtain rfl := List.append_cancel_left hcalls
            cases hnone
  · rw [if_neg hsub] at hrun
    rw [writeValue_calls hrun] at hcalls
    obtain rfl := List.append_cancel_left hcalls
    cases hnone

end Answers

section Configured

variable {table : δ → DevDrv ω δ (List Char) W} {s t : Sys ω δ (List Char) W} {data : IoData}

theorem bus_of_busIndex {idx : Int} {bus : Fin maxBusses} (h : busIndex idx s = .ok bus t) :
    idx = bus.val ∧ t = s := by
  unfold busIndex at h
  split at h
  · next hrange =>
      obtain ⟨rfl, rfl⟩ := EStateM.Result.ok.inj h
      exact ⟨(Int.toNat_of_nonneg hrange.1).symm, rfl⟩
  · cases h

theorem dev_of_devIndex {idx : Int} {dev : Fin maxIoDevices} (h : devIndex idx s = .ok dev t) :
    idx = dev.val ∧ t = s := by
  unfold devIndex at h
  split at h
  · next hrange =>
      obtain ⟨rfl, rfl⟩ := EStateM.Result.ok.inj h
      exact ⟨(Int.toNat_of_nonneg hrange.1).symm, rfl⟩
  · cases h

/-- The device behind two indices that a driver call got through with. -/
theorem slot_of_callDrv {α : Type} {idxBus idxDev : Int} {call : DrvCall}
    {f : DevDrv ω δ (List Char) W → IoBus ω → DrvM δ (List Char) W α} {a : α}
    (h : callDrv table idxBus idxDev call f s = .ok a t) :
    ∃ slot : Slot, idxBus = slot.1.val ∧ idxDev = slot.2.val ∧
      (s.config.devices slot).drvHandle.isSome := by
  have hcall := h
  unfold callDrv at h
  cases hbus : busIndex idxBus s with
  | error e u => cases (bind_of_error hbus).symm.trans h
  | ok bus u =>
      rw [bind_of_ok hbus] at h
      obtain ⟨rfl, rfl⟩ := bus_of_busIndex hbus
      cases hdev : devIndex idxDev u with
      | error e v => cases (bind_of_error hdev).symm.trans h
      | ok dev v =>
          obtain ⟨rfl, rfl⟩ := dev_of_devIndex hdev
          refine ⟨(bus, dev), rfl, rfl, ?_⟩
          cases hdrv : (v.config.devices (bus, dev)).drvHandle with
          | none => cases (callDrv_null table _ call f hdrv).symm.trans hcall
          | some handle => rfl

theorem slot_of_performWrite {a : Int × IoData}
    (h : performWrite table httpCallbacks data s = .ok a t) :
    ∃ slot : Slot, data.idxBus = slot.1.val ∧ data.idxDev = slot.2.val ∧
      (s.config.devices slot).drvHandle.isSome := by
  unfold performWrite at h
  split at h
  · cases hread : drvRead table httpCallbacks data s with
    | error e u => cases (bind_of_error hread).symm.trans h
    | ok result u => exact slot_of_callDrv hread
  · cases hwrite : drvWrite table httpCallbacks data data.value s with
    | error e u => cases (bind_of_error hwrite).symm.trans h
    | ok numWritten u => exact slot_of_callDrv hwrite

theorem slot_of_performRead {a : Int × IoData}
    (h : performRead table httpCallbacks data s = .ok a t) :
    ∃ slot : Slot, data.idxBus = slot.1.val ∧ data.idxDev = slot.2.val ∧
      (s.config.devices slot).drvHandle.isSome := by
  cases hread : drvRead table httpCallbacks data s with
  | error e u => cases (bind_of_error hread).symm.trans h
  | ok result u => exact slot_of_callDrv hread

/-- A request that returns was refused, or served on a device with a driver. -/
theorem slot_of_performIo {a : Int × IoData} {cmd : IoCmd} (hcmd : cmd = .write ∨ cmd = .read)
    (h : performIo table httpCallbacks data cmd s = .ok a t)
    (hconfigured : ¬ Unconfigured data s.config) :
    ∃ slot : Slot, data.idxBus = slot.1.val ∧ data.idxDev = slot.2.val ∧
      s.config.HasSlot slot ∧ (s.config.devices slot).drvHandle.isSome := by
  obtain ⟨hvalid, hrest⟩ := not_or.mp hconfigured
  obtain ⟨hlt, hrest⟩ := not_or.mp hrest
  obtain ⟨hsome, hcount⟩ := not_or.mp hrest
  have hbus : ∃ bus : Fin maxBusses, data.idxBus = bus.val := by
    unfold performIo at h
    rw [bind_of_ok (run_get s), if_neg (not_or.mpr ⟨hvalid, hlt⟩), if_neg hsome] at h
    cases hindex : busIndex data.idxBus s with
    | error e u => cases (bind_of_error hindex).symm.trans h
    | ok bus u => exact ⟨bus, (bus_of_busIndex hindex).1⟩
  obtain ⟨bus, hbus⟩ := hbus
  have hknown : ¬ (data.idxDev = idxInvalid ∨
      data.idxDev ≥ (s.config.busses bus).numDevices) :=
    not_or.mpr ⟨hsome, fun hbad => hcount ⟨bus, hbus, hbad⟩⟩
  rw [performIo_knownBus hbus (by omega), if_neg hknown] at h
  have hslot : ∃ slot : Slot, data.idxBus = slot.1.val ∧ data.idxDev = slot.2.val ∧
      (s.config.devices slot).drvHandle.isSome := by
    rcases hcmd with rfl | rfl
    · exact slot_of_performWrite h
    · exact slot_of_performRead h
  obtain ⟨slot, hbus', hdev', hdrv⟩ := hslot
  obtain rfl : slot.1 = bus := by
    apply Fin.ext
    omega
  exact ⟨slot, hbus', hdev', ⟨by omega, by omega⟩, hdrv⟩

end Configured

theorem RequestT.cmd_of_ne_err {type : RequestT} (h : type ≠ .err) :
    type.cmd = .write ∨ type.cmd = .read := by
  cases type with
  | err => exact absurd rfl h
  | get => exact .inr rfl
  | set => exact .inl rfl

theorem Spelled.cmd (w : Spelled) : w.type.cmd = if w.value.isSome then .write else .read := by
  unfold Spelled.type
  split <;> rfl

theorem Spelled.kept_slot {w : Spelled} {slot : Slot} (hbus : w.kept.idxBus = slot.1.val)
    (hdev : w.kept.idxDev = slot.2.val) :
    w.kept = slotData slot w.kept.idxSubDev w.kept.value := by
  rw [slotData, ← hbus, ← hdev]

section Main

variable {table : δ → DevDrv ω δ (List Char) W} {uri : CString} {devTok : List Char} {z : Int}
  {s : Sys ω δ (List Char) W}

theorem respectable_of_answersError (h : AnswersError table uri s) :
    Respectable table uri devTok z s := by
  obtain ⟨t, line, msg, hrun, hbody, hnowrite⟩ := h
  obtain ⟨type, parts, hparse, rfl, hfits, -, heffect⟩ := httpRequestHandler_ok hrun
  have hlength := length_lt_of_requestText hfits
  rw [requestText_eq_line hlength hparse] at hfits
  refine ⟨hfits, ?_⟩
  rcases request_of_parseUri hlength hparse with ⟨-, hrejects⟩ | ⟨w, hw, rfl, rfl⟩
  · exact .inl hrejects
  · obtain ⟨a, hperform⟩ : ∃ a, performIo table httpCallbacks w.kept w.type.cmd
        { s with buf := freshContent } = .ok a t := by
      rcases heffect with ⟨herr, -⟩ | ⟨-, hperform⟩
      · exact absurd herr w.type_ne_err
      · exact hperform
    refine .inr ⟨w, hw, ?_⟩
    have hcmd := RequestT.cmd_of_ne_err w.type_ne_err
    by_cases hconfigured : Unconfigured w.kept s.config
    · exact .inl hconfigured
    · obtain ⟨slot, hbus, hdev, hslot, hdrv⟩ := slot_of_performIo hcmd hperform hconfigured
      obtain ⟨handle, hhandle⟩ := Option.isSome_iff_exists.mp hdrv
      refine .inr ⟨slot, hbus, hdev, hslot, hdrv, .inl ?_⟩
      rw [Spelled.kept_slot hbus hdev, performIo_slot table httpCallbacks hslot _ _ hcmd,
        w.cmd] at hperform
      cases hset : w.value.isSome with
      | true =>
          rw [if_pos (by simp [hset])] at hperform
          obtain ⟨hsub, numRead, value, u, hread, hnum⟩ :=
            performWrite_noWrite hhandle hperform hnowrite
          exact ⟨handle, numRead, value, u, hhandle, hread, hnum, by simpa [hset] using hsub⟩
      | false =>
          rw [if_neg (by simp [hset])] at hperform
          obtain ⟨numRead, value, u, hread, hnum, hbuf⟩ :=
            performRead_error hhandle hperform hbody
          exact ⟨handle, numRead, value, u, hhandle, hread, hnum,
            by simpa [hset] using ⟨msg, hbuf ▸ hbody⟩⟩

/-- Where the operation is performed, the line of the request fits the log. -/
theorem line_of_actsOnOutput (h : ActsOnOutput table uri s) :
    (requestLine uri).length < bufLen := by
  obtain ⟨r, i, -, -, hparse, -, hdrv, hacts⟩ := h
  by_cases hfits : (requestText uri r.data r.type).length < bufLen
  · rwa [requestText_eq_line (length_lt_of_requestText hfits) hparse] at hfits
  · exfalso
    have hcalls : (final (operateOutput table httpCallbacks r i)
        { s with buf := freshContent }).calls ≠ s.calls := operateOutput_calls hdrv
    have hover : httpRequestHandler table uri s = _ := handleRequest_over hparse hfits s
    rw [hover] at hacts
    cases hrun : operateOutput table httpCallbacks r i { s with buf := freshContent } with
    | ok a t => cases hacts.trans (bind_of_ok (answered_of_ok hrun))
    | error e t =>
        obtain ⟨-, rfl⟩ := EStateM.Result.error.inj
          (hacts.trans (bind_of_error (answered_of_error hrun)))
        exact hcalls (by rw [final_of_error hrun])

theorem respectable_of_actsOnOutput (hdev : (uriComponents uri)[1]? = some devTok)
    (hnamed : namedSubDev devTok = some z) (h : ActsOnOutput table uri s) :
    Respectable table uri devTok z s := by
  have hline := line_of_actsOnOutput h
  obtain ⟨r, i, -, ⟨busTok, devTok', more, hcomps, hbus, hdevNumber, hsub⟩, hparse, hslot, hdrv,
    -⟩ := h
  refine ⟨hline, ?_⟩
  rcases request_of_parseUri (length_lt_of_line hline) hparse with
    ⟨-, hrejects⟩ | ⟨w, hw, -, hparts⟩
  · exact .inl hrejects
  · obtain ⟨busTok', devTok'', more', hcomps', hbus', hnumbers, -⟩ := spelled_eq_some.mp hw
    obtain ⟨rfl, hrest⟩ := List.cons.inj (hcomps.symm.trans hcomps')
    obtain ⟨rfl, rfl⟩ := List.cons.inj hrest
    obtain rfl : devTok' = devTok := by simpa [hcomps] using hdev
    obtain rfl : z = i.val := Option.some.inj (hnamed.symm.trans hsub)
    have hdot := no_dot_of_namedDev hdevNumber
    obtain ⟨hdevNumber', -⟩ := numbers_named hnumbers hnamed hdot
    refine .inr ⟨w, hw, .inr ⟨r.slot, ?_, ?_, hslot, hdrv, .inr ⟨hdot, ?_, ?_, ?_, ?_⟩⟩⟩
    · rw [← hparts]
      rfl
    · rw [← hparts]
      rfl
    · exact Option.some.inj (hbus'.symm.trans hbus)
    · exact Option.some.inj (hdevNumber'.symm.trans hdevNumber)
    · omega
    · have := i.isLt
      omega

theorem refused_of_unconfigured {data : IoData} {cmd : IoCmd}
    (h : Unconfigured data s.config) : Refused table httpCallbacks data cmd s := by
  rcases h with hbus | hbus | hdev | ⟨bus, hbus, hdev⟩
  · exact performIo_badBus (.inl hbus)
  · exact performIo_badBus (.inr hbus)
  · exact performIo_noDev hdev
  · by_cases hknown : data.idxBus < s.config.numBusses
    · exact performIo_badDev hbus hknown (.inr hdev)
    · exact performIo_badBus (.inr (by omega))

section Fitting

variable (hline : (requestLine uri).length < bufLen)
include hline

theorem answersError_of_rejects (h : Rejects true (uriComponents uri)) :
    AnswersError table uri s := by
  obtain ⟨parts, hparse⟩ := refused_of_fitting hline h
  rw [← requestText_eq_line (length_lt_of_line hline) hparse] at hline
  exact ⟨{ s with buf := refusedContent }, _, _, handleRequest_refused hparse hline s,
    cText_errorToJson _ _, [], by simp, rfl⟩

variable {w : Spelled} (hw : spelled (uriComponents uri) = some w)
include hw

/-- A request that `perform_io` comes to an end with is answered. -/
theorem answers_of_performed {a : Int × IoData} {t : Sys ω δ (List Char) W}
    (h : performIo table httpCallbacks w.kept w.type.cmd { s with buf := freshContent } = .ok a t) :
    httpRequestHandler table uri s = .ok (httpReply t.buf, requestLine uri) t := by
  have hparse := parseUri_of_fitting hline hw
  have heq := requestText_eq_line (length_lt_of_line hline) hparse
  rw [← heq] at hline ⊢
  exact httpRequestHandler_run hparse w.type_ne_err hline h

theorem answersError_of_unconfigured (h : Unconfigured w.kept s.config) :
    AnswersError table uri s := by
  have hrefused : Refused table httpCallbacks w.kept w.type.cmd
      { s with buf := freshContent } := refused_of_unconfigured h
  obtain ⟨msg, hperform⟩ := hrefused
  exact ⟨_, _, msg, answers_of_performed hline hw hperform, cText_errorToJson _ _, [],
    (List.append_nil _).symm, rfl⟩

variable {slot : Slot} (hbus : w.kept.idxBus = slot.1.val) (hdev : w.kept.idxDev = slot.2.val)
  (hslot : s.config.HasSlot slot)
include hbus hdev hslot

theorem answersError_of_readEnds
    (h : ReadEnds table slot w { s with buf := freshContent }) : AnswersError table uri s := by
  obtain ⟨handle, numRead, value, u, hdrv, hread, hnum, hend⟩ := h
  have hfresh : ({ s with buf := freshContent } : Sys ω δ (List Char) W).config.HasSlot slot :=
    hslot
  have hcode := drvRead_of_ok httpCallbacks hdrv w.kept.idxSubDev hread
  have hperform := performIo_slot table httpCallbacks hfresh w.kept.idxSubDev
    w.kept.value (RequestT.cmd_of_ne_err w.type_ne_err)
  rw [← Spelled.kept_slot hbus hdev] at hperform
  cases hset : w.value.isSome with
  | true =>
      rw [hset, if_pos rfl] at hend
      have hwrite : w.type.cmd = .write := by rw [w.cmd, hset, if_pos rfl]
      rw [if_pos hwrite, Spelled.kept_slot hbus hdev, performWrite_refused hcode hnum hend,
        ← Spelled.kept_slot hbus hdev] at hperform
      exact ⟨_, _, _, answers_of_performed hline hw hperform, cText_errorToJson _ _, [_], rfl, rfl⟩
  | false =>
      rw [hset, if_neg (by simp)] at hend
      obtain ⟨msg, hbody⟩ := hend
      have hget : ¬ w.type.cmd = .write := by simp [w.cmd, hset]
      rw [if_neg hget, Spelled.kept_slot hbus hdev, performRead_refused hcode hnum,
        ← Spelled.kept_slot hbus hdev] at hperform
      exact ⟨_, _, msg, answers_of_performed hline hw hperform, hbody, [_], rfl, rfl⟩

theorem actsOnOutput_of_plainlyNamed {devTok : List Char} {z : Int}
    (hdevTok : (uriComponents uri)[1]? = some devTok)
    (hnamed : namedSubDev devTok = some z) (hdrv : (s.config.devices slot).drvHandle.isSome)
    (h : PlainlyNamed devTok z w slot) : ActsOnOutput table uri s := by
  obtain ⟨hdot, hbusNumber, hdevNumber, hlow, hhigh⟩ := h
  obtain ⟨busTok, devTok', more, hcomps, hreadBus, hnumbers, -⟩ := spelled_eq_some.mp hw
  obtain rfl : devTok' = devTok := by simpa [hcomps] using hdevTok
  obtain ⟨hreadDev, hsub⟩ := numbers_named hnumbers hnamed hdot
  let i : Fin 32 := ⟨z.toNat, by omega⟩
  have hi : (i.val : Int) = z := Int.toNat_of_nonneg hlow
  let r : Request := ⟨slot, some i, w.value.isSome, w.kept.value⟩
  have hdata : w.kept = r.data := by
    have hkept : w.kept.idxSubDev = i.val := by
      simp only [Spelled.kept, hsub, Option.elim_some, hi]
      exact keptIdx_of_fits ⟨by omega, by omega⟩
    rw [Spelled.kept_slot hbus hdev, hkept]
    rfl
  have hcmd : w.type.cmd = r.cmd := w.cmd
  have htype : w.type = r.type := rfl
  have hparse := parseUri_of_fitting hline hw
  have heq := requestText_eq_line (length_lt_of_line hline) hparse
  refine ⟨r, i, rfl, ⟨busTok, devTok', more, hcomps, ?_, ?_, ?_⟩, ?_, hslot, hdrv, ?_⟩
  · rw [hreadBus, hbusNumber]
  · rw [hreadDev, hdevNumber]
  · rw [hnamed, hi]
  · rw [hparse, htype, hdata]
  · have hcode : httpRequestHandler table uri s = _ :=
      handleRequest_accepted hparse w.type_ne_err (heq ▸ hline) s
    rw [hcode, heq, hcmd, hdata, run_bind, performIo_operates rfl hslot, ← run_bind]

end Fitting

/-- What is asked of a URI that names a sub-device: an error and no write, or the
operation on that output alone. -/
def RespectsSubDevice (table : δ → DevDrv ω δ (List Char) W) (uri : CString)
    (s : Sys ω δ (List Char) W) : Prop :=
  AnswersError table uri s ∨ ActsOnOutput table uri s

/-- A named sub-device is respected exactly if the line of the request fits the log, and
the request is refused, its read fails, or the URI names the output plainly. -/
theorem respectsSubDevice_iff (hdevTok : (uriComponents uri)[1]? = some devTok)
    (hnamed : namedSubDev devTok = some z) :
    RespectsSubDevice table uri s ↔ Respectable table uri devTok z s := by
  constructor
  · rintro (herror | hacts)
    · exact respectable_of_answersError herror
    · exact respectable_of_actsOnOutput hdevTok hnamed hacts
  · rintro ⟨hline, hrejects | ⟨w, hw, hrefused | ⟨slot, hbus, hdev, hslot, hdrv, hend⟩⟩⟩
    · exact .inl (answersError_of_rejects hline hrejects)
    · exact .inl (answersError_of_unconfigured hline hw hrefused)
    · rcases hend with hread | hplain
      · exact .inl (answersError_of_readEnds hline hw hbus hdev hslot hread)
      · exact .inr (actsOnOutput_of_plainlyNamed hline hw hbus hdev hslot hdevTok hnamed hdrv
          hplain)

end Main

/-- A driver over a value that it reads and writes as a whole. -/
def wholeDrv : DevDrv BusHandle DevHandle (List Char) Value where
  init := none
  read _ _ _ := do return (1, (← get).world)
  write _ _ value := do
    modify fun t => { t with world := value }
    return 1
  deinit := none

/-- The outputs 0 to 3 of every device are on. -/
def ioExtOn : Sys BusHandle DevHandle (List Char) Value := ⟨ioExtConfig, [], 0x0F, []⟩

theorem respectsSubDevice_iff_third :
    RespectsSubDevice (fun _ => wholeDrv) ⟨"/0/1.3/0".toList, by decide⟩ ioExtOn ↔
      Respectable (fun _ => wholeDrv) ⟨"/0/1.3/0".toList, by decide⟩ "1.3".toList 3 ioExtOn :=
  respectsSubDevice_iff (by decide +kernel) (by decide +kernel)

/-- Sub-device -1 is taken for none: the whole device is written. -/
theorem minus_one_writes_whole :
    (uriComponents ⟨"/0/1.-1/f0".toList, by decide⟩)[1]? = some "1.-1".toList ∧
      namedSubDev "1.-1".toList = some (-1) ∧
      ¬ RespectsSubDevice (fun _ => wholeDrv) ⟨"/0/1.-1/f0".toList, by decide⟩ ioExtOn := by
  have hcomps : (uriComponents ⟨"/0/1.-1/f0".toList, by decide⟩)[1]? = some "1.-1".toList := by
    decide +kernel
  have hnamed : namedSubDev "1.-1".toList = some (-1) := by decide +kernel
  refine ⟨hcomps, hnamed, ?_⟩
  rintro (⟨t, line, msg, hrun, -, calls, hcalls, hnone⟩ |
    ⟨r, i, -, ⟨_, devTok, _, heq, -, -, hsub⟩, -⟩)
  · have hyields : yields (httpRequestHandler (fun _ => wholeDrv)
        ⟨"/0/1.-1/f0".toList, by decide⟩) ioExtOn
        (fun _ t => t.world = 0xF0 ∧ t.calls = [.write 0 1]) = true := by
      decide +kernel
    obtain ⟨reply, u, hrun', htest⟩ := exists_of_yields hyields
    obtain ⟨-, rfl⟩ := EStateM.Result.ok.inj (hrun.symm.trans hrun')
    obtain ⟨-, hwritten⟩ := of_decide_eq_true htest
    rw [hwritten] at hcalls
    obtain rfl : [.write 0 1] = calls := hcalls
    cases hnone
  · rw [heq] at hcomps
    obtain rfl : devTok = "1.-1".toList := by simpa using hcomps
    have hneg := Option.some.inj (hnamed.symm.trans hsub)
    omega

end Switcher
