import Switcher.Hardware.Outcome
import Switcher.Http.Handler

/-!
Whether the reply to a request tells what happened to it. The drivers count
transfers that did not pass, but `perform_io` reports such a count only for the
read of a sub-device write; and nobody counts a failed selection or SPI message. A
request whose line does not fit the log is not answered at all.
-/

namespace Switcher

open Lib.Program Lib.Text

/-- The body of a reply that `io_data_to_json` has printed. -/
def successBody (data : IoData) : List Char := cText (ioDataToJson data freshContent)

/-- The body of a reply that `error_to_json` has printed. -/
def errorBody (msg : List Char) : List Char := cText (errorToJson msg freshContent)

/-- What is asked of a reply and of `perform_io` when the calls issued for the
request had these outcomes. -/
structure Truthful (rc : Int) (data : IoData) (body : List Char) (outcomes : List Bool) :
    Prop where
  nonempty : body ≠ []
  success : body = successBody data ↔ outcomes.all id = true
  error : ¬ outcomes.all id = true → ∃ msg, body = errorBody msg
  rc : rc = exitSuccess ↔ outcomes.all id = true

/-- The handler answers the request, truthfully. -/
def AnswersTruthfully (p : Script) (uri : CString) (parts : IoData) (cmd : IoCmd)
    (s : Daemon (List Char) Playing) : Prop :=
  ∃ rc data t, performIo (devDrv p.kernel) httpCallbacks parts cmd
      { s with buf := freshContent } = .ok (rc, data) t ∧
    (∃ line, httpRequestHandler (devDrv p.kernel) uri s = .ok (httpReply t.buf, line) t) ∧
    Truthful rc data (cText t.buf) t.world.os.log

def Request.type (r : Request) : RequestT := if r.isSet then .set else .get

/-- The calls that a request plans. -/
def plannedCount (handle : DevHandle) (cached : Mcp23017IoState) (r : Request) : Nat :=
  if r.isSet then
    match r.subDev with
    | none => accessCount handle cached .write
    | some _ => accessCount handle cached .read + accessCount handle .read .write
  else accessCount handle cached .read

/-- A transfer fails in the read that a sub-device write to an I2C device starts
with. -/
def ReadPhaseFails (p : Script) (handle : DevHandle) (cached : Mcp23017IoState)
    (k : Progress) (r : Request) : Prop :=
  r.isSet = true ∧ r.subDev.isSome = true ∧
    ¬ p.AllPass handle k (accessCount handle cached .read)

theorem cText_snprintf (text buf : List Char) :
    cText (snprintf text buf) = (text.take (bufLen - 1)).takeWhile (· ≠ nul) := by
  have hstop : (nul :: buf.drop ((text.take (bufLen - 1)).length + 1)).takeWhile
      (fun c => decide (c ≠ nul)) = [] := by
    simp
  rw [cText, snprintf, List.takeWhile_append, hstop]
  split
  · next hall => rw [List.append_nil, (List.takeWhile_prefix _).eq_of_length hall]
  · rfl

theorem cText_ioDataToJson (data : IoData) (buf : List Char) :
    cText (ioDataToJson data buf) = successBody data := by
  rw [successBody, ioDataToJson, ioDataToJson, cText_snprintf, cText_snprintf]

theorem cText_errorToJson (msg buf : List Char) :
    cText (errorToJson msg buf) = errorBody msg := by
  rw [errorBody, errorToJson, errorToJson, cText_snprintf, cText_snprintf]

theorem successBody_head (data : IoData) : (successBody data).head? = some 'c' := by
  rw [successBody, ioDataToJson, cText_snprintf]
  rfl

theorem errorBody_head (msg : List Char) : (errorBody msg).head? = some '\x7b' := by
  rw [errorBody, errorToJson, cText_snprintf]
  rfl

section Calls

variable {p : Script} {handle : DevHandle} {cached : Mcp23017IoState} {r : Request}
  {s : Daemon (List Char) Playing}

/-- The device in `slot` is set up. -/
def OperableAt (s : Daemon (List Char) Playing) (slot : Slot) (handle : DevHandle)
    (cached : Mcp23017IoState) : Prop :=
  Operable (s.config.busses slot.1) (s.drvState slot) handle cached

theorem Operable.drvHandle {bus : IoBus BusHandle}
    {t : DrvState DevHandle (List Char) (Env Playing)} (h : Operable bus t handle cached) :
    t.dev.drvHandle = some handle := by
  cases h with
  | pcf8574 hdrv => exact hdrv
  | mcp23017 hdrv => exact hdrv
  | piface hdrv => exact hdrv

theorem drvState_storeDrv (slot : Slot) (t : DrvState DevHandle (List Char) (Env Playing)) :
    (s.storeDrv slot t).drvState slot = t := by
  simp [Sys.storeDrv, Sys.drvState]

theorem drvRead_attempt (h : OperableAt s r.slot handle cached) :
    ∃ numRead value t, drvRead (devDrv p.kernel) httpCallbacks r.data s =
        .ok (numRead, value) t ∧
      Attempt p handle (accessCount handle cached .read) s.world.os t.world.os (0 < numRead) ∧
      (0 < numRead → OperableAt t r.slot handle .read) := by
  obtain ⟨⟨numRead, value⟩, t, hrun, hattempt, hnext⟩ :=
    read_attempt h httpCallbacks.error r.value
  refine ⟨numRead, value, _, (callDrv_slot _ r.slot _ _ h.drvHandle).trans (onDevice_of_ok hrun),
    hattempt, ?_⟩
  intro hread
  rw [OperableAt, drvState_storeDrv]
  exact hnext hread

theorem drvWrite_attempt (h : OperableAt s r.slot handle cached) (value : Value) :
    ∃ numWritten t, drvWrite (devDrv p.kernel) httpCallbacks r.data value s =
        .ok numWritten t ∧
      Attempt p handle (accessCount handle cached .write) s.world.os t.world.os
        (0 < numWritten) := by
  obtain ⟨numWritten, t, hrun, hattempt⟩ := write_attempt h httpCallbacks.error value
  exact ⟨numWritten, _, (callDrv_slot _ r.slot _ _ h.drvHandle).trans (onDevice_of_ok hrun),
    hattempt⟩

/-- `perform_io` has returned `EXIT_SUCCESS` after planning `n` calls, and has
reported success if they all passed. -/
structure Claimed (p : Script) (handle : DevHandle) (n : Nat) (k : Playing) (rc : Int)
    (data : IoData) (t : Daemon (List Char) Playing) : Prop where
  rc : rc = exitSuccess
  attempt : ∃ good, Attempt p handle n k t.world.os good ∧
    (good → cText t.buf = successBody data)

theorem Claimed.reported {n : Nat} {k : Playing} {data : IoData} {num : Int}
    {t : Daemon (List Char) Playing} (h : Attempt p handle n k t.world.os (0 < num)) :
    Claimed p handle n k exitSuccess data
      (if 0 < num then { t with buf := httpCallbacks.success data t.buf } else t) := by
  refine ⟨rfl, 0 < num, ?_, ?_⟩
  · by_cases hnum : 0 < num
    · rw [if_pos hnum]
      exact h
    · rw [if_neg hnum]
      exact h
  · intro hnum
    rw [if_pos hnum]
    exact cText_ioDataToJson data t.buf

theorem writeValue_claimed (h : OperableAt s r.slot handle cached) (value : Value) :
    ∃ rc data t, writeValue (devDrv p.kernel) httpCallbacks r.data value s =
        .ok (rc, data) t ∧
      Claimed p handle (accessCount handle cached .write) s.world.os rc data t := by
  obtain ⟨numWritten, t, hrun, hattempt⟩ := drvWrite_attempt h value
  exact ⟨_, _, _, writeValue_run _ httpCallbacks hrun, Claimed.reported hattempt⟩

theorem performRead_claimed (h : OperableAt s r.slot handle cached) :
    ∃ rc data t, performRead (devDrv p.kernel) httpCallbacks r.data s = .ok (rc, data) t ∧
      Claimed p handle (accessCount handle cached .read) s.world.os rc data t := by
  obtain ⟨numRead, value, t, hrun, hattempt, -⟩ := drvRead_attempt h
  have hperform := performRead_run _ httpCallbacks hrun
  by_cases hread : 0 < numRead
  · rw [if_pos hread] at hperform
    refine ⟨_, _, _, hperform, rfl, 0 < numRead, hattempt, ?_⟩
    intro _
    exact cText_ioDataToJson _ t.buf
  · rw [if_neg hread] at hperform
    exact ⟨_, _, _, hperform, rfl, 0 < numRead, hattempt, fun hpos => absurd hpos hread⟩

/-- A sub-device write ends with the error of its read, or goes on to claim
success. -/
theorem performWrite_subDev_outcome (h : OperableAt s r.slot handle cached) {i : Fin 32}
    (hsub : r.subDev = some i) :
    ∃ rc data t, performWrite (devDrv p.kernel) httpCallbacks r.data s = .ok (rc, data) t ∧
      ((¬ p.AllPass handle s.world.os.progress (accessCount handle cached .read) ∧
          rc = exitFailure ∧ cText t.buf = errorBody "Could not read from device.".toList ∧
          Attempt p handle (accessCount handle cached .read) s.world.os t.world.os False) ∨
        (p.AllPass handle s.world.os.progress (accessCount handle cached .read) ∧
          Claimed p handle
            (accessCount handle cached .read + accessCount handle .read .write)
            s.world.os rc data t)) := by
  obtain ⟨numRead, value, u, hrun, hattempt, hnext⟩ := drvRead_attempt h
  have hperform := performWrite_subDev _ httpCallbacks hsub hrun
  by_cases hread : 0 < numRead
  · have hpositive : ¬ numRead ≤ 0 := by omega
    obtain ⟨rc, data, t, hwrite, hrc, good, hattempt', hbody⟩ :=
      writeValue_claimed (p := p) (hnext hread) (r.masked i value)
    rw [if_neg hpositive, hwrite] at hperform
    refine ⟨rc, data, t, hperform, .inr ⟨hattempt.passes.mp hread, hrc, _,
      hattempt.append (fun _ => hattempt') (absurd hread), ?_⟩⟩
    exact fun hboth => hbody hboth.2
  · have hnonpos : numRead ≤ 0 := by omega
    rw [if_pos hnonpos] at hperform
    refine ⟨_, _, _, hperform, .inl ⟨fun hall => hread (hattempt.passes.mpr hall), rfl,
      cText_errorToJson _ u.buf, hattempt.imp (by simp [hread])⟩⟩

end Calls

section Verdict

variable {p : Script} {handle : DevHandle} {n : Nat} {k : Playing} {rc : Int} {data : IoData}
  {t : Daemon (List Char) Playing}

/-- A claim of success is true exactly if all planned calls succeed. -/
theorem Claimed.truthful_iff (h : Claimed p handle n k rc data t) (hlog : k.log = []) :
    Truthful rc data (cText t.buf) t.world.os.log ↔ p.AllSucceed handle k.progress n := by
  obtain ⟨hrc, good, hattempt, hbody⟩ := h
  obtain ⟨entries, heq, hall⟩ := hattempt.log
  rw [hlog, List.nil_append] at heq
  rw [heq, ← hall]
  refine ⟨fun htruthful => htruthful.rc.mp hrc, ?_⟩
  intro hsucceeded
  have hgood := hattempt.passes.mpr (hall.mp hsucceeded).allPass
  have hhead := successBody_head data
  rw [hbody hgood]
  refine ⟨?_, by simp [hsucceeded], fun hnot => absurd hsucceeded hnot, by simp [hrc, hsucceeded]⟩
  intro hnil
  rw [hnil] at hhead
  cases hhead

/-- An error reply with `EXIT_FAILURE` is true once a call did not pass. -/
theorem truthful_of_failed {msg : List Char} (hrc : rc = exitFailure)
    (hbody : cText t.buf = errorBody msg) (hattempt : Attempt p handle n k t.world.os False)
    (hlog : k.log = []) : Truthful rc data (cText t.buf) t.world.os.log := by
  obtain ⟨entries, heq, hall⟩ := hattempt.log
  rw [hlog, List.nil_append] at heq
  have hfailed : ¬ entries.all id = true := fun hsucceeded =>
    hattempt.passes.mpr (hall.mp hsucceeded).allPass
  have hhead := errorBody_head msg
  have hne : errorBody msg ≠ successBody data := by
    intro hsame
    rw [hsame, successBody_head] at hhead
    exact absurd hhead (by decide)
  rw [hbody, heq]
  refine ⟨?_, by simp [hne, hfailed], fun _ => ⟨msg, rfl⟩, ?_⟩
  · intro hnil
    rw [hnil] at hhead
    cases hhead
  · simp [hrc, hfailed, exitFailure, exitSuccess]

end Verdict

def notStarted : Playing := ⟨⟨0, 0, 0⟩, []⟩

section Answers

variable {p : Script} {uri : CString} {r : Request} {handle : DevHandle}
  {cached : Mcp23017IoState} {s : Daemon (List Char) Playing}
  (hparse : parseUri uri = .ok (r.type, r.data)) (hslot : s.config.HasSlot r.slot)
include hparse hslot

theorem answersTruthfully_of_run {rc : Int} {data : IoData} {t : Daemon (List Char) Playing}
    (hrun : (if r.isSet then performWrite (devDrv p.kernel) httpCallbacks r.data
      else performRead (devDrv p.kernel) httpCallbacks r.data)
      { s with buf := freshContent } = .ok (rc, data) t) :
    AnswersTruthfully p uri r.data r.cmd s ↔
      (requestText uri r.data r.type).length < bufLen ∧
        Truthful rc data (cText t.buf) t.world.os.log := by
  have htype : r.type ≠ .err ∧ r.type.cmd = r.cmd := by
    unfold Request.type Request.cmd
    cases r.isSet with
    | true => exact ⟨by decide, rfl⟩
    | false => exact ⟨by decide, rfl⟩
  have hslot' : ({ s with buf := freshContent } : Daemon (List Char) Playing).config.HasSlot
      r.slot := hslot
  have hperform : performIo (devDrv p.kernel) httpCallbacks r.data r.cmd
      { s with buf := freshContent } = .ok (rc, data) t :=
    (performIo_request _ httpCallbacks r hslot').trans hrun
  constructor
  · rintro ⟨rc', data', t', hperform', ⟨line, hanswer⟩, htruthful⟩
    obtain ⟨hresult, rfl⟩ := EStateM.Result.ok.inj (hperform.symm.trans hperform')
    obtain ⟨rfl, rfl⟩ := Prod.mk.inj hresult
    refine ⟨?_, htruthful⟩
    by_contra hover
    cases (handleRequest_over hparse hover s).symm.trans hanswer
  · rintro ⟨hfits, htruthful⟩
    have hanswer := httpRequestHandler_run hparse htype.1 hfits (htype.2 ▸ hperform)
    exact ⟨rc, data, t, hperform, ⟨_, hanswer⟩, htruthful⟩

/-- A request to a device that is set up is answered truthfully exactly if its line fits
the log, and every planned call succeeds or it is a sub-device write whose read fails. -/
theorem answersTruthfully_iff (hdev : OperableAt s r.slot handle cached)
    (hstart : s.world.os = notStarted) :
    AnswersTruthfully p uri r.data r.cmd s ↔
      (requestText uri r.data r.type).length < bufLen ∧
        (p.AllSucceed handle notStarted.progress (plannedCount handle cached r) ∨
          ReadPhaseFails p handle cached notStarted.progress r) := by
  have hlog : s.world.os.log = [] := by rw [hstart]; rfl
  have hdev' : OperableAt { s with buf := freshContent } r.slot handle cached := by
    cases hdev with
    | pcf8574 hdrv hbus hdev => exact .pcf8574 hdrv hbus hdev
    | mcp23017 hdrv hdata hbus hdev => exact .mcp23017 hdrv hdata hbus hdev
    | piface hdrv hspi => exact .piface hdrv hspi
  rw [← hstart]
  by_cases hset : r.isSet = true
  · cases hsub : r.subDev with
    | none =>
        obtain ⟨rc, data, t, hrun, hclaimed⟩ := writeValue_claimed (p := p) hdev' r.value
        rw [← performWrite_whole _ httpCallbacks hsub] at hrun
        rw [answersTruthfully_of_run hparse hslot (by rw [if_pos hset]; exact hrun),
          hclaimed.truthful_iff hlog]
        simp [plannedCount, ReadPhaseFails, hset, hsub]
    | some i =>
        obtain ⟨rc, data, t, hrun, houtcome⟩ := performWrite_subDev_outcome (p := p) hdev' hsub
        rw [answersTruthfully_of_run hparse hslot (by rw [if_pos hset]; exact hrun)]
        rcases houtcome with ⟨hfails, hrc, hbody, hattempt⟩ | ⟨hpasses, hclaimed⟩
        · exact and_congr_right fun _ =>
            iff_of_true (truthful_of_failed hrc hbody hattempt hlog)
              (.inr ⟨hset, by simp [hsub], hfails⟩)
        · rw [hclaimed.truthful_iff hlog]
          have hpasses' : ¬ ReadPhaseFails p handle cached s.world.os.progress r :=
            fun hfails => hfails.2.2 hpasses
          simp [plannedCount, hset, hsub, hpasses']
  · obtain ⟨rc, data, t, hrun, hclaimed⟩ := performRead_claimed (p := p) hdev'
    rw [answersTruthfully_of_run hparse hslot (by rw [if_neg hset]; exact hrun),
      hclaimed.truthful_iff hlog]
    simp [plannedCount, ReadPhaseFails, hset]

end Answers

/-- Selections and messages succeed, and I2C transfers return `rc`. -/
def transfersReturn (rc : Int) : Script := ⟨fun _ => 0, fun _ => (rc, 0), fun _ => (1, 0), []⟩

/-- The daemon of `config/io_ext.ini` before a request. -/
def ioExtPlaying : Daemon (List Char) Playing := ⟨ioExtConfig, [], ⟨.null, notStarted⟩, []⟩

def writeFirst : Request := ⟨(0, 0), none, true, 0xff⟩

theorem answersTruthfully_iff_ioExt :
    AnswersTruthfully (transfersReturn 0) ⟨"/0/0/ff".toList, by decide⟩ writeFirst.data
        writeFirst.cmd ioExtPlaying ↔
      (requestText ⟨"/0/0/ff".toList, by decide⟩ writeFirst.data writeFirst.type).length <
          bufLen ∧
        ((transfersReturn 0).AllSucceed .pcf8574 notStarted.progress
            (plannedCount .pcf8574 .none writeFirst) ∨
          ReadPhaseFails (transfersReturn 0) .pcf8574 .none notStarted.progress writeFirst) :=
  answersTruthfully_iff (by decide +kernel) (by decide) (.pcf8574 rfl rfl rfl) rfl

def emptyBody (_ : Int × IoData) (t : Daemon (List Char) Playing) : Bool :=
  decide (cText t.buf = [])

/-- The reply to a write whose one transfer fails is empty. -/
theorem failed_write_unreported :
    parseUri ⟨"/0/0/ff".toList, by decide⟩ = .ok (.set, writeFirst.data) ∧
      ioExtPlaying.config.HasSlot writeFirst.slot ∧
      OperableAt ioExtPlaying writeFirst.slot .pcf8574 .none ∧
      ¬ AnswersTruthfully (transfersReturn (-1)) ⟨"/0/0/ff".toList, by decide⟩ writeFirst.data
        writeFirst.cmd ioExtPlaying := by
  refine ⟨by decide +kernel, by decide, .pcf8574 rfl rfl rfl, ?_⟩
  rintro ⟨rc, data, t, hperform, -, htruthful⟩
  have hyields : yields (performIo (devDrv (transfersReturn (-1)).kernel) httpCallbacks
      writeFirst.data writeFirst.cmd) { ioExtPlaying with buf := freshContent } emptyBody =
        true := by
    decide +kernel
  obtain ⟨_, t', hperform', hempty⟩ := exists_of_yields hyields
  obtain ⟨-, rfl⟩ := EStateM.Result.ok.inj (hperform.symm.trans hperform')
  exact htruthful.nonempty (of_decide_eq_true hempty)

end Switcher
