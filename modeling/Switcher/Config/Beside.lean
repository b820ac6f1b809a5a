import Switcher.Config.Parser
import Switcher.Driver.Beside

/-!
The parser over two kernels that differ in what is behind their spidev: it takes nothing
from there.
-/

namespace Switcher

open Lib.Program Lib.Text

variable {κ σ σ' α : Type}

variable {K : Kernel κ} {S : SpiHandle → σ → σ' → Prop}
  {a : List (BitVec 8) → σ → (Int × BitVec 8) × σ}
  {a' : List (BitVec 8) → σ' → (Int × BitVec 8) × σ'}

/-- The two parsers are at the same point. -/
structure ParserAlike (S : SpiHandle → σ → σ' → Prop) (s : BusConfigs (κ × σ))
    (t : BusConfigs (κ × σ')) : Prop where
  config : t.config = s.config
  lastSection : t.lastSection = s.lastSection
  currentBusId : t.currentBusId = s.currentBusId
  currentDevId : t.currentDevId = s.currentDevId
  world : Beside S s.world t.world

theorem allocate_alike {w : Env (κ × σ)} {w' : Env (κ × σ')} (h : Beside S w w') (x : α) :
    (allocate (K.withSpi a') x w').1 = (allocate (K.withSpi a) x w).1 ∧
      Beside S (allocate (K.withSpi a) x w).2 (allocate (K.withSpi a') x w').2 := by
  simp only [allocate, Kernel.withSpi, besides, h.os]
  exact ⟨rfl, h.spi, rfl, h.chips⟩

theorem atCursor_alike (size : Nat) (cursor : Int) :
    Parallel (ParserAlike (κ := κ) S) (atCursor size cursor) (atCursor size cursor) := by
  unfold atCursor
  split
  · exact Parallel.pure _
  · exact Parallel.throw _

theorem setBus_alike (b : Fin maxBusses) (bus : IoBus BusHandle) {w : Env (κ × σ)}
    {w' : Env (κ × σ')} (hw : Beside S w w') :
    Parallel (ParserAlike S) (setBus b bus w) (setBus b bus w') := by
  apply Mirrors.modified
  intro s t hst
  exact ⟨by rw [hst.config], hst.lastSection, hst.currentBusId, hst.currentDevId, hw⟩

theorem setDev_alike (slot : Slot) (dev : IoDev DevHandle) {w : Env (κ × σ)} {w' : Env (κ × σ')}
    (hw : Beside S w w') : Parallel (ParserAlike S) (setDev slot dev w) (setDev slot dev w') := by
  apply Mirrors.modified
  intro s t hst
  exact ⟨by rw [hst.config], hst.lastSection, hst.currentBusId, hst.currentDevId, hw⟩

theorem currentDev_alike : Parallel (ParserAlike (κ := κ) S) currentDev currentDev := by
  apply Mirrors.read_bind
  intro s t hst
  rw [hst.currentBusId, hst.currentDevId]
  apply Parallel.bind (atCursor_alike _ _)
  intro b
  exact (atCursor_alike _ _).bind fun _ => Parallel.pure _

theorem updateUserData_alike (sectionName : CString) :
    Parallel (ParserAlike (κ := κ) S) (updateUserData sectionName)
      (updateUserData sectionName) := by
  have hmove (f : BusConfigs (κ × σ) → BusConfigs (κ × σ))
      (g : BusConfigs (κ × σ') → BusConfigs (κ × σ'))
      (hfg : ∀ s t, ParserAlike S s t → ParserAlike S (f s) (g t)) :
      Parallel (ParserAlike S) (modify f : ParserM (κ × σ) Unit) (modify g) :=
    Mirrors.modified hfg
  apply Mirrors.read_bind
  intro s t hst
  rw [hst.lastSection]
  have hlast : Parallel (ParserAlike S)
      (modify fun s : BusConfigs (κ × σ) => { s with
        lastSection := strncpy sectionName maxIniEntryLen
        config := { s.config with numBusses := s.currentBusId + 1 } } : ParserM (κ × σ) Unit)
      (modify fun s : BusConfigs (κ × σ') => { s with
        lastSection := strncpy sectionName maxIniEntryLen
        config := { s.config with numBusses := s.currentBusId + 1 } }) := by
    apply hmove
    intro s t hst
    exact ⟨by rw [hst.config, hst.currentBusId], rfl, hst.currentBusId, hst.currentDevId, hst.world⟩
  refine Mirrors.ite (Mirrors.ite ?_ (Mirrors.ite ?_ ?_)) ?_
  · refine Parallel.bind (hmove _ _ fun s t hst => ?_) fun _ => hlast
    exact ⟨hst.config, hst.lastSection, by rw [hst.currentBusId], rfl, hst.world⟩
  · refine Parallel.bind (hmove _ _ fun s t hst => ?_) fun _ => hlast
    exact ⟨hst.config, hst.lastSection, hst.currentBusId, by rw [hst.currentDevId], hst.world⟩
  · exact hlast
  · exact hlast

theorem busParameter_alike (value : CString) :
    Parallel (ParserAlike S) (busParameter (K.withSpi a) value)
      (busParameter (K.withSpi a') value) := by
  apply Mirrors.read_bind
  intro s t hst
  rw [hst.currentBusId]
  apply Parallel.bind (atCursor_alike _ _)
  intro b
  rw [hst.config]
  cases hhandle : (s.config.busses b).drvHandle with
  | none =>
      simp only [hhandle, Option.bind_none]
      exact Parallel.pure _
  | some handle =>
      cases handle
      obtain ⟨hdata, hworld⟩ := allocate_alike (K := K) (a := a) hst.world (i2cBusData value)
      simp only [hhandle, busDrv, Option.bind_some, getI2cLinuxBusData]
      rw [hdata]
      exact setBus_alike b _ hworld

theorem devParameter_alike (value : CString) :
    Parallel (ParserAlike S) (devParameter (K.withSpi a) value)
      (devParameter (K.withSpi a') value) := by
  apply Mirrors.read_bind
  intro s t hst
  rw [hst.currentBusId]
  apply Parallel.bind (atCursor_alike _ _)
  intro b
  rw [hst.config]
  cases (s.config.busses b).drvHandle with
  | none => exact Parallel.pure _
  | some handle =>
      cases handle
      obtain ⟨hdata, hworld⟩ := allocate_alike (K := K) (a := a) hst.world (i2cDevData value)
      apply Parallel.bind currentDev_alike
      intro slot
      simp only [getI2cLinuxDevData]
      rw [hdata]
      exact setDev_alike slot _ hworld

theorem busType_alike (value : CString) :
    Parallel (ParserAlike (κ := κ) S) (busType value) (busType value) := by
  apply Mirrors.ite _ (Parallel.pure _)
  apply Mirrors.read_bind
  intro s t hst
  rw [hst.currentBusId, hst.config]
  exact (atCursor_alike _ _).bind fun b => setBus_alike b _ hst.world

theorem devDriver_alike (value : CString) :
    Parallel (ParserAlike (κ := κ) S) (devDriver value) (devDriver value) := by
  have hcount : Parallel (ParserAlike (κ := κ) S) countDevice countDevice := by
    apply Mirrors.read_bind
    intro s t hst
    rw [hst.currentBusId, hst.config]
    exact (atCursor_alike _ _).bind fun b => setBus_alike b _ hst.world
  refine Parallel.bind ?_ fun _ => hcount
  cases namedDriver value with
  | none => exact Parallel.pure _
  | some handle =>
      apply Parallel.bind currentDev_alike
      intro slot
      apply Mirrors.read_bind
      intro s t hst
      rw [hst.config]
      exact setDev_alike slot _ hst.world

theorem parserHandler_alike (e : IniEntry) :
    Parallel (ParserAlike S) (parserHandler (K.withSpi a) e) (parserHandler (K.withSpi a') e) := by
  apply (updateUserData_alike _).bind
  intro _
  refine Mirrors.ite ?_ (Mirrors.ite ?_ (Mirrors.ite ?_ (Mirrors.ite ?_ ?_)))
  · exact (busParameter_alike _).bind fun _ => Parallel.pure _
  · exact (busType_alike _).bind fun _ => Parallel.pure _
  · exact (devDriver_alike _).bind fun _ => Parallel.pure _
  · exact (devParameter_alike _).bind fun _ => Parallel.pure _
  · exact Parallel.pure _

theorem iniParseFile_alike (lineno error : Int) (lines : List IniLine) :
    Parallel (ParserAlike S) (iniParseFile (K.withSpi a) lineno error lines)
      (iniParseFile (K.withSpi a') lineno error lines) := by
  induction lines generalizing lineno error with
  | nil => exact Parallel.pure _
  | cons line rest ih =>
      unfold iniParseFile
      cases line with
      | entry e =>
          simp only [pure_bind]
          exact (parserHandler_alike e).bind fun rc => ih _ _
      | malformed => exact ih _ _
      | other => exact ih _ _

/-- `parse_config` reads a file alike over both. -/
theorem parseConfig_alike (file : Option (List IniLine)) :
    Parallel (ParserAlike S) (parseConfig (K.withSpi a) file)
      (parseConfig (K.withSpi a') file) := by
  have hparse : Parallel (ParserAlike S) (iniParse (K.withSpi a) file)
      (iniParse (K.withSpi a') file) := by
    cases file with
    | none => exact Parallel.pure _
    | some lines => exact iniParseFile_alike 0 0 lines
  apply hparse.bind
  intro rc
  exact Mirrors.ite (Parallel.pure _) (Parallel.pure _)

end Switcher
