import Switcher.Config.Inside
import Switcher.Http.Events
import Switcher.Http.Scans
import Switcher.Service.Named
import Switcher.Service.Startup

/-!
Which requests the daemon survives. Once its configuration is set up, nothing that a
device does can stop it; a URI can, in four ways, each of which can be read off the
text.
-/

namespace Switcher

open Lib.Program Lib.Interleaving Lib.Numeral Lib.Text

variable {ω δ κ : Type}

/-- The numbers of a request neither reach in front of a table nor set an output that
no value has. -/
structure Spelled.Harmless (w : Spelled) (config : IoConfig ω δ) : Prop where
  indices : NotBelowSentinel w.kept config
  output : w.type = .set → OutsideValue w.kept.idxSubDev → Unconfigured w.kept config

/-- A URI that the process survives. -/
structure Survivable (config : IoConfig ω δ) (uri : CString) : Prop where
  device : ¬ BlankDevice uri
  line : (requestLine uri).length < bufLen
  request : ∀ w, spelled (uriComponents uri) = some w → w.Harmless config

/-- The requests among the events. -/
def requestedUris (events : List (MgConnection × MgEvent)) : List CString :=
  (events.filter fun event => event.2 = .request ∧ event.1.isWebsocket = false).map (·.1.uri)

/-- Every transfer goes through. -/
def Kernel.Transfers (K : Kernel κ) : Prop := ∀ fh args os, (K.i2cSmbus fh args os).1.1 = 0

section Working

variable {β : Type} {K : Kernel κ} {s : Daemon β κ} {slot : Slot}

theorem callDrv_working {α : Type}
    {f : DevDrv BusHandle DevHandle β (Env κ) → IoBus BusHandle → DrvM DevHandle β (Env κ) α}
    (hf : RunsOnWorking K f) (hs : InService s) (hslot : s.config.HasSlot slot) (call : DrvCall) :
    ∃ a t, callDrv (devDrv K) slot.1.val slot.2.val call f s = .ok a t ∧ Grows s t := by
  obtain ⟨handle, hhandle⟩ := Option.isSome_iff_exists.mp (hs.equipped.driver slot hslot)
  have hgrows : Grows s { s with calls := s.calls ++ [call] } := grows_of_same rfl rfl
  obtain ⟨a, t, hrun, ht⟩ := onDevice_working hf (hgrows.inService hs) hslot hhandle
  exact ⟨a, t, (callDrv_slot (devDrv K) slot call f hhandle).trans hrun, hgrows.trans ht⟩

variable (cb : Callbacks β) (hs : InService s) (hslot : s.config.HasSlot slot) (idxSubDev : Int)
  (value : Value)
include hs hslot

theorem drvRead_working :
    ∃ result t, drvRead (devDrv K) cb (slotData slot idxSubDev value) s = .ok result t ∧
      Grows s t :=
  callDrv_working (read_runsOnWorking cb.error value) hs hslot (.read slot.1.val slot.2.val)

theorem writeValue_working (written : Value) :
    ∃ result t, writeValue (devDrv K) cb (slotData slot idxSubDev value) written s =
      .ok result t ∧ Grows s t := by
  obtain ⟨numWritten, t, hrun, ht⟩ := callDrv_working (write_runsOnWorking cb.error written) hs
    hslot (.write slot.1.val slot.2.val)
  have hwrite : drvWrite (devDrv K) cb (slotData slot idxSubDev value) written s =
      .ok numWritten t := hrun
  refine ⟨_, _, writeValue_run (devDrv K) cb hwrite, ?_⟩
  split
  · exact ht.trans (grows_of_same rfl rfl)
  · exact ht

theorem performWrite_working (hinside : ¬ OutsideValue idxSubDev) :
    ∃ result t, performWrite (devDrv K) cb (slotData slot idxSubDev value) s = .ok result t ∧
      Grows s t := by
  rcases request_or_outside slot idxSubDev value with ⟨r, rfl, hdata⟩ | hout
  · rcases r.subDev.eq_none_or_eq_some with hsub | ⟨i, hsub⟩
    · rw [← hdata, performWrite_whole _ cb hsub, hdata]
      exact writeValue_working cb hs hslot idxSubDev value r.value
    · obtain ⟨⟨numRead, before⟩, t, hrun, ht⟩ :=
        drvRead_working (K := K) cb hs hslot idxSubDev value
      rw [← hdata] at hrun ⊢
      rw [performWrite_subDev _ cb hsub hrun]
      split
      · exact ⟨_, _, rfl, ht.trans (grows_of_same rfl rfl)⟩
      · obtain ⟨result, u, hwrite, hu⟩ := writeValue_working (K := K) cb (ht.inService hs)
          ((ht.hasSlot _).mpr hslot) idxSubDev value (r.masked i before)
        rw [hdata]
        exact ⟨result, u, hwrite, ht.trans hu⟩
  · exact absurd hout hinside

theorem performRead_working :
    ∃ result t, performRead (devDrv K) cb (slotData slot idxSubDev value) s = .ok result t ∧
      Grows s t := by
  obtain ⟨⟨numRead, before⟩, t, hrun, ht⟩ := drvRead_working (K := K) cb hs hslot idxSubDev value
  rcases request_or_outside slot idxSubDev value with ⟨r, -, hdata⟩ | hout
  · rw [← hdata] at hrun ⊢
    rw [performRead_run _ cb hrun]
    split
    · exact ⟨_, _, rfl, ht.trans (grows_of_same rfl rfl)⟩
    · exact ⟨_, _, rfl, ht⟩
  · rw [performRead_outside hout hrun]
    split
    · exact ⟨_, _, rfl, ht.trans (grows_of_same rfl rfl)⟩
    · exact ⟨_, _, rfl, ht⟩

end Working

section PerformIo

variable {K : Kernel κ} {s t : Daemon (List Char) κ} {data : IoData} {cmd : IoCmd}

theorem slot_of_configured {config : IoConfig ω δ} (hbounded : config.Bounded)
    (hbelow : NotBelowSentinel data config) (h : ¬ Unconfigured data config) :
    ∃ slot, config.HasSlot slot ∧ data = slotData slot data.idxSubDev data.value := by
  obtain ⟨hvalid, hrest⟩ := not_or.mp h
  obtain ⟨hlt, hrest⟩ := not_or.mp hrest
  obtain ⟨hsome, hcount⟩ := not_or.mp hrest
  have hmax := hbounded.busses.2
  have hlow := hbelow.1.resolve_right hsome
  simp only [idxInvalid] at hvalid hlow hsome
  have hpos : 0 ≤ data.idxBus := by omega
  let bus : Fin maxBusses := ⟨data.idxBus.toNat, by omega⟩
  have hbus : data.idxBus = bus.val := (Int.toNat_of_nonneg hpos).symm
  have hfew : ¬ data.idxDev ≥ (config.busses bus).numDevices := fun hbad =>
    hcount ⟨bus, hbus, hbad⟩
  have hdevs := (hbounded.devices bus).2
  have hdevlow := hbelow.2 hpos (by omega)
  simp only [idxInvalid] at hdevlow
  have hdevpos : 0 ≤ data.idxDev := by omega
  let dev : Fin maxIoDevices := ⟨data.idxDev.toNat, by omega⟩
  have hdev : data.idxDev = dev.val := (Int.toNat_of_nonneg hdevpos).symm
  have hslot : config.HasSlot (bus, dev) := by
    constructor
    · show (bus.val : Int) < config.numBusses
      omega
    · show (dev.val : Int) < (config.busses bus).numDevices
      omega
  refine ⟨(bus, dev), hslot, ?_⟩
  rw [slotData, ← hbus, ← hdev]

/-- A request with harmless numbers is served, whatever its device answers. -/
theorem performIo_working (hs : InService s) (hcmd : cmd = .write ∨ cmd = .read)
    (hbelow : NotBelowSentinel data s.config)
    (houtput : cmd = .write → OutsideValue data.idxSubDev → Unconfigured data s.config) :
    ∃ result t, performIo (devDrv K) httpCallbacks data cmd s = .ok result t ∧ Grows s t := by
  by_cases hconfigured : Unconfigured data s.config
  · have hrefused : Refused (devDrv K) httpCallbacks data cmd s :=
      refused_of_unconfigured hconfigured
    obtain ⟨msg, hrun⟩ := hrefused
    exact ⟨_, _, hrun, grows_of_same rfl rfl⟩
  · obtain ⟨slot, hslot, hdata⟩ := slot_of_configured hs.equipped.bounded hbelow hconfigured
    rw [hdata, performIo_slot _ _ hslot data.idxSubDev data.value hcmd]
    rcases hcmd with rfl | rfl
    · rw [if_pos rfl]
      exact performWrite_working httpCallbacks hs hslot _ _ fun hout =>
        hconfigured (houtput rfl hout)
    · rw [if_neg (by simp)]
      exact performRead_working httpCallbacks hs hslot _ _

theorem notBelow_of_performIo {result : Int × IoData} (hbounded : s.config.Bounded)
    (hcmd : cmd = .write ∨ cmd = .read)
    (hrun : performIo (devDrv K) httpCallbacks data cmd s = .ok result t) :
    NotBelowSentinel data s.config := by
  by_contra hbelow
  have hcases : (data.idxBus < idxInvalid ∧ data.idxDev ≠ idxInvalid) ∨ (0 ≤ data.idxBus ∧
      data.idxBus < s.config.numBusses ∧ data.idxDev < idxInvalid) := by
    simp only [NotBelowSentinel, idxInvalid] at hbelow ⊢
    omega
  rcases hcases with ⟨hbus, hsome⟩ | ⟨hpos, hlt, hdev⟩
  · cases (performIo_belowBusses hbounded hbus hsome).symm.trans hrun
  · have hmax := hbounded.busses.2
    obtain ⟨bus, heq, -⟩ := busIndex_of_lt hpos (by omega) s
    cases (performIo_belowDevices hbounded hcmd heq hlt hdev).symm.trans hrun

theorem exchange_passes {β : Type} (hK : K.Transfers) (cbError : CbError β) (fh : Int)
    (address : BitVec 8) (args : Smbus) (t : DrvState DevHandle β (Env κ)) :
    (exchange K cbError fh address args t).1.1 = 0 := hK _ _ _

theorem exchanges_pass {β : Type} (hK : K.Transfers) (cbError : CbError β) (fh : Int)
    (address : BitVec 8) (plan : List Smbus) (t : DrvState DevHandle β (Env κ)) :
    (exchanges K cbError fh address plan t).1.isSome = true := by
  induction plan generalizing t with
  | nil => rfl
  | cons args rest ih =>
      rw [exchanges_cons_of_ok K (exchange_passes hK _ _ _ _ _), Option.isSome_map]
      exact ih _

theorem inputPlan_passes {β : Type} (hK : K.Transfers) (cbError : CbError β) (fh : Int)
    (address : BitVec 8) (t : DrvState DevHandle β (Env κ)) :
    ∃ statesA statesB,
      (exchanges K cbError fh address inputPlan t).1 = some [statesA, statesB] := by
  have hpass := exchanges_pass hK cbError fh address inputPlan t
  rcases exchanges_pair K cbError fh address (.readByteData Mcp23017.gpioa)
      (.readByteData Mcp23017.gpiob) t with
    hnone | hsome
  · rw [inputPlan, hnone] at hpass
    cases hpass
  · exact hsome

theorem ensuredIo_passes {β : Type} (hK : K.Transfers) (cbError : CbError β) (fh : Int)
    (address : BitVec 8) (cached desiredState : Mcp23017IoState)
    (t : DrvState DevHandle β (Env κ)) :
    (ensuredIo K cbError fh address cached desiredState t).1 = desiredState := by
  rcases ensuredIo_cases K cbError fh address cached desiredState t with
    ⟨-, h⟩ | ⟨-, -, h⟩ | ⟨-, hfailed, -⟩
  · rw [h]
  · rw [h]
  · rw [exchanges_pass hK] at hfailed
    cases hfailed

/-- Where every transfer goes through, every read does. -/
theorem i2cRead_passes {β : Type} (hK : K.Transfers) {bus : IoBus BusHandle} {fh : Int}
    {address : BitVec 8} {handle : DevHandle} {u : DrvState DevHandle β (Env κ)}
    (hdevice : I2cDevice bus u.dev fh address handle) (cbError : CbError β) (value : Value) :
    ∃ read v, (devDrv K handle).read cbError bus value u = .ok (1, read) v := by
  cases hdevice with
  | pcf8574 hbus hdev =>
      have hrun := pcf8574Read_run K cbError value hbus hdev
      rw [if_pos (exchange_passes hK _ _ _ _ _)] at hrun
      exact ⟨_, _, hrun⟩
  | @mcp23017 busData devBusData data hdata hbus hdev =>
      have hrun := mcp23017Read_run K cbError hdata hbus hdev value
      simp only [if_pos (ensuredIo_passes hK _ _ _ _ _ _)] at hrun
      obtain ⟨statesA, statesB, hsome⟩ := inputPlan_passes hK cbError busData.fh
        devBusData.address
        (ensuredIo K cbError busData.fh devBusData.address data.ioState .read u).2
      rw [hsome] at hrun
      exact ⟨_, _, hrun⟩

/-- Then a write to an output that no value has shifts by its index. -/
theorem performWrite_outside_stops (hK : K.Transfers) (hs : InService s) {slot : Slot}
    (hslot : s.config.HasSlot slot) {idxSubDev : Int} (hout : OutsideValue idxSubDev)
    (value : Value) :
    ∃ u, performWrite (devDrv K) httpCallbacks (slotData slot idxSubDev value) s =
      .error .badShift u := by
  obtain ⟨handle, hhandle⟩ := Option.isSome_iff_exists.mp (hs.equipped.driver slot hslot)
  have hpass : ∃ read v, (devDrv K handle).read httpCallbacks.error (s.config.busses slot.1) value
      (s.drvState slot) = .ok (1, read) v := by
    by_cases hpiface : handle = .piface
    · subst hpiface
      obtain ⟨fd, hfd⟩ := (hs.works slot hslot).piface hhandle
      obtain ⟨states, v, hrun, -, -⟩ := spiTransfer_returns (K := K)
        [Pfio.spiReadCmd, Pfio.outputPort, 0xff] (s.drvState slot) ⟨rfl, hfd⟩
      exact ⟨_, v, bind_of_ok hrun⟩
    · obtain ⟨fh, address, hdevice⟩ := (hs.works slot hslot).i2c handle hhandle hpiface
      exact i2cRead_passes hK hdevice _ _
  obtain ⟨read, v, hread⟩ := hpass
  rw [performWrite_outside hout (drvRead_of_ok httpCallbacks hhandle idxSubDev hread),
    if_neg (by decide)]
  exact ⟨_, rfl⟩

end PerformIo

section Harmless

variable {K : Kernel κ} {s t : Daemon (List Char) κ}

theorem harmless_of_performIo (hK : K.Transfers) (hs : InService s) {w : Spelled}
    {result : Int × IoData}
    (hrun : performIo (devDrv K) httpCallbacks w.kept w.type.cmd s = .ok result t) :
    w.Harmless s.config := by
  have hcmd := RequestT.cmd_of_ne_err w.type_ne_err
  have hbelow := notBelow_of_performIo hs.equipped.bounded hcmd hrun
  refine ⟨hbelow, fun hset hout => ?_⟩
  by_contra hconfigured
  obtain ⟨slot, hslot, hdata⟩ := slot_of_configured hs.equipped.bounded hbelow hconfigured
  have hwrite : w.type.cmd = .write := by rw [hset]; rfl
  rw [hwrite, hdata, performIo_slot _ _ hslot _ _ (.inl rfl), if_pos rfl] at hrun
  obtain ⟨u, hstop⟩ := performWrite_outside_stops hK hs hslot hout w.kept.value
  cases hstop.symm.trans hrun

end Harmless

section Answers

variable {K : Kernel κ} {s t : Daemon (List Char) κ} {uri : CString}

theorem Spelled.harmless_congr {w : Spelled} {config config' : IoConfig ω δ}
    (hbusses : config'.numBusses = config.numBusses)
    (hdevices : ∀ b, (config'.busses b).numDevices = (config.busses b).numDevices) :
    w.Harmless config' ↔ w.Harmless config := by
  have hunconfigured : Unconfigured w.kept config' ↔ Unconfigured w.kept config := by
    simp only [Unconfigured, hbusses, hdevices]
  have hbelow : NotBelowSentinel w.kept config' ↔ NotBelowSentinel w.kept config := by
    simp only [NotBelowSentinel, hbusses]
  constructor
  · rintro ⟨hindices, houtput⟩
    exact ⟨hbelow.mp hindices, fun hset hout => hunconfigured.mp (houtput hset hout)⟩
  · rintro ⟨hindices, houtput⟩
    exact ⟨hbelow.mpr hindices, fun hset hout => hunconfigured.mpr (houtput hset hout)⟩

/-- What is survived depends on the counts only. -/
theorem survivable_congr {config config' : IoConfig ω δ}
    (hbusses : config'.numBusses = config.numBusses)
    (hdevices : ∀ b, (config'.busses b).numDevices = (config.busses b).numDevices) :
    Survivable config' uri ↔ Survivable config uri := by
  have hharmless (w : Spelled) := w.harmless_congr hbusses hdevices
  constructor
  · rintro ⟨hdevice, hline, hrequest⟩
    exact ⟨hdevice, hline, fun w hw => (hharmless w).mp (hrequest w hw)⟩
  · rintro ⟨hdevice, hline, hrequest⟩
    exact ⟨hdevice, hline, fun w hw => (hharmless w).mpr (hrequest w hw)⟩

/-- What a request does to the process does not change what it survives. -/
theorem Grows.survivable (h : Grows s t) :
    Survivable t.config uri ↔ Survivable s.config uri :=
  survivable_congr h.numBusses h.numDevices

theorem exists_parseUri (hlength : uri.chars.length < bufLen) (hdevice : ¬ BlankDevice uri) :
    ∃ type parts, parseUri uri = .ok (type, parts) := by
  cases hparse : parseUri uri with
  | error e => exact absurd (blankDevice_of_error hlength hparse) hdevice
  | ok request => exact ⟨request.1, request.2, rfl⟩

/-- A URI that the process survives is answered and logged. -/
theorem httpRequestHandler_survives (hs : InService s) (h : Survivable s.config uri) :
    ∃ reply t, httpRequestHandler (devDrv K) uri s = .ok (reply, requestLine uri) t ∧
      Grows s t := by
  have hlength := length_lt_of_line h.line
  obtain ⟨type, parts, hparse⟩ := exists_parseUri hlength h.device
  have heq := requestText_eq_line hlength hparse
  have hfits : (requestText uri parts type).length < bufLen := heq ▸ h.line
  have hfresh : Grows s { s with buf := freshContent } := grows_of_same rfl rfl
  rw [← heq]
  rcases request_of_parseUri hlength hparse with ⟨rfl, -⟩ | ⟨w, hw, rfl, rfl⟩
  · exact ⟨_, _, handleRequest_refused hparse hfits s, grows_of_same rfl rfl⟩
  · have hcmd := RequestT.cmd_of_ne_err w.type_ne_err
    obtain ⟨hindices, houtput⟩ := (hfresh.survivable.mpr h).request w hw
    have hset : w.type.cmd = .write → w.type = .set := by
      unfold Spelled.type
      split <;> simp [RequestT.cmd]
    obtain ⟨⟨rc, data⟩, t, hperform, ht⟩ := performIo_working (K := K) (hfresh.inService hs) hcmd
      hindices fun hwrite => houtput (hset hwrite)
    exact ⟨_, t, httpRequestHandler_run hparse w.type_ne_err hfits hperform, hfresh.trans ht⟩

/-- With all transfers going through, no other URI is answered. -/
theorem survivable_of_answer (hK : K.Transfers) (hs : InService s) {answer : List Char × List Char}
    (hrun : httpRequestHandler (devDrv K) uri s = .ok answer t) : Survivable s.config uri := by
  have hfresh : Grows s { s with buf := freshContent } := grows_of_same rfl rfl
  obtain ⟨type, parts, hparse, hline, hfits, -, heffect⟩ := httpRequestHandler_ok hrun
  rw [hline] at hfits
  have hlength := length_lt_of_requestText hfits
  have hdevice : ¬ BlankDevice uri := fun hblank => by
    cases (parseUri_of_blankDevice hlength hblank).symm.trans hparse
  refine ⟨hdevice, requestText_eq_line hlength hparse ▸ hfits, fun w hw => ?_⟩
  rcases request_of_parseUri hlength hparse with ⟨-, hrejects⟩ | ⟨w', hw', rfl, rfl⟩
  · cases hrejects.spelled_eq_none.symm.trans hw
  · obtain rfl := Option.some.inj (hw'.symm.trans hw)
    rcases heffect with ⟨herr, -⟩ | ⟨-, result, hperform⟩
    · exact absurd herr w'.type_ne_err
    · exact (Spelled.harmless_congr rfl fun _ => rfl).mp
        (harmless_of_performIo hK (hfresh.inService hs) hperform)

end Answers

section Events

variable {K : Kernel κ} {s t : Daemon (List Char) κ} {conn : MgConnection} {event : MgEvent}
  {events : List (MgConnection × MgEvent)} {answers : List Answer}

/-- The lines that were logged. -/
def loggedLines (answers : List Answer) : List (List Char) := answers.filterMap Answer.line

theorem requestedUris_cons (first : MgConnection × MgEvent)
    (rest : List (MgConnection × MgEvent)) :
    requestedUris (first :: rest) = requestedUris [first] ++ requestedUris rest := by
  rw [← List.singleton_append]
  simp only [requestedUris, List.filter_append, List.map_append]

theorem loggedLines_cons (answer : Answer) (rest : List Answer) :
    loggedLines (answer :: rest) = answer.line.toList ++ loggedLines rest := by
  cases hline : answer.line with
  | none => simp [loggedLines, hline]
  | some line => simp [loggedLines, hline]

/-- One event: a request is answered and logged, and no other event says anything. -/
theorem eventHandler_survives (hs : InService s)
    (h : ∀ uri ∈ requestedUris [(conn, event)], Survivable s.config uri) :
    ∃ answer t, eventHandler (devDrv K) conn event s = .ok answer t ∧ Grows s t ∧
      answer.line.toList = (requestedUris [(conn, event)]).map requestLine := by
  cases event with
  | request =>
      cases hwebsocket : conn.isWebsocket with
      | true =>
          have huris : requestedUris [(conn, MgEvent.request)] = [] := by
            simp [requestedUris, hwebsocket]
          rw [huris]
          simp only [eventHandler, hwebsocket, if_pos]
          exact ⟨_, _, rfl, .refl s, rfl⟩
      | false =>
          have huris : requestedUris [(conn, MgEvent.request)] = [conn.uri] := by
            simp [requestedUris, hwebsocket]
          rw [huris] at h ⊢
          obtain ⟨reply, t, hrun, ht⟩ :=
            httpRequestHandler_survives (K := K) hs (h conn.uri (List.mem_singleton_self _))
          simp only [eventHandler, hwebsocket, Bool.false_eq_true, if_false]
          rw [bind_of_ok hrun]
          exact ⟨_, _, rfl, ht, rfl⟩
  | auth => exact ⟨_, _, rfl, .refl s, rfl⟩
  | other => exact ⟨_, _, rfl, .refl s, rfl⟩

theorem pollServer_run (hs : InService s)
    (h : ∀ uri ∈ requestedUris events, Survivable s.config uri) :
    ∃ answers t, pollServer (devDrv K) events s = .ok answers t ∧ Grows s t ∧
      answers.length = events.length ∧
      loggedLines answers = (requestedUris events).map requestLine := by
  induction events generalizing s with
  | nil => exact ⟨[], s, rfl, .refl s, rfl, rfl⟩
  | cons first rest ih =>
      rw [requestedUris_cons] at h ⊢
      obtain ⟨answer, t, hrun, ht, hline⟩ := eventHandler_survives (K := K) hs
        fun uri hmem => h uri (List.mem_append_left _ hmem)
      obtain ⟨answers, u, hrest, hu, hlength, hlines⟩ := ih (ht.inService hs)
        fun uri hmem => ht.survivable.mpr (h uri (List.mem_append_right _ hmem))
      refine ⟨answer :: answers, u, runAll_cons_of_ok hrun hrest, ht.trans hu, ?_, ?_⟩
      · rw [List.length_cons, List.length_cons, hlength]
      · rw [loggedLines_cons, hlines, List.map_append, hline]

theorem survivable_of_eventHandler (hK : K.Transfers) (hs : InService s) {answer : Answer}
    (hrun : eventHandler (devDrv K) conn event s = .ok answer t) :
    ∀ uri ∈ requestedUris [(conn, event)], Survivable s.config uri := by
  intro uri hmem
  obtain ⟨rfl, hwebsocket, rfl⟩ : event = .request ∧ conn.isWebsocket = false ∧ conn.uri = uri := by
    simpa [requestedUris, and_assoc] using hmem
  simp only [eventHandler, hwebsocket, Bool.false_eq_true, if_false, run_bind] at hrun
  cases hanswer : httpRequestHandler (devDrv K) conn.uri s with
  | error e u => simp [hanswer] at hrun
  | ok pair u => exact survivable_of_answer hK hs hanswer

theorem survivable_of_pollServer (hK : K.Transfers) (hs : InService s)
    (hrun : pollServer (devDrv K) events s = .ok answers t) :
    ∀ uri ∈ requestedUris events, Survivable s.config uri := by
  induction events generalizing s answers with
  | nil => exact fun uri hmem => by cases hmem
  | cons first rest ih =>
      obtain ⟨answer, u, more, hstep, hrest, -⟩ := runAll_cons_ok hrun
      have hfirst := survivable_of_eventHandler hK hs hstep
      obtain ⟨answer', u', hstep', hu, -⟩ := eventHandler_survives (K := K) hs hfirst
      obtain ⟨-, rfl⟩ := EStateM.Result.ok.inj (hstep.symm.trans hstep')
      have hmore := ih (hu.inService hs) hrest
      rw [requestedUris_cons]
      intro uri hmem
      rcases List.mem_append.mp hmem with hmem | hmem
      · exact hfirst uri hmem
      · exact hu.survivable.mp (hmore uri hmem)

/-- Whatever the devices answer and however often their transfers fail, a daemon in
service handles every sequence of events whose URIs it survives: it is in service
afterwards, and has logged one line for each request, in order. Where all transfers go
through, it comes to the end of no other sequence. -/
theorem daemon_survives (hs : InService s) (events : List (MgConnection × MgEvent)) :
    ((∀ uri ∈ requestedUris events, Survivable s.config uri) →
      ∃ answers t, pollServer (devDrv K) events s = .ok answers t ∧ InService t ∧
        answers.length = events.length ∧
        loggedLines answers = (requestedUris events).map requestLine) ∧
      (K.Transfers →
        ((∃ answers t, pollServer (devDrv K) events s = .ok answers t) ↔
          ∀ uri ∈ requestedUris events, Survivable s.config uri)) := by
  refine ⟨?_, fun hK => ⟨?_, ?_⟩⟩
  · intro h
    obtain ⟨answers, t, hrun, ht, hanswers⟩ := pollServer_run (K := K) hs h
    exact ⟨answers, t, hrun, ht.inService hs, hanswers⟩
  · rintro ⟨answers, t, hrun⟩
    exact survivable_of_pollServer hK hs hrun
  · intro h
    obtain ⟨answers, t, hrun, -⟩ := pollServer_run (K := K) hs h
    exact ⟨answers, t, hrun⟩

end Events

/-- The daemon of `config/io_ext.ini`, up and running. -/
def ioExtDaemon : Daemon (List Char) Unit := ⟨ioExtConfig, [], ⟨.live 4, ()⟩, []⟩

theorem ioExtDaemon_inService : InService ioExtDaemon := by
  refine ⟨ioExtConfig_equipped, fun slot hslot => ⟨?_, fun _ => ⟨4, rfl⟩⟩⟩
  intro handle hhandle hi2c
  obtain ⟨hbus, hdev⟩ := ioExtConfig_equipped.i2c slot handle hslot hhandle hi2c
  apply exists_i2cDevice hi2c hbus hdev
  rintro rfl
  rcases ioExtConfig_slots hslot with rfl | rfl | rfl <;> cases hhandle

/-- Output 40 of a PCF8574 may be asked for, but not set. -/
theorem daemon_survives_ioExt :
    Survivable ioExtConfig ⟨"/0/1.40".toList, by decide⟩ ∧
      ¬ Survivable ioExtConfig ⟨"/0/1.40/1".toList, by decide⟩ := by
  have hK : calmKernel.Transfers := fun _ _ _ => rfl
  constructor
  · have hyields : yields (pollServer (devDrv calmKernel)
        [(⟨false, ⟨"/0/1.40".toList, by decide⟩⟩, .request)]) ioExtDaemon
        (fun answers _ => answers.length = 1) = true := by
      decide +kernel
    obtain ⟨answers, t, hrun, -⟩ := exists_of_yields hyields
    apply ((daemon_survives ioExtDaemon_inService _).2 hK).mp ⟨answers, t, hrun⟩
    exact List.mem_singleton_self _
  · intro hsurvivable
    obtain ⟨answers, t, hrun⟩ := ((daemon_survives ioExtDaemon_inService
      [(⟨false, ⟨"/0/1.40/1".toList, by decide⟩⟩, .request)]).2 hK).mpr fun uri huri => by
        obtain rfl := List.mem_singleton.mp huri
        exact hsurvivable
    have hstops : yields (pollServer (devDrv calmKernel)
        [(⟨false, ⟨"/0/1.40/1".toList, by decide⟩⟩, .request)]) ioExtDaemon
        (fun _ _ => True) = false := by
      decide +kernel
    rw [yields, hrun] at hstops
    cases hstops

end Switcher
