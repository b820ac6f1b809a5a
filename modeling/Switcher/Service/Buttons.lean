import Switcher.Lib.History
import Switcher.Service.Echo

/-!
The pages of `web/door_open_piface.html` and the server they talk to. A press of
a button is a `GET` and, once its reply has arrived, a `SET` of the byte received
with one bit replaced; between the two the server may serve anyone else.
-/

namespace Switcher

open Lib.Program Lib.Interleaving Lib.History

/-- A button pressed on a page: `pin` and `value` of `param_callback`. -/
structure Press (Page : Type) where
  page : Page
  pin : Fin 8
  on : Bool
  deriving DecidableEq

/-- What is under way between a page and the server on behalf of a press. -/
inductive Message (Page : Type) where
  | getRequest (press : Press Page)
  | getReply (press : Press Page) (currentValue : Value)
  | setRequest (press : Press Page) (newValue : Value)
  | setReply (press : Press Page)

/-- The server, the messages in the order in which they were sent, and the
presses in the order in which they were completed. -/
structure Web (Page : Type) where
  server : Daemon (List Event) Latch
  inFlight : List (Message Page)
  completed : List (Press Page)

inductive WebAction (Page : Type) where
  | press (press : Press Page)
  | deliver (i : Nat)

abbrev WebM (Page α : Type) := EStateM Fault (Web Page) α

variable {Page α : Type}

/-- `set_output`: the value that is sent. -/
def Press.newValue (press : Press Page) (currentValue : Value) : Value :=
  if press.on then currentValue ||| (1#32 <<< press.pin.val)
  else currentValue &&& ~~~(1#32 <<< press.pin.val)

def onServer (act : SysM BusHandle DevHandle (List Event) (Env Latch) α) : WebM Page α := fun s =>
  match act s.server with
  | .ok a t => .ok a { s with server := t }
  | .error e t => .error e { s with server := t }

/-- The value in the reply to a request that succeeded. -/
def Served.states (served : Served (List Event)) : Option Value :=
  match served.content with
  | [.success data] => some data.value
  | _ => none

def getOutputs (slot : Slot) : Request := ⟨slot, none, false, 0⟩

def setOutputs (slot : Slot) (value : Value) : Request := ⟨slot, none, true, value⟩

/-- What the arrival of a message leads to. -/
def arrive (slot : Slot) : Message Page → WebM Page (Option (Message Page))
  | .getRequest press => do
      let served ← onServer (serveRequest (devDrv (latches.chipKernel latches.spiAt)) recorder []
        (getOutputs slot))
      return served.states.map (.getReply press)
  | .getReply press currentValue => return some (.setRequest press (press.newValue currentValue))
  | .setRequest press newValue => do
      let served ← onServer (serveRequest (devDrv (latches.chipKernel latches.spiAt)) recorder []
        (setOutputs slot newValue))
      return served.states.map fun _ => .setReply press
  | .setReply press => do
      modify fun s => { s with completed := s.completed ++ [press] }
      return none

/-- A button is pressed, or one of the messages under way arrives. -/
def webStep (slot : Slot) : WebAction Page → WebM Page Unit
  | .press press => modify fun s => { s with inFlight := s.inFlight ++ [.getRequest press] }
  | .deliver i => do
      let s ← get
      match s.inFlight[i]? with
      | none => pure ()
      | some message => do
          let next ← arrive slot message
          modify fun s => { s with inFlight := s.inFlight.eraseIdx i ++ next.toList }

def Web.latch (s : Web Page) : BitVec 8 := s.server.world.os.value

def Press.aims (pin : Fin 8) (press : Press Page) : Option Bool :=
  if press.pin = pin then some press.on else none

/-- No press is lost: an output that nobody pressed is as it was, and one pressed
by a single page is as the last press of that page asked for. -/
structure PressesKept (latch : BitVec 8) (s : Web Page) : Prop where
  untouched : ∀ pin : Fin 8, (∀ press ∈ s.completed, press.pin ≠ pin) →
    s.latch.getLsbD pin = latch.getLsbD pin
  pressed : ∀ (pin : Fin 8) (page : Page), (∃ press ∈ s.completed, press.pin = pin) →
    (∀ press ∈ s.completed, press.pin = pin → press.page = page) →
    some (s.latch.getLsbD pin) = lastSome (Press.aims pin) s.completed

/-- A `SET` that arrives carries the bits that the latch has, apart from its own
pin; and the replies to the `SET`s of one page for one pin arrive in the order in
which they were sent. -/
structure Undisturbed (action : WebAction Page) (s : Web Page) : Prop where
  fresh : ∀ front press newValue back, s.inFlight = front ++ .setRequest press newValue :: back →
    action = .deliver front.length →
    ∀ pin : Fin 8, pin ≠ press.pin → newValue.getLsbD pin = s.latch.getLsbD pin
  inOrder : ∀ front press back, s.inFlight = front ++ .setReply press :: back →
    action = .deliver front.length →
    ∀ other, .setReply other ∈ front → other.page = press.page → other.pin ≠ press.pin

/-- Every step of the run is undisturbed in the state that it is taken in. -/
def RunsUndisturbed (slot : Slot) (s : Web Page) (actions : List (WebAction Page)) : Prop :=
  Always (fun past action => ∀ outputs t, runAll (webStep slot) past s = .ok outputs t →
    Undisturbed action t) actions

section Server

variable {slot : Slot} {latch : BitVec 8} {s : Daemon (List Event) Latch}

/-- The server drives a PiFace, and its outputs are as `latch` says. -/
structure PanelAt (slot : Slot) (latch : BitVec 8) (s : Daemon (List Event) Latch) : Prop where
  wired : Wired latches s.config s.world.spi slot .piface latches.spiAt
  hasSlot : s.config.HasSlot slot
  value : s.world.os.value = latch

theorem panel_dependable (slot : Slot) :
    Dependable (devDrv (latches.chipKernel latches.spiAt)) slot (PanelAt slot)
      (fun latch value latch' => value = latch.setWidth 32 ∧ latch' = latch)
      (fun _ value latch' => latch' = value.setWidth 8) := by
  refine ⟨fun _ _ h => h.hasSlot, fun _ _ _ _ h => ⟨h.wired, h.hasSlot, h.value⟩, ?_, ?_⟩
  · rintro latch s r rfl ⟨hw, hslot, rfl⟩
    obtain ⟨fd, hspi⟩ := hw.spi_live
    have hrun : (pifaceDrv (latches.chipKernel latches.spiAt)).read recorder.error
        (s.config.busses r.slot.1) r.value (s.drvState r.slot) = _ :=
      pifaceRead_alone hspi recorder.error (s.config.busses r.slot.1) r.value
    refine ⟨_, _, _, (callDrv_slot _ r.slot _ _ hw.drvHandle).trans (onDevice_of_ok hrun), rfl,
      ⟨rfl, rfl⟩, ?_⟩
    rw [storeDrv_setOs]
    exact ⟨hw, hslot, rfl⟩
  · rintro latch s r value rfl ⟨hw, hslot, rfl⟩
    obtain ⟨fd, hspi⟩ := hw.spi_live
    have hrun : (pifaceDrv (latches.chipKernel latches.spiAt)).write recorder.error
        (s.config.busses r.slot.1) value (s.drvState r.slot) = _ :=
      pifaceWrite_alone hspi recorder.error (s.config.busses r.slot.1) value
    refine ⟨_, _, (callDrv_slot _ r.slot _ _ hw.drvHandle).trans (onDevice_of_ok hrun), rfl,
      rfl, ?_⟩
    rw [storeDrv_setOs]
    exact ⟨hw, hslot, rfl⟩

theorem serveGet_panel (hs : PanelAt slot latch s) :
    ∃ get t, serveRequest (devDrv (latches.chipKernel latches.spiAt)) recorder []
        (getOutputs slot) s = .ok get t ∧
      get.states = some (latch.setWidth 32) ∧ PanelAt slot latch t := by
  have hpanel : Dependable _ (getOutputs slot).slot _ _ _ := panel_dependable slot
  obtain ⟨get, value, latch', t, hrun, hcontent, ⟨rfl, rfl⟩, ht⟩ := hpanel.serveGet hs
  refine ⟨get, t, hrun, ?_, ht⟩
  rw [Served.states, hcontent]
  rfl

theorem serveSet_panel (value : Value) (hs : PanelAt slot latch s) :
    ∃ set t, serveRequest (devDrv (latches.chipKernel latches.spiAt)) recorder []
        (setOutputs slot value) s = .ok set t ∧
      set.states = some value ∧ PanelAt slot (value.setWidth 8) t := by
  have hpanel : Dependable _ (setOutputs slot value).slot _ _ _ := panel_dependable slot
  obtain ⟨set, latch', t, hrun, hcontent, rfl, ht⟩ := hpanel.serveSet rfl hs
  refine ⟨set, t, hrun, ?_, ht⟩
  rw [Served.states, hcontent]
  rfl

theorem onServer_of_ok {act : SysM BusHandle DevHandle (List Event) (Env Latch) α}
    {s : Web Page} {a : α} {t : Daemon (List Event) Latch} (h : act s.server = .ok a t) :
    onServer act s = .ok a { s with server := t } := by
  rw [onServer, h]

end Server

section Pages

variable {slot : Slot} {latch : BitVec 8} {s : Web Page}

/-- The bit of its own pin is what the press asks for, whatever was received. -/
theorem Press.newValue_pin (press : Press Page) (currentValue : Value) :
    (press.newValue currentValue).getLsbD press.pin = press.on := by
  have hpin : press.pin.val < 32 := by omega
  cases hon : press.on with
  | true => simp [Press.newValue, hon, hpin]
  | false => simp [Press.newValue, hon, hpin]

def Message.press : Message Page → Press Page
  | .getRequest press | .getReply press _ | .setRequest press _ | .setReply press => press

/-- The press that the server has acknowledged with this message. -/
def Message.acknowledged : Message Page → Option (Press Page)
  | .setReply press => some press
  | _ => none

/-- The presses that the latch has seen. -/
def Web.served (s : Web Page) : List (Press Page) :=
  s.completed ++ s.inFlight.filterMap Message.acknowledged

/-- All presses of the pin come from one page. -/
def OnePage (pin : Fin 8) (presses : List (Press Page)) : Prop :=
  ∀ press ∈ presses, ∀ other ∈ presses, press.pin = pin → other.pin = pin →
    press.page = other.page

theorem OnePage.subset {pin : Fin 8} {presses fewer : List (Press Page)} (h : OnePage pin presses)
    (hsub : fewer ⊆ presses) : OnePage pin fewer :=
  fun press hpress other hother => h press (hsub hpress) other (hsub hother)

/-- The latch is as the presses served say, and every `SET` under way carries the
bit of its press. -/
structure Consistent (slot : Slot) (latch : BitVec 8) (s : Web Page) : Prop where
  panel : PanelAt slot s.latch s.server
  carried : ∀ press newValue, .setRequest press newValue ∈ s.inFlight →
    newValue.getLsbD press.pin = press.on
  bits : ∀ pin, OnePage pin s.served →
    s.latch.getLsbD pin = (lastSome (Press.aims pin) s.served).getD (latch.getLsbD pin)

/-- The presses made so far. -/
def Web.presses (s : Web Page) : List (Press Page) :=
  s.completed ++ s.inFlight.map Message.press

theorem Consistent.of_served {t : Web Page} (h : Consistent slot latch s)
    (hpanel : PanelAt slot s.latch t.server)
    (hcarried : ∀ press newValue, .setRequest press newValue ∈ t.inFlight →
      newValue.getLsbD press.pin = press.on)
    (hserved : t.served = s.served) : Consistent slot latch t := by
  have hlatch : t.latch = s.latch := hpanel.value
  constructor
  · rw [hlatch]
    exact hpanel
  · exact hcarried
  · rw [hserved, hlatch]
    exact h.bits

theorem Consistent.carried_replaced {front back : List (Message Page)} {message : Message Page}
    (next : Option (Message Page)) (h : Consistent slot latch s)
    (hsplit : s.inFlight = front ++ message :: back)
    (hnext : ∀ press newValue, next = some (.setRequest press newValue) →
      newValue.getLsbD press.pin = press.on) :
    ∀ press newValue, .setRequest press newValue ∈ front ++ back ++ next.toList →
      newValue.getLsbD press.pin = press.on := by
  intro press newValue hmem
  have hcarried := h.carried press newValue
  rw [hsplit] at hcarried
  simp only [List.mem_append, Option.mem_toList] at hmem
  rcases hmem with (hfront | hback) | hmem
  · exact hcarried (List.mem_append_left _ hfront)
  · exact hcarried (List.mem_append_right _ (List.mem_cons_of_mem _ hback))
  · exact hnext press newValue hmem

theorem arrive_getRequest (press : Press Page) (h : PanelAt slot s.latch s.server) :
    ∃ u, arrive slot (.getRequest press) s =
        .ok (some (.getReply press (s.latch.setWidth 32))) { s with server := u } ∧
      PanelAt slot s.latch u := by
  obtain ⟨get, u, hrun, hstates, hu⟩ := serveGet_panel h
  refine ⟨u, (bind_of_ok (onServer_of_ok hrun)).trans ?_, hu⟩
  rw [run_pure, hstates]
  rfl

theorem arrive_setRequest (press : Press Page) (newValue : Value)
    (h : PanelAt slot s.latch s.server) :
    ∃ u, arrive slot (.setRequest press newValue) s =
        .ok (some (.setReply press)) { s with server := u } ∧
      PanelAt slot (newValue.setWidth 8) u := by
  obtain ⟨set, u, hrun, hstates, hu⟩ := serveSet_panel newValue h
  refine ⟨u, (bind_of_ok (onServer_of_ok hrun)).trans ?_, hu⟩
  rw [run_pure, hstates]
  rfl

section Arrival

variable {front back : List (Message Page)} {press : Press Page}

/-- A `SET` served decides its own pin, and leaves the other pins alone if it was
fresh. -/
theorem Consistent.setServed {newValue : Value} {u : Daemon (List Event) Latch}
    (h : Consistent slot latch s)
    (hsplit : s.inFlight = front ++ .setRequest press newValue :: back)
    (hfree : Undisturbed (.deliver front.length) s)
    (hu : PanelAt slot (newValue.setWidth 8) u) :
    Consistent slot latch
      { s with server := u, inFlight := front ++ back ++ [.setReply press] } := by
  have hvalue : u.world.os.value = newValue.setWidth 8 := hu.value
  have hserved : Web.served { s with server := u, inFlight := front ++ back ++ [.setReply press] } =
      s.served ++ [press] := by
    simp [Web.served, hsplit, Message.acknowledged, List.filterMap_cons]
  refine ⟨?_, Consistent.carried_replaced (some (.setReply press)) h hsplit ?_, ?_⟩
  · rw [Web.latch, hvalue]
    exact hu
  · intro press newValue hnext
    cases hnext
  · intro pin honePage
    have hbit : (newValue.setWidth 8).getLsbD pin = newValue.getLsbD pin := by
      rw [BitVec.getLsbD_setWidth, decide_eq_true pin.isLt, Bool.true_and]
    rw [hserved] at honePage ⊢
    rw [lastSome_concat, Web.latch, hvalue, hbit]
    by_cases hpin : press.pin = pin
    · rw [Press.aims, if_pos hpin, ← hpin]
      exact h.carried press newValue (by simp [hsplit])
    · rw [Press.aims, if_neg hpin, Option.none_or,
        hfree.fresh front press newValue back hsplit rfl pin (Ne.symm hpin)]
      exact h.bits pin (honePage.subset (List.subset_append_left _ _))

/-- No reply in front of one to the same page is for the same pin. -/
theorem Undisturbed.acknowledged_front {pin : Fin 8}
    (hfree : Undisturbed (.deliver front.length) s)
    (hsplit : s.inFlight = front ++ .setReply press :: back)
    (honePage : OnePage pin s.served) (hpin : press.pin = pin) :
    ∀ other ∈ front.filterMap Message.acknowledged, Press.aims pin other = none := by
  intro other hother
  have hserved : other ∈ s.served ∧ press ∈ s.served := by
    simp [Web.served, hsplit, Message.acknowledged, hother]
  obtain ⟨message, hmessage, hack⟩ := List.mem_filterMap.mp hother
  cases message with
  | setReply other' =>
      obtain rfl := Option.some.inj hack
      apply if_neg
      intro hother'
      have hpage : other'.page = press.page :=
        honePage other' hserved.1 press hserved.2 hother' hpin
      exact hfree.inOrder front press back hsplit rfl other' hmessage hpage
        (hother'.trans hpin.symm)
  | getRequest | getReply | setRequest => cases hack

/-- A reply that no reply to the same page for the same pin overtakes changes
nothing of what the presses served ask for. -/
theorem Consistent.setCompleted (h : Consistent slot latch s)
    (hsplit : s.inFlight = front ++ .setReply press :: back)
    (hfree : Undisturbed (.deliver front.length) s) :
    Consistent slot latch
      { s with inFlight := front ++ back, completed := s.completed ++ [press] } := by
  have hbefore : s.served = s.completed ++
      (front.filterMap Message.acknowledged ++ press :: back.filterMap Message.acknowledged) := by
    simp [Web.served, hsplit, Message.acknowledged]
  have hafter : Web.served
      { s with inFlight := front ++ back, completed := s.completed ++ [press] } =
      s.completed ++ [press] ++
        (front.filterMap Message.acknowledged ++ back.filterMap Message.acknowledged) := by
    simp [Web.served]
  have hsub : s.served ⊆ Web.served
      { s with inFlight := front ++ back, completed := s.completed ++ [press] } := by
    intro other
    rw [hbefore, hafter]
    simp only [List.mem_append, List.mem_cons, List.not_mem_nil]
    tauto
  refine ⟨h.panel, ?_, ?_⟩
  · have hcarried := Consistent.carried_replaced none h hsplit (by simp)
    simpa using hcarried
  · intro pin honePage
    have honePage' : OnePage pin s.served := honePage.subset hsub
    have hmove : Press.aims pin press = none ∨
        ∀ other ∈ front.filterMap Message.acknowledged, Press.aims pin other = none := by
      by_cases hpin : press.pin = pin
      · exact .inr (hfree.acknowledged_front hsplit honePage' hpin)
      · exact .inl (if_neg hpin)
    have hbits := h.bits pin honePage'
    rw [hbefore, lastSome_move hmove, ← hafter] at hbits
    exact hbits

/-- A message in the place of one about the same press. -/
theorem presses_replaced {message next : Message Page} (u : Daemon (List Event) Latch)
    (hsplit : s.inFlight = front ++ message :: back) (hnext : next.press = message.press) :
    (Web.presses { s with server := u, inFlight := front ++ back ++ [next] }).Perm s.presses := by
  simp only [Web.presses, hsplit, List.map_append, List.map_cons, List.map_nil, hnext,
    List.append_assoc]
  apply List.Perm.append_left
  apply List.Perm.append_left
  exact List.perm_append_singleton _ _

/-- A press is completed when nothing about it is under way any more. -/
theorem presses_completed (hsplit : s.inFlight = front ++ .setReply press :: back) :
    (Web.presses { s with inFlight := front ++ back, completed := s.completed ++ [press] }).Perm
      s.presses := by
  simp only [Web.presses, hsplit, List.map_append, List.map_cons, List.append_assoc,
    List.singleton_append]
  apply List.Perm.append_left
  exact List.perm_middle.symm

/-- The arrival of a message keeps the latch in step with the presses, and the
press that it is about is still under way or completed. -/
theorem arrive_consistent {message : Message Page} (h : Consistent slot latch s)
    (hsplit : s.inFlight = front ++ message :: back)
    (hfree : Undisturbed (.deliver front.length) s) :
    ∃ next t, arrive slot message s = .ok next t ∧ t.inFlight = s.inFlight ∧
      Consistent slot latch { t with inFlight := front ++ back ++ next.toList } ∧
      (Web.presses { t with inFlight := front ++ back ++ next.toList }).Perm s.presses := by
  cases message with
  | getRequest press =>
      obtain ⟨u, hrun, hu⟩ := arrive_getRequest press h.panel
      refine ⟨_, _, hrun, rfl, ?_, presses_replaced u hsplit rfl⟩
      apply h.of_served hu
      · apply Consistent.carried_replaced _ h hsplit
        intro other newValue hnext
        cases hnext
      · simp [Web.served, hsplit, Message.acknowledged, List.filterMap_cons]
  | getReply press currentValue =>
      refine ⟨some (.setRequest press (press.newValue currentValue)), s, rfl, rfl, ?_,
        presses_replaced s.server hsplit rfl⟩
      refine h.of_served (t := { s with inFlight := _ }) h.panel ?_ ?_
      · apply Consistent.carried_replaced _ h hsplit
        intro other newValue hnext
        cases hnext
        exact press.newValue_pin currentValue
      · simp [Web.served, hsplit, Message.acknowledged, List.filterMap_cons]
  | setRequest press newValue =>
      obtain ⟨u, hrun, hu⟩ := arrive_setRequest press newValue h.panel
      exact ⟨_, _, hrun, rfl, h.setServed hsplit hfree hu,
        presses_replaced u hsplit rfl⟩
  | setReply press =>
      refine ⟨none, { s with completed := s.completed ++ [press] }, rfl, rfl, ?_, ?_⟩
      · simpa using h.setCompleted hsplit hfree
      · simpa using presses_completed hsplit

end Arrival

def WebAction.pressed : WebAction Page → Option (Press Page)
  | .press made => some made
  | .deliver _ => none

theorem webStep_deliver {i : Nat} {message : Message Page} {next : Option (Message Page)}
    {t : Web Page} (hat : s.inFlight[i]? = some message)
    (hrun : arrive slot message s = .ok next t) :
    webStep slot (.deliver i) s =
      .ok ⟨⟩ { t with inFlight := t.inFlight.eraseIdx i ++ next.toList } := by
  refine (bind_of_ok (run_get s)).trans ?_
  simp only [hat]
  exact (bind_of_ok hrun).trans (run_modify _ _)

theorem webStep_nothing {i : Nat} (hat : s.inFlight[i]? = none) :
    webStep slot (.deliver i) s = .ok ⟨⟩ s := by
  refine (bind_of_ok (run_get s)).trans ?_
  simp only [hat]
  exact run_pure _ _

theorem webStep_consistent {action : WebAction Page} (h : Consistent slot latch s)
    (hfree : Undisturbed action s) :
    ∃ t, webStep slot action s = .ok ⟨⟩ t ∧ Consistent slot latch t ∧
      t.presses.Perm (s.presses ++ action.pressed.toList) := by
  cases action with
  | press press =>
      refine ⟨{ s with inFlight := s.inFlight ++ [.getRequest press] }, rfl, ?_, ?_⟩
      · refine h.of_served (t := { s with inFlight := _ }) h.panel ?_ ?_
        · intro other newValue hmem
          apply h.carried other newValue
          simpa using hmem
        · simp [Web.served, Message.acknowledged]
      · simp [Web.presses, WebAction.pressed, Message.press]
  | deliver i =>
      cases hat : s.inFlight[i]? with
      | none => exact ⟨s, webStep_nothing hat, h, by simp [WebAction.pressed]⟩
      | some message =>
          obtain ⟨front, back, hsplit, rfl, herase⟩ := exists_split hat
          obtain ⟨next, t, hrun, hinFlight, ht, hperm⟩ := arrive_consistent h hsplit hfree
          have hstep := webStep_deliver hat hrun
          rw [hinFlight, herase] at hstep
          exact ⟨_, hstep, ht, by simpa [WebAction.pressed] using hperm⟩

theorem runAll_consistent {actions : List (WebAction Page)} (h : Consistent slot latch s)
    (hfree : RunsUndisturbed slot s actions) :
    ∃ outputs t, runAll (webStep slot) actions s = .ok outputs t ∧ Consistent slot latch t ∧
      t.presses.Perm (s.presses ++ actions.filterMap WebAction.pressed) := by
  induction actions using List.reverseRecOn with
  | nil => exact ⟨[], s, rfl, h, by simp⟩
  | append_singleton actions action ih =>
      obtain ⟨hpast, hlast⟩ := always_concat.mp hfree
      obtain ⟨outputs, t, hrun, ht, hperm⟩ := ih hpast
      obtain ⟨u, hstep, hu, hperm'⟩ := webStep_consistent ht (hlast outputs t hrun)
      refine ⟨_, u, runAll_concat_of_ok hrun hstep, hu, hperm'.trans ?_⟩
      have hactions : (actions ++ [action]).filterMap WebAction.pressed =
          actions.filterMap WebAction.pressed ++ action.pressed.toList := by
        rw [List.filterMap_append]
        cases hpressed : action.pressed with
        | none => simp [hpressed]
        | some press => simp [hpressed]
      rw [hactions, ← List.append_assoc]
      exact hperm.append_right _

theorem Consistent.pressesKept (h : Consistent slot latch s) (hdone : s.inFlight = []) :
    PressesKept latch s := by
  have hserved : s.served = s.completed := by
    rw [Web.served, hdone, List.filterMap_nil, List.append_nil]
  have hbits := h.bits
  rw [hserved] at hbits
  constructor
  · intro pin hnever
    have hnone : lastSome (Press.aims pin) s.completed = none := by
      rw [lastSome_eq_none]
      intro press hpress
      exact if_neg (hnever press hpress)
    have hbit := hbits pin fun press hpress other _ hpin => absurd hpin (hnever press hpress)
    rw [hbit, hnone, Option.getD_none]
  · rintro pin page ⟨press, hpress, hpin⟩ hpage
    have honePage : OnePage pin s.completed := by
      intro one hone other hother honePin hotherPin
      exact (hpage one hone honePin).trans (hpage other hother hotherPin).symm
    have hsome : (lastSome (Press.aims pin) s.completed).isSome :=
      isSome_lastSome _ |>.mpr ⟨press, hpress, by simp [Press.aims, hpin]⟩
    obtain ⟨value, hvalue⟩ := Option.isSome_iff_exists.mp hsome
    rw [hbits pin honePage, hvalue, Option.getD_some]

end Pages

/-- Pages that press buttons in any order, with requests and replies that arrive
in any order: every press is under way or completed, and once all are completed
none is lost, if no `SET` served carries a stale bit of another pin and no reply
is overtaken by one to the same page for the same pin. -/
theorem presses_kept {slot : Slot} {latch : BitVec 8} {server : Daemon (List Event) Latch}
    (hpanel : PanelAt slot latch server) (actions : List (WebAction Page))
    (hfree : RunsUndisturbed slot ⟨server, [], []⟩ actions) :
    ∃ outputs t, runAll (webStep slot) actions ⟨server, [], []⟩ = .ok outputs t ∧
      t.presses.Perm (actions.filterMap WebAction.pressed) ∧
      (t.inFlight = [] → PressesKept latch t) := by
  have hvalue : server.world.os.value = latch := hpanel.value
  have hstart : Consistent slot latch (⟨server, [], []⟩ : Web Page) := by
    constructor
    · rw [Web.latch, hvalue]
      exact hpanel
    · intro press newValue hmem
      cases hmem
    · intro pin _
      rw [Web.latch, hvalue]
      rfl
  obtain ⟨outputs, t, hrun, ht, hperm⟩ := runAll_consistent hstart hfree
  exact ⟨outputs, t, hrun, hperm, ht.pressesKept⟩

section Alone

variable {slot : Slot} {latch : BitVec 8} {s t : Web Page}

theorem Press.newValue_other {press : Press Page} {pin : Fin 8} (hpin : pin ≠ press.pin)
    (currentValue : Value) :
    (press.newValue currentValue).getLsbD pin = currentValue.getLsbD pin := by
  have hne : ¬ press.pin.val = pin.val := fun h => hpin (Fin.ext h.symm)
  have hlt : pin.val < 32 := by omega
  cases hon : press.on with
  | true =>
      simp [Press.newValue, hon, BitVec.getLsbD_shiftLeft, BitVec.getLsbD_one]
      omega
  | false =>
      simp [Press.newValue, hon, hlt]
      omega

/-- A press that nothing else happens during. -/
def Press.alone (press : Press Page) : List (WebAction Page) :=
  [.press press, .deliver 0, .deliver 0, .deliver 0, .deliver 0]

theorem runsUndisturbed_cons {action : WebAction Page} {rest : List (WebAction Page)}
    (hfree : Undisturbed action s) (hstep : webStep slot action s = .ok ⟨⟩ t)
    (hrest : RunsUndisturbed slot t rest) : RunsUndisturbed slot s (action :: rest) := by
  rw [RunsUndisturbed, always_cons]
  constructor
  · intro outputs u hrun
    cases hrun
    exact hfree
  · refine Always.imp hrest ?_
    intro past next _ hpast outputs u hrun
    rw [runAll, bind_of_ok hstep] at hrun
    cases hruns : runAll (webStep slot) past t with
    | ok outputs' u' =>
        rw [bind_of_ok hruns] at hrun
        cases hrun
        exact hpast outputs' u hruns
    | error e u' =>
        rw [bind_of_error hruns] at hrun
        cases hrun

theorem undisturbed_deliver {i : Nat} {message : Message Page}
    (hmessage : s.inFlight[i]? = some message)
    (hfresh : ∀ press newValue, message = .setRequest press newValue →
      ∀ pin : Fin 8, pin ≠ press.pin → newValue.getLsbD pin = s.latch.getLsbD pin)
    (hreply : ∀ press, message = .setReply press → i = 0) :
    Undisturbed (.deliver i) s := by
  have hat {front back : List (Message Page)} {other : Message Page}
      (hsplit : s.inFlight = front ++ other :: back) (hi : i = front.length) :
      message = other := by
    rw [hsplit, hi, List.getElem?_append_right (Nat.le_refl _), Nat.sub_self] at hmessage
    exact (Option.some.inj hmessage).symm
  constructor
  · intro front press newValue back hsplit haction
    exact hfresh press newValue (hat hsplit (WebAction.deliver.inj haction))
  · intro front press back hsplit haction other hother
    have hi := WebAction.deliver.inj haction
    have hnil : front = [] :=
      List.eq_nil_of_length_eq_zero (hi.symm.trans (hreply press (hat hsplit hi)))
    rw [hnil] at hother
    cases hother

/-- Where the latch is as it was when the byte was received, its other bits are sent. -/
theorem undisturbed_setRequest {i : Nat} {press : Press Page}
    (hmessage : s.inFlight[i]? = some (.setRequest press (press.newValue (s.latch.setWidth 32)))) :
    Undisturbed (.deliver i) s := by
  refine undisturbed_deliver hmessage ?_ fun _ h => by cases h
  intro other newValue hsame pin hpin
  obtain ⟨rfl, rfl⟩ := Message.setRequest.inj hsame
  have hlt : pin.val < 32 := by omega
  rw [Press.newValue_other hpin, BitVec.getLsbD_setWidth]
  simp [hlt]

theorem undisturbed_press (press : Press Page) (s : Web Page) : Undisturbed (.press press) s := by
  constructor
  · intro front other newValue back _ haction
    cases haction
  · intro front other back _ haction
    cases haction

theorem alone_undisturbed (press : Press Page) {rest : List (WebAction Page)}
    (hpanel : PanelAt slot s.latch s.server) (hidle : s.inFlight = [])
    (hrest : ∀ t : Web Page, PanelAt slot t.latch t.server → t.inFlight = [] →
      RunsUndisturbed slot t rest) :
    RunsUndisturbed slot s (press.alone ++ rest) := by
  obtain ⟨server, inFlight, completed⟩ := s
  obtain rfl : inFlight = [] := hidle
  obtain ⟨u, hget, hu⟩ := arrive_getRequest (s := ⟨server, [.getRequest press], completed⟩)
    press hpanel
  have hlatch : u.world.os.value = server.world.os.value := hu.value
  rw [Web.latch, ← hlatch] at hget hu
  let newValue := press.newValue (u.world.os.value.setWidth 32)
  obtain ⟨v, hset, hv⟩ := arrive_setRequest
    (s := ⟨u, [.setRequest press newValue], completed⟩) press newValue hu
  have hv' : PanelAt slot v.world.os.value v := by
    rw [hv.value]
    exact hv
  apply runsUndisturbed_cons (undisturbed_press press _) rfl
  apply runsUndisturbed_cons (undisturbed_deliver rfl (by simp) (by simp))
    (webStep_deliver rfl hget)
  apply runsUndisturbed_cons (undisturbed_deliver rfl (by simp) (by simp))
    (webStep_deliver rfl rfl)
  apply runsUndisturbed_cons (undisturbed_setRequest rfl) (webStep_deliver rfl hset)
  apply runsUndisturbed_cons (undisturbed_deliver rfl (by simp) (by simp))
    (webStep_deliver rfl rfl)
  exact hrest _ hv' rfl

/-- Presses that follow one another disturb nothing, whichever pages they are on. -/
theorem serial_undisturbed (presses : List (Press Page)) {rest : List (WebAction Page)}
    (hpanel : PanelAt slot s.latch s.server) (hidle : s.inFlight = [])
    (hrest : ∀ t : Web Page, PanelAt slot t.latch t.server → t.inFlight = [] →
      RunsUndisturbed slot t rest) :
    RunsUndisturbed slot s (presses.flatMap Press.alone ++ rest) := by
  induction presses generalizing s with
  | nil => exact hrest s hpanel hidle
  | cons press presses ih =>
      rw [List.flatMap_cons, List.append_assoc]
      exact alone_undisturbed press hpanel hidle fun t ht hdone => ih ht hdone

/-- Two presses that are under way together; the `GET` of the second arrives behind the
`SET` of the first, and before the reply to it. -/
def Press.overlapping (first second : Press Page) : List (WebAction Page) :=
  [.press first, .press second, .deliver 0, .deliver 1, .deliver 1, .deliver 0, .deliver 1,
    .deliver 1, .deliver 0, .deliver 0]

theorem overlapping_undisturbed (first second : Press Page)
    (hpanel : PanelAt slot s.latch s.server) (hidle : s.inFlight = []) :
    RunsUndisturbed slot s (first.overlapping second) := by
  obtain ⟨server, inFlight, completed⟩ := s
  obtain rfl : inFlight = [] := hidle
  obtain ⟨u, hget, hu⟩ := arrive_getRequest
    (s := ⟨server, [.getRequest first, .getRequest second], completed⟩) first hpanel
  have hlatch : u.world.os.value = server.world.os.value := hu.value
  rw [Web.latch, ← hlatch] at hget hu
  let newValue := first.newValue (u.world.os.value.setWidth 32)
  obtain ⟨v, hset, hv⟩ := arrive_setRequest
    (s := ⟨u, [.getRequest second, .setRequest first newValue], completed⟩) first newValue hu
  have hv' : PanelAt slot v.world.os.value v := by
    rw [hv.value]
    exact hv
  obtain ⟨u', hget', hu'⟩ := arrive_getRequest
    (s := ⟨v, [.getRequest second, .setReply first], completed⟩) second hv'
  have hlatch' : u'.world.os.value = v.world.os.value := hu'.value
  rw [Web.latch, ← hlatch'] at hget' hu'
  let newValue' := second.newValue (u'.world.os.value.setWidth 32)
  obtain ⟨v', hset', -⟩ := arrive_setRequest
    (s := ⟨u', [.setReply first, .setRequest second newValue'], completed⟩) second newValue' hu'
  apply runsUndisturbed_cons (undisturbed_press first _) rfl
  apply runsUndisturbed_cons (undisturbed_press second _) rfl
  apply runsUndisturbed_cons (undisturbed_deliver rfl (by simp) (by simp))
    (webStep_deliver rfl hget)
  apply runsUndisturbed_cons (undisturbed_deliver rfl (by simp) (by simp))
    (webStep_deliver rfl rfl)
  apply runsUndisturbed_cons (undisturbed_setRequest rfl) (webStep_deliver rfl hset)
  apply runsUndisturbed_cons (undisturbed_deliver rfl (by simp) (by simp))
    (webStep_deliver rfl hget')
  apply runsUndisturbed_cons (undisturbed_deliver rfl (by simp) (by simp))
    (webStep_deliver rfl rfl)
  apply runsUndisturbed_cons (undisturbed_setRequest rfl) (webStep_deliver rfl hset')
  apply runsUndisturbed_cons (undisturbed_deliver rfl (by simp) (by simp))
    (webStep_deliver rfl rfl)
  exact runsUndisturbed_cons (undisturbed_deliver rfl (by simp) (by simp))
    (webStep_deliver rfl rfl) always_nil

end Alone

/-- A server for `config/io_ext.ini` whose outputs are all off. -/
def ioExtPanel : Daemon (List Event) Latch :=
  ⟨ioExtConfig, [], ⟨.live 4, 0, fun _ => false⟩, []⟩

theorem ioExtPanel_panelAt : PanelAt (1, 0) 0 ioExtPanel :=
  ⟨.piface rfl rfl, by decide, rfl⟩

/-- Two pages press their buttons one after the other, and then at the same time. -/
def twoPages : List (WebAction Bool) :=
  [⟨false, 0, true⟩, ⟨true, 1, true⟩].flatMap Press.alone ++
    Press.overlapping ⟨false, 2, true⟩ ⟨true, 0, false⟩

theorem presses_kept_ioExt :
    ∃ outputs t, runAll (webStep (1, 0)) twoPages ⟨ioExtPanel, [], []⟩ = .ok outputs t ∧
      t.presses.Perm (twoPages.filterMap WebAction.pressed) ∧
      (t.inFlight = [] → PressesKept 0 t) :=
  presses_kept ioExtPanel_panelAt _
    (serial_undisturbed _ ioExtPanel_panelAt rfl fun _ ht hidle =>
      overlapping_undisturbed _ _ ht hidle)

/-- Two pages that each receive the byte before the other has sent its own: the
output that the first page switches on is switched off by the second. -/
theorem press_lost :
    ∃ outputs t, runAll (webStep (1, 0))
        ([.press ⟨false, 0, true⟩, .press ⟨true, 1, true⟩] ++ List.replicate 8 (.deliver 0))
        (⟨ioExtPanel, [], []⟩ : Web Bool) = .ok outputs t ∧
      t.inFlight = [] ∧ ¬ PressesKept 0 t := by
  have hruns : yields (runAll (webStep (1, 0))
      ([.press ⟨false, 0, true⟩, .press ⟨true, 1, true⟩] ++ List.replicate 8 (.deliver 0)))
      (⟨ioExtPanel, [], []⟩ : Web Bool) (fun _ t => t.inFlight.length = 0 ∧ t.latch = 2 ∧
        t.completed = [⟨false, 0, true⟩, ⟨true, 1, true⟩]) = true := by
    decide +kernel
  obtain ⟨outputs, t, hrun, htest⟩ := exists_of_yields hruns
  obtain ⟨hidle, hlatch, hcompleted⟩ := of_decide_eq_true htest
  refine ⟨outputs, t, hrun, List.eq_nil_of_length_eq_zero hidle, ?_⟩
  intro hkept
  have hbit := hkept.pressed 0 false
  rw [hcompleted, hlatch] at hbit
  exact absurd (hbit (by decide) (by decide)) (by decide)

end Switcher
