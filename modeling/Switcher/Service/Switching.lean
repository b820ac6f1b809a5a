import Switcher.Hardware.PortOutputs
import Switcher.Service.Handle
import Switcher.Service.Latched

/-!
No output of a PiFace goes on by itself. The process is started again and again, and is
killed wherever it may be: an output goes on only when a request asks for it.
-/

namespace Switcher

open Lib.Program Lib.Interleaving Lib.Text PortChip

variable {β κ σ α : Type}

/-- The indices are those of a slot that has the driver of the PiFace. -/
def IoConfig.PifaceAt (config : IoConfig BusHandle DevHandle) (parts : IoData) (slot : Slot) :
    Prop :=
  parts.idxBus = slot.1.val ∧ parts.idxDev = slot.2.val ∧
    (config.devices slot).drvHandle = some .piface

/-- The indices name a PiFace. -/
def IoConfig.IsPiface (config : IoConfig BusHandle DevHandle) (parts : IoData) : Prop :=
  ∃ bus : Fin maxBusses, ∃ dev : Fin maxIoDevices,
    config.HasSlot (bus, dev) ∧ config.PifaceAt parts (bus, dev)

instance (config : IoConfig BusHandle DevHandle) (parts : IoData) (slot : Slot) :
    Decidable (config.PifaceAt parts slot) :=
  inferInstanceAs (Decidable (_ ∧ _ ∧ _))

instance (config : IoConfig BusHandle DevHandle) (parts : IoData) :
    Decidable (config.IsPiface parts) :=
  inferInstanceAs (Decidable (∃ _, ∃ _, _))

/-- Output `i` is to be on. -/
def IoData.asksFor (parts : IoData) (i : Fin 8) : Bool :=
  if parts.idxSubDev = idxInvalid then parts.value.getLsbD i
  else parts.idxSubDev = i.val ∧ parts.value ≠ 0

/-- A `SET` of a PiFace that asks for its output `i`. -/
def asksFor (config : IoConfig BusHandle DevHandle) (i : Fin 8) (event : MgConnection × MgEvent) :
    Bool :=
  match event.2, parseUri event.1.uri with
  | .request, .ok (.set, parts) =>
      !event.1.isWebsocket && decide (config.IsPiface parts) && parts.asksFor i
  | _, _ => false

/-- The process run once. It is killed when so many messages have reached the chip. -/
structure Stint (κ : Type) where
  config : IoConfig BusHandle DevHandle
  buf : List Char
  os : κ
  events : List (MgConnection × MgEvent)
  messages : Nat

/-- The chip when the process has ended, by the signal, by a fault or killed. -/
def Stint.leaves (K : Kernel κ) (chip : PortChip) (stint : Stint κ) : PortChip :=
  (final (serveUntilSignal (K.withSpi (cut PortChip.spi)) stint.events)
    (beforeInit stint.config stint.buf stint.os (stint.messages, chip))).sys.world.os.2.2

/-- What has been read of the device is what is on, if the device is a PiFace. -/
def Told (config : IoConfig BusHandle DevHandle) (parts : IoData) (value : Value)
    (spi : SpiHandle) (c : Nat × PortChip) : Prop :=
  (∃ slot, config.PifaceAt parts slot) → Echoes (value.setWidth 8) spi c

/-- The configuration is as it was, and the chip as stated. -/
structure SysAt (config : IoConfig BusHandle DevHandle) (P : SpiHandle → σ → Prop)
    (s : Sys BusHandle DevHandle β (Env (κ × σ))) : Prop where
  shaped : Shaped config s
  chip : P s.world.spi s.world.os.2

section Calls

variable {config : IoConfig BusHandle DevHandle} {P P' E : SpiHandle → σ → Prop}
  {Q : α → SpiHandle → σ → Prop}

theorem SysAt.mono {s : Sys BusHandle DevHandle β (Env (κ × σ))} (h : SysAt config P s)
    (hP : ∀ spi c, P spi c → P' spi c) : SysAt config P' s :=
  ⟨h.shaped, hP _ _ h.chip⟩

theorem reply_at (f : β → β) : Keeps (SysAt config P)
    (modify fun t => { t with buf := f t.buf } : SysM BusHandle DevHandle β (Env (κ × σ)) Unit) :=
  Keeps.modified fun _ h =>
    ⟨⟨h.shaped.numBusses, h.shaped.numDevices, h.shaped.busHandle, h.shaped.drvHandle⟩, h.chip⟩

/-- A function of a driver, by what it does to the chip. -/
theorem onDevice_at {slot : Slot} {act : IoBus BusHandle → DrvM DevHandle β (Env (κ × σ)) α}
    (hact : ∀ bus, Ends (AtChip P) (act bus) (fun a => AtChip (Q a)) (AtChip E))
    (hdrv : ∀ bus handle, Keeps (fun t => t.dev.drvHandle = handle) (act bus)) :
    Ends (SysAt config P) (onDevice slot act) (fun a => SysAt config (Q a))
      (SysAt config E) := by
  intro s hs
  have hends := hact (s.config.busses slot.1) (s.drvState slot) hs.chip
  have hkept := hdrv (s.config.busses slot.1) _ (s.drvState slot) rfl
  unfold onDevice
  cases hrun : act (s.config.busses slot.1) (s.drvState slot) with
  | ok a t =>
      rw [final_of_ok hrun] at hkept
      constructor
      · intro a' t' hok
        obtain ⟨rfl, rfl⟩ := EStateM.Result.ok.inj hok
        exact ⟨hs.shaped.storeDrv hkept, hends.1 a t hrun⟩
      · intro e t' herr
        cases herr
  | error e t =>
      rw [final_of_error hrun] at hkept
      constructor
      · intro a' t' hok
        cases hok
      · intro e' t' herr
        obtain ⟨rfl, rfl⟩ := EStateM.Result.error.inj herr
        exact ⟨hs.shaped.storeDrv hkept, hends.2 e t hrun⟩

/-- A call of a driver, by what the drivers that it may reach do to the chip. -/
theorem callDrv_at {table : DevHandle → DevDrv BusHandle DevHandle β (Env (κ × σ))}
    {idxBus idxDev : Int} {call : DrvCall}
    {f : DevDrv BusHandle DevHandle β (Env (κ × σ)) → IoBus BusHandle →
      DrvM DevHandle β (Env (κ × σ)) α}
    (hf : ∀ (slot : Slot) handle, idxBus = slot.1.val → idxDev = slot.2.val →
      (config.devices slot).drvHandle = some handle → ∀ bus,
        Ends (AtChip P) (f (table handle) bus) (fun a => AtChip (Q a)) (AtChip E))
    (hdrv : ∀ handle bus handle', Keeps (fun t => t.dev.drvHandle = handle') (f (table handle) bus))
    (herror : ∀ spi c, P spi c → E spi c) :
    Ends (SysAt config P) (callDrv table idxBus idxDev call f) (fun a => SysAt config (Q a))
      (SysAt config E) := by
  intro s hs
  have hfails {e : Fault}
      (hrun : callDrv table idxBus idxDev call f s = .error e s) :
      (∀ a t, callDrv table idxBus idxDev call f s = .ok a t → SysAt config (Q a) t) ∧
        ∀ e t, callDrv table idxBus idxDev call f s = .error e t → SysAt config E t := by
    rw [hrun]
    constructor
    · intro a t hok
      cases hok
    · intro e' t herr
      obtain ⟨-, rfl⟩ := EStateM.Result.error.inj herr
      exact hs.mono herror
  rcases callDrv_cases table idxBus idxDev call f s with ⟨slot, hbus, hdev⟩ | hout
  · cases hhandle : (s.config.devices slot).drvHandle with
    | none =>
        apply hfails
        rw [hbus, hdev]
        exact callDrv_null table slot call f hhandle
    | some handle =>
        have hconfigured := (hs.shaped.drvHandle slot).symm.trans hhandle
        have hnoted : SysAt config P { s with calls := s.calls ++ [call] } :=
          ⟨⟨hs.shaped.numBusses, hs.shaped.numDevices, hs.shaped.busHandle, hs.shaped.drvHandle⟩,
            hs.chip⟩
        have hends : Ends (SysAt config P) (onDevice slot (f (table handle)))
            (fun a => SysAt config (Q a)) (SysAt config E) :=
          onDevice_at (hf slot handle hbus hdev hconfigured) (hdrv handle)
        rw [hbus, hdev, callDrv_slot table slot call f hhandle]
        exact hends _ hnoted
  · exact hfails hout

end Calls

section Requests

variable {K : Kernel κ} {config : IoConfig BusHandle DevHandle} {bound : Fin 8 → Nat}
  {cb : Callbacks β} {data : IoData}

theorem drvHandle_kept {m : DrvM DevHandle β (Env κ) α}
    (hm : ∀ spi handle, Keeps (Untouched spi handle) m) (handle : Option DevHandle) :
    Keeps (fun t => t.dev.drvHandle = handle) m :=
  fun s hs => (hm s.world.spi handle s ⟨rfl, hs⟩).drvHandle

theorem read_drvHandle (handle : DevHandle) (cbError : CbError β) (bus : IoBus BusHandle)
    (value : Value) (handle' : Option DevHandle) :
    Keeps (fun t => t.dev.drvHandle = handle') ((devDrv K handle).read cbError bus value) :=
  drvHandle_kept (fun spi h => (devDrv_untouched K handle cbError bus value spi h).1) handle'

theorem write_drvHandle (handle : DevHandle) (cbError : CbError β) (bus : IoBus BusHandle)
    (value : Value) (handle' : Option DevHandle) :
    Keeps (fun t => t.dev.drvHandle = handle') ((devDrv K handle).write cbError bus value) :=
  drvHandle_kept (fun spi h => (devDrv_untouched K handle cbError bus value spi h).2) handle'

/-- A device that is read switches nothing on, and tells what is on if it is a PiFace. -/
theorem drvRead_at :
    Ends (SysAt config (OnAtMostAt bound))
      (drvRead (devDrv (K.withSpi (cut PortChip.spi))) cb data)
      (fun r => SysAt config fun spi c => OnAtMostAt bound spi c ∧ Told config data r.2 spi c)
      (SysAt config (OnAtMostAt bound)) := by
  apply callDrv_at _ (fun handle bus => read_drvHandle handle _ bus _) fun _ _ h => h
  intro slot handle hbus hdev hhandle bus
  by_cases hpiface : handle = .piface
  · subst hpiface
    apply pfioReadOutput_ends.bind
    intro states
    apply Ends.pure
    intro s hs
    have hwidth : (states.setWidth 32).setWidth 8 = states := by
      simp
    refine ⟨hs.1, fun _ => ?_⟩
    rw [hwidth]
    exact hs.2
  · refine (i2cDrv_atChip hpiface cb.error bus data.value).1.ends.imp (fun _ h => h) ?_ fun _ h => h
    intro r s hs
    refine ⟨hs, ?_⟩
    rintro ⟨slot', hbus', hdev', hpiface'⟩
    have hslot : slot' = slot := by
      apply Prod.ext
      · apply Fin.ext
        omega
      · apply Fin.ext
        omega
    rw [hslot, hhandle] at hpiface'
    exact absurd (Option.some.inj hpiface') hpiface

/-- A device that is written, by what the write may switch on if it is a PiFace. -/
theorem drvWrite_at {value : Value} {extra : Fin 8 → Nat} {P : SpiHandle → Nat × PortChip → Prop}
    (hbound : ∀ spi c, P spi c → OnAtMostAt bound spi c)
    (hextra : (∃ slot, config.PifaceAt data slot) → ∀ fd c, 0 ≤ fd → c.1 ≠ 0 →
      P (.live fd) c → ∀ i : Fin 8,
        (value.setWidth 8 &&& ~~~c.2.regs Pfio.iodira).getLsbD i = true →
        c.2.on.getLsbD i = false → 1 ≤ extra i) :
    Ends (SysAt config P) (drvWrite (devDrv (K.withSpi (cut PortChip.spi))) cb data value)
      (fun _ => SysAt config (OnAtMostAt fun i => bound i + extra i))
      (SysAt config (OnAtMostAt fun i => bound i + extra i)) := by
  have hmono (spi : SpiHandle) (c : Nat × PortChip) (hP : P spi c) :
      OnAtMostAt (fun i => bound i + extra i) spi c :=
    (hbound spi c hP).mono fun i => Nat.le_add_right _ _
  apply callDrv_at _ (fun handle bus => write_drvHandle handle _ bus _) hmono
  intro slot handle hbus hdev hhandle bus
  by_cases hpiface : handle = .piface
  · subst hpiface
    have hwrite := pfioWriteOutput_ends (δ := DevHandle) (β := β) (K := K) extra hbound
      (hextra ⟨slot, hbus, hdev, hhandle⟩)
    exact hwrite.bind fun _ => Ends.pure fun _ h => h
  · refine (i2cDrv_atChip hpiface cb.error bus value).2.ends.imp ?_ (fun _ _ h => h) fun _ h => h
    exact fun s hs => hmono _ _ hs

theorem busIndex_ends {idx : Int} {I : Sys BusHandle DevHandle β (Env κ) → Prop} :
    Ends I (busIndex idx) (fun bus s => idx = bus.val ∧ I s) I := by
  unfold busIndex
  split
  · next h => exact Ends.pure fun s hs => ⟨(Int.toNat_of_nonneg h.1).symm, hs⟩
  · exact Ends.throw fun _ h => h

theorem shiftOne_ends {idx : Int} {I : Sys BusHandle DevHandle β (Env κ) → Prop} :
    Ends I (shiftOne idx) (fun bit s => (bit = 1#32 <<< idx.toNat ∧ 0 ≤ idx) ∧ I s) I :=
  Ends.ite (fun h => Ends.pure fun _ hs => ⟨⟨rfl, h.1⟩, hs⟩) fun _ => Ends.throw fun _ h => h

theorem writeValue_at {value : Value} {P Q : SpiHandle → Nat × PortChip → Prop}
    (hwrite : Ends (SysAt config P) (drvWrite (devDrv (K.withSpi (cut PortChip.spi))) cb data value)
      (fun _ => SysAt config Q) (SysAt config Q)) :
    Ends (SysAt config P) (writeValue (devDrv (K.withSpi (cut PortChip.spi))) cb data value)
      (fun _ => SysAt config Q) (SysAt config Q) := by
  apply hwrite.bind
  intro numWritten
  apply Keeps.ends
  exact Keeps.ite (answered_keeps reply_at _ _) (Keeps.pure _)

/-- The last step of a `SET` of one output: of what is off, only that output can go on. -/
theorem masked_switches {data : IoData} {value : Value} {dir on : BitVec 8} {i : Fin 8}
    (hsub : data.idxSubDev ≠ idxInvalid) (hrange : 0 ≤ data.idxSubDev)
    (hecho : value.setWidth 8 &&& ~~~dir = on)
    (hon : ((if data.value ≠ 0 then value ||| 1#32 <<< data.idxSubDev.toNat
      else value &&& ~~~(1#32 <<< data.idxSubDev.toNat)).setWidth 8 &&& ~~~dir).getLsbD i = true)
    (hoff : on.getLsbD i = false) : data.asksFor i = true := by
  have hi : i.val < 32 := by omega
  rw [← hecho] at hoff
  simp only [BitVec.getLsbD_and, BitVec.getLsbD_setWidth, Bool.and_eq_true, i.isLt, decide_true,
    Bool.true_and, Bool.and_eq_false_iff] at hon hoff
  have hvalue : value.getLsbD i = false := hoff.resolve_right (by rw [hon.2]; decide)
  rw [IoData.asksFor, if_neg hsub]
  by_cases hset : data.value ≠ 0
  · rw [if_pos hset] at hon
    have hbit := hon.1
    rw [BitVec.getLsbD_or, hvalue, Bool.false_or, BitVec.getLsbD_shiftLeft] at hbit
    simp only [BitVec.getLsbD_one] at hbit
    have hidx : data.idxSubDev = i.val := by
      simp at hbit
      omega
    exact decide_eq_true ⟨hidx, hset⟩
  · rw [if_neg hset, BitVec.getLsbD_and, hvalue] at hon
    cases hon.1

/-- A `SET` of a device. -/
theorem performWrite_at {extra : Fin 8 → Nat}
    (hextra : (∃ slot, config.PifaceAt data slot) → ∀ i, data.asksFor i = true → 1 ≤ extra i) :
    Ends (SysAt config (OnAtMostAt bound))
      (performWrite (devDrv (K.withSpi (cut PortChip.spi))) cb data)
      (fun _ => SysAt config (OnAtMostAt fun i => bound i + extra i))
      (SysAt config (OnAtMostAt fun i => bound i + extra i)) := by
  have hmore (s : Sys BusHandle DevHandle β (Env (κ × (Nat × PortChip))))
      (h : SysAt config (OnAtMostAt bound) s) :
      SysAt config (OnAtMostAt fun i => bound i + extra i) s :=
    h.mono fun _ _ h => h.mono fun i => Nat.le_add_right _ _
  apply Ends.ite
  · intro hsub
    refine Ends.bind (drvRead_at.imp (fun _ h => h) (fun _ _ h => h) hmore) ?_
    rintro ⟨numRead, value⟩
    apply Ends.ite
    · intro _
      exact (answered_keeps reply_at _ _).ends.imp (fun _ h => h)
        (fun _ s h => hmore s (h.mono fun _ _ h => h.1)) fun s h =>
          hmore s (h.mono fun _ _ h => h.1)
    · intro _
      refine Ends.bind (shiftOne_ends.imp (fun _ h => h) (fun _ _ h => h) fun s h =>
        hmore s (h.mono fun _ _ h => h.1)) fun bit => ?_
      rintro s ⟨⟨rfl, hrange⟩, hs⟩
      refine writeValue_at (drvWrite_at (fun _ _ h => h.1) ?_) s hs
      intro hpiface fd c hfd hc h i hon hoff
      exact hextra hpiface i (masked_switches hsub hrange (h.2 hpiface fd rfl hfd hc) hon hoff)
  · intro hsub
    rw [not_not] at hsub
    apply writeValue_at
    apply drvWrite_at fun _ _ h => h
    intro hpiface fd c _ _ _ i hon _
    apply hextra hpiface
    rw [IoData.asksFor, if_pos hsub]
    rw [BitVec.getLsbD_and, Bool.and_eq_true, BitVec.getLsbD_setWidth] at hon
    simpa using hon.1

theorem performIo_at {cmd : IoCmd} {extra : Fin 8 → Nat}
    (hextra : cmd = .write → config.IsPiface data → ∀ i, data.asksFor i = true → 1 ≤ extra i) :
    Ends (SysAt config (OnAtMostAt bound))
      (performIo (devDrv (K.withSpi (cut PortChip.spi))) cb data cmd)
      (fun _ => SysAt config (OnAtMostAt fun i => bound i + extra i))
      (SysAt config (OnAtMostAt fun i => bound i + extra i)) := by
  have hmore (s : Sys BusHandle DevHandle β (Env (κ × (Nat × PortChip))))
      (h : SysAt config (OnAtMostAt bound) s) :
      SysAt config (OnAtMostAt fun i => bound i + extra i) s :=
    h.mono fun _ _ h => h.mono fun i => Nat.le_add_right _ _
  have hkept {m : SysM BusHandle DevHandle β (Env (κ × (Nat × PortChip))) (Int × IoData)}
      (h : Keeps (SysAt config (OnAtMostAt bound)) m) :
      Ends (SysAt config (OnAtMostAt bound)) m
        (fun _ => SysAt config (OnAtMostAt fun i => bound i + extra i))
        (SysAt config (OnAtMostAt fun i => bound i + extra i)) :=
    h.ends.imp (fun _ h => h) (fun _ s h => hmore s h) hmore
  have hrefused (msg : String) := hkept (answered_keeps (reply_at (κ := κ)) (cb.error msg.toList)
    (exitFailure, data))
  apply Ends.get_bind
  intro s hs
  have hfrom : ∀ t, t = s → SysAt config (OnAtMostAt bound) t := by
    rintro _ rfl
    exact hs
  refine Ends.imp (Ends.ite (fun _ => hrefused _) fun hbusses =>
    Ends.ite (fun _ => hrefused _) fun _ => ?_) hfrom (fun _ _ h => h) fun _ h => h
  refine Ends.bind (busIndex_ends.imp (fun _ h => h) (fun _ _ h => h) hmore) fun bus => ?_
  rintro t ⟨hbus, ht⟩
  refine Ends.ite (fun _ => hrefused _) (fun hdevices => ?_) t ht
  cases cmd with
  | none => exact hrefused _
  | read => exact hkept (performRead_keeps reply_at (drvRead_at.imp (fun _ h => h)
      (fun _ _ h => h.mono fun _ _ h => h.1) fun _ h => h).keeps)
  | write =>
      apply performWrite_at
      rintro ⟨slot, hpiface⟩
      apply hextra rfl
      have hsame : slot.1 = bus := Fin.ext (by have := hpiface.1; omega)
      rw [not_or, hs.shaped.numBusses, hpiface.1] at hbusses
      rw [hs.shaped.numDevices, ← hsame, hpiface.2.1] at hdevices
      exact ⟨slot.1, slot.2, ⟨not_le.mp hbusses.2, not_le.mp hdevices⟩, hpiface⟩

end Requests

section Events

variable {K : Kernel κ} {config : IoConfig BusHandle DevHandle} {bound : Fin 8 → Nat}

theorem logRequest_keeps {I : Sys BusHandle DevHandle (List Char) (Env κ) → Prop} (uri : CString)
    (parts : IoData) (type : RequestT) : Keeps I (logRequest uri parts type) := by
  intro s hs
  unfold final logRequest
  cases printRequest uri parts type freshMessage with
  | ok line _ => exact hs
  | error e _ => exact hs

/-- An event switches on what it asks for, if anything. -/
theorem eventHandler_at (event : MgConnection × MgEvent) :
    Ends (SysAt config (OnAtMostAt bound))
      (eventHandler (devDrv (K.withSpi (cut PortChip.spi))) event.1 event.2)
      (fun _ => SysAt config (OnAtMostAt fun i => bound i + (asksFor config i event).toNat))
      (SysAt config (OnAtMostAt fun i => bound i + (asksFor config i event).toNat)) := by
  obtain ⟨conn, event⟩ := event
  have hmore (s : Sys BusHandle DevHandle (List Char) (Env (κ × (Nat × PortChip))))
      (h : SysAt config (OnAtMostAt bound) s) :
      SysAt config (OnAtMostAt fun i => bound i + (asksFor config i (conn, event)).toNat) s :=
    h.mono fun _ _ h => h.mono fun i => Nat.le_add_right _ _
  have hkept {γ : Type} {m : SysM BusHandle DevHandle (List Char) (Env (κ × (Nat × PortChip))) γ}
      (h : Keeps (SysAt config (OnAtMostAt bound)) m) := h.ends.imp (fun _ h => h)
        (fun _ s h => hmore s h) hmore
  cases event with
  | auth => exact hkept (Keeps.pure _)
  | other => exact hkept (Keeps.pure _)
  | request =>
      apply Ends.ite
      · exact fun _ => hkept (Keeps.pure _)
      · intro hwebsocket
        refine Ends.bind ?_ fun answer => Ends.pure fun _ h => h
        refine Ends.bind ((reply_at fun _ => freshContent).ends.imp (fun _ h => h)
          (fun _ _ h => h) hmore) fun _ => ?_
        cases hparse : parseUri conn.uri with
        | error e => exact Ends.throw hmore
        | ok request =>
            obtain ⟨type, parts⟩ := request
            refine Ends.bind ((logRequest_keeps conn.uri parts type).ends.imp (fun _ h => h)
              (fun _ _ h => h) hmore) fun line => ?_
            apply Ends.ite
            · intro htype
              refine (performIo_at ?_).bind fun _ => ?_
              · intro hcmd hpiface i hasks
                have hset : type = .set := by
                  cases type with
                  | err => exact absurd rfl htype
                  | get => cases hcmd
                  | set => rfl
                subst hset
                have hws : conn.isWebsocket = false := Bool.eq_false_iff.mpr hwebsocket
                simp [asksFor, hparse, hws, hpiface, hasks]
              · exact Keeps.ends (Keeps.get.bind fun _ => Keeps.pure _)
            · intro _
              exact hkept ((reply_at _).bind fun _ => Keeps.get.bind fun _ => Keeps.pure _)

/-- Any events switch on what they ask for, if anything. -/
theorem pollServer_at (events : List (MgConnection × MgEvent)) (bound : Fin 8 → Nat) :
    Ends (SysAt config (OnAtMostAt bound))
      (pollServer (devDrv (K.withSpi (cut PortChip.spi))) events)
      (fun _ => SysAt config (OnAtMostAt fun i => bound i + events.countP (asksFor config i)))
      (SysAt config (OnAtMostAt fun i => bound i + events.countP (asksFor config i))) := by
  induction events generalizing bound with
  | nil => exact Ends.pure fun _ h => h
  | cons event rest ih =>
      have hcount (i : Fin 8) : (bound i + (asksFor config i event).toNat) +
          rest.countP (asksFor config i) = bound i + (event :: rest).countP (asksFor config i) := by
        rw [List.countP_cons]
        cases asksFor config i event
        · simp
        · simp
          omega
      have hrest := ih fun i => bound i + (asksFor config i event).toNat
      simp only [hcount] at hrest
      refine Ends.bind ((eventHandler_at event).imp (fun _ h => h) (fun _ _ h => h) ?_) fun _ =>
        hrest.bind fun _ => Ends.pure fun _ h => h
      intro s h
      apply h.mono
      intro _ c h
      apply h.mono
      intro i
      rw [← hcount i]
      exact Nat.le_add_right _ _

end Events

section Hooks

variable {K : Kernel κ} {config : IoConfig BusHandle DevHandle}

/-- The process beside itself, as long as the chip is as stated. -/
def AloneAt (config : IoConfig BusHandle DevHandle) (P : SpiHandle → σ → Prop)
    (s t : Sys BusHandle DevHandle β (Env (κ × σ))) : Prop :=
  t = s ∧ SysAt config P s

theorem aloneAt_kept {P : SpiHandle → σ → Prop} :
    KeptBySys (AloneAt (β := β) (κ := κ) config P) where
  config _ _ h := h.1 ▸ rfl
  buf _ _ h := h.1 ▸ rfl
  reply _ _ buf h := ⟨h.1 ▸ rfl, reply_at (fun _ => buf) _ h.2⟩
  note _ _ call h := by
    obtain ⟨rfl, ⟨hshaped, hchip⟩⟩ := h
    exact ⟨rfl, ⟨hshaped.numBusses, hshaped.numDevices, hshaped.busHandle, hshaped.drvHandle⟩,
      hchip⟩

variable {P : SpiHandle → Nat × PortChip → Prop} {bound : Fin 8 → Nat}

theorem onBus_alone (bus : Fin maxBusses) {act : BusM (Env (κ × σ)) Int} {P : SpiHandle → σ → Prop}
    (h : Parallel (BusAlike (Beside fun spi c c' => c' = c ∧ P spi c)) act act) :
    Parallel (AloneAt (β := β) config P) (onBus bus act) (onBus bus act) := by
  have hact : Keeps (fun t : BusState (Env (κ × σ)) => P t.world.spi t.world.os.2) act :=
    h.keeps (fun _ hs => ⟨rfl, rfl, rfl, rfl, hs⟩) fun _ _ hst => hst.world.chips.2
  apply Mirrors.alone
  intro s hs
  have hfinal := hact ⟨(s.config.busses bus).busData, s.world⟩ hs.chip
  unfold final at hfinal ⊢
  unfold onBus
  generalize act _ = x at hfinal ⊢
  cases x with
  | ok a t => exact ⟨hs.shaped.storeBus bus t, hfinal⟩
  | error e t => exact ⟨hs.shaped.storeBus bus t, hfinal⟩

theorem onDevice_alone {slot : Slot} {handle : DevHandle} {P : SpiHandle → σ → Prop}
    {act : IoBus BusHandle → DrvM DevHandle β (Env (κ × σ)) Int}
    (hact : ∀ bus, Keeps (AtChip P) (act bus))
    (hdrv : ∀ bus handle, Keeps (fun t => t.dev.drvHandle = handle) (act bus)) :
    Mirrors (WithDriver (AloneAt config P) slot handle) (onDevice slot act) (onDevice slot act)
      (AloneAt config P) (AloneAt config P) := by
  have hends : Ends (SysAt config P) (onDevice slot act) (fun _ => SysAt config P)
      (SysAt config P) := onDevice_at (fun bus => (hact bus).ends) hdrv
  exact (Mirrors.alone hends.keeps).imp (fun _ _ h => h.1) (fun _ _ h => h) fun _ _ h => h

theorem pifaceInit_drvHandle (bus : IoBus BusHandle) (handle : Option DevHandle) :
    Keeps (fun t : DrvState DevHandle β (Env κ) => t.dev.drvHandle = handle)
      (pifaceInit K bus) := by
  intro s hs
  obtain ⟨rc, u, hrun, hdev, -⟩ := pifaceInit_run (K := K) bus s
  rw [final_of_ok hrun, hdev, hs]

theorem pifaceDeinit_drvHandle (bus : IoBus BusHandle) (handle : Option DevHandle) :
    Keeps (fun t : DrvState DevHandle β (Env κ) => t.dev.drvHandle = handle)
      (pifaceDeinit K bus) := by
  intro s hs
  rw [pifaceDeinit_dev, hs]

/-- No hook of `io_init` or `io_deinit` switches anything on. -/
theorem hooks_dark :
    KeptByHooks (AloneAt (β := β) config (OnAtMostAt bound))
      (busDrv (K.withSpi (cut PortChip.spi))) (busDrv (K.withSpi (cut PortChip.spi)))
      (devDrv (K.withSpi (cut PortChip.spi))) (devDrv (K.withSpi (cut PortChip.spi))) where
  openBus bus handle := by
    cases handle
    exact .some (onBus_alone bus i2cLinuxOpen_parallel)
  closeBus bus handle := by
    cases handle
    exact .some (onBus_alone bus i2cLinuxClose_parallel)
  init slot handle := by
    cases handle with
    | pcf8574 => exact .none
    | mcp23017 =>
        apply Option.Rel.some
        apply onDevice_alone fun bus => keeps_atChip (mcp23017Init_parallel bus)
        exact fun bus => drvHandle_kept fun _ _ => mcp23017Init_untouched bus
    | piface =>
        apply Option.Rel.some
        apply onDevice_alone _ pifaceInit_drvHandle
        intro bus
        exact pfioInit_dark.bind fun _ => Keeps.ite (Keeps.pure _) (Keeps.pure _)
  deinit slot handle := by
    cases handle with
    | pcf8574 => exact .none
    | mcp23017 =>
        apply Option.Rel.some
        apply onDevice_alone fun bus => keeps_atChip (mcp23017Deinit_parallel bus)
        exact fun bus => drvHandle_kept fun _ _ =>
          (setDevData_untouched _).bind fun _ => Keeps.pure _
    | piface =>
        apply Option.Rel.some
        apply onDevice_alone _ pifaceDeinit_drvHandle
        intro bus
        exact pfioDeinit_dark.bind fun _ => Keeps.ite (Keeps.pure _) (Keeps.pure _)

theorem onSys_ends {act : SysM BusHandle DevHandle β (Env κ) α}
    {I E : Sys BusHandle DevHandle β (Env κ) → Prop}
    {Q : α → Sys BusHandle DevHandle β (Env κ) → Prop} (h : Ends I act Q E) :
    Ends (fun s => I s.sys) (onSys act) (fun a s => Q a s.sys) (fun s => E s.sys) := by
  intro s hs
  obtain ⟨hok, herror⟩ := h s.sys hs
  unfold onSys
  cases hrun : act s.sys with
  | ok a t =>
      constructor
      · intro a' t' heq
        obtain ⟨rfl, rfl⟩ := EStateM.Result.ok.inj heq
        exact hok a t hrun
      · intro e t' heq
        cases heq
  | error e t =>
      constructor
      · intro a' t' heq
        cases heq
      · intro e' t' heq
        obtain ⟨rfl, rfl⟩ := EStateM.Result.error.inj heq
        exact herror e t hrun

/-- The chip, between the hooks of one life. -/
def LifeAt (config : IoConfig BusHandle DevHandle) (bound : Fin 8 → Nat)
    (s : Life BusHandle DevHandle (List Char) (Env (κ × (Nat × PortChip)))) : Prop :=
  SysAt config (OnAtMostAt bound) s.sys

theorem hooks_at :
    Keeps (LifeAt config bound)
        (ioInit (busDrv (K.withSpi (cut PortChip.spi))) (devDrv (K.withSpi (cut PortChip.spi)))) ∧
      Keeps (LifeAt config bound)
        (ioDeinit (busDrv (K.withSpi (cut PortChip.spi)))
          (devDrv (K.withSpi (cut PortChip.spi)))) := by
  have hself (s : Life BusHandle DevHandle (List Char) (Env (κ × (Nat × PortChip))))
      (h : LifeAt config bound s) : LifeAlike (AloneAt config (OnAtMostAt bound)) s s :=
    ⟨⟨rfl, h⟩, rfl⟩
  exact ⟨(ioInit_parallel aloneAt_kept hooks_dark).keeps hself fun _ _ h => h.sys.2,
    (ioDeinit_parallel aloneAt_kept hooks_dark).keeps hself fun _ _ h => h.sys.2⟩

/-- One life switches on what its events ask for, if anything. -/
theorem serveUntilSignal_at (events : List (MgConnection × MgEvent)) :
    Ends (LifeAt config bound) (serveUntilSignal (K.withSpi (cut PortChip.spi)) events)
      (fun _ => LifeAt config fun i => bound i + events.countP (asksFor config i))
      (LifeAt config fun i => bound i + events.countP (asksFor config i)) := by
  have hmore (s : Life BusHandle DevHandle (List Char) (Env (κ × (Nat × PortChip))))
      (h : LifeAt config bound s) :
      LifeAt config (fun i => bound i + events.countP (asksFor config i)) s :=
    SysAt.mono h fun _ _ h => h.mono fun i => Nat.le_add_right _ _
  refine Ends.bind (hooks_at.1.ends.imp (fun _ h => h) (fun _ _ h => h) hmore) fun rc => ?_
  apply Ends.ite
  · exact fun _ => Ends.pure hmore
  · intro _
    refine Ends.bind (onSys_ends (pollServer_at events bound)) fun answers => ?_
    exact hooks_at.2.ends.bind fun _ => Ends.pure fun _ h => h

theorem leaves_onAtMost {chip : PortChip} (stint : Stint κ) (h : OnAtMost bound chip) :
    OnAtMost (fun i => bound i + stint.events.countP (asksFor stint.config i))
      (stint.leaves K chip) := by
  have hstart : LifeAt stint.config bound
      (beforeInit stint.config stint.buf stint.os (stint.messages, chip)) :=
    ⟨⟨rfl, fun _ => rfl, fun _ => rfl, fun _ => rfl⟩, h⟩
  have hend := (serveUntilSignal_at (K := K) stint.events).final hstart
  exact hend.chip

/-- Any number of lives. -/
theorem lives_onAtMost {chip : PortChip} (stints : List (Stint κ)) (h : OnAtMost bound chip) :
    OnAtMost (fun i => bound i +
      (stints.map fun stint => stint.events.countP (asksFor stint.config i)).sum)
      (stints.foldl (Stint.leaves K) chip) := by
  induction stints generalizing bound chip with
  | nil => exact h
  | cons stint rest ih =>
      apply (ih (leaves_onAtMost stint h)).mono
      intro i
      rw [List.map_cons, List.sum_cons, Nat.add_assoc]

end Hooks

/-- The process is killed in its second life, when it has sent three messages. -/
def ioExtStints : List (Stint Unit) :=
  [⟨ioExtConfig, [], (), pifaceEvents, 100⟩, ⟨ioExtConfig, [], (), [], 3⟩]

end Switcher
