import Switcher.Driver.Rounds
import Switcher.Hardware.Board
import Switcher.Io.Request
import Switcher.Lib.Interleaving

/-!
Whom the transfers of a request reach. A request to an I2C device talks in
rounds of selecting the device's address and issuing one transfer, and a round
goes on when its selection failed: the transfer then reaches whichever address
was selected last.
-/

namespace Switcher

open Lib.Program Lib.Interleaving

section Serve

variable {β κ α : Type} {K : Kernel κ} {slot : Slot} {fh : Int} {address : BitVec 8}

/-- The device in `slot` is an I2C device with this address behind this handle. -/
def I2cAt (config : IoConfig BusHandle DevHandle) (slot : Slot) (fh : Int)
    (address : BitVec 8) : Prop :=
  ∃ handle, (config.devices slot).drvHandle = some handle ∧
    I2cDevice (config.busses slot.1) (config.devices slot) fh address handle

/-- What a part of a request on `slot` does to the daemon: `lo` rounds or more,
and changes of the device's own record. -/
structure TalkedOn (K : Kernel κ) (slot : Slot) (fh : Int) (address : BitVec 8) (lo : Nat)
    (s s' : Daemon β κ) : Prop where
  rounds : ∃ n, lo ≤ n ∧ Rounds K fh address n s.world.os s'.world.os
  config : s'.config = s.config.setDev slot (s'.config.devices slot)
  wiring : (s.config.devices slot).SameWiring (s'.config.devices slot)

theorem TalkedOn.trans {lo lo' : Nat} {s s' s'' : Daemon β κ}
    (h : TalkedOn K slot fh address lo s s') (h' : TalkedOn K slot fh address lo' s' s'') :
    TalkedOn K slot fh address (lo + lo') s s'' := by
  obtain ⟨m, hm, hrounds⟩ := h.rounds
  obtain ⟨n, hn, hrounds'⟩ := h'.rounds
  refine ⟨⟨m + n, by omega, hrounds.trans hrounds'⟩, ?_, h.wiring.trans h'.wiring⟩
  rw [h'.config, h.config, IoConfig.setDev_setDev, IoConfig.devices_setDev]

theorem TalkedOn.mono {lo lo' : Nat} {s s' : Daemon β κ}
    (h : TalkedOn K slot fh address lo s s') (hle : lo' ≤ lo) :
    TalkedOn K slot fh address lo' s s' := by
  obtain ⟨n, hn, hrounds⟩ := h.rounds
  exact ⟨⟨n, by omega, hrounds⟩, h.config, h.wiring⟩

theorem TalkedOn.reply {lo : Nat} {s s' : Daemon β κ} (h : TalkedOn K slot fh address lo s s')
    (buf : β) : TalkedOn K slot fh address lo s { s' with buf := buf } :=
  ⟨h.rounds, h.config, h.wiring⟩

theorem IoDev.SameWiring.i2cDevice {ω δ : Type} {bus : IoBus ω} {dev dev' : IoDev δ}
    {handle : DevHandle} (h : dev.SameWiring dev') (hdev : I2cDevice bus dev fh address handle) :
    I2cDevice bus dev' fh address handle := by
  cases hdev with
  | pcf8574 hbus hdev hfh haddress =>
      exact .pcf8574 hbus (h.devBusData.trans hdev) hfh haddress
  | mcp23017 hdata hbus hdev hfh haddress =>
      have hsome : dev'.devData.isSome := by rw [h.devData, hdata]; rfl
      obtain ⟨data, hdata'⟩ := Option.isSome_iff_exists.mp hsome
      exact .mcp23017 hdata' hbus (h.devBusData.trans hdev) hfh haddress

theorem TalkedOn.i2cAt {lo : Nat} {s s' : Daemon β κ} (h : TalkedOn K slot fh address lo s s')
    {other : Slot} {fh' : Int} {address' : BitVec 8} (hat : I2cAt s.config other fh' address') :
    I2cAt s'.config other fh' address' := by
  obtain ⟨handle, hdrv, hdev⟩ := hat
  have hbusses : s'.config.busses = s.config.busses := by
    rw [h.config]
    rfl
  have hwiring : (s.config.devices other).SameWiring (s'.config.devices other) := by
    by_cases heq : other = slot
    · subst heq
      exact h.wiring
    · rw [h.config, IoConfig.devices_setDev_of_ne _ _ heq]
      exact IoDev.SameWiring.refl _
  refine ⟨handle, hwiring.drvHandle.trans hdrv, ?_⟩
  rw [hbusses]
  exact hwiring.i2cDevice hdev

theorem TalkedOn.hasSlot_iff {lo : Nat} {s s' : Daemon β κ}
    (h : TalkedOn K slot fh address lo s s') (other : Slot) :
    s'.config.HasSlot other ↔ s.config.HasSlot other := by
  rw [h.config]
  exact IoConfig.hasSlot_setDev _ _ _ _

theorem callDrv_talked {s : Daemon β κ} {handle : DevHandle}
    (hdrv : (s.config.devices slot).drvHandle = some handle) (call : DrvCall)
    {f : DevDrv BusHandle DevHandle β (Env κ) →
      IoBus BusHandle → DrvM DevHandle β (Env κ) α}
    (hact : ∃ a t, f (devDrv K handle) (s.config.busses slot.1) (s.drvState slot) = .ok a t ∧
      Talked K fh address 1 (s.drvState slot) t) :
    ∃ a s', callDrv (devDrv K) slot.1.val slot.2.val call f s = .ok a s' ∧
      TalkedOn K slot fh address 1 s s' := by
  obtain ⟨a, t, hrun, htalked⟩ := hact
  refine ⟨a, Sys.storeDrv { s with calls := s.calls ++ [call] } slot t, ?_, ⟨?_, ?_, ?_⟩⟩
  · rw [callDrv_slot _ slot call f hdrv]
    exact onDevice_of_ok hrun
  · exact htalked.rounds
  · simp [Sys.storeDrv]
  · simp only [Sys.storeDrv, IoConfig.devices_setDev]
    exact htalked.wiring

variable {s : Daemon β κ} {r : Request} (cb : Callbacks β)
  (hat : I2cAt s.config r.slot fh address)
include hat

theorem drvRead_talked :
    ∃ result s', drvRead (devDrv K) cb r.data s = .ok result s' ∧
      TalkedOn K r.slot fh address 1 s s' := by
  obtain ⟨handle, hdrv, hdev⟩ := hat
  exact callDrv_talked hdrv _ (read_talked hdev _ _)

theorem drvWrite_talked (value : Value) :
    ∃ result s', drvWrite (devDrv K) cb r.data value s = .ok result s' ∧
      TalkedOn K r.slot fh address 1 s s' := by
  obtain ⟨handle, hdrv, hdev⟩ := hat
  exact callDrv_talked hdrv _ (write_talked hdev _ _)

theorem writeValue_talked (value : Value) :
    ∃ result s', writeValue (devDrv K) cb r.data value s = .ok result s' ∧
      TalkedOn K r.slot fh address 1 s s' := by
  obtain ⟨numWritten, s', hrun, htalked⟩ := drvWrite_talked cb hat value
  refine ⟨_, _, writeValue_run _ cb hrun, ?_⟩
  by_cases hwritten : 0 < numWritten
  · rw [if_pos hwritten]
    exact htalked.reply _
  · rw [if_neg hwritten]
    exact htalked

theorem performWrite_talked :
    ∃ result s', performWrite (devDrv K) cb r.data s = .ok result s' ∧
      TalkedOn K r.slot fh address 1 s s' := by
  cases hsub : r.subDev with
  | none =>
      rw [performWrite_whole _ cb hsub]
      exact writeValue_talked cb hat _
  | some i =>
      obtain ⟨⟨numRead, value⟩, s', hrun, htalked⟩ := drvRead_talked cb hat
      rw [performWrite_subDev _ cb hsub hrun]
      by_cases hread : numRead ≤ 0
      · rw [if_pos hread]
        exact ⟨_, _, rfl, htalked.reply _⟩
      · rw [if_neg hread]
        obtain ⟨result, s'', hrun', htalked'⟩ :=
          writeValue_talked cb (htalked.i2cAt hat) (r.masked i value)
        exact ⟨result, s'', hrun', (htalked.trans htalked').mono (Nat.le_add_left 1 1)⟩

theorem performRead_talked :
    ∃ result s', performRead (devDrv K) cb r.data s = .ok result s' ∧
      TalkedOn K r.slot fh address 1 s s' := by
  obtain ⟨⟨numRead, value⟩, s', hrun, htalked⟩ := drvRead_talked cb hat
  rw [performRead_run _ cb hrun]
  by_cases hread : 0 < numRead
  · rw [if_pos hread]
    exact ⟨_, _, rfl, htalked.reply _⟩
  · rw [if_neg hread]
    exact ⟨_, _, rfl, htalked⟩

theorem serveRequest_talked (hslot : s.config.HasSlot r.slot) (fresh : β) :
    ∃ served s', serveRequest (devDrv K) cb fresh r s = .ok served s' ∧
      TalkedOn K r.slot fh address 1 s s' := by
  have hat' : I2cAt ({ s with buf := fresh } : Daemon β κ).config r.slot fh address := hat
  cases hset : r.isSet with
  | true =>
      obtain ⟨⟨rc, data⟩, s', hrun, htalked⟩ := performWrite_talked (K := K) cb hat'
      exact ⟨_, s', serveRequest_run _ cb fresh hslot (by simpa [hset] using hrun),
        ⟨htalked.rounds, htalked.config, htalked.wiring⟩⟩
  | false =>
      obtain ⟨⟨rc, data⟩, s', hrun, htalked⟩ := performRead_talked (K := K) cb hat'
      exact ⟨_, s', serveRequest_run _ cb fresh hslot (by simpa [hset] using hrun),
        ⟨htalked.rounds, htalked.config, htalked.wiring⟩⟩

end Serve

section Board

variable {β σ : Type} {H : Hardware σ} {fh : Int} {address : BitVec 8} {b b' : Board σ}

/-- The next transfer on `fh` for `address` gets there: the address is selected
already, or the selection that precedes the transfer succeeds. -/
def Board.Aimed (H : Hardware σ) (fh : Int) (address : BitVec 8) (b : Board σ) : Prop :=
  b.selected fh = address ∨ 0 ≤ (H.select fh address b.hw).1

theorem aimed_iff_selects :
    b.Aimed H fh address ↔ (b.select H fh address).2.selected fh = address := by
  simp only [Board.Aimed, Board.select]
  by_cases hrc : (H.select fh address b.hw).1 < 0
  · have hneg : ¬ 0 ≤ (H.select fh address b.hw).1 := by omega
    simp [hrc, hneg]
  · have hpos : 0 ≤ (H.select fh address b.hw).1 := by omega
    simp [hrc, hpos]

theorem round_selected (args : Smbus) :
    (round H.kernel fh address args b).selected = (b.select H fh address).2.selected := rfl

theorem select_traffic : (b.select H fh address).2.traffic = b.traffic := by
  simp only [Board.select]
  by_cases hrc : (H.select fh address b.hw).1 < 0
  · simp [hrc]
  · simp [hrc]

theorem round_traffic (args : Smbus) :
    (round H.kernel fh address args b).traffic =
      b.traffic ++ [⟨fh, (b.select H fh address).2.selected fh, args⟩] := by
  have happend : (round H.kernel fh address args b).traffic =
      (b.select H fh address).2.traffic ++
        [⟨fh, (b.select H fh address).2.selected fh, args⟩] := rfl
  rw [happend, select_traffic]

/-- The transfers between two states of a board. -/
def Board.trafficTo (b b' : Board σ) : List Transfer :=
  b'.traffic.drop b.traffic.length

/-- Aimed rounds reach their address, and the first of rounds that are not does
not; nothing takes a transfer back. -/
theorem Rounds.traffic {n : Nat} (h : Rounds H.kernel fh address n b b') :
    ∃ new, b'.traffic = b.traffic ++ new ∧
      (b.Aimed H fh address → ∀ x ∈ new, x.fh = fh ∧ x.address = address) ∧
      (¬ b.Aimed H fh address → 0 < n → ∃ x ∈ new, x.address ≠ address) := by
  induction h with
  | none b => exact ⟨[], by simp, by simp, by simp⟩
  | @more n b b' args _ ih =>
      obtain ⟨new, htraffic, hown, -⟩ := ih
      rw [round_traffic, List.append_assoc] at htraffic
      refine ⟨_, htraffic, ?_, ?_⟩
      · intro haimed
        have hselected := aimed_iff_selects.mp haimed
        have hstill : (round H.kernel fh address args b).Aimed H fh address :=
          .inl (by rw [round_selected]; exact hselected)
        intro x hx
        rcases List.mem_append.mp hx with hfirst | hrest
        · obtain rfl := List.mem_singleton.mp hfirst
          exact ⟨rfl, hselected⟩
        · exact hown hstill x hrest
      · intro hmissed _
        exact ⟨_, List.mem_append_left _ (List.mem_singleton.mpr rfl),
          fun hselected => hmissed (aimed_iff_selects.mpr hselected)⟩

theorem Rounds.trafficTo_iff {n : Nat} (h : Rounds H.kernel fh address n b b') (hn : 0 < n) :
    (∀ x ∈ b.trafficTo b', x.fh = fh ∧ x.address = address) ↔ b.Aimed H fh address := by
  obtain ⟨new, htraffic, hown, hmissed⟩ := h.traffic
  have hnew : b.trafficTo b' = new := by simp [Board.trafficTo, htraffic]
  rw [hnew]
  constructor
  · intro hall
    by_contra hnot
    obtain ⟨x, hx, hne⟩ := hmissed hnot hn
    exact hne (hall x hx).2
  · exact hown

/-- Every configured slot holds an I2C device. -/
def I2cOnly (s : Daemon β (Board σ)) : Prop :=
  ∀ slot, s.config.HasSlot slot → ∃ fh address, I2cAt s.config slot fh address

/-- Every transfer that reaches the bus while `r` is served goes to the address
configured for its device. -/
def OwnTraffic (H : Hardware σ) (cb : Callbacks β) (fresh : β) (r : Request)
    (s : Daemon β (Board σ)) : Prop :=
  ∀ served s', serveRequest (devDrv H.kernel) cb fresh r s = .ok served s' →
    ∀ x ∈ s.world.os.trafficTo s'.world.os, I2cAt s.config r.slot x.fh x.address

/-- When `r` is served, the handle of its device already has the device's address
selected, or the first selection of the request succeeds. -/
def FirstSelectionHolds (H : Hardware σ) (r : Request) (s : Daemon β (Board σ)) : Prop :=
  ∃ fh address, I2cAt s.config r.slot fh address ∧ s.world.os.Aimed H fh address

theorem I2cDevice.target {ω δ : Type} {bus : IoBus ω} {dev : IoDev δ} {handle : DevHandle}
    (h : I2cDevice bus dev fh address handle) :
    bus.busData.map (·.fh) = some fh ∧ dev.devBusData.map (·.address) = some address := by
  cases h with
  | pcf8574 hbus hdev hfh haddress => simp [hbus, hdev, hfh, haddress]
  | mcp23017 _ hbus hdev hfh haddress => simp [hbus, hdev, hfh, haddress]

theorem I2cAt.unique {config : IoConfig BusHandle DevHandle} {slot : Slot} {fh fh' : Int}
    {address address' : BitVec 8} (h : I2cAt config slot fh address)
    (h' : I2cAt config slot fh' address') : fh = fh' ∧ address = address' := by
  obtain ⟨_, -, hdev⟩ := h
  obtain ⟨_, -, hdev'⟩ := h'
  exact ⟨Option.some.inj (hdev.target.1.symm.trans hdev'.target.1),
    Option.some.inj (hdev.target.2.symm.trans hdev'.target.2)⟩

theorem ownTraffic_iff {cb : Callbacks β} {fresh : β} {r : Request} {s : Daemon β (Board σ)}
    (h : I2cOnly s) (hslot : s.config.HasSlot r.slot) :
    OwnTraffic H cb fresh r s ↔ FirstSelectionHolds H r s := by
  obtain ⟨fh, address, hat⟩ := h r.slot hslot
  obtain ⟨served, s', hrun, htalked⟩ :=
    serveRequest_talked (K := H.kernel) cb hat hslot fresh
  obtain ⟨n, hn, hrounds⟩ := htalked.rounds
  have hiff := hrounds.trafficTo_iff hn
  constructor
  · intro hown
    refine ⟨fh, address, hat, hiff.mp ?_⟩
    intro x hx
    obtain ⟨hfh, haddress⟩ := (hown served s' hrun x hx).unique hat
    exact ⟨hfh, haddress⟩
  · rintro ⟨fh', address', hat', haimed⟩ served' s'' hrun' x hx
    obtain ⟨rfl, rfl⟩ := hat'.unique hat
    obtain ⟨-, rfl⟩ := EStateM.Result.ok.inj (hrun.symm.trans hrun')
    obtain ⟨rfl, rfl⟩ := hiff.mpr haimed x hx
    exact hat

/-- A run of requests to I2C devices reaches the right chips throughout exactly
if no request of it depends on a selection that fails. -/
theorem run_traffic_own_iff {s : Daemon β (Board σ)} (h : I2cOnly s) (cb : Callbacks β)
    (fresh : β) (requests : List Request)
    (hslots : ∀ r ∈ requests, s.config.HasSlot r.slot) :
    Along (serveRequest (devDrv H.kernel) cb fresh) (OwnTraffic H cb fresh) requests s ↔
      Along (serveRequest (devDrv H.kernel) cb fresh) (FirstSelectionHolds H) requests s := by
  apply along_congr (I := fun t : Daemon β (Board σ) =>
    I2cOnly t ∧ ∀ slot, t.config.HasSlot slot ↔ s.config.HasSlot slot)
  · rintro r hr t ⟨ht, hsame⟩
    have hslot := (hsame r.slot).mpr (hslots r hr)
    obtain ⟨fh, address, hat⟩ := ht r.slot hslot
    obtain ⟨served, t', hrun, htalked⟩ :=
      serveRequest_talked (K := H.kernel) cb hat hslot fresh
    refine ⟨served, t', hrun, ?_, fun slot => (htalked.hasSlot_iff slot).trans (hsame slot)⟩
    intro slot hin
    obtain ⟨fh', address', hat'⟩ := ht slot ((htalked.hasSlot_iff slot).mp hin)
    exact ⟨fh', address', htalked.i2cAt hat'⟩
  · rintro r hr t ⟨ht, hsame⟩
    exact ownTraffic_iff ht ((hsame r.slot).mpr (hslots r hr))
  · exact ⟨h, fun _ => Iff.rfl⟩

end Board

theorem ioExtI2c_only {slot : Slot} (h : ioExtI2c.HasSlot slot) :
    ∃ fh address, I2cAt ioExtI2c slot fh address := by
  rcases ioExtI2c_slots h with rfl | rfl
  · exact ⟨3, 0x20, .pcf8574, rfl, @I2cDevice.pcf8574 _ _ _ _ _ _ ioExtBus ⟨0x20⟩ rfl rfl rfl rfl⟩
  · exact ⟨3, 0x38, .pcf8574, rfl, @I2cDevice.pcf8574 _ _ _ _ _ _ ioExtBus ⟨0x38⟩ rfl rfl rfl rfl⟩

/-- Hardware on which the selection of `bad` fails and all else succeeds. -/
def deafTo (bad : BitVec 8) : Hardware Unit where
  select _ address _ := (if address = bad then -1 else 0, ())
  smbus _ _ _ _ := ((0, 0), ())
  spi _ _ := ((0, 0), ())
  strerror _ := []

def ioExtBoard : Daemon Unit (Board Unit) :=
  ⟨ioExtI2c, (), ⟨.null, ⟨fun _ => 0, [], ()⟩⟩, []⟩

/-- A write to the first PCF8574 of `config/io_ext.ini`, then one to the second. -/
def ioExtWrites : List Request := [⟨(0, 0), none, true, 0x00⟩, ⟨(0, 1), none, true, 0xFF⟩]

theorem run_traffic_own_iff_ioExt :
    let step := serveRequest (devDrv (deafTo 0x20).kernel) ⟨fun _ _ => (), fun _ _ => ()⟩ ()
    Along step (OwnTraffic (deafTo 0x20) ⟨fun _ _ => (), fun _ _ => ()⟩ ()) ioExtWrites
        ioExtBoard ↔
      Along step (FirstSelectionHolds (deafTo 0x20)) ioExtWrites ioExtBoard :=
  run_traffic_own_iff (fun _ hslot => ioExtI2c_only hslot) _ () _ (by decide)

/-- The selection of the second PCF8574 fails, and the byte meant for it reaches
the first. -/
theorem run_traffic_strays :
    I2cOnly ioExtBoard ∧ (∀ r ∈ ioExtWrites, ioExtBoard.config.HasSlot r.slot) ∧
      ¬ Along (serveRequest (devDrv (deafTo 0x38).kernel) ⟨fun _ _ => (), fun _ _ => ()⟩ ())
        (OwnTraffic (deafTo 0x38) ⟨fun _ _ => (), fun _ _ => ()⟩ ()) ioExtWrites
        ioExtBoard := by
  refine ⟨fun slot hslot => ioExtI2c_only hslot, by decide, ?_⟩
  rintro ⟨-, served, t, hrun, hown, -⟩
  obtain rfl := final_of_ok hrun
  obtain ⟨handle, -, hdev⟩ := hown _ _ rfl ⟨3, 0x20, .writeByte 0xFF⟩ (by decide)
  exact absurd hdev.target.2 (by decide)

end Switcher
