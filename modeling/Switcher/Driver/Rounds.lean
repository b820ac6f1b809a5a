import Switcher.Driver.Table

/-!
What an I2C driver call does to the operating system, whatever that answers: one
or more rounds, each a selection of the device's own address followed by one
transfer.
-/

namespace Switcher

open Lib.Program

variable {ω δ β κ : Type} (K : Kernel κ)

/-- The operating system after one selection and the transfer that follows it. -/
def round (fh : Int) (address : BitVec 8) (args : Smbus) (os : κ) : κ :=
  (K.i2cSmbus fh args (K.i2cSlave fh address os).2).2

/-- `n` rounds lead from one state to the other. -/
inductive Rounds (fh : Int) (address : BitVec 8) : Nat → κ → κ → Prop
  | none (os : κ) : Rounds fh address 0 os os
  | more {n : Nat} {os os' : κ} (args : Smbus) :
      Rounds fh address n (round K fh address args os) os' → Rounds fh address (n + 1) os os'

variable {K} {fh : Int} {address : BitVec 8}

theorem Rounds.trans {m n : Nat} {os os' os'' : κ} (h : Rounds K fh address m os os')
    (h' : Rounds K fh address n os' os'') : Rounds K fh address (m + n) os os'' := by
  induction h with
  | none os => simpa using h'
  | @more m os os' args _ ih =>
      rw [Nat.add_right_comm]
      exact .more args (ih h')

@[simp] theorem exchange_world (cbError : CbError β) (args : Smbus)
    (s : DrvState δ β (Env κ)) :
    (exchange K cbError fh address args s).2.world =
      ⟨s.world.spi, round K fh address args s.world.os⟩ := by
  simp [exchange, round]

theorem exchanges_rounds (cbError : CbError β) (plan : List Smbus) (s : DrvState δ β (Env κ)) :
    ∃ n, (plan ≠ [] → 0 < n) ∧ Rounds K fh address n s.world.os
        (exchanges K cbError fh address plan s).2.world.os ∧
      (exchanges K cbError fh address plan s).2.world.spi = s.world.spi := by
  induction plan generalizing s with
  | nil => exact ⟨0, by simp, .none _, rfl⟩
  | cons args rest ih =>
      by_cases hok : (exchange K cbError fh address args s).1.1 = 0
      · obtain ⟨n, -, hrounds, hspi⟩ := ih (exchange K cbError fh address args s).2
        rw [exchange_world] at hrounds hspi
        rw [exchanges_cons_of_ok K hok]
        exact ⟨n + 1, by simp, .more args hrounds, hspi⟩
      · rw [exchanges_cons_of_fail K hok, exchange_world]
        exact ⟨1, by simp, .more args (.none _), rfl⟩

/-- A driver call left `t` for `t'` in `lo` rounds or more. -/
structure Talked (K : Kernel κ) (fh : Int) (address : BitVec 8) (lo : Nat)
    (t t' : DrvState δ β (Env κ)) : Prop where
  rounds : ∃ n, lo ≤ n ∧ Rounds K fh address n t.world.os t'.world.os
  wiring : t.dev.SameWiring t'.dev
  spi : t'.world.spi = t.world.spi

theorem Talked.trans {lo lo' : Nat} {t t' t'' : DrvState δ β (Env κ)}
    (h : Talked K fh address lo t t') (h' : Talked K fh address lo' t' t'') :
    Talked K fh address (lo + lo') t t'' := by
  obtain ⟨m, hm, hrounds⟩ := h.rounds
  obtain ⟨n, hn, hrounds'⟩ := h'.rounds
  exact ⟨⟨m + n, by omega, hrounds.trans hrounds'⟩, h.wiring.trans h'.wiring,
    h'.spi.trans h.spi⟩

theorem Talked.mono {lo lo' : Nat} {t t' : DrvState δ β (Env κ)}
    (h : Talked K fh address lo t t') (hle : lo' ≤ lo) : Talked K fh address lo' t t' := by
  obtain ⟨n, hn, hrounds⟩ := h.rounds
  exact ⟨⟨n, by omega, hrounds⟩, h.wiring, h.spi⟩

theorem talked_report (t : DrvState δ β (Env κ)) (cbError : CbError β) (msg : List Char) :
    Talked K fh address 0 t (t.report cbError msg) :=
  ⟨⟨0, Nat.le_refl 0, .none _⟩, IoDev.SameWiring.refl _, rfl⟩

theorem talked_exchange (cbError : CbError β) (args : Smbus) (t : DrvState δ β (Env κ)) :
    Talked K fh address 1 t (exchange K cbError fh address args t).2 := by
  refine ⟨⟨1, Nat.le_refl 1, ?_⟩, ?_, ?_⟩
  · rw [exchange_world]
    exact .more args (.none _)
  · rw [exchange_dev]
    exact IoDev.SameWiring.refl _
  · rw [exchange_world]

theorem talked_exchanges (cbError : CbError β) {plan : List Smbus} (hplan : plan ≠ [])
    (t : DrvState δ β (Env κ)) :
    Talked K fh address 1 t (exchanges K cbError fh address plan t).2 := by
  obtain ⟨n, hn, hrounds, hspi⟩ := exchanges_rounds cbError plan t
  refine ⟨⟨n, hn hplan, hrounds⟩, ?_, hspi⟩
  rw [exchanges_dev]
  exact IoDev.SameWiring.refl _

theorem talked_setIoState {t : DrvState δ β (Env κ)} (hdata : t.dev.devData.isSome)
    (state : Mcp23017IoState) : Talked K fh address 0 t (t.setIoState state) :=
  ⟨⟨0, Nat.le_refl 0, .none _⟩, ⟨rfl, rfl, by simp [hdata]⟩, rfl⟩

theorem talked_ensuredIo (cbError : CbError β) {t : DrvState δ β (Env κ)}
    (hdata : t.dev.devData.isSome) (cached desiredState : Mcp23017IoState) :
    Talked K fh address (if cached = desiredState then 0 else 1) t
      (ensuredIo K cbError fh address cached desiredState t).2 := by
  have htalked : Talked K fh address 1 t (exchanges K cbError fh address
      (directionPlan desiredState) (t.setIoState .none)).2 :=
    (talked_setIoState hdata .none).trans (talked_exchanges cbError (by simp [directionPlan]) _)
  rcases ensuredIo_cases K cbError fh address cached desiredState t with
    ⟨hcached, h⟩ | ⟨hcached, -, h⟩ | ⟨hcached, -, h⟩
  · rw [h, if_pos hcached]
    exact ⟨⟨0, Nat.le_refl 0, .none _⟩, IoDev.SameWiring.refl _, rfl⟩
  · rw [h, if_neg hcached]
    exact htalked.trans (talked_setIoState (by rw [exchanges_dev]; rfl) desiredState)
  · rw [h, if_neg hcached]
    exact htalked

theorem ensuredIo_wiring (K : Kernel κ) (cbError : CbError β) (fh : Int) (address : BitVec 8)
    {t : DrvState δ β (Env κ)} (hdata : t.dev.devData.isSome)
    (cached desiredState : Mcp23017IoState) :
    t.dev.SameWiring (ensuredIo K cbError fh address cached desiredState t).2.dev :=
  (talked_ensuredIo cbError hdata cached desiredState).wiring

/-- A direction that could not be ensured took a round at least. -/
theorem talked_ensuredIo_of_ne (cbError : CbError β) {t : DrvState δ β (Env κ)}
    (hdata : t.dev.devData.isSome) {cached desiredState : Mcp23017IoState}
    (hne : (ensuredIo K cbError fh address cached desiredState t).1 ≠ desiredState) :
    Talked K fh address 1 t (ensuredIo K cbError fh address cached desiredState t).2 := by
  have hcached : cached ≠ desiredState := by
    intro hcached
    rw [ensuredIo, if_pos hcached] at hne
    exact hne rfl
  have htalked : Talked K fh address (if cached = desiredState then 0 else 1) t _ :=
    talked_ensuredIo cbError hdata cached desiredState
  rwa [if_neg hcached] at htalked

/-- An I2C device whose configuration is complete. -/
inductive I2cDevice (bus : IoBus ω) (dev : IoDev δ) (fh : Int) (address : BitVec 8) :
    DevHandle → Prop
  | pcf8574 {busData : I2cLinuxBusData} {devBusData : I2cLinuxDevData}
      (hbus : bus.busData = some busData) (hdev : dev.devBusData = some devBusData)
      (hfh : busData.fh = fh) (haddress : devBusData.address = address) :
      I2cDevice bus dev fh address .pcf8574
  | mcp23017 {busData : I2cLinuxBusData} {devBusData : I2cLinuxDevData}
      {data : Mcp23017Data} (hdata : dev.devData = some data)
      (hbus : bus.busData = some busData) (hdev : dev.devBusData = some devBusData)
      (hfh : busData.fh = fh) (haddress : devBusData.address = address) :
      I2cDevice bus dev fh address .mcp23017

section Table

variable {bus : IoBus BusHandle} {t : DrvState DevHandle β (Env κ)} {handle : DevHandle}
  (h : I2cDevice bus t.dev fh address handle) (cbError : CbError β) (value : Value)
include h

theorem read_talked :
    ∃ result t', (devDrv K handle).read cbError bus value t = .ok result t' ∧
      Talked K fh address 1 t t' := by
  cases h with
  | pcf8574 hbus hdev hfh haddress =>
      subst hfh haddress
      exact ⟨_, _, pcf8574Read_run K cbError value hbus hdev, talked_exchange cbError _ t⟩
  | @mcp23017 busData devBusData data hdata hbus hdev hfh haddress =>
      subst hfh haddress
      have hdata' : t.dev.devData.isSome := by simp [hdata]
      have hrun := mcp23017Read_run K cbError hdata hbus hdev value
      by_cases hread : (ensuredIo K cbError busData.fh devBusData.address data.ioState .read
          t).1 = .read
      · simp only [if_pos hread] at hrun
        refine ⟨_, _, hrun, Talked.mono (Talked.trans
          (talked_ensuredIo cbError hdata' _ _) (talked_exchanges cbError ?_ _)) ?_⟩
        · simp [inputPlan]
        · omega
      · simp only [if_neg hread] at hrun
        exact ⟨_, _, hrun, Talked.trans (talked_ensuredIo_of_ne cbError hdata' hread)
          (talked_report _ cbError _)⟩

theorem write_talked :
    ∃ result t', (devDrv K handle).write cbError bus value t = .ok result t' ∧
      Talked K fh address 1 t t' := by
  cases h with
  | pcf8574 hbus hdev hfh haddress =>
      subst hfh haddress
      exact ⟨_, _, pcf8574Write_run K cbError value hbus hdev, talked_exchange cbError _ t⟩
  | @mcp23017 busData devBusData data hdata hbus hdev hfh haddress =>
      subst hfh haddress
      have hdata' : t.dev.devData.isSome := by simp [hdata]
      have hrun := mcp23017Write_run K cbError hdata hbus hdev value
      by_cases hwrite : (ensuredIo K cbError busData.fh devBusData.address data.ioState .write
          t).1 = .write
      · simp only [if_pos hwrite] at hrun
        refine ⟨_, _, hrun, Talked.mono (Talked.trans
          (talked_ensuredIo cbError hdata' _ _) (talked_exchanges cbError ?_ _)) ?_⟩
        · simp [outputPlan]
        · omega
      · simp only [if_neg hwrite] at hrun
        exact ⟨_, _, hrun, Talked.trans (talked_ensuredIo_of_ne cbError hdata' hwrite)
          (talked_report _ cbError _)⟩

end Table

end Switcher
