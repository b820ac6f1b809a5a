import Switcher.Hardware.PortLatch

/-!
When the outputs of a PiFace's chip go on. The messages of a process that is killed reach
the chip up to some point, which may be anywhere.
-/

namespace Switcher

open Lib.Program Pfio PortChip

variable {ω δ β κ σ α : Type}

/-- As many messages as the count says reach the device, and then none. -/
def cut (answer : List (BitVec 8) → σ → (Int × BitVec 8) × σ) (tx : List (BitVec 8))
    (c : Nat × σ) : (Int × BitVec 8) × (Nat × σ) :=
  if c.1 = 0 then ((-1, 0), c) else ((answer tx c.2).1, (c.1 - 1, (answer tx c.2).2))

/-- A property of the handle and of what is behind it. -/
def AtChip (P : SpiHandle → σ → Prop) (t : DrvState δ β (Env (κ × σ))) : Prop :=
  P t.world.spi t.world.os.2

/-- No output has gone on more often. -/
structure OnAtMost (bound : Fin 8 → Nat) (chip : PortChip) : Prop where
  tame : chip.Tame
  count : ∀ i, chip.switchedOn i ≤ bound i

def OnAtMostAt (bound : Fin 8 → Nat) (_spi : SpiHandle) (c : Nat × PortChip) : Prop :=
  OnAtMost bound c.2

/-- What a read of the outputs has returned is right where it matters. -/
def Echoes (value : BitVec 8) (spi : SpiHandle) (c : Nat × PortChip) : Prop :=
  ∀ fd, spi = .live fd → 0 ≤ fd → c.1 ≠ 0 → value &&& ~~~c.2.regs iodira = c.2.on

section Chip

variable {bound : Fin 8 → Nat} {chip : PortChip}

theorem OnAtMost.mono {bound' : Fin 8 → Nat} (h : OnAtMost bound chip)
    (hle : ∀ i, bound i ≤ bound' i) : OnAtMost bound' chip :=
  ⟨h.tame, fun i => (h.count i).trans (hle i)⟩

/-- A write, by the outputs that it may switch on. -/
theorem OnAtMost.write (h : OnAtMost bound chip) {reg value : BitVec 8} (extra : Fin 8 → Nat)
    (hpolarity : reg ≠ ipola) (hbank : reg = iocon → value.getLsbD 7 = false)
    (hextra : ∀ i : Fin 8, (chip.writeReg reg value).on.getLsbD i = true →
      chip.on.getLsbD i = false → 1 ≤ extra i) :
    OnAtMost (fun i => bound i + extra i) (chip.writeReg reg value).tick := by
  refine ⟨(h.tame.writeReg hpolarity hbank).tick, fun i => ?_⟩
  show chip.switchedOn i + (if (chip.writeReg reg value).on.getLsbD i && !chip.on.getLsbD i
    then 1 else 0) ≤ bound i + extra i
  have hcount := h.count i
  split
  · next hrise =>
      rw [Bool.and_eq_true, Bool.not_eq_true'] at hrise
      have := hextra i hrise.1 hrise.2
      omega
  · omega

/-- A write that leaves no output on that was off. -/
theorem OnAtMost.write_dark (h : OnAtMost bound chip) {reg value : BitVec 8}
    (hpolarity : reg ≠ ipola) (hbank : reg = iocon → value.getLsbD 7 = false)
    (hdark : ∀ i : Fin 8, (chip.writeReg reg value).on.getLsbD i = true →
      chip.on.getLsbD i = true) : OnAtMost bound (chip.writeReg reg value).tick := by
  apply h.write (fun _ => 0) hpolarity hbank
  intro i hon hoff
  rw [hdark i hon] at hoff
  cases hoff

theorem on_other {reg value : BitVec 8} (h : target reg ≠ olata ∧ target reg ≠ iodira) :
    (chip.writeReg reg value).on = chip.on := by
  rw [writeReg_on, on, on]
  simp only [Function.update_of_ne h.1.symm, Function.update_of_ne h.2.symm]

theorem on_output (value : BitVec 8) :
    (chip.writeReg outputPort value).on = value &&& ~~~chip.regs iodira := by
  have hlatch : Function.update chip.regs (target outputPort) value olata = value := by
    rw [show target outputPort = olata from rfl, Function.update_self]
  have hdir : Function.update chip.regs (target outputPort) value iodira = chip.regs iodira :=
    Function.update_of_ne (by decide) ..
  rw [writeReg_on, on]
  simp only [hlatch, hdir]

theorem on_directed : (chip.writeReg iodira 0).on = chip.regs olata := by
  have hlatch : Function.update chip.regs (target iodira) 0 olata = chip.regs olata :=
    Function.update_of_ne (by decide) ..
  have hdir : Function.update chip.regs (target iodira) 0 iodira = 0 := by
    rw [show target iodira = iodira from rfl, Function.update_self]
  rw [writeReg_on, on]
  simp only [hlatch, hdir]
  exact BitVec.and_allOnes

/-- A port that is read as it is shows its latch at the outputs. -/
theorem readReg_echoes (h : chip.Tame) :
    chip.readReg outputPort &&& ~~~chip.regs iodira = chip.on := by
  have hport : chip.readReg outputPort = portValue (chip.regs iodira) (chip.regs olata)
      ((chip.levels 0).setWidth 8) ^^^ chip.regs ipola := rfl
  rw [hport, h.polarity, portValue, on]
  ext i hi
  simp
  cases (chip.regs iodira)[i] <;> simp

end Chip

section Messages

variable {K : Kernel κ} {answer : List (BitVec 8) → σ → (Int × BitVec 8) × σ}
  {P E : SpiHandle → σ → Prop} {Q : BitVec 8 → SpiHandle → σ → Prop}

/-- A message, by what it does behind an open handle. -/
theorem spiTransfer_ends (tx : List (BitVec 8))
    (hopen : ∀ fd c, 0 ≤ fd → P (.live fd) c → Q (answer tx c).1.2 (.live fd) (answer tx c).2)
    (hrefused : ∀ fd rx c, fd < 0 → P (.live fd) c → Q rx (.live fd) c)
    (herror : ∀ spi c, P spi c → E spi c) :
    Ends (AtChip P)
      (spiTransfer (K.withSpi answer) tx : DrvM δ β (Env (κ × σ)) (BitVec 8))
      (fun rx => AtChip (Q rx)) (AtChip E) := by
  intro s hs
  by_cases hlive : ∃ fd, s.world.spi = .live fd
  · obtain ⟨fd, hspi⟩ := hlive
    have hP : P (.live fd) s.world.os.2 := hspi ▸ hs
    by_cases hfd : fd < 0
    · apply Ends.of_ok (spiTransfer_refused hspi hfd tx) _ s rfl
      rw [AtChip, DrvState.world_setOs, hspi]
      exact hrefused fd _ _ hfd hP
    · apply Ends.of_ok (spiTransfer_open hspi (not_lt.mp hfd) tx) _ s rfl
      rw [AtChip, DrvState.world_setOs, hspi]
      exact hopen fd _ (not_lt.mp hfd) hP
  · have hnone : ∀ fd, s.world.spi ≠ .live fd := fun fd h => hlive ⟨fd, h⟩
    obtain ⟨e, herr⟩ := spiTransfer_error (K := K) hnone tx
    rw [herr σ answer s rfl]
    constructor
    · intro rx t hok
      cases hok
    · intro e' t hraised
      obtain ⟨-, rfl⟩ := EStateM.Result.error.inj hraised
      exact herror _ _ hs

theorem syscall_atChip (f : κ → α × κ) :
    Keeps (AtChip P) (syscall (besides f) : DrvM δ β (Env (κ × σ)) α) := fun _ hs => hs

end Messages

section Piface

variable {K : Kernel κ} {bound : Fin 8 → Nat} {P Q : SpiHandle → Nat × PortChip → Prop}

theorem cut_none {tx : List (BitVec 8)} {c : Nat × PortChip} (h : c.1 = 0) :
    cut PortChip.spi tx c = ((-1, 0), c) := if_pos h

theorem cut_some {tx : List (BitVec 8)} {c : Nat × PortChip} (h : c.1 ≠ 0) :
    cut PortChip.spi tx c = ((PortChip.spi tx c.2).1, (c.1 - 1, (PortChip.spi tx c.2).2)) :=
  if_neg h

/-- A write, by what it does to the chip if it reaches it. -/
theorem spiWrite_ends (reg value : BitVec 8)
    (hreached : ∀ fd c, 0 ≤ fd → c.1 ≠ 0 → P (.live fd) c →
      Q (.live fd) (c.1 - 1, (c.2.writeReg reg value).tick))
    (hlost : ∀ spi c, (∀ fd, spi = .live fd → 0 ≤ fd → c.1 = 0) → P spi c → Q spi c)
    {E : SpiHandle → Nat × PortChip → Prop} (herror : ∀ spi c, P spi c → E spi c) :
    Ends (AtChip P)
      (spiWrite (K.withSpi (cut PortChip.spi)) reg value :
        DrvM δ β (Env (κ × (Nat × PortChip))) Unit)
      (fun _ => AtChip Q) (AtChip E) := by
  have hmessage : Ends (AtChip P)
      (spiTransfer (K.withSpi (cut PortChip.spi)) [spiWriteCmd, reg, value] :
        DrvM δ β (Env (κ × (Nat × PortChip))) (BitVec 8))
      (fun _ => AtChip Q) (AtChip E) := by
    apply spiTransfer_ends
    · intro fd c hfd hP
      by_cases hc : c.1 = 0
      · rw [cut_none hc]
        exact hlost _ c (fun _ _ _ => hc) hP
      · rw [cut_some hc, spi_write]
        exact hreached fd c hfd hc hP
    · intro fd rx c hfd hP
      refine hlost _ c (fun fd' h hfd' => ?_) hP
      have := SpiHandle.live.inj h
      omega
    · exact herror
  exact hmessage.bind fun _ => Ends.pure fun _ h => h

/-- A write of `pfio_init` that switches nothing on. -/
theorem spiWrite_dark {reg value : BitVec 8}
    (h : ∀ spi c, P spi c → OnAtMostAt bound spi c)
    (hkept : ∀ spi c, P spi c → OnAtMost bound (c.2.writeReg reg value).tick) :
    Ends (AtChip P)
      (spiWrite (K.withSpi (cut PortChip.spi)) reg value :
        DrvM δ β (Env (κ × (Nat × PortChip))) Unit)
      (fun _ => AtChip (OnAtMostAt bound)) (AtChip (OnAtMostAt bound)) :=
  spiWrite_ends reg value (fun _ c _ _ hP => hkept _ c hP) (fun _ _ _ hP => h _ _ hP) h

/-- A read of the outputs. -/
theorem pfioReadOutput_ends :
    Ends (AtChip (OnAtMostAt bound))
      (pfioReadOutput (K.withSpi (cut PortChip.spi)) :
        DrvM δ β (Env (κ × (Nat × PortChip))) (BitVec 8))
      (fun value => AtChip fun spi c => OnAtMostAt bound spi c ∧ Echoes value spi c)
      (AtChip (OnAtMostAt bound)) := by
  apply spiTransfer_ends
  · intro fd c hfd hcounted
    by_cases hc : c.1 = 0
    · rw [cut_none hc]
      exact ⟨hcounted, fun _ _ _ hn => absurd hc hn⟩
    · rw [cut_some hc, spi_read]
      exact ⟨⟨hcounted.tame.tick, hcounted.count⟩, fun _ _ _ _ => readReg_echoes hcounted.tame⟩
  · intro fd rx c hfd hcounted
    refine ⟨hcounted, fun fd' h hfd' => ?_⟩
    have := SpiHandle.live.inj h
    omega
  · exact fun _ _ h => h

/-- A write of the outputs, by those that it may switch on. -/
theorem pfioWriteOutput_ends {value : BitVec 8} (extra : Fin 8 → Nat)
    (hcounted : ∀ spi c, P spi c → OnAtMostAt bound spi c)
    (hextra : ∀ fd c, 0 ≤ fd → c.1 ≠ 0 → P (.live fd) c → ∀ i : Fin 8,
      (value &&& ~~~c.2.regs iodira).getLsbD i = true → c.2.on.getLsbD i = false → 1 ≤ extra i) :
    Ends (AtChip P)
      (pfioWriteOutput (K.withSpi (cut PortChip.spi)) value :
        DrvM δ β (Env (κ × (Nat × PortChip))) Unit)
      (fun _ => AtChip (OnAtMostAt fun i => bound i + extra i))
      (AtChip (OnAtMostAt fun i => bound i + extra i)) := by
  have hmono (spi : SpiHandle) (c : Nat × PortChip) (hP : P spi c) :
      OnAtMostAt (fun i => bound i + extra i) spi c :=
    (hcounted spi c hP).mono fun i => Nat.le_add_right _ _
  apply spiWrite_ends
  · intro fd c hfd hc hP
    apply (hcounted _ c hP).write extra (by decide) fun h => absurd h (by decide)
    intro i hon hoff
    rw [on_output] at hon
    exact hextra fd c hfd hc hP i hon hoff
  · exact fun spi c _ hP => hmono spi c hP
  · exact hmono

/-- Switching a pin off switches no other one on. -/
theorem pfioDigitalWrite_dark (pin : BitVec 8) :
    Keeps (AtChip (OnAtMostAt bound))
      (pfioDigitalWrite (K.withSpi (cut PortChip.spi)) pin 0 :
        DrvM δ β (Env (κ × (Nat × PortChip))) Unit) := by
  apply Ends.keeps
  apply pfioReadOutput_ends.bind
  intro old
  rw [if_neg (by decide)]
  apply pfioWriteOutput_ends (fun _ => 0) fun _ _ h => h.1
  rintro fd c hfd hc ⟨-, hecho⟩ i hon hoff
  rw [← hecho fd rfl hfd hc] at hoff
  simp only [BitVec.getLsbD_and, Bool.and_eq_true, Bool.and_eq_false_iff] at hon hoff
  rcases hoff with hold | hdir
  · rw [hold] at hon
    cases hon.1.1
  · rw [hdir] at hon
    cases hon.2

theorem spiQueries_atChip {a : List (BitVec 8) → σ → (Int × BitVec 8) × σ}
    {P : SpiHandle → σ → Prop} (fd : Int) (queries : List SpiQuery) :
    Keeps (AtChip P) (spiQueries (K.withSpi a) fd queries : DrvM δ β (Env (κ × σ)) Bool) := by
  induction queries with
  | nil => exact Keeps.pure _
  | cons query rest ih =>
      apply (syscall_atChip (K.spiQuery fd query)).bind
      intro rc
      exact Keeps.ite (Keeps.pure _) ih

/-- Nothing goes on while the ports are set up: the outputs have been switched off before
they become outputs. -/
theorem pfioSetUp_dark :
    Keeps (AtChip (OnAtMostAt bound))
      (do
        spiWrite (K.withSpi (cut PortChip.spi)) iocon 8
        spiWrite (K.withSpi (cut PortChip.spi)) gpioa 0x00
        spiWrite (K.withSpi (cut PortChip.spi)) iodira 0
        spiWrite (K.withSpi (cut PortChip.spi)) iodirb 0xFF
        spiWrite (K.withSpi (cut PortChip.spi)) gppub 0xFF :
          DrvM δ β (Env (κ × (Nat × PortChip))) Unit) := by
  have hother {reg value : BitVec 8} (htarget : target reg ≠ olata ∧ target reg ≠ iodira)
      (hpolarity : reg ≠ ipola) (hbank : reg = iocon → value.getLsbD 7 = false) :
      Ends (AtChip (OnAtMostAt bound))
        (spiWrite (K.withSpi (cut PortChip.spi)) reg value :
          DrvM δ β (Env (κ × (Nat × PortChip))) Unit)
        (fun _ => AtChip (OnAtMostAt bound)) (AtChip (OnAtMostAt bound)) := by
    apply spiWrite_dark (fun _ _ h => h)
    intro spi c h
    apply h.write_dark hpolarity hbank
    intro i hon
    rwa [on_other htarget] at hon
  apply Ends.keeps
  apply (hother (by decide) (by decide) fun _ => by decide).bind
  intro _
  refine Ends.bind (Q := fun _ => AtChip fun spi c => OnAtMostAt bound spi c ∧
    ∀ fd, spi = .live fd → 0 ≤ fd → c.1 ≠ 0 → c.2.regs olata = 0)
    (spiWrite_ends gpioa 0x00 ?_ ?_ fun _ _ h => h) fun _ => ?_
  · intro fd c hfd hc h
    refine ⟨?_, fun _ _ _ _ => ?_⟩
    · apply OnAtMost.write_dark h (by decide) fun h => absurd h (by decide)
      intro i hon
      rw [show gpioa = outputPort from rfl, on_output] at hon
      simp at hon
    · exact Function.update_self olata 0x00 c.2.regs
  · intro spi c hlost h
    exact ⟨h, fun fd hspi hfd hn => absurd (hlost fd hspi hfd) hn⟩
  · refine Ends.bind (Q := fun _ => AtChip (OnAtMostAt bound))
      (spiWrite_ends iodira 0 ?_ (fun _ _ _ h => h.1) fun _ _ h => h.1) fun _ => ?_
    · rintro fd c hfd hc ⟨h, hcleared⟩
      apply OnAtMost.write_dark h (by decide) fun h => absurd h (by decide)
      intro i hon
      rw [on_directed, hcleared fd rfl hfd hc] at hon
      simp at hon
    · apply (hother (by decide) (by decide) fun h => absurd h (by decide)).bind
      intro _
      exact hother (by decide) (by decide) fun h => absurd h (by decide)

/-- `pfio_init` switches nothing on, wherever it is cut short. -/
theorem pfioInit_dark :
    Keeps (AtChip (OnAtMostAt bound))
      (pfioInit (K.withSpi (cut PortChip.spi)) : DrvM δ β (Env (κ × (Nat × PortChip))) Int) := by
  have hset (p : SpiHandle) : Keeps (AtChip (OnAtMostAt bound))
      (setSpi p : DrvM δ β (Env (κ × (Nat × PortChip))) Unit) := Keeps.modified fun _ h => h
  apply (syscall_atChip K.malloc).bind
  intro granted
  apply Keeps.ite
  · apply (syscall_atChip (K.openFile devicePath)).bind
    intro fd
    apply (hset (.live fd)).bind
    intro _
    refine Keeps.ite (Keeps.pure _) ((spiQueries_atChip fd _).bind fun ok => ?_)
    refine Keeps.ite ?_ (Keeps.pure _)
    have hpins := Keeps.forIn [1, 2, 3, 4, 5, 6, 7, 8] fun i =>
      (pfioDigitalWrite_dark i : Keeps (AtChip (OnAtMostAt bound))
        (pfioDigitalWrite (K.withSpi (cut PortChip.spi)) i 0 :
          DrvM δ β (Env (κ × (Nat × PortChip))) Unit))
    have hrest := (pfioSetUp_dark (K := K)).bind fun _ => hpins.bind fun _ =>
      Keeps.pure (0 : Int)
    simp only [bind_assoc] at hrest
    exact hrest
  · exact (hset .null).bind fun _ => Keeps.pure _

theorem pfioDeinit_dark :
    Keeps (AtChip (OnAtMostAt bound))
      (pfioDeinit (K.withSpi (cut PortChip.spi)) : DrvM δ β (Env (κ × (Nat × PortChip))) Int) := by
  have hfd : Keeps (AtChip (OnAtMostAt bound))
      (spiFd : DrvM δ β (Env (κ × (Nat × PortChip))) Int) := by
    refine Keeps.get.bind fun s => ?_
    cases s.world.spi with
    | null => exact Keeps.throw _
    | live fd => exact Keeps.pure fd
    | freed => exact Keeps.throw _
  apply hfd.bind
  intro fd
  apply (syscall_atChip (K.closeFile fd)).bind
  intro _
  have hset : Keeps (AtChip (OnAtMostAt bound))
      (setSpi .freed : DrvM δ β (Env (κ × (Nat × PortChip))) Unit) := Keeps.modified fun _ h => h
  exact hset.bind fun _ => Keeps.pure _

end Piface

section I2c

variable {K : Kernel κ} {P : SpiHandle → σ → Prop}
  {a : List (BitVec 8) → σ → (Int × BitVec 8) × σ}

/-- What does the same whatever is behind the spidev does nothing there. -/
theorem keeps_atChip {m : DrvM δ β (Env (κ × σ)) α}
    (h : Parallel (DrvAlike (Beside fun spi c c' => c' = c ∧ P spi c)) m m) :
    Keeps (AtChip P) m :=
  h.keeps (fun _ hs => ⟨rfl, rfl, rfl, rfl, rfl, hs⟩) fun _ _ hst => hst.world.chips.2

theorem i2cDrv_atChip {handle : DevHandle} (hi2c : handle ≠ .piface) (cbError : CbError β)
    (bus : IoBus BusHandle) (value : Value) :
    Keeps (AtChip P) ((devDrv (K.withSpi a) handle).read cbError bus value) ∧
      Keeps (AtChip P) ((devDrv (K.withSpi a) handle).write cbError bus value) := by
  cases handle with
  | pcf8574 =>
      exact ⟨keeps_atChip (pcf8574_parallel cbError bus value).1,
        keeps_atChip (pcf8574_parallel cbError bus value).2⟩
  | mcp23017 =>
      exact ⟨keeps_atChip (mcp23017_parallel cbError bus value).1,
        keeps_atChip (mcp23017_parallel cbError bus value).2⟩
  | piface => exact absurd rfl hi2c

end I2c

end Switcher
