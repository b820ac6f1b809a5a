import Switcher.Hardware.PortChip

/-!
The PiFace driver over the registers of its chip and over a latch. They are alike from
`pfio_init` on, which does not read the chip before it has set it up.
-/

namespace Switcher

open Lib.Program Pfio PortChip

variable {ω δ β κ σ σ' : Type}

/-- An open spidev can be asked for its settings. -/
def Kernel.Queryable (K : Kernel κ) : Prop :=
  ∀ fd query os, 0 ≤ fd → 0 ≤ (K.spiQuery fd query os).1

/-- As long as the handle is open, the chip is set up and its port shows the latch. -/
def ShowsLatch (spi : SpiHandle) (chip : PortChip) (latch : Latch) : Prop :=
  chip.Tame ∧ ∀ fd, spi = .live fd → 0 ≤ fd → chip.SetUp ∧ latch.value = chip.regs olata

/-- In the midst of `pfio_init`, where the handle is open. -/
def WhileOpen (P : σ → σ' → Prop) (spi : SpiHandle) (c : σ) (c' : σ') : Prop :=
  (∃ fd, spi = .live fd ∧ 0 ≤ fd) ∧ P c c'

section Messages

variable {K : Kernel κ} {a : List (BitVec 8) → σ → (Int × BitVec 8) × σ}
  {a' : List (BitVec 8) → σ' → (Int × BitVec 8) × σ'} {fd : Int}
  {s : DrvState δ β (Env (κ × σ))}

theorem spiTransfer_open (hspi : s.world.spi = .live fd) (hfd : 0 ≤ fd) (tx : List (BitVec 8)) :
    spiTransfer (K.withSpi a) tx s =
      .ok (a tx s.world.os.2).1.2 (s.setOs (s.world.os.1, (a tx s.world.os.2).2)) := by
  have hnot : ¬ fd < 0 := by omega
  simp only [spiTransfer, spiFd, run_bind, run_get, run_pure, hspi, syscall_run, Kernel.withSpi,
    if_neg hnot]

theorem spiTransfer_refused (hspi : s.world.spi = .live fd) (hfd : fd < 0)
    (tx : List (BitVec 8)) :
    spiTransfer (K.withSpi a) tx s = .ok (K.spiMessage fd tx s.world.os.1).1.2
      (s.setOs ((K.spiMessage fd tx s.world.os.1).2, s.world.os.2)) := by
  simp only [spiTransfer, spiFd, run_bind, run_get, run_pure, hspi, syscall_run, Kernel.withSpi,
    if_pos hfd, besides]

theorem spiTransfer_error (hspi : ∀ fd, s.world.spi ≠ .live fd) (tx : List (BitVec 8)) :
    ∃ e, ∀ (τ : Type) (b : List (BitVec 8) → τ → (Int × BitVec 8) × τ)
      (u : DrvState δ β (Env (κ × τ))), u.world.spi = s.world.spi →
      spiTransfer (K.withSpi b) tx u = .error e u := by
  cases hcase : s.world.spi with
  | null =>
      refine ⟨.nullDeref, fun τ b u hu => ?_⟩
      simp only [spiTransfer, spiFd, run_bind, run_get, hu]
      rfl
  | freed =>
      refine ⟨.useAfterFree, fun τ b u hu => ?_⟩
      simp only [spiTransfer, spiFd, run_bind, run_get, hu]
      rfl
  | live fd => exact absurd hcase (hspi fd)

variable {S T E : SpiHandle → σ → σ' → Prop}

/-- A message, by what it does behind an open handle. -/
theorem spiTransfer_mirrors (tx : List (BitVec 8))
    (hopen : ∀ fd c c', 0 ≤ fd → S (.live fd) c c' →
      (a tx c).1.2 = (a' tx c').1.2 ∧ T (.live fd) (a tx c).2 (a' tx c').2)
    (hrefused : ∀ fd c c', fd < 0 → S (.live fd) c c' → T (.live fd) c c')
    (herror : ∀ spi c c', (∀ fd, spi ≠ .live fd) → S spi c c' → E spi c c') :
    Mirrors (DrvAlike (Beside S))
      (spiTransfer (K.withSpi a) tx : DrvM δ β (Env (κ × σ)) (BitVec 8))
      (spiTransfer (K.withSpi a') tx) (DrvAlike (Beside T)) (DrvAlike (Beside E)) := by
  intro s t hst
  by_cases hlive : ∃ fd, s.world.spi = .live fd
  · obtain ⟨fd, hspi⟩ := hlive
    have hspi' : t.world.spi = .live fd := hst.world.spi.trans hspi
    have hchips : S (.live fd) s.world.os.2 t.world.os.2 := hspi ▸ hst.world.chips
    by_cases hfd : fd < 0
    · rw [spiTransfer_refused hspi hfd, spiTransfer_refused hspi' hfd, hst.world.os]
      refine .ok ⟨hst.dev, hst.buf, hst.world.spi, rfl, ?_⟩
      rw [DrvState.world_setOs, hspi]
      exact hrefused fd _ _ hfd hchips
    · obtain ⟨hrx, hnext⟩ := hopen fd _ _ (not_lt.mp hfd) hchips
      rw [spiTransfer_open hspi (not_lt.mp hfd), spiTransfer_open hspi' (not_lt.mp hfd), hrx]
      refine .ok ⟨hst.dev, hst.buf, hst.world.spi, hst.world.os, ?_⟩
      rw [DrvState.world_setOs, hspi]
      exact hnext
  · have hnone : ∀ fd, s.world.spi ≠ .live fd := fun fd h => hlive ⟨fd, h⟩
    obtain ⟨e, herr⟩ := spiTransfer_error (K := K) hnone tx
    rw [herr σ a s rfl, herr σ' a' t hst.world.spi]
    exact .error ⟨hst.dev, hst.buf, hst.world.spi, hst.world.os,
      herror _ _ _ hnone hst.world.chips⟩

end Messages

section Piface

variable {K : Kernel κ}

theorem spi_latch_write (value : BitVec 8) (latch : Latch) :
    Latch.spi [spiWriteCmd, outputPort, value] latch = ((3, 0), { latch with value := value }) :=
  rfl

theorem spi_latch_read (value : BitVec 8) (latch : Latch) :
    Latch.spi [spiReadCmd, outputPort, value] latch = ((3, latch.value), latch) := rfl

theorem spi_latch_other {port : BitVec 8} (hport : port ≠ outputPort) (value : BitVec 8)
    (latch : Latch) : (Latch.spi [spiWriteCmd, port, value] latch).2 = latch := by
  simp [Latch.spi, hport]

/-- A message that keeps the chip and the latch alike. -/
theorem spiTransfer_alike (tx : List (BitVec 8))
    (h : ∀ chip latch, chip.SetUp → latch.value = chip.regs olata →
      (PortChip.spi tx chip).1.2 = (Latch.spi tx latch).1.2 ∧ (PortChip.spi tx chip).2.SetUp ∧
        (Latch.spi tx latch).2.value = (PortChip.spi tx chip).2.regs olata) :
    Parallel (DrvAlike (Beside ShowsLatch))
      (spiTransfer (K.withSpi PortChip.spi) tx : DrvM δ β (Env (κ × PortChip)) _)
      (spiTransfer (K.withSpi Latch.spi) tx) := by
  refine spiTransfer_mirrors tx ?_ (fun _ _ _ _ h => h) (fun _ _ _ _ h => h)
  rintro fd chip latch hfd ⟨-, hshows⟩
  obtain ⟨hsetUp, hlatch⟩ := hshows fd rfl hfd
  obtain ⟨hrx, hsetUp', hlatch'⟩ := h chip latch hsetUp hlatch
  exact ⟨hrx, hsetUp'.tame, fun _ _ _ => ⟨hsetUp', hlatch'⟩⟩

theorem pfioReadOutput_alike :
    Parallel (DrvAlike (Beside ShowsLatch))
      (pfioReadOutput (K.withSpi PortChip.spi) : DrvM δ β (Env (κ × PortChip)) _)
      (pfioReadOutput (K.withSpi Latch.spi)) := by
  apply spiTransfer_alike
  intro chip latch hsetUp hlatch
  rw [spi_read, spi_latch_read]
  exact ⟨hsetUp.readReg.trans hlatch.symm, hsetUp.tick, hlatch⟩

theorem pfioWriteOutput_alike (value : BitVec 8) :
    Parallel (DrvAlike (Beside ShowsLatch))
      (pfioWriteOutput (K.withSpi PortChip.spi) value : DrvM δ β (Env (κ × PortChip)) _)
      (pfioWriteOutput (K.withSpi Latch.spi) value) := by
  have hmessage := spiTransfer_alike (δ := δ) (β := β) (K := K) [spiWriteCmd, outputPort, value] ?_
  · exact hmessage.bind fun _ => Parallel.pure _
  · intro chip latch hsetUp hlatch
    obtain ⟨hsetUp', hwritten⟩ := hsetUp.writeOutput value
    rw [spi_write, spi_latch_write]
    exact ⟨rfl, hsetUp'.tick, hwritten.symm⟩

theorem pfioDigitalWrite_alike (pin value : BitVec 8) :
    Parallel (DrvAlike (Beside ShowsLatch))
      (pfioDigitalWrite (K.withSpi PortChip.spi) pin value : DrvM δ β (Env (κ × PortChip)) _)
      (pfioDigitalWrite (K.withSpi Latch.spi) pin value) :=
  pfioReadOutput_alike.bind fun _ => pfioWriteOutput_alike _

/-- A write of `pfio_init`, by what it does to the chip and to the latch. -/
theorem spiWrite_whileOpen {P Q : PortChip → Latch → Prop} {E : SpiHandle → PortChip → Latch → Prop}
    (port value : BitVec 8)
    (h : ∀ chip latch, P chip latch → Q (chip.writeReg port value).tick
      (Latch.spi [spiWriteCmd, port, value] latch).2) :
    Mirrors (DrvAlike (Beside (WhileOpen P)))
      (spiWrite (K.withSpi PortChip.spi) port value : DrvM δ β (Env (κ × PortChip)) _)
      (spiWrite (K.withSpi Latch.spi) port value) (DrvAlike (Beside (WhileOpen Q)))
      (DrvAlike (Beside E)) := by
  have hmessage : Mirrors (DrvAlike (Beside (WhileOpen P)))
      (spiTransfer (K.withSpi PortChip.spi) [spiWriteCmd, port, value] :
        DrvM δ β (Env (κ × PortChip)) _)
      (spiTransfer (K.withSpi Latch.spi) [spiWriteCmd, port, value])
      (DrvAlike (Beside (WhileOpen Q))) (DrvAlike (Beside E)) := by
    apply spiTransfer_mirrors
    · rintro fd chip latch hfd ⟨-, hP⟩
      refine ⟨?_, ⟨fd, rfl, hfd⟩, h chip latch hP⟩
      by_cases hport : port = outputPort
      · subst hport
        rfl
      · simp [spi_write, Latch.spi, hport]
    · rintro fd chip latch hfd ⟨⟨fd', hlive, hfd'⟩, -⟩
      have := SpiHandle.live.inj hlive
      omega
    · rintro spi chip latch hnone ⟨⟨fd, hlive, -⟩, -⟩
      exact absurd hlive (hnone fd)
  exact hmessage.bind fun _ => Mirrors.pure _ fun _ _ h => h

/-- The queries of an open handle change nothing but the kernel's own state. -/
theorem spiQueries_open {a : List (BitVec 8) → σ → (Int × BitVec 8) × σ} (hK : K.Queryable)
    {fd : Int} (hfd : 0 ≤ fd) (queries : List SpiQuery) (s : DrvState δ β (Env (κ × σ))) :
    spiQueries (K.withSpi a) fd queries s = .ok true
      (s.setOs (queries.foldl (fun os query => (K.spiQuery fd query os).2) s.world.os.1,
        s.world.os.2)) := by
  induction queries generalizing s with
  | nil => rfl
  | cons query rest ih =>
      have hrc : ¬ (K.spiQuery fd query s.world.os.1).1 < 0 := not_lt.mpr (hK fd query _ hfd)
      rw [spiQueries, bind_of_ok (syscall_run _ s)]
      exact (congrFun (if_neg hrc) _).trans (ih _)

/-- In the midst of the set-up, where these registers have their values. -/
structure HalfSetUp (known : List (BitVec 8 × BitVec 8)) (chip : PortChip) (latch : Latch) :
    Prop where
  tame : chip.Tame
  latch : latch.value = chip.regs olata
  regs : ∀ entry ∈ known, chip.regs entry.1 = entry.2

/-- Another register is set up. -/
theorem HalfSetUp.write {known : List (BitVec 8 × BitVec 8)} {chip : PortChip} {latch : Latch}
    (h : HalfSetUp known chip latch) {reg value : BitVec 8} (hreg : target reg = reg)
    (hspecial : reg ≠ ipola ∧ reg ≠ iocon ∧ reg ≠ olata)
    (hfresh : reg ∉ known.map Prod.fst) :
    HalfSetUp ((reg, value) :: known) (chip.writeReg reg value).tick
      (Latch.spi [spiWriteCmd, reg, value] latch).2 := by
  have hport : reg ≠ outputPort := by
    rintro rfl
    exact absurd hreg (by decide)
  have hregs : (chip.writeReg reg value).tick.regs = Function.update chip.regs reg value := by
    show Function.update chip.regs (target reg) value = _
    rw [hreg]
  refine ⟨(h.tame.writeReg hspecial.1 fun heq => absurd heq hspecial.2.1).tick, ?_, ?_⟩
  · rw [spi_latch_other hport, h.latch, hregs, Function.update_of_ne hspecial.2.2.symm]
  · intro entry hentry
    rw [hregs]
    rcases List.mem_cons.mp hentry with rfl | hknown
    · exact Function.update_self ..
    · have hne : entry.1 ≠ reg := by
        rintro rfl
        exact hfresh (List.mem_map_of_mem hknown)
      rw [Function.update_of_ne hne]
      exact h.regs entry hknown

/-- What `pfio_init` does to an open handle makes the chip show the latch. -/
theorem pfioSetUp_alike {E : SpiHandle → PortChip → Latch → Prop} :
    Mirrors (DrvAlike (Beside (WhileOpen fun chip _ => chip.Tame)))
      (do
        spiWrite (K.withSpi PortChip.spi) iocon 8
        spiWrite (K.withSpi PortChip.spi) gpioa 0x00
        spiWrite (K.withSpi PortChip.spi) iodira 0
        spiWrite (K.withSpi PortChip.spi) iodirb 0xFF
        spiWrite (K.withSpi PortChip.spi) gppub 0xFF : DrvM δ β (Env (κ × PortChip)) Unit)
      (do
        spiWrite (K.withSpi Latch.spi) iocon 8
        spiWrite (K.withSpi Latch.spi) gpioa 0x00
        spiWrite (K.withSpi Latch.spi) iodira 0
        spiWrite (K.withSpi Latch.spi) iodirb 0xFF
        spiWrite (K.withSpi Latch.spi) gppub 0xFF)
      (DrvAlike (Beside ShowsLatch)) (DrvAlike (Beside E)) := by
  apply Mirrors.bind (spiWrite_whileOpen (Q := fun chip _ => chip.Tame) iocon 8 ?_)
  · intro _
    apply Mirrors.bind (spiWrite_whileOpen (Q := HalfSetUp []) gpioa 0x00 ?_)
    · intro _
      apply Mirrors.bind (spiWrite_whileOpen (Q := HalfSetUp [(iodira, 0)]) iodira 0 ?_)
      · intro _
        apply Mirrors.bind
          (spiWrite_whileOpen (Q := HalfSetUp [(iodirb, 0xFF), (iodira, 0)]) iodirb 0xFF ?_)
        · intro _
          refine Mirrors.imp (spiWrite_whileOpen
            (Q := HalfSetUp [(gppub, 0xFF), (iodirb, 0xFF), (iodira, 0)]) gppub 0xFF ?_)
            (fun _ _ h => h) ?_ (fun _ _ h => h)
          · exact fun chip latch h => h.write rfl (by decide) (by decide)
          · rintro s t ⟨hdev, hbuf, hspi, hos, -, h⟩
            refine ⟨hdev, hbuf, hspi, hos, h.tame, fun _ _ _ => ⟨⟨h.tame, ?_, ?_, ?_⟩, h.latch⟩⟩
            · exact h.regs (iodira, 0) (by simp)
            · exact h.regs (iodirb, 0xFF) (by simp)
            · exact h.regs (gppub, 0xFF) (by simp)
        · exact fun chip latch h => h.write rfl (by decide) (by decide)
      · exact fun chip latch h => h.write rfl (by decide) (by decide)
    · intro chip latch h
      have hwritten : (chip.writeReg gpioa 0x00).tick.regs olata = 0x00 :=
        Function.update_self olata 0x00 chip.regs
      exact ⟨(h.writeReg (by decide) fun heq => absurd heq (by decide)).tick, hwritten.symm,
        by simp⟩
  · exact fun chip latch h => (h.writeReg (by decide) fun _ => by decide).tick

theorem setSpi_mirrors {S T : SpiHandle → σ → σ' → Prop} {E : DrvState δ β (Env (κ × σ)) →
      DrvState δ β (Env (κ × σ')) → Prop} (p : SpiHandle)
    (h : ∀ spi c c', S spi c c' → T p c c') :
    Mirrors (DrvAlike (Beside S)) (setSpi p : DrvM δ β (Env (κ × σ)) Unit) (setSpi p)
      (DrvAlike (Beside T)) E := by
  apply Mirrors.modified
  intro s t hst
  exact ⟨hst.dev, hst.buf, rfl, hst.world.os, h _ _ _ hst.world.chips⟩

theorem pfioInit_alike (hK : K.Queryable) :
    Parallel (DrvAlike (Beside ShowsLatch))
      (pfioInit (K.withSpi PortChip.spi) : DrvM δ β (Env (κ × PortChip)) Int)
      (pfioInit (K.withSpi Latch.spi)) := by
  apply Parallel.bind (syscall_parallel K.malloc)
  intro granted
  apply Mirrors.ite
  · apply Parallel.bind (syscall_parallel (K.openFile devicePath))
    intro fd
    by_cases hfd : fd < 0
    · have hnot : ∀ spi chip latch, ShowsLatch spi chip latch →
          ShowsLatch (.live fd) chip latch := by
        rintro spi chip latch ⟨htame, -⟩
        refine ⟨htame, fun fd' h hfd' => ?_⟩
        have := SpiHandle.live.inj h
        omega
      apply Mirrors.bind (setSpi_mirrors (.live fd) hnot)
      intro _
      rw [if_pos hfd, if_pos hfd]
      exact Parallel.pure _
    · have hopen : ∀ spi chip latch, ShowsLatch spi chip latch →
          (WhileOpen fun chip _ => chip.Tame) (.live fd) chip latch :=
        fun spi chip latch h => ⟨⟨fd, rfl, not_lt.mp hfd⟩, h.1⟩
      apply Mirrors.bind (setSpi_mirrors (.live fd) hopen)
      intro _
      rw [if_neg hfd, if_neg hfd]
      intro s t hst
      rw [bind_of_ok (spiQueries_open hK (not_lt.mp hfd) _ s),
        bind_of_ok (spiQueries_open hK (not_lt.mp hfd) _ t), if_pos rfl, if_pos rfl]
      have hpins := Parallel.forIn [1, 2, 3, 4, 5, 6, 7, 8] fun i =>
        pfioDigitalWrite_alike (δ := δ) (β := β) (K := K) i 0
      have hrest := (pfioSetUp_alike (K := K)).bind fun _ => hpins.bind fun _ =>
        Parallel.pure (0 : Int)
      simp only [bind_assoc] at hrest
      apply hrest
      refine ⟨hst.dev, hst.buf, hst.world.spi, ?_, hst.world.chips⟩
      simp only [DrvState.world_setOs, hst.world.os]
  · have hnull : ∀ spi chip latch, ShowsLatch spi chip latch → ShowsLatch .null chip latch :=
      fun spi chip latch h => ⟨h.1, fun fd hlive => nomatch hlive⟩
    apply Mirrors.bind (setSpi_mirrors .null hnull)
    intro _
    exact Parallel.pure _

theorem pfioDeinit_alike :
    Parallel (DrvAlike (Beside ShowsLatch))
      (pfioDeinit (K.withSpi PortChip.spi) : DrvM δ β (Env (κ × PortChip)) Int)
      (pfioDeinit (K.withSpi Latch.spi)) := by
  have hfreed : ∀ spi chip latch, ShowsLatch spi chip latch → ShowsLatch .freed chip latch :=
    fun spi chip latch h => ⟨h.1, fun fd hlive => nomatch hlive⟩
  have hfd : Parallel (DrvAlike (Beside ShowsLatch)) (spiFd : DrvM δ β (Env (κ × PortChip)) Int)
      (spiFd : DrvM δ β (Env (κ × Latch)) Int) := by
    apply Mirrors.read_bind
    intro s t hst
    rw [hst.world.spi]
    cases s.world.spi with
    | null => exact Parallel.throw _
    | live fd => exact Parallel.pure fd
    | freed => exact Parallel.throw _
  apply hfd.bind
  intro fd
  apply Parallel.bind (syscall_parallel (K.closeFile fd))
  intro _
  apply Mirrors.bind (setSpi_mirrors .freed hfreed)
  intro _
  exact Parallel.pure _

end Piface

end Switcher
