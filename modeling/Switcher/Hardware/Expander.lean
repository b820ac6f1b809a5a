import Switcher.Hardware.Locality
import Switcher.Lib.Bits

/-!
The MCP23017 as its data sheet has it, with `IOCON.BANK` clear: a file of
registers of which `GPIOA` and `GPIOB` show the output latch at output pins and
the level applied from outside at input pins.
-/

namespace Switcher

open Lib.Program Mcp23017

/-- What becomes of a transfer: it succeeds, or it fails before or after it took
effect in the chip. -/
inductive Fate where
  | done | lost | applied
  deriving DecidableEq, Repr

/-- `fates n` and `levels n` are what the `n`-th transfer from now on meets:
its fate, and the levels outside the pins of port A (low byte) and port B. -/
structure Expander where
  regs : BitVec 8 → BitVec 8
  fates : Nat → Fate
  levels : Nat → BitVec 16

/-- A port as seen by a read: `dir` selects between level and latch, bit by bit. -/
def portValue (dir latch level : BitVec 8) : BitVec 8 :=
  (level &&& dir) ||| (latch &&& ~~~dir)

def Expander.readReg (x : Expander) (reg : BitVec 8) : BitVec 8 :=
  if reg = gpioa then
    portValue (x.regs iodira) (x.regs olata) ((x.levels 0).setWidth 8)
  else if reg = gpiob then
    portValue (x.regs iodirb) (x.regs olatb) (((x.levels 0) >>> 8).setWidth 8)
  else
    x.regs reg

def Expander.writeReg (x : Expander) (reg value : BitVec 8) : Expander :=
  { x with regs := Function.update x.regs reg value }

def Expander.tick (x : Expander) : Expander :=
  { x with fates := fun n => x.fates (n + 1), levels := fun n => x.levels (n + 1) }

/-- The register transfers of the driver. It never writes a `GPIO` register, and
issues no transfer without a register. -/
def Expander.i2c (x : Expander) (args : Smbus) : (Int × BitVec 8) × Expander :=
  match args, x.fates 0 with
  | .readByteData reg, .done => ((0, x.readReg reg), x.tick)
  | .writeByteData reg value, .done => ((0, 0), (x.writeReg reg value).tick)
  | .writeByteData reg value, .applied => ((-1, 0), (x.writeReg reg value).tick)
  | _, _ => ((-1, 0), x.tick)

/-- A board of expanders; nothing answers on SPI. -/
def expanders : Population ChipId Expander where
  i2cAt := .i2c
  spiAt := .spi
  i2c _ args x := x.i2c args
  spi _ x := ((-1, 0), x)

/-- Both direction registers are as the driver leaves them for `state`. -/
def Expander.Directed (x : Expander) : Mcp23017IoState → Prop
  | .none => True
  | .read => x.regs iodira = 0xFF ∧ x.regs iodirb = 0xFF
  | .write => x.regs iodira = 0x00 ∧ x.regs iodirb = 0x00

/-- The driver's cache is right about the chip. -/
def NotStale {δ : Type} (dev : IoDev δ) (x : Expander) : Prop :=
  ∀ data, dev.devData = some data → x.Directed data.ioState

theorem Expander.write_regs (x : Expander) (reg value : BitVec 8) :
    ((x.i2c (.writeByteData reg value)).1.1 = 0 →
      (x.i2c (.writeByteData reg value)).2.regs = Function.update x.regs reg value) ∧
    ((x.i2c (.writeByteData reg value)).2.regs = x.regs ∨
      (x.i2c (.writeByteData reg value)).2.regs = Function.update x.regs reg value) := by
  cases hfate : x.fates 0 with
  | done => simp [Expander.i2c, hfate, Expander.tick, Expander.writeReg]
  | lost => simp [Expander.i2c, hfate, Expander.tick]
  | applied => simp [Expander.i2c, hfate, Expander.tick, Expander.writeReg]

theorem Expander.read_regs (x : Expander) (reg : BitVec 8) :
    (x.i2c (.readByteData reg)).2.regs = x.regs := by
  cases hfate : x.fates 0 <;> simp [Expander.i2c, hfate, Expander.tick]

/-- The transfer may change this register. -/
def Smbus.Writes (args : Smbus) (reg : BitVec 8) : Prop :=
  ∃ value, args = .writeByteData reg value

theorem Expander.i2c_reg (x : Expander) {args : Smbus} {reg : BitVec 8}
    (hkeeps : ¬ args.Writes reg) : (x.i2c args).2.regs reg = x.regs reg := by
  cases args with
  | readByte => rfl
  | writeByte value => rfl
  | readByteData other => rw [x.read_regs]
  | writeByteData other value =>
      have hne : reg ≠ other := by
        rintro rfl
        exact hkeeps ⟨value, rfl⟩
      rcases (x.write_regs other value).2 with hregs | hregs
      · rw [hregs]
      · rw [hregs, Function.update_of_ne hne]

theorem Expander.i2c_levels (x : Expander) (args : Smbus) (n : Nat) :
    (x.i2c args).2.levels n = x.levels (n + 1) := by
  cases args <;> cases hfate : x.fates 0 <;>
    simp [Expander.i2c, hfate, Expander.tick, Expander.writeReg]

theorem Expander.read_value (x : Expander) {reg : BitVec 8}
    (hok : (x.i2c (.readByteData reg)).1.1 = 0) :
    (x.i2c (.readByteData reg)).1.2 = x.readReg reg := by
  cases hfate : x.fates 0 with
  | done => simp [Expander.i2c, hfate]
  | lost => simp [Expander.i2c, hfate] at hok
  | applied => simp [Expander.i2c, hfate] at hok

theorem Expander.Directed.of_regs {x y : Expander} {state : Mcp23017IoState}
    (h : x.Directed state) (ha : y.regs iodira = x.regs iodira)
    (hb : y.regs iodirb = x.regs iodirb) : y.Directed state := by
  cases state with
  | none => trivial
  | read => exact ⟨ha.trans h.1, hb.trans h.2⟩
  | write => exact ⟨ha.trans h.1, hb.trans h.2⟩

/-- The output latch of both ports, port A in the low byte. -/
def Expander.latch (x : Expander) : BitVec 16 :=
  x.regs olatb ++ x.regs olata

/-- What two reads find outside the pins of port A and then port B, if the first
is the `n`-th transfer from now on. -/
def Expander.outside (x : Expander) (n : Nat) : BitVec 16 :=
  ((x.levels (n + 1)) >>> 8).setWidth 8 ++ (x.levels n).setWidth 8

/-- What the next read by the driver samples: it turns the pins to inputs first,
unless they are. -/
def Expander.sampled (x : Expander) (cached : Mcp23017IoState) : BitVec 16 :=
  x.outside (if cached = .read then 0 else 2)

/-- The chip answers two reads of its ports with `a` and `b`. -/
def Expander.Answers (x : Expander) (a b : BitVec 8) (z : Expander) : Prop :=
  ∃ y, x.i2c (.readByteData gpioa) = ((0, a), y) ∧ y.i2c (.readByteData gpiob) = ((0, b), z)

theorem Expander.Answers.regs {x z : Expander} {a b : BitVec 8} (h : x.Answers a b z) :
    z.regs = x.regs := by
  obtain ⟨y, ha, hb⟩ := h
  have hy := x.read_regs gpioa
  have hz := y.read_regs gpiob
  rw [ha] at hy
  rw [hb] at hz
  exact hz.trans hy

/-- The chip once these transfers have reached it. -/
def Expander.afterAll (x : Expander) (plan : List Smbus) : Expander :=
  plan.foldl (fun y args => (y.i2c args).2) x

/-- The chip in front of the transfers that need its pins as `desiredState` has them:
the driver turns them first, unless its cache says that they are. -/
def Expander.turned (x : Expander) (cached desiredState : Mcp23017IoState) : Expander :=
  if cached = desiredState then x else x.afterAll (directionPlan desiredState)

theorem Expander.afterAll_levels (x : Expander) (plan : List Smbus) (n : Nat) :
    (x.afterAll plan).levels n = x.levels (n + plan.length) := by
  induction plan generalizing x with
  | nil => rfl
  | cons args rest ih =>
      have hrest := ih (x.i2c args).2
      rw [x.i2c_levels] at hrest
      exact hrest

theorem Expander.turned_levels (x : Expander) (cached desiredState : Mcp23017IoState) (n : Nat) :
    (x.turned cached desiredState).levels n =
      x.levels (n + if cached = desiredState then 0 else 2) := by
  unfold Expander.turned
  split
  · rfl
  · exact x.afterAll_levels _ n

section Alone

variable {ω δ β : Type} {chip : ChipId} {fh : Int} {address : BitVec 8} {cbError : CbError β}
  {s : DrvState δ β (Env Expander)} {state : Mcp23017IoState}

theorem exchange_expander (args : Smbus) :
    exchange (expanders.chipKernel chip) cbError fh address args s =
      ((s.world.os.i2c args).1, s.setOs (s.world.os.i2c args).2) := rfl

theorem exchanges_reg {plan : List Smbus} {reg : BitVec 8}
    (hplan : ∀ args ∈ plan, ¬ args.Writes reg) :
    (exchanges (expanders.chipKernel chip) cbError fh address plan s).2.world.os.regs reg =
      s.world.os.regs reg := by
  induction plan generalizing s with
  | nil => rfl
  | cons args rest ih =>
      have hnext := s.world.os.i2c_reg (hplan args (by simp))
      by_cases hok : (exchange (expanders.chipKernel chip) cbError fh address args s).1.1 = 0
      · rw [exchanges_cons_of_ok _ hok, exchange_expander,
          ih fun a ha => hplan a (List.mem_cons_of_mem _ ha)]
        exact hnext
      · rw [exchanges_cons_of_fail _ hok, exchange_expander]
        exact hnext

theorem exchanges_buf (plan : List Smbus) :
    (exchanges (expanders.chipKernel chip) cbError fh address plan s).2.buf = s.buf := by
  induction plan generalizing s with
  | nil => rfl
  | cons args rest ih =>
      by_cases hok : (exchange (expanders.chipKernel chip) cbError fh address args s).1.1 = 0
      · rw [exchanges_cons_of_ok _ hok, exchange_expander, ih]
        rfl
      · rw [exchanges_cons_of_fail _ hok, exchange_expander]
        rfl

/-- A plan that goes through has made all of its transfers. -/
theorem exchanges_os {plan : List Smbus}
    (hok : (exchanges (expanders.chipKernel chip) cbError fh address plan s).1.isSome) :
    (exchanges (expanders.chipKernel chip) cbError fh address plan s).2.world.os =
      s.world.os.afterAll plan := by
  induction plan generalizing s with
  | nil => rfl
  | cons args rest ih =>
      by_cases hfirst : (exchange (expanders.chipKernel chip) cbError fh address args s).1.1 = 0
      · rw [exchanges_cons_of_ok _ hfirst, exchange_expander] at hok ⊢
        exact ih (by simpa using hok)
      · rw [exchanges_cons_of_fail _ hfirst] at hok
        simp at hok

theorem exchanges_levels {plan : List Smbus} (n : Nat)
    (hok : (exchanges (expanders.chipKernel chip) cbError fh address plan s).1.isSome) :
    (exchanges (expanders.chipKernel chip) cbError fh address plan s).2.world.os.levels n =
      s.world.os.levels (n + plan.length) := by
  rw [exchanges_os hok, Expander.afterAll_levels]

/-- Two register writes that both succeeded, seen together. -/
theorem exchanges_writes {rega regb a b : BitVec 8}
    (hok : (exchanges (expanders.chipKernel chip) cbError fh address
      [.writeByteData rega a, .writeByteData regb b] s).1.isSome) :
    (exchanges (expanders.chipKernel chip) cbError fh address
      [.writeByteData rega a, .writeByteData regb b] s).2.world.os.regs =
      Function.update (Function.update s.world.os.regs rega a) regb b := by
  by_cases ha : (exchange (expanders.chipKernel chip) cbError fh address
      (.writeByteData rega a) s).1.1 = 0
  · have hregs := (s.world.os.write_regs rega a).1 ha
    rw [exchanges_cons_of_ok _ ha, exchange_expander] at hok ⊢
    by_cases hb : (exchange (expanders.chipKernel chip) cbError fh address
        (.writeByteData regb b) (s.setOs (s.world.os.i2c (.writeByteData rega a)).2)).1.1 = 0
    · have hregs' := ((s.world.os.i2c (.writeByteData rega a)).2.write_regs regb b).1 hb
      rw [exchanges_cons_of_ok _ hb, exchange_expander]
      exact hregs'.trans (by rw [hregs])
    · rw [exchanges_cons_of_fail _ hb] at hok
      simp at hok
  · rw [exchanges_cons_of_fail _ ha] at hok
    simp at hok

theorem exchanges_directionPlan {desiredState : Mcp23017IoState}
    (hok : (exchanges (expanders.chipKernel chip) cbError fh address
      (directionPlan desiredState) s).1.isSome) :
    (exchanges (expanders.chipKernel chip) cbError fh address
      (directionPlan desiredState) s).2.world.os.Directed desiredState := by
  have hne : iodira ≠ iodirb := by decide
  have hregs : (exchanges (expanders.chipKernel chip) cbError fh address
      (directionPlan desiredState) s).2.world.os.regs = _ := exchanges_writes hok
  cases desiredState with
  | none => trivial
  | read =>
      simp only [Expander.Directed, hregs]
      exact ⟨by simp [hne], by simp⟩
  | write =>
      simp only [Expander.Directed, hregs]
      exact ⟨by simp [hne], by simp⟩

theorem portValue_input (latch level : BitVec 8) : portValue 0xFF latch level = level := by
  have hones : portValue 0xFF latch level = portValue (BitVec.allOnes 8) latch level := rfl
  rw [hones, portValue, BitVec.and_allOnes, BitVec.not_allOnes, BitVec.and_zero, BitVec.or_zero]

/-- Two reads that both succeeded, and what the chip answered. -/
theorem exchanges_answers {bytes : List (BitVec 8)}
    (hok : (exchanges (expanders.chipKernel chip) cbError fh address inputPlan s).1 =
      some bytes) :
    ∃ a b, bytes = [a, b] ∧ s.world.os.Answers a b
      (exchanges (expanders.chipKernel chip) cbError fh address inputPlan s).2.world.os := by
  unfold inputPlan at hok ⊢
  by_cases ha : (exchange (expanders.chipKernel chip) cbError fh address
      (.readByteData gpioa) s).1.1 = 0
  · rw [exchanges_cons_of_ok _ ha, exchange_expander] at hok ⊢
    by_cases hb : (exchange (expanders.chipKernel chip) cbError fh address
        (.readByteData gpiob) (s.setOs (s.world.os.i2c (.readByteData gpioa)).2)).1.1 = 0
    · rw [exchanges_cons_of_ok _ hb, exchange_expander] at hok ⊢
      obtain rfl := Option.some.inj hok
      exact ⟨_, _, rfl, _, Prod.ext (Prod.ext ha rfl) rfl, Prod.ext (Prod.ext hb rfl) rfl⟩
    · rw [exchanges_cons_of_fail _ hb] at hok
      simp at hok
  · rw [exchanges_cons_of_fail _ ha] at hok
    simp at hok

/-- Input pins read as the levels outside them. -/
theorem Expander.Answers.levels {x z : Expander} {a b : BitVec 8} (h : x.Answers a b z)
    (hdirected : x.Directed .read) :
    a = (x.levels 0).setWidth 8 ∧ b = ((x.levels 1) >>> 8).setWidth 8 := by
  have hab : gpiob ≠ gpioa := by decide
  obtain ⟨y, ha, hb⟩ := h
  obtain rfl : (x.i2c (.readByteData gpioa)).2 = y := congrArg Prod.snd ha
  have hvalue : a = x.readReg gpioa := by
    rw [← x.read_value (congrArg (·.1.1) ha), ha]
  have hvalue' : b = (x.i2c (.readByteData gpioa)).2.readReg gpiob := by
    rw [← Expander.read_value _ (congrArg (·.1.1) hb), hb]
  rw [hvalue, hvalue']
  simp only [Expander.readReg, if_true, if_neg hab, hdirected.1, portValue_input,
    Expander.read_regs, hdirected.2, Expander.i2c_levels, and_self]

theorem directionPlan_keeps {reg : BitVec 8} (desiredState : Mcp23017IoState)
    (ha : reg ≠ iodira) (hb : reg ≠ iodirb) :
    ∀ args ∈ directionPlan desiredState, ¬ args.Writes reg := by
  rintro args hargs ⟨value, rfl⟩
  simp [directionPlan, ha, hb] at hargs

theorem outputPlan_keeps {reg : BitVec 8} (value : Value) (ha : reg ≠ olata)
    (hb : reg ≠ olatb) : ∀ args ∈ outputPlan value, ¬ args.Writes reg := by
  rintro args hargs ⟨value', rfl⟩
  simp [outputPlan, ha, hb] at hargs

theorem inputPlan_keeps (reg : BitVec 8) : ∀ args ∈ inputPlan, ¬ args.Writes reg := by
  rintro args hargs ⟨value, rfl⟩
  simp [inputPlan] at hargs

theorem exchanges_latch {plan : List Smbus} (ha : ∀ args ∈ plan, ¬ args.Writes olata)
    (hb : ∀ args ∈ plan, ¬ args.Writes olatb) :
    (exchanges (expanders.chipKernel chip) cbError fh address plan s).2.world.os.latch =
      s.world.os.latch := by
  simp only [Expander.latch, exchanges_reg ha, exchanges_reg hb]

/-- What `mcp23017EnsureIo` leaves behind: a cached direction that is the chip's,
and everything else as it was. -/
structure Ensured (s : DrvState δ β (Env Expander)) (cached desiredState : Mcp23017IoState)
    (e : Mcp23017IoState × DrvState δ β (Env Expander)) : Prop where
  cache : e.2.dev.devData = some ⟨e.1⟩
  directed : e.2.world.os.Directed e.1
  latch : e.2.world.os.latch = s.world.os.latch
  buf : e.2.buf = s.buf
  chip : e.1 = desiredState → e.2.world.os = s.world.os.turned cached desiredState

variable (chip fh address cbError) in
theorem ensuredIo_ensured {cached : Mcp23017IoState} {desiredState : Mcp23017IoState}
    (hne : desiredState ≠ .none) (hdata : s.dev.devData = some ⟨cached⟩)
    (h : s.world.os.Directed cached) :
    Ensured s cached desiredState
      (ensuredIo (expanders.chipKernel chip) cbError fh address cached desiredState s) := by
  have hcache := ensuredIo_devData (expanders.chipKernel chip) cbError fh address
    desiredState hdata
  have hlatch : (exchanges (expanders.chipKernel chip) cbError fh address
      (directionPlan desiredState) (s.setIoState .none)).2.world.os.latch =
        s.world.os.latch :=
    exchanges_latch (directionPlan_keeps _ (by decide) (by decide))
      (directionPlan_keeps _ (by decide) (by decide))
  have hbuf : (exchanges (expanders.chipKernel chip) cbError fh address
      (directionPlan desiredState) (s.setIoState .none)).2.buf = s.buf := exchanges_buf _
  rcases ensuredIo_cases (expanders.chipKernel chip) cbError fh address cached desiredState s with
    ⟨hcached, heq⟩ | ⟨hcached, hok, heq⟩ | ⟨hcached, hok, heq⟩
  · refine ⟨hcache, ?_, by rw [heq], by rw [heq], ?_⟩
    · rw [heq, ← hcached]
      exact h
    · intro _
      rw [heq, Expander.turned, if_pos hcached]
  · rw [heq] at hcache ⊢
    refine ⟨hcache, exchanges_directionPlan hok, hlatch, hbuf, ?_⟩
    intro _
    rw [Expander.turned, if_neg hcached]
    exact exchanges_os hok
  · rw [heq] at hcache ⊢
    refine ⟨hcache, trivial, hlatch, hbuf, ?_⟩
    intro hnone
    exact absurd hnone.symm hne

/-- What a driver call leaves behind, whatever it meets. -/
structure Driven (cbError : CbError β) (s t : DrvState δ β (Env Expander)) : Prop where
  notStale : NotStale t.dev t.world.os
  buf : t.buf = s.buf ∨ ∃ msg, t.buf = cbError msg s.buf

section Ensured

variable {cached desiredState : Mcp23017IoState}
  {e : Mcp23017IoState × DrvState δ β (Env Expander)} (h : Ensured s cached desiredState e)
include h

theorem Ensured.driven_exchanges {plan : List Smbus}
    (ha : ∀ args ∈ plan, ¬ args.Writes iodira) (hb : ∀ args ∈ plan, ¬ args.Writes iodirb) :
    Driven cbError s (exchanges (expanders.chipKernel chip) cbError fh address plan e.2).2 := by
  refine ⟨?_, .inl ((exchanges_buf _).trans h.buf)⟩
  intro data hdata
  rw [exchanges_dev, h.cache] at hdata
  cases hdata
  exact h.directed.of_regs (exchanges_reg ha) (exchanges_reg hb)

theorem Ensured.driven_report (msg : List Char) : Driven cbError s (e.2.report cbError msg) := by
  refine ⟨?_, .inr ⟨msg, by rw [← h.buf]; rfl⟩⟩
  intro data hdata
  cases h.cache.symm.trans hdata
  exact h.directed

end Ensured

section Driver

variable {bus : IoBus ω} {busData : I2cLinuxBusData} {devBusData : I2cLinuxDevData}
  {cached : Mcp23017IoState} (hbus : bus.busData = some busData)
  (hdev : s.dev.devBusData = some devBusData) (hdata : s.dev.devData = some ⟨cached⟩)
  (h : s.world.os.Directed cached) (cbError : CbError β) (value : Value)
include hbus hdev hdata h

variable (chip) in
/-- A read turns the pins to inputs and packs the two bytes that the chip answers
with, or fails and leaves the value. -/
theorem mcp23017Read_answers :
    ∃ numRead value' t,
      mcp23017Read (expanders.chipKernel chip) cbError bus value s = .ok (numRead, value') t ∧
      Driven cbError s t ∧ t.world.os.latch = s.world.os.latch ∧
      (numRead = 0 ∧ value' = value ∨
        ∃ a b : BitVec 8, numRead = 1 ∧ value' = a.setWidth 32 ||| b.setWidth 32 <<< 8 ∧
          (s.world.os.turned cached .read).Directed .read ∧
          (s.world.os.turned cached .read).Answers a b t.world.os) := by
  have hrun := mcp23017Read_run (expanders.chipKernel chip) cbError hdata hbus hdev value
  have hensured := ensuredIo_ensured chip busData.fh devBusData.address cbError
    (show Mcp23017IoState.read ≠ .none by simp) hdata h
  simp only at hrun
  generalize ensuredIo (expanders.chipKernel chip) cbError busData.fh devBusData.address
    cached .read s = e at hrun hensured
  by_cases hread : e.1 = .read
  · rw [if_pos hread] at hrun
    refine ⟨_, _, _, hrun, hensured.driven_exchanges (inputPlan_keeps _) (inputPlan_keeps _),
      (exchanges_latch (inputPlan_keeps _) (inputPlan_keeps _)).trans hensured.latch, ?_⟩
    cases hok : (exchanges (expanders.chipKernel chip) cbError busData.fh
        devBusData.address inputPlan e.2).1 with
    | none => exact .inl ⟨rfl, rfl⟩
    | some bytes =>
        obtain ⟨a, b, rfl, hanswers⟩ := exchanges_answers hok
        have hdirected := hensured.directed
        rw [hread] at hdirected
        rw [hensured.chip hread] at hdirected hanswers
        exact .inr ⟨a, b, rfl, rfl, hdirected, hanswers⟩
  · rw [if_neg hread] at hrun
    exact ⟨_, _, _, hrun, hensured.driven_report _, hensured.latch, .inl ⟨rfl, rfl⟩⟩

/-- A read leaves the latch alone and, if it succeeds, finds the levels outside
the pins, whatever the latch holds. -/
theorem mcp23017Read_expander :
    ∃ numRead value' t,
      mcp23017Read (expanders.chipKernel chip) cbError bus value s = .ok (numRead, value') t ∧
      Driven cbError s t ∧ t.world.os.latch = s.world.os.latch ∧
      (0 < numRead → value' = (s.world.os.sampled cached).setWidth 32) := by
  obtain ⟨numRead, value', t, hrun, hdriven, hlatch, hcases⟩ :=
    mcp23017Read_answers chip hbus hdev hdata h cbError value
  refine ⟨numRead, value', t, hrun, hdriven, hlatch, ?_⟩
  intro hnum
  rcases hcases with ⟨hzero, -⟩ | ⟨a, b, -, hvalue, hdirected, hanswers⟩
  · omega
  · obtain ⟨rfl, rfl⟩ := hanswers.levels hdirected
    simp only [hvalue, Expander.sampled, Expander.outside, Expander.turned_levels,
      BitVec.setWidth_append_eq_shiftLeft_setWidth_or]
    rw [BitVec.or_comm, Nat.zero_add, Nat.add_comm]

variable (chip) in
/-- A write turns the pins to outputs and puts the two bytes of its value into the
latches, or reports that it has not. -/
theorem mcp23017Write_latches :
    ∃ numWritten t,
      mcp23017Write (expanders.chipKernel chip) cbError bus value s = .ok numWritten t ∧
      Driven cbError s t ∧ (0 < numWritten → t.world.os.Directed .write ∧
        t.world.os.regs olata = (value.setWidth 16).setWidth 8 ∧
        t.world.os.regs olatb = ((value.setWidth 16 &&& 0xFF00) >>> 8).setWidth 8) := by
  have hrun := mcp23017Write_run (expanders.chipKernel chip) cbError hdata hbus hdev value
  have hensured := ensuredIo_ensured chip busData.fh devBusData.address cbError
    (show Mcp23017IoState.write ≠ .none by simp) hdata h
  simp only at hrun
  generalize ensuredIo (expanders.chipKernel chip) cbError busData.fh devBusData.address
    cached .write s = e at hrun hensured
  by_cases hwrite : e.1 = .write
  · have hkeeps : ∀ args ∈ outputPlan value, ¬ args.Writes iodira :=
      outputPlan_keeps value (by decide) (by decide)
    have hkeeps' : ∀ args ∈ outputPlan value, ¬ args.Writes iodirb :=
      outputPlan_keeps value (by decide) (by decide)
    rw [if_pos hwrite] at hrun
    refine ⟨_, _, hrun, hensured.driven_exchanges hkeeps hkeeps', ?_⟩
    intro hnum
    have hok : (exchanges (expanders.chipKernel chip) cbError busData.fh
        devBusData.address (outputPlan value) e.2).1.isSome := by
      by_contra hnot
      simp [hnot] at hnum
    have hregs : (exchanges (expanders.chipKernel chip) cbError busData.fh
        devBusData.address (outputPlan value) e.2).2.world.os.regs = _ :=
      exchanges_writes hok
    have hne : olata ≠ olatb := by decide
    have hdirected := hensured.directed
    rw [hwrite] at hdirected
    refine ⟨hdirected.of_regs (exchanges_reg hkeeps) (exchanges_reg hkeeps'), ?_, ?_⟩
    · rw [hregs, Function.update_of_ne hne, Function.update_self]
    · rw [hregs, Function.update_self]
  · rw [if_neg hwrite] at hrun
    exact ⟨_, _, hrun, hensured.driven_report _, by simp⟩

/-- A successful write puts its value into the latch. -/
theorem mcp23017Write_expander :
    ∃ numWritten t,
      mcp23017Write (expanders.chipKernel chip) cbError bus value s = .ok numWritten t ∧
      Driven cbError s t ∧ (0 < numWritten → t.world.os.latch = value.setWidth 16) := by
  obtain ⟨numWritten, t, hrun, hdriven, hdone⟩ :=
    mcp23017Write_latches chip hbus hdev hdata h cbError value
  refine ⟨numWritten, t, hrun, hdriven, ?_⟩
  intro hnum
  obtain ⟨-, hlow, hhigh⟩ := hdone hnum
  rw [Expander.latch, hlow, hhigh]
  exact Lib.Bits.halves_append _

end Driver

end Alone

/-- The I2C bus of `config/io_ext.ini` with MCP23017s in place of its PCF8574s. -/
def expanderConfig : IoConfig BusHandle DevHandle where
  numBusses := ioExtI2c.numBusses
  busses := ioExtI2c.busses
  devices slot := { ioExtI2c.devices slot with drvHandle := some .mcp23017 }

/-- The chips of `expanderConfig`. -/
def expanderChip (slot : Slot) : ChipId :=
  if slot.2.val = 0 then .i2c 3 0x20 else .i2c 3 0x38

end Switcher
