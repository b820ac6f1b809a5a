import Switcher.Driver.Kernel

/-!
`io_i2c_linux.c` over the SMBus helpers of `i2c-dev.h`. Every transfer first
selects the slave address of its device on the handle of the bus; the result of
that selection is reported through `cb_error` and otherwise dropped.
-/

namespace Switcher

open Lib.Program

variable {ω δ β κ : Type} (K : Kernel κ)

/-- `i2c_smbus_read_byte` and `i2c_smbus_read_byte_data`: a byte, or -1. -/
def i2cSmbusRead (fh : Int) (args : Smbus) : DrvM δ β (Env κ) Int := do
  let (rc, byte) ← syscall (K.i2cSmbus fh args)
  if rc ≠ 0 then return -1 else return byte.toNat

/-- `i2c_smbus_write_byte` and `i2c_smbus_write_byte_data`. -/
def i2cSmbusWrite (fh : Int) (args : Smbus) : DrvM δ β (Env κ) Int := do
  let (rc, _) ← syscall (K.i2cSmbus fh args)
  return rc

/-- Size of the message buffer of `i2c_linux_set_addr`. -/
def i2cErrorLen : Nat := 256

/-- The message of a failed `I2C_SLAVE`, cut to its buffer. -/
def i2cErrorText (os : κ) : List Char :=
  ("ioctl error: ".toList ++ K.strerror os).take (i2cErrorLen - 1)

def i2cLinuxSetAddr (cbError : CbError β) (bus : IoBus ω) : DrvM δ β (Env κ) Int := do
  let busData ← deref bus.busData
  let devBusData ← deref (← get).dev.devBusData
  let rc ← syscall (K.i2cSlave busData.fh devBusData.address)
  if rc < 0 then
    drvError cbError (i2cErrorText K (← get).world.os)
    return -1
  else
    return 0

/-- `i2c_linux_write_byte` and `i2c_linux_write_byte_data`, which differ in the
transaction only. -/
def i2cLinuxTransmit (cbError : CbError β) (bus : IoBus ω) (args : Smbus) :
    DrvM δ β (Env κ) Int := do
  let _ ← i2cLinuxSetAddr K cbError bus
  let busData ← deref bus.busData
  i2cSmbusWrite K busData.fh args

/-- `i2c_linux_read_byte` and `i2c_linux_read_byte_data`. The second component
is `*value`, which a failed transfer leaves as it was. -/
def i2cLinuxReceive (cbError : CbError β) (bus : IoBus ω) (args : Smbus)
    (value : BitVec 8) : DrvM δ β (Env κ) (Int × BitVec 8) := do
  let _ ← i2cLinuxSetAddr K cbError bus
  let busData ← deref bus.busData
  let readData ← i2cSmbusRead K busData.fh args
  if readData < 0 then
    return (-1, value)
  else
    return (0, BitVec.ofInt 8 readData)

def i2cLinuxWriteByte (cbError : CbError β) (bus : IoBus ω) (value : BitVec 8) :
    DrvM δ β (Env κ) Int :=
  i2cLinuxTransmit K cbError bus (.writeByte value)

def i2cLinuxReadByte (cbError : CbError β) (bus : IoBus ω) (value : BitVec 8) :
    DrvM δ β (Env κ) (Int × BitVec 8) :=
  i2cLinuxReceive K cbError bus .readByte value

def i2cLinuxWriteByteData (cbError : CbError β) (bus : IoBus ω)
    (command value : BitVec 8) : DrvM δ β (Env κ) Int :=
  i2cLinuxTransmit K cbError bus (.writeByteData command value)

def i2cLinuxReadByteData (cbError : CbError β) (bus : IoBus ω)
    (command value : BitVec 8) : DrvM δ β (Env κ) (Int × BitVec 8) :=
  i2cLinuxReceive K cbError bus (.readByteData command) value

/-- The driver state after `i2c_linux_set_addr`. -/
def afterSetAddr (cbError : CbError β) (fh : Int) (address : BitVec 8)
    (s : DrvState δ β (Env κ)) : DrvState δ β (Env κ) :=
  let answer := K.i2cSlave fh address s.world.os
  let t := s.setOs answer.2
  if answer.1 < 0 then { t with buf := cbError (i2cErrorText K answer.2) t.buf } else t

/-- The answer to a transfer issued after the address was selected, and the
state it leaves. -/
def exchange (cbError : CbError β) (fh : Int) (address : BitVec 8) (args : Smbus)
    (s : DrvState δ β (Env κ)) : (Int × BitVec 8) × DrvState δ β (Env κ) :=
  let t := afterSetAddr K cbError fh address s
  let answer := K.i2cSmbus fh args t.world.os
  (answer.1, t.setOs answer.2)

/-- Transfers issued in order until one fails, and the bytes they returned if
none did. -/
def exchanges (cbError : CbError β) (fh : Int) (address : BitVec 8) :
    List Smbus → DrvState δ β (Env κ) → Option (List (BitVec 8)) × DrvState δ β (Env κ)
  | [], s => (some [], s)
  | args :: rest, s =>
      let (answer, t) := exchange K cbError fh address args s
      if answer.1 = 0 then
        let (bytes, u) := exchanges cbError fh address rest t
        (bytes.map (answer.2 :: ·), u)
      else
        (none, t)

@[simp] theorem afterSetAddr_dev (cbError : CbError β) (fh : Int) (address : BitVec 8)
    (s : DrvState δ β (Env κ)) : (afterSetAddr K cbError fh address s).dev = s.dev := by
  simp only [afterSetAddr]
  split <;> rfl

@[simp] theorem afterSetAddr_world (cbError : CbError β) (fh : Int) (address : BitVec 8)
    (s : DrvState δ β (Env κ)) :
    (afterSetAddr K cbError fh address s).world =
      ⟨s.world.spi, (K.i2cSlave fh address s.world.os).2⟩ := by
  simp only [afterSetAddr]
  split <;> rfl

@[simp] theorem exchange_dev (cbError : CbError β) (fh : Int) (address : BitVec 8)
    (args : Smbus) (s : DrvState δ β (Env κ)) :
    (exchange K cbError fh address args s).2.dev = s.dev := by
  simp [exchange]

theorem exchanges_cons_of_ok {cbError : CbError β} {fh : Int} {address : BitVec 8}
    {args : Smbus} {rest : List Smbus} {s : DrvState δ β (Env κ)}
    (hok : (exchange K cbError fh address args s).1.1 = 0) :
    exchanges K cbError fh address (args :: rest) s =
      ((exchanges K cbError fh address rest (exchange K cbError fh address args s).2).1.map
          ((exchange K cbError fh address args s).1.2 :: ·),
        (exchanges K cbError fh address rest (exchange K cbError fh address args s).2).2) := by
  simp only [exchanges, if_pos hok]

theorem exchanges_cons_of_fail {cbError : CbError β} {fh : Int} {address : BitVec 8}
    {args : Smbus} {rest : List Smbus} {s : DrvState δ β (Env κ)}
    (hfail : (exchange K cbError fh address args s).1.1 ≠ 0) :
    exchanges K cbError fh address (args :: rest) s =
      (none, (exchange K cbError fh address args s).2) := by
  simp only [exchanges, if_neg hfail]

@[simp] theorem exchanges_dev (cbError : CbError β) (fh : Int) (address : BitVec 8)
    (plan : List Smbus) (s : DrvState δ β (Env κ)) :
    (exchanges K cbError fh address plan s).2.dev = s.dev := by
  induction plan generalizing s with
  | nil => rfl
  | cons args rest ih =>
      by_cases hok : (exchange K cbError fh address args s).1.1 = 0
      · rw [exchanges_cons_of_ok K hok]
        simp [ih]
      · rw [exchanges_cons_of_fail K hok]
        simp

theorem exchanges_length {cbError : CbError β} {fh : Int} {address : BitVec 8}
    {plan : List Smbus} {s : DrvState δ β (Env κ)} {bytes : List (BitVec 8)}
    (h : (exchanges K cbError fh address plan s).1 = some bytes) :
    bytes.length = plan.length := by
  induction plan generalizing s bytes with
  | nil =>
      obtain rfl := Option.some.inj h
      rfl
  | cons args rest ih =>
      by_cases hok : (exchange K cbError fh address args s).1.1 = 0
      · rw [exchanges_cons_of_ok K hok] at h
        obtain ⟨more, hmore, rfl⟩ := Option.map_eq_some_iff.mp h
        simp [ih hmore]
      · rw [exchanges_cons_of_fail K hok] at h
        cases h

/-- Two transfers return no bytes, or two. -/
theorem exchanges_pair (cbError : CbError β) (fh : Int) (address : BitVec 8) (a b : Smbus)
    (s : DrvState δ β (Env κ)) :
    (exchanges K cbError fh address [a, b] s).1 = none ∨
      ∃ x y, (exchanges K cbError fh address [a, b] s).1 = some [x, y] := by
  cases h : (exchanges K cbError fh address [a, b] s).1 with
  | none => exact .inl rfl
  | some bytes =>
      obtain ⟨x, y, rfl⟩ := List.length_eq_two.mp (exchanges_length K h)
      exact .inr ⟨x, y, rfl⟩

theorem i2cSmbusRead_run (fh : Int) (args : Smbus) (s : DrvState δ β (Env κ)) :
    i2cSmbusRead K fh args s =
      .ok (if (K.i2cSmbus fh args s.world.os).1.1 ≠ 0 then -1
          else ((K.i2cSmbus fh args s.world.os).1.2.toNat : Int))
        (s.setOs (K.i2cSmbus fh args s.world.os).2) := by
  simp only [i2cSmbusRead, run_bind, syscall_run]
  split <;> rfl

section Run

variable {bus : IoBus ω} {busData : I2cLinuxBusData} {devBusData : I2cLinuxDevData}
  {s : DrvState δ β (Env κ)}

theorem i2cLinuxSetAddr_run (cbError : CbError β) (hbus : bus.busData = some busData)
    (hdev : s.dev.devBusData = some devBusData) :
    ∃ rc, i2cLinuxSetAddr K cbError bus s =
      .ok rc (afterSetAddr K cbError busData.fh devBusData.address s) := by
  simp only [i2cLinuxSetAddr, hbus, hdev, deref_some, run_bind, run_pure, run_get,
    syscall_run, afterSetAddr]
  split
  · exact ⟨_, rfl⟩
  · exact ⟨_, rfl⟩

theorem i2cLinuxTransmit_run (cbError : CbError β) (args : Smbus)
    (hbus : bus.busData = some busData) (hdev : s.dev.devBusData = some devBusData) :
    i2cLinuxTransmit K cbError bus args s =
      .ok (exchange K cbError busData.fh devBusData.address args s).1.1
        (exchange K cbError busData.fh devBusData.address args s).2 := by
  obtain ⟨rc, hset⟩ := i2cLinuxSetAddr_run K cbError hbus hdev
  unfold i2cLinuxTransmit
  rw [bind_of_ok hset, hbus]
  rfl

theorem i2cLinuxReceive_run (cbError : CbError β) (args : Smbus) (value : BitVec 8)
    (hbus : bus.busData = some busData) (hdev : s.dev.devBusData = some devBusData) :
    i2cLinuxReceive K cbError bus args value s =
      .ok (if (exchange K cbError busData.fh devBusData.address args s).1.1 = 0 then
          (0, (exchange K cbError busData.fh devBusData.address args s).1.2)
        else (-1, value))
        (exchange K cbError busData.fh devBusData.address args s).2 := by
  obtain ⟨rc, hset⟩ := i2cLinuxSetAddr_run K cbError hbus hdev
  unfold i2cLinuxReceive
  rw [bind_of_ok hset, hbus, deref_some, pure_bind, bind_of_ok (i2cSmbusRead_run K _ _ _)]
  simp only [exchange]
  by_cases hrc : (K.i2cSmbus busData.fh args
      (afterSetAddr K cbError busData.fh devBusData.address s).world.os).1.1 = 0
  · have hbyte (byte : BitVec 8) : ¬ ((byte.toNat : Int) < 0) := by omega
    simp [hrc, hbyte, run_pure, -afterSetAddr_world]
  · simp [hrc, run_pure, -afterSetAddr_world]

/-- Two writes of which the second is issued only after the first succeeded. -/
theorem i2cLinuxTransmit_pair {α : Type} (cbError : CbError β) (a b : Smbus)
    (done failed : DrvM δ β (Env κ) α)
    (hbus : bus.busData = some busData) (hdev : s.dev.devBusData = some devBusData) :
    (do
      if (← i2cLinuxTransmit K cbError bus a) = 0 then
        if (← i2cLinuxTransmit K cbError bus b) = 0 then done else failed
      else
        failed) s =
      (if (exchanges K cbError busData.fh devBusData.address [a, b] s).1.isSome then done
        else failed) (exchanges K cbError busData.fh devBusData.address [a, b] s).2 := by
  rw [bind_of_ok (i2cLinuxTransmit_run K cbError a hbus hdev)]
  by_cases ha : (exchange K cbError busData.fh devBusData.address a s).1.1 = 0
  · have hdev' : (exchange K cbError busData.fh devBusData.address a s).2.dev.devBusData =
        some devBusData := by simpa using hdev
    rw [if_pos ha, exchanges_cons_of_ok K ha,
      bind_of_ok (i2cLinuxTransmit_run K cbError b hbus hdev')]
    by_cases hb : (exchange K cbError busData.fh devBusData.address b
        (exchange K cbError busData.fh devBusData.address a s).2).1.1 = 0
    · rw [if_pos hb, exchanges_cons_of_ok K hb]
      rfl
    · rw [if_neg hb, exchanges_cons_of_fail K hb]
      rfl
  · rw [if_neg ha, exchanges_cons_of_fail K ha]
    rfl

/-- Two reads of which the second is issued only after the first succeeded. -/
theorem i2cLinuxReceive_pair {α : Type} (cbError : CbError β) (a b : Smbus)
    (done : BitVec 8 → BitVec 8 → DrvM δ β (Env κ) α) (failed : DrvM δ β (Env κ) α)
    (hbus : bus.busData = some busData) (hdev : s.dev.devBusData = some devBusData) :
    (do
      let (resultA, valueA) ← i2cLinuxReceive K cbError bus a 0
      if resultA = 0 then
        let (resultB, valueB) ← i2cLinuxReceive K cbError bus b 0
        if resultB = 0 then done valueA valueB else failed
      else
        failed) s =
      (match (exchanges K cbError busData.fh devBusData.address [a, b] s).1 with
        | some [valueA, valueB] => done valueA valueB
        | _ => failed) (exchanges K cbError busData.fh devBusData.address [a, b] s).2 := by
  rw [bind_of_ok (i2cLinuxReceive_run K cbError a 0 hbus hdev)]
  by_cases ha : (exchange K cbError busData.fh devBusData.address a s).1.1 = 0
  · have hdev' : (exchange K cbError busData.fh devBusData.address a s).2.dev.devBusData =
        some devBusData := by simpa using hdev
    simp only [if_pos ha, if_true, exchanges_cons_of_ok K ha]
    rw [bind_of_ok (i2cLinuxReceive_run K cbError b 0 hbus hdev')]
    by_cases hb : (exchange K cbError busData.fh devBusData.address b
        (exchange K cbError busData.fh devBusData.address a s).2).1.1 = 0
    · simp only [if_pos hb, exchanges_cons_of_ok K hb]
      rfl
    · simp only [if_neg hb, exchanges_cons_of_fail K hb]
      rfl
  · simp only [if_neg ha, exchanges_cons_of_fail K ha]
    rfl

end Run

end Switcher
