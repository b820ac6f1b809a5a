import Switcher.Config.Stored

/-!
Configurations and the files that describe them in the layout of
`config/io_ext.ini`: the parser turns the file of a configuration back into that
configuration.
-/

namespace Switcher

open Lib.Program Lib.Interleaving Lib.Text Lib.Numeral Lib.History

variable {κ : Type} {K : Kernel κ}

/-- A path that fits, with its terminator, where the bus driver keeps it. -/
structure DevicePath where
  text : CString
  fits : text.chars.length < i2cDevLen

/-- A device: its driver and, on an I2C bus, its address. -/
structure DevPlan where
  driver : DevHandle
  address : Option (BitVec 8)

inductive BusPlan where
  | i2c (path : DevicePath) (devices : List (DevHandle × BitVec 8))
      (few : devices.length ≤ maxIoDevices)
  | piface (devices : List DevHandle) (few : devices.length ≤ maxIoDevices)

structure Plan where
  busses : List BusPlan
  few : busses.length ≤ maxBusses

namespace BusPlan

def path : BusPlan → Option DevicePath
  | i2c path _ _ => some path
  | piface _ _ => none

def devices : BusPlan → List DevPlan
  | i2c _ devices _ => devices.map fun dev => ⟨dev.1, some dev.2⟩
  | piface devices _ => devices.map fun driver => ⟨driver, none⟩

theorem length_devices (bus : BusPlan) : bus.devices.length ≤ maxIoDevices := by
  cases bus with
  | i2c path devices few => rwa [BusPlan.devices, List.length_map]
  | piface devices few => rwa [BusPlan.devices, List.length_map]

/-- Devices have addresses on I2C buses and nowhere else. -/
theorem address_isSome (bus : BusPlan) {dev : DevPlan} (h : dev ∈ bus.devices) :
    dev.address.isSome = bus.path.isSome := by
  cases bus with
  | i2c path devices few =>
      obtain ⟨dev, -, rfl⟩ := List.mem_map.mp h
      rfl
  | piface devices few =>
      obtain ⟨driver, -, rfl⟩ := List.mem_map.mp h
      rfl

end BusPlan

section Meaning

def DevPlan.ioDev (dev : DevPlan) : IoDev DevHandle :=
  ⟨some dev.driver, dev.address.map fun address => ⟨address⟩, none⟩

def BusPlan.ioBus (bus : BusPlan) : IoBus BusHandle :=
  ⟨bus.devices.length, bus.path.map fun _ => .i2cLinux,
    bus.path.map fun path => ⟨path.text.chars, -1⟩⟩

/-- The planned buses and devices in their order; whatever lies behind them is as
`conf_init` left it. -/
def Plan.ioConfig (plan : Plan) : IoConfig BusHandle DevHandle where
  numBusses := plan.busses.length
  busses b := (plan.busses[b.val]?).elim ((confInit zeroConfig).2.busses b) (·.ioBus)
  devices slot :=
    ((plan.busses[slot.1.val]?).bind fun bus => bus.devices[slot.2.val]?).elim
      ((confInit zeroConfig).2.devices slot) (·.ioDev)

end Meaning

section Layout

/-- A word with a number behind it. -/
def numbered {base : Nat} (hbase : Radix base) (word : List Char) (hword : nul ∉ word) (n : Nat) :
    CString :=
  ⟨word ++ Nat.toDigits base n, by
    rw [List.mem_append, not_or]
    exact ⟨hword, nul_notMem_toDigits hbase n⟩⟩

def busName (k : Nat) : CString := numbered decimal "bus-".toList (by decide) k

def devName (j : Nat) : CString := numbered decimal "device-".toList (by decide) j

def driverName : DevHandle → CString
  | .pcf8574 => ⟨iniDrvPcf8574, by decide⟩
  | .piface => ⟨iniDrvPiface, by decide⟩
  | .mcp23017 => ⟨iniDrvMcp23017, by decide⟩

def addressText (address : BitVec 8) : CString :=
  numbered hexadecimal "0x".toList (by decide) address.toNat

def DevPlan.iniSection (j : Nat) (dev : DevPlan) : IniSection where
  name := devName j
  entries := (⟨iniDevDrv, by decide⟩, driverName dev.driver) ::
    dev.address.elim [] fun address => [(⟨iniDevParam, by decide⟩, addressText address)]

theorem nul_notMem_iniBusType : nul ∉ iniBusType := by decide

theorem nul_notMem_iniBusTypeI2c : nul ∉ iniBusTypeI2c := by decide

def BusPlan.header (k : Nat) (bus : BusPlan) : IniSection where
  name := busName k
  entries := bus.path.elim
    [(⟨iniBusType, nul_notMem_iniBusType⟩, ⟨iniDrvPiface, by decide⟩)] fun path =>
      [(⟨iniBusType, nul_notMem_iniBusType⟩, ⟨iniBusTypeI2c, nul_notMem_iniBusTypeI2c⟩),
        (⟨iniBusParam, by decide⟩, path.text)]

theorem busName_isBus (k : Nat) : iniBus <+: (busName k).chars :=
  ⟨'-' :: Nat.toDigits 10 k, rfl⟩

theorem devName_isDev (j : Nat) : iniDev <+: (devName j).chars :=
  ⟨'-' :: Nat.toDigits 10 j, rfl⟩

def BusPlan.busSection (k : Nat) (bus : BusPlan) : BusSection where
  header := bus.header k
  isBus := busName_isBus k
  devices := bus.devices.mapIdx fun j dev => dev.iniSection j
  areDevices := by
    intro s hs
    obtain ⟨j, _, rfl⟩ := List.mem_mapIdx.mp hs
    exact devName_isDev j
  fewDevices := by
    rw [List.length_mapIdx]
    exact bus.length_devices

@[simp] theorem busSection_header (k : Nat) (bus : BusPlan) :
    (bus.busSection k).header = bus.header k := rfl

@[simp] theorem busSection_devices (k : Nat) (bus : BusPlan) :
    (bus.busSection k).devices = bus.devices.mapIdx fun j dev => dev.iniSection j := rfl

/-- The file of a configuration. -/
def Plan.file (plan : Plan) : SectionFile where
  busses := plan.busses.mapIdx fun k bus => bus.busSection k
  fewBusses := by
    rw [List.length_mapIdx]
    exact plan.few

end Layout

section Names

variable {k j : Nat}

theorem numbered_take {base : Nat} (hbase : Radix base) {word : List Char} (hword : nul ∉ word)
    {n : Nat} (hlength : word.length ≤ 8) (hn : n < base ^ 100) :
    (numbered hbase word hword n).chars.take maxIniEntryLen =
      (numbered hbase word hword n).chars := by
  have hdigits : (Nat.toDigits base n).length ≤ 100 := by
    rwa [Nat.length_toDigits_le_iff hbase.one_lt (by omega)]
  apply List.take_of_length_le
  simp only [numbered, List.length_append, maxIniEntryLen]
  omega

theorem busName_take (hk : k ≤ maxBusses) :
    (busName k).chars.take maxIniEntryLen = (busName k).chars := by
  have hlt : k < 10 ^ 100 := lt_of_le_of_lt hk (by decide)
  exact numbered_take decimal (by decide) (by decide) hlt

theorem devName_take (hj : j ≤ maxIoDevices) :
    (devName j).chars.take maxIniEntryLen = (devName j).chars := by
  have hlt : j < 10 ^ 100 := lt_of_le_of_lt hj (by decide)
  exact numbered_take decimal (by decide) (by decide) hlt

theorem busName_injective {k' : Nat} (h : (busName k).chars = (busName k').chars) : k = k' :=
  toDigits_injective decimal (List.append_cancel_left h)

theorem devName_injective {j' : Nat} (h : (devName j).chars = (devName j').chars) : j = j' :=
  toDigits_injective decimal (List.append_cancel_left h)

theorem devName_ne_busName : (devName j).chars ≠ (busName k).chars := by
  intro h
  cases (List.cons.inj h).1

theorem header_entries_ne_nil (bus : BusPlan) : (bus.header k).entries ≠ [] := by
  cases bus with
  | i2c path devices few => simp [BusPlan.header, BusPlan.path]
  | piface devices few => simp [BusPlan.header, BusPlan.path]

theorem dev_entries_ne_nil (dev : DevPlan) : (dev.iniSection j).entries ≠ [] := by
  simp [DevPlan.iniSection]

/-- A bus header is preceded by another bus header or by a device. -/
theorem header_stands (past : List BusPlan) (bus : BusPlan) (hk : past.length ≤ maxBusses) :
    Stands (sectionsOf (past.mapIdx fun k bus => bus.busSection k)) (bus.header past.length) := by
  refine ⟨header_entries_ne_nil bus, ?_⟩
  show (busName past.length).chars.take maxIniEntryLen ≠ _
  rw [busName_take hk]
  rcases past.eq_nil_or_concat with rfl | ⟨front, last, rfl⟩
  · exact List.cons_ne_nil _ _
  · rw [List.concat_eq_append, List.length_append, List.length_singleton] at hk ⊢
    rw [List.mapIdx_concat, sectionsOf_concat, busSection_header, busSection_devices]
    have hlength := last.length_devices
    rcases last.devices.eq_nil_or_concat with hnil | ⟨devs, dev, hdevs⟩
    · rw [hnil, List.mapIdx_nil, List.append_nil, lastName_concat _ (header_entries_ne_nil last)]
      show _ ≠ (busName front.length).chars.take maxIniEntryLen
      rw [busName_take (by omega)]
      intro h
      have := busName_injective h
      omega
    · rw [List.concat_eq_append] at hdevs
      rw [hdevs, List.length_append, List.length_singleton] at hlength
      rw [hdevs, List.mapIdx_concat, ← List.append_assoc,
        lastName_concat _ (dev_entries_ne_nil dev)]
      show _ ≠ (devName devs.length).chars.take maxIniEntryLen
      rw [devName_take (by omega)]
      exact Ne.symm devName_ne_busName

/-- A device is preceded by its bus or by the device with the number before. -/
theorem dev_stands (past : List IniSection) {k : Nat} (hk : k ≤ maxBusses) (bus : BusPlan)
    (front : List DevPlan) (dev : DevPlan) (hj : front.length ≤ maxIoDevices) :
    Stands (past ++ bus.header k :: front.mapIdx fun j dev => dev.iniSection j)
      (dev.iniSection front.length) := by
  refine ⟨dev_entries_ne_nil dev, ?_⟩
  show (devName front.length).chars.take maxIniEntryLen ≠ _
  rw [devName_take hj]
  rcases front.eq_nil_or_concat with rfl | ⟨devs, last, rfl⟩
  · rw [List.mapIdx_nil, lastName_concat _ (header_entries_ne_nil bus)]
    show _ ≠ (busName k).chars.take maxIniEntryLen
    rw [busName_take hk]
    exact devName_ne_busName
  · rw [List.concat_eq_append, List.length_append, List.length_singleton] at hj ⊢
    rw [List.mapIdx_concat, ← List.cons_append, ← List.append_assoc,
      lastName_concat _ (dev_entries_ne_nil last)]
    show _ ≠ (devName devs.length).chars.take maxIniEntryLen
    rw [devName_take (by omega)]
    intro h
    have := devName_injective h
    omega

theorem headersStand_plan {past : List BusPlan} (hpast : past.length ≤ maxBusses) :
    HeadersStand (past.mapIdx fun k bus => bus.busSection k) := by
  rw [HeadersStand, always_mapIdx]
  intro front bus rest h
  rw [h, List.length_append] at hpast
  exact header_stands front bus (by omega)

theorem devices_stand {past : List BusPlan} (hpast : past.length ≤ maxBusses) (bus : BusPlan)
    {devices : List DevPlan} (hdevices : devices.length ≤ maxIoDevices) :
    Always (fun front s => Stands (sectionsOf (past.mapIdx fun k bus => bus.busSection k) ++
      bus.header past.length :: front) s) (devices.mapIdx fun j dev => dev.iniSection j) := by
  rw [always_mapIdx]
  intro front dev back h
  rw [h, List.length_append] at hdevices
  exact dev_stands _ hpast bus front dev (by omega)

end Names

section Settings

variable (k j : Nat)

/-- What the entries of a bus header ask for. -/
theorem header_settings (bus : BusPlan) :
    (bus.header k).stream.map (·.setting) =
      bus.path.elim [.busType none] fun path =>
        [.busType (some .i2cLinux), .busParameter path.text] := by
  cases bus with
  | i2c path devices few => rfl
  | piface devices few => rfl

theorem dev_settings (dev : DevPlan) :
    (dev.iniSection j).stream.map (·.setting) = .devDriver (some dev.driver) ::
      dev.address.elim [] fun address => [.devParameter (addressText address)] := by
  obtain ⟨driver, address⟩ := dev
  cases address with
  | none => cases driver <;> rfl
  | some address => cases driver <;> rfl

theorem countP_settings (f : Setting → Bool) (entries : List IniEntry) :
    entries.countP (fun e => f e.setting) = (entries.map (·.setting)).countP f := by
  rw [List.countP_map]
  rfl

theorem header_drivers (bus : BusPlan) :
    (bus.header k).stream.countP (·.setting.isDriver) = 0 := by
  rw [countP_settings, header_settings]
  cases bus.path with
  | none => rfl
  | some path => rfl

theorem devices_drivers (devices : List DevPlan) :
    (streamOf (devices.mapIdx fun j dev => dev.iniSection j)).countP (·.setting.isDriver) =
      devices.length := by
  induction devices using List.reverseRecOn with
  | nil => rfl
  | append_singleton devices dev ih =>
      have hone : streamOf [dev.iniSection devices.length] =
          (dev.iniSection devices.length).stream := List.flatMap_singleton ..
      rw [List.mapIdx_concat, streamOf_append, List.countP_append, ih, hone, countP_settings,
        dev_settings, List.length_append, List.length_singleton]
      cases dev.address with
      | none => rfl
      | some address => rfl

theorem header_usesNoDev (bus : BusPlan) {e : IniEntry} (he : e ∈ (bus.header k).stream)
    (typed : Prop) : ¬ e.setting.UsesDev typed := by
  have hmem : e.setting ∈ (bus.header k).stream.map (·.setting) := List.mem_map_of_mem he
  rw [header_settings] at hmem
  cases hpath : bus.path with
  | none =>
      rw [hpath, Option.elim_none, List.mem_singleton] at hmem
      rw [hmem]
      exact id
  | some path =>
      rw [hpath, Option.elim_some, List.mem_pair] at hmem
      rcases hmem with hmem | hmem
      · rw [hmem]
        exact id
      · rw [hmem]
        exact id

/-- An address stands behind the type of its bus. -/
theorem dev_usesDev (bus : BusPlan) {dev : DevPlan} (hdev : dev ∈ bus.devices) {e : IniEntry}
    (he : e ∈ (dev.iniSection j).stream) (typed : Prop) :
    e.setting.UsesDev (typed ∨ ∃ q ∈ (bus.header k).stream, q.setting.TypesBus) := by
  have hmem : e.setting ∈ (dev.iniSection j).stream.map (·.setting) := List.mem_map_of_mem he
  rw [dev_settings] at hmem
  rcases List.mem_cons.mp hmem with hdriver | haddress
  · rw [hdriver]
    rfl
  · cases bus with
    | piface devices few =>
        obtain ⟨driver, -, rfl⟩ := List.mem_map.mp hdev
        cases haddress
    | i2c path devices few =>
        obtain ⟨planned, -, rfl⟩ := List.mem_map.mp hdev
        rw [List.mem_singleton.mp haddress]
        exact .inr ⟨_, List.mem_cons_self .., rfl⟩

theorem Plan.index_le (plan : Plan) {past rest : List BusPlan} {bus : BusPlan}
    (h : plan.busses = past ++ bus :: rest) : past.length ≤ maxBusses := by
  have hfew := plan.few
  rw [h, List.length_append] at hfew
  omega

/-- In the file of a configuration every header counts. -/
theorem Plan.legible (plan : Plan) : Legible zeroConfig plan.file := by
  refine ⟨?_, ?_, ?_, ?_, ?_⟩
  · exact headersStand_plan plan.few
  · rw [Plan.file, always_mapIdx]
    intro past bus rest h front s back hsplit _
    have hall := devices_stand (plan.index_le h) bus bus.length_devices
    rw [busSection_devices] at hsplit
    rw [hsplit, List.append_cons] at hall
    exact hall.of_append
  · intro bus hbus
    obtain ⟨k, hk, rfl⟩ := List.mem_mapIdx.mp hbus
    have hsections (bus : BusPlan) : streamOf (bus.busSection k).sections =
        (bus.header k).stream ++ streamOf (bus.devices.mapIdx fun j dev => dev.iniSection j) := rfl
    rw [hsections, List.countP_append, header_drivers, devices_drivers, busSection_devices,
      List.length_mapIdx, Nat.zero_add]
  · rw [Plan.file, always_mapIdx]
    intro past bus rest _ front e back hsplit b _
    rw [busSection_header] at hsplit
    exact header_usesNoDev past.length bus (by rw [hsplit]; simp) _
  · rw [Plan.file, always_mapIdx]
    intro past bus rest _ s hs e he b _
    rw [busSection_devices] at hs
    obtain ⟨j, hj, rfl⟩ := List.mem_mapIdx.mp hs
    exact dev_usesDev past.length j bus (List.getElem_mem hj) he _

end Settings

section Filling

variable {past : List BusPlan} {bus : BusPlan}

theorem fill_placed (shelf : Shelf) (c : Cursor) (entries : List IniEntry) :
    shelf.fill (entries.map (·.placed c)) =
      (entries.map (·.setting)).foldl (fun shelf setting => shelf.put true c.dev setting)
        shelf := by
  rw [Shelf.fill, List.foldl_map, List.foldl_map]
  rfl

theorem i2cBusData_path (path : DevicePath) : i2cBusData path.text = ⟨path.text.chars, -1⟩ := by
  have hnul : path.text.chars.takeWhile (· ≠ nul) = path.text.chars := by
    rw [List.takeWhile_eq_self_iff]
    intro c hc
    have hne : c ≠ nul := fun h => path.text.nul_notMem (h ▸ hc)
    simpa using hne
  have hcopy : strncpy path.text i2cDevLen = path.text.chars ++
      nul :: List.replicate (i2cDevLen - path.text.chars.length - 1) nul := by
    have hfits := path.fits
    rw [strncpy, List.take_append, List.take_of_length_le (by omega), List.take_replicate,
      Nat.min_eq_left (by omega), ← List.replicate_succ]
    congr
    omega
  rw [i2cBusData, hcopy, List.takeWhile_append_of_pos]
  · simp
  · simpa using hnul

theorem i2cDevData_address (address : BitVec 8) : i2cDevData (addressText address) = ⟨address⟩ := by
  have htext : (addressText address).chars = '0' :: 'x' :: Nat.toDigits 16 address.toNat := rfl
  have hlt := address.isLt
  rw [i2cDevData, htext, strtol_hexadecimal]
  have hvalue : max longMin (min (address.toNat : Int) longMax) = address.toNat := by
    rw [longMin, longMax]
    omega
  rw [hvalue]
  simp

/-- The header of a bus gives it its driver and data. -/
theorem header_fill (k : Nat) (bus : BusPlan) (c : Cursor) :
    emptyShelf.fill ((bus.header k).stream.map (·.placed c)) =
      ⟨{ bus.ioBus with numDevices := 0 }, emptyShelf.devices⟩ := by
  rw [fill_placed, header_settings]
  cases bus with
  | i2c path devices few =>
      simp [BusPlan.path, BusPlan.ioBus, emptyShelf, Shelf.put, i2cBusData_path]
  | piface devices few => rfl

/-- A device section counts a device and fills the slot at the cursor. -/
theorem dev_fill {shelf : Shelf} (j : Nat) (dev : DevPlan) {c : Cursor}
    (hhandle : shelf.bus.drvHandle.isSome = dev.address.isSome)
    (hempty : ∀ d : Fin maxIoDevices, (d.val : Int) = c.dev →
      shelf.devices d = ⟨none, none, none⟩) :
    shelf.fill ((dev.iniSection j).stream.map (·.placed c)) =
      ⟨{ shelf.bus with numDevices := shelf.bus.numDevices + 1 },
        fun d => if (d.val : Int) = c.dev then dev.ioDev else shelf.devices d⟩ := by
  obtain ⟨driver, address⟩ := dev
  rw [fill_placed, dev_settings]
  cases address with
  | none =>
      simp only [Option.elim_none, List.foldl_cons, List.foldl_nil, Shelf.put, Shelf.changeDev,
        Shelf.mk.injEq, true_and]
      funext d
      by_cases hd : (d.val : Int) = c.dev
      · rw [if_pos hd, if_pos hd, hempty d hd]
        rfl
      · rw [if_neg hd, if_neg hd]
  | some address =>
      simp only [Option.elim_some, List.foldl_cons, List.foldl_nil, Shelf.put, Shelf.changeDev,
        hhandle, Option.isSome_some, if_true, i2cDevData_address, Shelf.mk.injEq, true_and]
      funext d
      by_cases hd : (d.val : Int) = c.dev
      · rw [if_pos hd, if_pos hd, if_pos hd, hempty d hd]
        rfl
      · rw [if_neg hd, if_neg hd, if_neg hd]

/-- The device cursor behind a number of devices of a bus. -/
theorem seen_plan (hpast : past.length ≤ maxBusses) (bus : BusPlan) {front : List DevPlan}
    (hfront : front.length ≤ maxIoDevices) :
    (seen (sectionsOf (past.mapIdx fun k bus => bus.busSection k) ++
      bus.header past.length :: front.mapIdx fun j dev => dev.iniSection j)).dev + 1 =
      front.length := by
  have hbus : Stands (sectionsOf (past.mapIdx fun k bus => bus.busSection k))
      (bus.busSection past.length).header := header_stands past bus hpast
  have hdev : ∀ s ∈ front.mapIdx fun j dev => dev.iniSection j, iniDev <+: s.name.chars := by
    intro s hs
    obtain ⟨j, _, rfl⟩ := List.mem_mapIdx.mp hs
    exact devName_isDev j
  have hcount := (seen_within (headersStand_plan hpast) hbus hdev).2.2.mpr
    (devices_stand hpast bus hfront)
  rwa [List.length_mapIdx] at hcount

/-- The devices of a bus fill its slots from the first one on. -/
theorem devices_fill (hpast : past.length ≤ maxBusses) {front back : List DevPlan}
    (hsplit : bus.devices = front ++ back) :
    (Shelf.mk { bus.ioBus with numDevices := 0 } emptyShelf.devices).fill
        (place (seen (sectionsOf (past.mapIdx fun k bus => bus.busSection k) ++
          [bus.header past.length])) (streamOf (front.mapIdx fun j dev => dev.iniSection j))) =
      ⟨{ bus.ioBus with numDevices := front.length },
        fun d => (front[d.val]?).elim ⟨none, none, none⟩ (·.ioDev)⟩ := by
  induction front using List.reverseRecOn generalizing back with
  | nil => rfl
  | append_singleton front dev ih =>
      have hlength := bus.length_devices
      have hmem : dev ∈ bus.devices := by simp [hsplit]
      rw [hsplit, List.length_append, List.length_append, List.length_singleton] at hlength
      rw [List.append_assoc] at hsplit
      have hfew : (front ++ [dev]).length ≤ maxIoDevices := by
        rw [List.length_append, List.length_singleton]
        omega
      have hcursor := seen_plan hpast bus hfew
      rw [List.mapIdx_concat, List.length_append, List.length_singleton] at hcursor
      have hone : streamOf [dev.iniSection front.length] =
          (dev.iniSection front.length).stream := List.flatMap_singleton ..
      rw [List.mapIdx_concat, streamOf_append, place_append, fill_append, ih hsplit, hone,
        after_streamOf, place_stream _ (List.append_nil _).symm, List.append_assoc,
        List.append_assoc, List.singleton_append, dev_fill]
      · simp only [Shelf.mk.injEq]
        refine ⟨by rw [List.length_append]; rfl, ?_⟩
        funext d
        by_cases hd : d.val = front.length
        · rw [if_pos (by omega), hd, List.getElem?_concat_length]
          rfl
        · rw [if_neg (by omega), List.getElem?_append]
          by_cases hlt : d.val < front.length
          · rw [if_pos hlt]
          · rw [if_neg hlt, List.getElem?_eq_none (by omega), List.getElem?_eq_none]
            rw [List.length_singleton]
            omega
      · rw [bus.address_isSome hmem, BusPlan.ioBus, Option.isSome_map]
      · intro d hd
        have hval : d.val = front.length := by omega
        simp only [hval, List.getElem?_eq_none (Nat.le_refl _)]
        rfl

/-- What is placed on a bus fills it as planned. -/
theorem bus_fill (hpast : past.length ≤ maxBusses) (bus : BusPlan) :
    emptyShelf.fill (place (seen (sectionsOf (past.mapIdx fun k bus => bus.busSection k)))
        (streamOf (bus.busSection past.length).sections)) =
      ⟨bus.ioBus, fun d => (bus.devices[d.val]?).elim ⟨none, none, none⟩ (·.ioDev)⟩ := by
  have hsections : streamOf (bus.busSection past.length).sections =
      (bus.header past.length).stream ++
        streamOf (bus.devices.mapIdx fun j dev => dev.iniSection j) := rfl
  have hone : (bus.header past.length).stream = streamOf [bus.header past.length] :=
    (List.flatMap_singleton ..).symm
  rw [hsections, place_append, fill_append, place_stream _ (List.append_nil _).symm, header_fill,
    hone, after_streamOf, devices_fill hpast (List.append_nil _).symm]
  rfl

end Filling

section RoundTrip

theorem mapIdx_split (past rest : List BusPlan) (bus : BusPlan) :
    ((past ++ bus :: rest).mapIdx fun k bus => bus.busSection k) =
      (past.mapIdx fun k bus => bus.busSection k) ++ bus.busSection past.length ::
        (rest.mapIdx fun k bus => bus.busSection (k + 1 + past.length)) := by
  rw [List.mapIdx_append, List.mapIdx_cons, Nat.zero_add]

/-- The shelf that the file of a configuration fills. -/
theorem plan_shelf (plan : Plan) (b : Fin maxBusses) :
    emptyShelf.fill (onShelf b (place .start (streamOf (sectionsOf plan.file.busses)))) =
      plan.ioConfig.shelf b := by
  have hheaders : HeadersStand plan.file.busses := headersStand_plan plan.few
  by_cases hb : b.val < plan.busses.length
  · have hsplit : plan.busses =
        plan.busses.take b.val ++ plan.busses[b.val] :: plan.busses.drop (b.val + 1) := by
      rw [List.getElem_cons_drop, List.take_append_drop]
    have hlength : (plan.busses.take b.val).length = b.val := by
      rw [List.length_take]
      omega
    have hfile : plan.file.busses = _ := congrArg (List.mapIdx _) hsplit
    rw [mapIdx_split] at hfile
    rw [hfile] at hheaders ⊢
    rw [onShelf_busses b hheaders (by rw [List.length_mapIdx, hlength]), bus_fill (by omega)]
    simp only [IoConfig.shelf, Plan.ioConfig, List.getElem?_eq_getElem hb, Option.elim_some,
      Option.bind_some]
    rfl
  · have hnone : plan.busses[b.val]? = none := List.getElem?_eq_none (by omega)
    have hlength : plan.file.busses.length = plan.busses.length := List.length_mapIdx
    rw [onShelf_past b _ (by omega)]
    simp only [IoConfig.shelf, Plan.ioConfig, hnone, Option.elim_none, Option.bind_none]
    rfl

theorem plan_codes (plan : Plan) :
    ∀ e ∈ streamOf (sectionsOf plan.file.busses), e.setting.code = 1 := by
  have hcode (settings : List Setting) (hknown : .unknown ∉ settings) :
      ∀ setting ∈ settings, setting.code = 1 := by
    intro setting hmem
    cases setting with
    | unknown => exact absurd hmem hknown
    | busParameter value => rfl
    | busType handle => rfl
    | devDriver handle => rfl
    | devParameter value => rfl
  intro e he
  obtain ⟨s, hs, he⟩ := List.mem_flatMap.mp he
  obtain ⟨busSection, hbus, hs⟩ := List.mem_flatMap.mp hs
  obtain ⟨k, hk, rfl⟩ := List.mem_mapIdx.mp hbus
  have hmem : e.setting ∈ s.stream.map (·.setting) := List.mem_map_of_mem he
  rcases List.mem_cons.mp hs with rfl | hs
  · rw [busSection_header, header_settings] at hmem
    refine hcode _ ?_ _ hmem
    cases plan.busses[k].path with
    | none => simp
    | some path => simp
  · obtain ⟨j, hj, rfl⟩ := List.mem_mapIdx.mp hs
    rw [dev_settings] at hmem
    refine hcode _ ?_ _ hmem
    cases (plan.busses[k].devices[j]).address with
    | none => simp
    | some address => simp

/-- Once all entries of its file are handled, the configuration is the planned one. -/
theorem plan_config (hK : K.Allocates) (plan : Plan) {c : Cursor} {t : BusConfigs κ}
    (hc : c = Cursor.start.after (streamOf (sectionsOf plan.file.busses)))
    (ht : Follows K (confInit zeroConfig).2
      (place .start (streamOf (sectionsOf plan.file.busses))) c t) :
    t.config = plan.ioConfig := by
  apply ioConfig_ext
  · rw [ht.numBusses, hc]
    have hcount := (seen_busses plan.file.busses).2.mpr plan.legible.headers
    rw [seen, Plan.file, List.length_mapIdx] at hcount
    exact hcount
  · intro b
    rw [← plan_shelf plan b]
    exact (ht.shelves b).same hK

/-- Parsing the file of a configuration yields that configuration. -/
theorem plan_round_trip (hK : K.Allocates) (plan : Plan) (w : Env κ) :
    ∃ codes t, runAll (parserHandler K) (streamOf (sectionsOf plan.file.busses))
        (userData (confInit zeroConfig).2 w) = .ok codes t ∧
      (∀ rc ∈ codes, rc = 1) ∧ t.config = plan.ioConfig := by
  obtain ⟨t, hrun, ht⟩ := run_follows (K := K) rfl w plan.legible.fits
  refine ⟨_, t, hrun, ?_, plan_config hK plan rfl ht⟩
  intro rc hrc
  obtain ⟨e, he, rfl⟩ := List.mem_map.mp hrc
  exact plan_codes plan e he

/-- The configuration described by `config/io_ext.ini`. -/
def ioExtPlan : Plan where
  busses := [
    .i2c ⟨cString "/dev/i2c-1", by decide⟩ [(.pcf8574, 0x20), (.pcf8574, 0x38)] (by decide),
    .piface [.piface] (by decide)]
  few := by decide

theorem plan_round_trip_ioExt :
    ∃ codes t, runAll (parserHandler calmKernel) (streamOf (sectionsOf ioExtPlan.file.busses))
        (userData (confInit zeroConfig).2 calmWorld) = .ok codes t ∧
      (∀ rc ∈ codes, rc = 1) ∧ t.config = ioExtPlan.ioConfig :=
  plan_round_trip (fun _ => rfl) ioExtPlan calmWorld

example : streamOf (sectionsOf ioExtPlan.file.busses) = entriesOf ioExtFile := rfl

end RoundTrip

end Switcher
