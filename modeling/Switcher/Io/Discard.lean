import Switcher.Config.Shelf

/-!
`conf_deinit` of `io.c`, which goes through the whole tables, and the functions of the
I2C bus driver that it gives memory back with. A block is named by the place that points
to it.
-/

namespace Switcher

open Lib.Program Lib.Interleaving

inductive Block where
  | busData (bus : Fin maxBusses)
  | devBusData (slot : Slot)
  deriving DecidableEq, Repr

/-- The configuration, and the blocks that have been given back. -/
structure Discarding where
  config : IoConfig BusHandle DevHandle
  freed : List Block

abbrev DiscardM (α : Type) := EStateM Fault Discarding α

/-- `free`, which does nothing to a null pointer. -/
def free {α : Type} (p : Option α) (block : Block) : DiscardM Unit :=
  modify fun s => { s with freed := s.freed ++ if p.isSome then [block] else [] }

def discardI2cLinuxBusData (busData : Option I2cLinuxBusData) (block : Block) : DiscardM Unit :=
  free busData block

def discardI2cLinuxBusDevData (busDevData : Option I2cLinuxDevData) (block : Block) :
    DiscardM Unit :=
  free busDevData block

/-- The two functions of `bus_drv` that give memory back. -/
structure BusDiscards where
  discardBusData : Option (Option I2cLinuxBusData → Block → DiscardM Unit)
  discardBusDevData : Option (Option I2cLinuxDevData → Block → DiscardM Unit)

def busDiscards : BusHandle → BusDiscards
  | .i2cLinux => ⟨some discardI2cLinuxBusData, some discardI2cLinuxBusDevData⟩

/-- The inner loop body of `conf_deinit`. -/
def discardDev (bus : Fin maxBusses) (cntDev : Fin maxIoDevices) : DiscardM Unit := do
  let s ← get
  match (s.config.busses bus).drvHandle.bind fun handle =>
      (busDiscards handle).discardBusDevData with
  | none => pure ()
  | some discard => do
      discard (s.config.devices (bus, cntDev)).devBusData (.devBusData (bus, cntDev))
      modify fun s =>
        let dev := s.config.devices (bus, cntDev)
        { s with config := s.config.setDev (bus, cntDev) { dev with devBusData := none } }

/-- What the outer loop body does behind the inner loop. -/
def discardBus (bus : Fin maxBusses) : DiscardM Unit := do
  let s ← get
  match (s.config.busses bus).drvHandle.bind fun handle => (busDiscards handle).discardBusData with
  | none => pure ()
  | some discard => do
      discard (s.config.busses bus).busData (.busData bus)
      modify fun s =>
        { s with config := s.config.setBus bus { s.config.busses bus with busData := none } }

/-- The outer loop body of `conf_deinit`. -/
def discardShelf (bus : Fin maxBusses) : DiscardM Unit := do
  forAll (discardDev bus) (List.finRange maxIoDevices)
  discardBus bus

def confDeinit : DiscardM Int := do
  modify fun s => { s with config := { s.config with numBusses := 0 } }
  forAll discardShelf (List.finRange maxBusses)
  return exitSuccess

/-- The block that a place points to, if any. -/
def blockOf {α : Type} (p : Option α) (block : Block) : List Block :=
  if p.isSome then [block] else []

/-- The blocks that a shelf's driver has given out, in the order in which they go back. -/
def Shelf.blocks (shelf : Shelf) (b : Fin maxBusses) : List Block :=
  if shelf.bus.drvHandle.isSome then
    ((List.finRange maxIoDevices).flatMap fun d =>
      blockOf (shelf.devices d).devBusData (.devBusData (b, d))) ++
      blockOf shelf.bus.busData (.busData b)
  else []

def Shelf.discardDevs (shelf : Shelf) (devs : List (Fin maxIoDevices)) : Shelf :=
  { shelf with
    devices := fun d =>
      if d ∈ devs then shelf.devices d else { shelf.devices d with devBusData := none } }

/-- A shelf with its pointers cleared, if there is a driver to do it. -/
def Shelf.discarded (shelf : Shelf) : Shelf :=
  if shelf.bus.drvHandle.isSome then
    { shelf.discardDevs [] with bus := { shelf.bus with busData := none } }
  else shelf

/-- All blocks that `conf_deinit` finds. -/
def IoConfig.blocks (config : IoConfig BusHandle DevHandle) : List Block :=
  (List.finRange maxBusses).flatMap fun b => (config.shelf b).blocks b

def Block.bus : Block → Fin maxBusses
  | .busData bus => bus
  | .devBusData slot => slot.1

/-- The place of the block points to memory. -/
def IoConfig.Holds (config : IoConfig BusHandle DevHandle) : Block → Prop
  | .busData b => (config.busses b).busData.isSome
  | .devBusData slot => (config.devices slot).devBusData.isSome

section Blocks

variable {config : IoConfig BusHandle DevHandle} {b : Fin maxBusses} {block : Block}

theorem mem_blockOf {α : Type} {p : Option α} {other : Block} :
    other ∈ blockOf p block ↔ p.isSome ∧ other = block := by
  cases p <;> simp [blockOf]

theorem nodup_blockOf {α : Type} (p : Option α) : (blockOf p block).Nodup := by
  cases p <;> simp [blockOf]

theorem mem_shelf_blocks :
    block ∈ (config.shelf b).blocks b ↔
      (config.busses b).drvHandle.isSome ∧ block.bus = b ∧ config.Holds block := by
  have hdrv : (config.shelf b).bus.drvHandle = (config.busses b).drvHandle := rfl
  unfold Shelf.blocks
  rw [hdrv]
  split
  · next htyped =>
      simp only [htyped, true_and, List.mem_append, List.mem_flatMap, mem_blockOf]
      constructor
      · rintro (⟨d, -, hsome, rfl⟩ | ⟨hsome, rfl⟩)
        · exact ⟨rfl, hsome⟩
        · exact ⟨rfl, hsome⟩
      · rintro ⟨rfl, hholds⟩
        cases block with
        | busData bus => exact .inr ⟨hholds, rfl⟩
        | devBusData slot => exact .inl ⟨slot.2, List.mem_finRange _, hholds, rfl⟩
  · next huntyped => simp [huntyped]

theorem nodup_shelf_blocks (shelf : Shelf) (b : Fin maxBusses) : (shelf.blocks b).Nodup := by
  unfold Shelf.blocks
  split
  · apply List.nodup_append.mpr
    refine ⟨?_, nodup_blockOf _, ?_⟩
    · apply List.pairwise_flatMap.mpr
      refine ⟨fun d _ => nodup_blockOf _, (List.nodup_finRange _).imp ?_⟩
      intro d d' hne block hblock other hother hsame
      obtain ⟨-, rfl⟩ := mem_blockOf.mp hblock
      obtain ⟨-, rfl⟩ := mem_blockOf.mp hother
      exact hne (congrArg Prod.snd (Block.devBusData.inj hsame))
    · intro block hblock other hother
      obtain ⟨d, -, hd⟩ := List.mem_flatMap.mp hblock
      obtain ⟨-, rfl⟩ := mem_blockOf.mp hd
      obtain ⟨-, rfl⟩ := mem_blockOf.mp hother
      exact Block.noConfusion
  · exact List.nodup_nil

theorem mem_blocks : block ∈ config.blocks ↔
    (config.busses block.bus).drvHandle.isSome ∧ config.Holds block := by
  simp only [IoConfig.blocks, List.mem_flatMap, List.mem_finRange, true_and, mem_shelf_blocks]
  constructor
  · rintro ⟨b, htyped, rfl, hholds⟩
    exact ⟨htyped, hholds⟩
  · rintro ⟨htyped, hholds⟩
    exact ⟨block.bus, htyped, rfl, hholds⟩

theorem nodup_blocks (config : IoConfig BusHandle DevHandle) : config.blocks.Nodup := by
  apply List.pairwise_flatMap.mpr
  refine ⟨fun b _ => nodup_shelf_blocks _ b, (List.nodup_finRange _).imp ?_⟩
  intro b b' hne block hblock other hother hsame
  obtain ⟨-, hb, -⟩ := mem_shelf_blocks.mp hblock
  obtain ⟨-, hb', -⟩ := mem_shelf_blocks.mp hother
  exact hne (hb.symm.trans ((congrArg Block.bus hsame).trans hb'))

end Blocks

section Discarded

variable {shelf : Shelf} (d : Fin maxIoDevices)

theorem discarded_busData (htyped : shelf.bus.drvHandle.isSome) :
    shelf.discarded.bus.busData = none := by
  rw [Shelf.discarded, if_pos htyped]

theorem discarded_devBusData (htyped : shelf.bus.drvHandle.isSome) :
    (shelf.discarded.devices d).devBusData = none := by
  rw [Shelf.discarded, if_pos htyped]
  rfl

theorem discarded_devData : (shelf.discarded.devices d).devData = (shelf.devices d).devData := by
  unfold Shelf.discarded
  split
  · rfl
  · rfl

end Discarded

section Devices

variable {s t : Discarding} {b : Fin maxBusses} {d : Fin maxIoDevices}

/-- In the midst of the inner loop: the devices in `devs` are left. -/
structure DevsLeft (s : Discarding) (b : Fin maxBusses) (devs : List (Fin maxIoDevices))
    (t : Discarding) : Prop where
  nodup : devs.Nodup
  numBusses : t.config.numBusses = s.config.numBusses
  shelf : t.config.shelf b = (s.config.shelf b).discardDevs devs
  others : ∀ other, other ≠ b → t.config.shelf other = s.config.shelf other
  freed : t.freed ++ (devs.flatMap fun d =>
      blockOf ((s.config.shelf b).devices d).devBusData (.devBusData (b, d))) =
    s.freed ++ (List.finRange maxIoDevices).flatMap fun d =>
      blockOf ((s.config.shelf b).devices d).devBusData (.devBusData (b, d))

theorem discardDev_typed (htyped : (s.config.busses b).drvHandle.isSome) :
    discardDev b d s = .ok () ⟨s.config.setDev (b, d)
        { s.config.devices (b, d) with devBusData := none },
      s.freed ++ blockOf (s.config.devices (b, d)).devBusData (.devBusData (b, d))⟩ := by
  obtain ⟨handle, hhandle⟩ := Option.isSome_iff_exists.mp htyped
  cases handle
  unfold discardDev
  rw [bind_of_ok (run_get s), hhandle]
  rfl

theorem discardDev_untyped (huntyped : (s.config.busses b).drvHandle = none) :
    discardDev b d s = .ok () s := by
  unfold discardDev
  rw [bind_of_ok (run_get s), huntyped]
  rfl

theorem discardDevs_cons {shelf : Shelf} {devs : List (Fin maxIoDevices)} (hd : d ∉ devs) :
    (shelf.discardDevs (d :: devs)).changeDev d.val (fun dev => { dev with devBusData := none }) =
      shelf.discardDevs devs := by
  have hdevices (d' : Fin maxIoDevices) :
      ((shelf.discardDevs (d :: devs)).changeDev d.val
        (fun dev => { dev with devBusData := none })).devices d' =
        (shelf.discardDevs devs).devices d' := by
    rw [changeDev_apply]
    rcases eq_or_ne d' d with rfl | hne
    · simp [Shelf.discardDevs, hd]
    · have hval : ¬ (d'.val : Int) = d.val := fun h => hne (Fin.ext (Int.ofNat.inj h))
      simp [Shelf.discardDevs, hval, hne]
  exact congrArg (Shelf.mk shelf.bus) (funext hdevices)

theorem discardDev_left (htyped : (s.config.busses b).drvHandle.isSome)
    (devs : List (Fin maxIoDevices)) :
    Returns (DevsLeft s b (d :: devs)) (discardDev b d) (fun _ => DevsLeft s b devs) := by
  intro t ht
  obtain ⟨hd, hdevs⟩ := List.nodup_cons.mp ht.nodup
  have hbus : t.config.busses b = s.config.busses b := congrArg Shelf.bus ht.shelf
  have hdev : t.config.devices (b, d) = s.config.devices (b, d) := by
    have hmem := congrFun (congrArg Shelf.devices ht.shelf) d
    simp only [Shelf.discardDevs, List.mem_cons_self, if_true] at hmem
    exact hmem
  refine ⟨(), _, discardDev_typed (by rw [hbus]; exact htyped), hdevs, ht.numBusses, ?_, ?_, ?_⟩
  · rw [shelf_setDev_same t.config b d fun dev => { dev with devBusData := none }, ht.shelf]
    exact discardDevs_cons hd
  · intro other hother
    rw [shelf_setDev_other _ _ _ hother]
    exact ht.others other hother
  · rw [← ht.freed, hdev, List.flatMap_cons, List.append_assoc]
    rfl

theorem devs_untyped (huntyped : (s.config.busses b).drvHandle = none)
    (devs : List (Fin maxIoDevices)) : forAll (discardDev b) devs s = .ok () s := by
  induction devs with
  | nil => rfl
  | cons d devs ih => rw [forAll, bind_of_ok (discardDev_untyped huntyped), ih]

end Devices

section Busses

variable {s t : Discarding} {b : Fin maxBusses}

/-- The shelf has been discarded, and nothing else. -/
structure ShelfDone (s : Discarding) (b : Fin maxBusses) (t : Discarding) : Prop where
  numBusses : t.config.numBusses = s.config.numBusses
  shelf : t.config.shelf b = (s.config.shelf b).discarded
  others : ∀ other, other ≠ b → t.config.shelf other = s.config.shelf other
  freed : t.freed = s.freed ++ (s.config.shelf b).blocks b

theorem discardShelf_done (s : Discarding) (b : Fin maxBusses) :
    ∃ t, discardShelf b s = .ok () t ∧ ShelfDone s b t := by
  cases hhandle : (s.config.busses b).drvHandle with
  | none =>
      have huntyped : ¬ (s.config.shelf b).bus.drvHandle.isSome := by
        show ¬ (s.config.busses b).drvHandle.isSome
        simp [hhandle]
      have hbus : discardBus b s = .ok () s := by
        unfold discardBus
        rw [bind_of_ok (run_get s), hhandle]
        rfl
      refine ⟨s, ?_, rfl, ?_, fun _ _ => rfl, ?_⟩
      · rw [discardShelf, bind_of_ok (devs_untyped hhandle _), hbus]
      · rw [Shelf.discarded, if_neg huntyped]
      · rw [Shelf.blocks, if_neg huntyped, List.append_nil]
  | some handle =>
      have htyped : (s.config.shelf b).bus.drvHandle.isSome := by
        show (s.config.busses b).drvHandle.isSome
        simp [hhandle]
      have hstart : DevsLeft s b (List.finRange maxIoDevices) s := by
        refine ⟨List.nodup_finRange _, rfl, ?_, fun _ _ => rfl, rfl⟩
        simp [Shelf.discardDevs]
      obtain ⟨⟨⟩, t, hdevs, ht⟩ := forAll_returns (fun _ devs => discardDev_left htyped devs) _ s
        hstart
      have hbus : t.config.busses b = s.config.busses b := congrArg Shelf.bus ht.shelf
      have hrun : discardBus b t = .ok () ⟨t.config.setBus b
          { t.config.busses b with busData := none },
          t.freed ++ blockOf (t.config.busses b).busData (.busData b)⟩ := by
        cases handle
        unfold discardBus
        rw [bind_of_ok (run_get t), hbus, hhandle, ← hbus]
        rfl
      refine ⟨_, (bind_of_ok hdevs).trans hrun, ht.numBusses, ?_, ?_, ?_⟩
      · rw [shelf_setBus_same, ht.shelf, Shelf.discarded, if_pos htyped, hbus]
        rfl
      · intro other hother
        rw [shelf_setBus_other _ _ hother]
        exact ht.others other hother
      · have hfreed := ht.freed
        rw [List.flatMap_nil, List.append_nil] at hfreed
        rw [Shelf.blocks, if_pos htyped, hfreed, hbus, List.append_assoc]
        rfl

/-- In the midst of the outer loop: the buses in `busses` are left. -/
structure BussesLeft (s : Discarding) (busses : List (Fin maxBusses)) (t : Discarding) : Prop where
  nodup : busses.Nodup
  numBusses : t.config.numBusses = 0
  left : ∀ b ∈ busses, t.config.shelf b = s.config.shelf b
  done : ∀ b, b ∉ busses → t.config.shelf b = (s.config.shelf b).discarded
  freed : t.freed ++ (busses.flatMap fun b => (s.config.shelf b).blocks b) =
    s.freed ++ s.config.blocks

theorem discardShelf_left (s : Discarding) (b : Fin maxBusses) (busses : List (Fin maxBusses)) :
    Returns (BussesLeft s (b :: busses)) (discardShelf b) (fun _ => BussesLeft s busses) := by
  intro t ht
  obtain ⟨hb, hbusses⟩ := List.nodup_cons.mp ht.nodup
  have hshelf := ht.left b (List.mem_cons_self ..)
  obtain ⟨u, hrun, hu⟩ := discardShelf_done t b
  refine ⟨(), u, hrun, hbusses, hu.numBusses.trans ht.numBusses, ?_, ?_, ?_⟩
  · intro other hother
    have hne : other ≠ b := fun h => hb (h ▸ hother)
    rw [hu.others other hne]
    exact ht.left other (List.mem_cons_of_mem _ hother)
  · intro other hother
    rcases eq_or_ne other b with rfl | hne
    · rw [hu.shelf, hshelf]
    · rw [hu.others other hne]
      refine ht.done other fun hmem => ?_
      exact (List.mem_cons.mp hmem).elim hne hother
  · rw [hu.freed, hshelf, ← ht.freed, List.flatMap_cons, List.append_assoc]

/-- `conf_deinit` gives back every block of a bus that has a driver, and nothing twice. -/
theorem confDeinit_run (s : Discarding) :
    ∃ t, confDeinit s = .ok exitSuccess t ∧ t.config.numBusses = 0 ∧
      (∀ b, t.config.shelf b = (s.config.shelf b).discarded) ∧
      t.freed = s.freed ++ s.config.blocks := by
  have hstart : BussesLeft s (List.finRange maxBusses)
      { s with config := { s.config with numBusses := 0 } } :=
    ⟨List.nodup_finRange _, rfl, fun _ _ => rfl, fun b hb => absurd (List.mem_finRange b) hb, rfl⟩
  obtain ⟨⟨⟩, t, hloop, ht⟩ := forAll_returns (fun b busses => discardShelf_left s b busses) _ _
    hstart
  refine ⟨t, ?_, ht.numBusses, fun b => ht.done b List.not_mem_nil, ?_⟩
  · unfold confDeinit
    rw [bind_of_ok (run_modify _ _), bind_of_ok hloop]
    rfl
  · have hfreed := ht.freed
    rwa [List.flatMap_nil, List.append_nil] at hfreed

end Busses

end Switcher
