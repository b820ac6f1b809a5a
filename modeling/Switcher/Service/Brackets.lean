import Switcher.Io.Lifecycle
import Switcher.Service.Bounds

/-!
When a sequence of driver calls is properly bracketed, and that the calls of two
passes over the configured devices, with requests between them, always are.
-/

namespace Switcher

variable {ω δ β W α : Type} (busTable : ω → BusDrv W) (table : δ → DevDrv ω δ β W)

section Statement

variable (config : IoConfig ω δ)

def hasBusHook (f : BusDrv W → Option (BusM W Int)) (b : Fin maxBusses) : Bool :=
  ((config.busses b).drvHandle.bind fun handle => f (busTable handle)).isSome

def hasDevHook (f : DevDrv ω δ β W → Option (IoBus ω → DrvM δ β W Int)) (slot : Slot) : Bool :=
  ((config.devices slot).drvHandle.bind fun handle => f (table handle)).isSome

/-- The order in which driver calls have to come. -/
inductive MustPrecede : HookCall → HookCall → Prop where
  | openInit (b : Fin maxBusses) (d : Fin maxIoDevices) :
      MustPrecede (.openBus b) (.init (b, d))
  | initIo (slot : Slot) (call : DrvCall) (h : call.indices = (↑slot.1.val, ↑slot.2.val)) :
      MustPrecede (.init slot) (.io call)
  | ioDeinit (slot : Slot) (call : DrvCall) (h : call.indices = (↑slot.1.val, ↑slot.2.val)) :
      MustPrecede (.io call) (.deinit slot)
  | initDeinit (slot : Slot) : MustPrecede (.init slot) (.deinit slot)
  | deinitClose (b : Fin maxBusses) (d : Fin maxIoDevices) :
      MustPrecede (.deinit (b, d)) (.closeBus b)

/-- Every hook that is there is called once for each configured bus or device and
no other, and no call comes behind one that it must precede. -/
structure Bracketed (trace : List HookCall) : Prop where
  opened : ∀ b, trace.count (.openBus b) =
    if (b.val : Int) < config.numBusses ∧ hasBusHook busTable config (·.openBus) b then 1 else 0
  closed : ∀ b, trace.count (.closeBus b) =
    if (b.val : Int) < config.numBusses ∧ hasBusHook busTable config (·.closeBus) b then 1 else 0
  initialised : ∀ slot, trace.count (.init slot) =
    if config.HasSlot slot ∧ hasDevHook table config (·.init) slot then 1 else 0
  deinitialised : ∀ slot, trace.count (.deinit slot) =
    if config.HasSlot slot ∧ hasDevHook table config (·.deinit) slot then 1 else 0
  reached : ∀ call, .io call ∈ trace → config.InRange call.indices.1 call.indices.2
  ordered : trace.Pairwise fun earlier later => ¬ MustPrecede later earlier

/-- Further calls can make the trace a bracketed one. -/
def Bracketable (trace : List HookCall) : Prop :=
  ∃ later, Bracketed busTable table config (trace ++ later)

/-- Any calls of configured devices may follow. -/
def Receptive (trace : List HookCall) : Prop :=
  ∀ calls : List DrvCall, (∀ call ∈ calls, config.InRange call.indices.1 call.indices.2) →
    Bracketable busTable table config (trace ++ calls.map .io)

end Statement

section Passes

/-- What a function of the index contributes at a position of a loop. -/
def atIndex {n : Nat} (f : Fin n → List α) (i : Nat) : List α :=
  if h : i < n then f ⟨i, h⟩ else []

/-- The calls of two nested loops over the buses and their devices. -/
def passTrace (config : IoConfig ω δ) (head : Fin maxBusses → List HookCall)
    (inner : Slot → List HookCall) (tail : Fin maxBusses → List HookCall) : List HookCall :=
  (List.range config.numBusses.toNat).flatMap <| atIndex fun b =>
    head b ++ (List.range (config.busses b).numDevices.toNat).flatMap
      (atIndex fun d => inner (b, d)) ++ tail b

def noteIf (present : Bool) (call : HookCall) : List HookCall := if present then [call] else []

variable (config : IoConfig ω δ)

def initTrace : List HookCall :=
  passTrace config (fun b => noteIf (hasBusHook busTable config (·.openBus) b) (.openBus b))
    (fun slot => noteIf (hasDevHook table config (·.init) slot) (.init slot)) fun _ => []

def deinitTrace : List HookCall :=
  passTrace config (fun _ => [])
    (fun slot => noteIf (hasDevHook table config (·.deinit) slot) (.deinit slot))
    fun b => noteIf (hasBusHook busTable config (·.closeBus) b) (.closeBus b)

end Passes

section Counting

variable {a : α} {n : Nat}

theorem mem_atIndex {f : Fin n → List α} {i : Nat} :
    a ∈ atIndex f i ↔ ∃ h : i < n, a ∈ f ⟨i, h⟩ := by
  unfold atIndex
  split
  · rename_i h
    exact ⟨fun ha => ⟨h, ha⟩, fun ⟨_, ha⟩ => ha⟩
  · rename_i h
    exact ⟨fun ha => absurd ha List.not_mem_nil, fun ⟨h', _⟩ => absurd h' h⟩

theorem mem_rounds {f : Fin n → List α} {m : Nat}
    (h : a ∈ (List.range m).flatMap (atIndex f)) : ∃ i, a ∈ f i := by
  obtain ⟨j, -, hj⟩ := List.mem_flatMap.mp h
  obtain ⟨hlt, hmem⟩ := mem_atIndex.mp hj
  exact ⟨⟨j, hlt⟩, hmem⟩

/-- What only one round of a loop contributes. -/
theorem count_rounds [DecidableEq α] {f : Fin n → List α} (k : Fin n)
    (hf : ∀ i, a ∈ f i → i = k) (m : Nat) :
    ((List.range m).flatMap (atIndex f)).count a = if k.val < m then (f k).count a else 0 := by
  induction m with
  | zero => simp
  | succ m ih =>
      rw [List.range_succ, List.flatMap_append, List.flatMap_singleton, List.count_append, ih]
      by_cases hm : m = k.val
      · rw [if_neg (by omega), if_pos (by omega), hm, atIndex, dif_pos k.isLt, Nat.zero_add]
      · have hnot : a ∉ atIndex f m := by
          intro ha
          obtain ⟨h, hmem⟩ := mem_atIndex.mp ha
          exact hm (congrArg Fin.val (hf _ hmem))
        rw [List.count_eq_zero_of_not_mem hnot, Nat.add_zero]
        by_cases hk : k.val < m
        · rw [if_pos hk, if_pos (by omega)]
        · rw [if_neg hk, if_neg (by omega)]

variable {present : Bool} {call : HookCall}

theorem mem_noteIf {other : HookCall} : other ∈ noteIf present call ↔ present ∧ other = call := by
  cases present with
  | false => simp [noteIf]
  | true => simp [noteIf]

theorem count_noteIf : (noteIf present call).count call = if present then 1 else 0 := by
  cases present with
  | false => rfl
  | true => simp [noteIf]

variable {config : IoConfig ω δ} {head tail : Fin maxBusses → List HookCall}
  {inner : Slot → List HookCall}

theorem mem_passTrace (h : call ∈ passTrace config head inner tail) :
    ∃ b, call ∈ head b ∨ (∃ d, call ∈ inner (b, d)) ∨ call ∈ tail b := by
  obtain ⟨b, hmem⟩ := mem_rounds h
  refine ⟨b, ?_⟩
  rcases List.mem_append.mp hmem with hmem | hmem
  · rcases List.mem_append.mp hmem with hmem | hmem
    · exact .inl hmem
    · exact .inr (.inl (mem_rounds hmem))
  · exact .inr (.inr hmem)

/-- How often a pass makes a call of one bus. -/
theorem count_bus (b : Fin maxBusses) (hhead : ∀ b', call ∈ head b' → b' = b)
    (htail : ∀ b', call ∈ tail b' → b' = b) (hinner : ∀ slot, call ∉ inner slot) :
    (passTrace config head inner tail).count call =
      if (b.val : Int) < config.numBusses then (head b).count call + (tail b).count call
      else 0 := by
  have hnot (b' : Fin maxBusses) (m : Nat) :
      call ∉ (List.range m).flatMap (atIndex fun d => inner (b', d)) := by
    intro hmem
    obtain ⟨d, hmem⟩ := mem_rounds hmem
    exact hinner _ hmem
  rw [passTrace, count_rounds b]
  · rw [List.count_append, List.count_append, List.count_eq_zero_of_not_mem (hnot b _),
      Nat.add_zero]
    simp only [Int.lt_toNat]
  · intro b' hb'
    rcases List.mem_append.mp hb' with hmem | hmem
    · exact hhead b' ((List.mem_append.mp hmem).resolve_right (hnot b' _))
    · exact htail b' hmem

/-- How often a pass makes a call of one device. -/
theorem count_dev (slot : Slot) (hinner : ∀ slot', call ∈ inner slot' → slot' = slot)
    (hhead : ∀ b, call ∉ head b) (htail : ∀ b, call ∉ tail b) :
    (passTrace config head inner tail).count call =
      if config.HasSlot slot then (inner slot).count call else 0 := by
  rw [passTrace, count_rounds slot.1]
  · rw [List.count_append, List.count_append, List.count_eq_zero_of_not_mem (hhead _),
      List.count_eq_zero_of_not_mem (htail _), Nat.zero_add, Nat.add_zero, count_rounds slot.2]
    · simp only [Int.lt_toNat]
      exact (ite_and ..).symm
    · intro d hd
      exact (Prod.mk.inj (hinner _ hd)).2
  · intro b hb
    rcases List.mem_append.mp hb with hmem | hmem
    · obtain ⟨d, hmem⟩ := mem_rounds ((List.mem_append.mp hmem).resolve_left (hhead b))
      exact (Prod.mk.inj (hinner _ hmem)).1
    · exact absurd hmem (htail b)

end Counting

section Order

/-- The order in which the calls of one bus come. -/
def HookCall.rank : HookCall → Nat
  | .openBus _ => 0
  | .init _ => 1
  | .io _ => 2
  | .deinit _ => 3
  | .closeBus _ => 4

def HookCall.bus : HookCall → Option (Fin maxBusses)
  | .openBus b => some b
  | .init slot => some slot.1
  | .io _ => none
  | .deinit slot => some slot.1
  | .closeBus b => some b

theorem MustPrecede.rank_lt {x y : HookCall} (h : MustPrecede x y) : x.rank < y.rank := by
  cases h with
  | openInit b d => exact Nat.zero_lt_one
  | initIo slot call h => exact Nat.lt_succ_self 1
  | ioDeinit slot call h => exact Nat.lt_succ_self 2
  | initDeinit slot => exact Nat.lt_trans (Nat.lt_succ_self 1) (Nat.lt_succ_self 2)
  | deinitClose b d => exact Nat.lt_succ_self 3

theorem MustPrecede.bus_eq {x y : HookCall} (h : MustPrecede x y) {b b' : Fin maxBusses}
    (hx : x.bus = some b) (hy : y.bus = some b') : b = b' := by
  cases h with
  | openInit b d => exact Option.some.inj (hx.symm.trans hy)
  | initIo slot call h => cases hy
  | ioDeinit slot call h => cases hx
  | initDeinit slot => exact Option.some.inj (hx.symm.trans hy)
  | deinitClose b d => exact Option.some.inj (hx.symm.trans hy)

def InOrder (earlier later : HookCall) : Prop := ¬ MustPrecede later earlier

theorem inOrder_of_rank {x y : HookCall} (h : x.rank ≤ y.rank) : InOrder x y :=
  fun hprecede => absurd hprecede.rank_lt (Nat.not_lt.mpr h)

/-- Calls in front of and behind a rank. -/
theorem ordered_append {l m : List HookCall} (hl : l.Pairwise InOrder) (hm : m.Pairwise InOrder)
    {k : Nat} (hlow : ∀ x ∈ l, x.rank ≤ k) (hhigh : ∀ y ∈ m, k ≤ y.rank) :
    (l ++ m).Pairwise InOrder := by
  rw [List.pairwise_append]
  exact ⟨hl, hm, fun x hx y hy => inOrder_of_rank ((hlow x hx).trans (hhigh y hy))⟩

theorem rank_of_mem_noteIf {present : Bool} {call x : HookCall} (h : x ∈ noteIf present call) :
    x.rank = call.rank := by
  rw [(mem_noteIf.mp h).2]

theorem bus_of_mem_noteIf {present : Bool} {call x : HookCall} (h : x ∈ noteIf present call) :
    x.bus = call.bus := by
  rw [(mem_noteIf.mp h).2]

theorem ordered_of_rank {l : List HookCall} {k : Nat} (h : ∀ x ∈ l, x.rank = k) :
    l.Pairwise InOrder := by
  apply List.pairwise_of_forall_mem_list
  intro x hx y hy
  apply inOrder_of_rank
  rw [h x hx, h y hy]

variable {config : IoConfig ω δ} {head tail : Fin maxBusses → List HookCall}
  {inner : Slot → List HookCall}

/-- A pass is in order if each of its rounds is: they concern different buses. -/
theorem passTrace_ordered {i j k : Nat} (hij : i ≤ j) (hjk : j ≤ k)
    (hhead : ∀ b, ∀ x ∈ head b, x.bus = some b ∧ x.rank = i)
    (hinner : ∀ slot, ∀ x ∈ inner slot, x.bus = some slot.1 ∧ x.rank = j)
    (htail : ∀ b, ∀ x ∈ tail b, x.bus = some b ∧ x.rank = k) :
    (passTrace config head inner tail).Pairwise InOrder := by
  have hdevs (b : Fin maxBusses) (m : Nat) : ∀ x ∈ (List.range m).flatMap
      (atIndex fun d => inner (b, d)), x.bus = some b ∧ x.rank = j := by
    intro x hx
    obtain ⟨d, hmem⟩ := mem_rounds hx
    exact hinner _ x hmem
  have hround (b : Fin maxBusses) (m : Nat) : (head b ++ (List.range m).flatMap
      (atIndex fun d => inner (b, d)) ++ tail b).Pairwise InOrder := by
    have hfront : (head b ++ (List.range m).flatMap
        (atIndex fun d => inner (b, d))).Pairwise InOrder := by
      apply ordered_append (k := i)
      · exact ordered_of_rank fun x hx => (hhead b x hx).2
      · exact ordered_of_rank fun x hx => (hdevs b m x hx).2
      · exact fun x hx => (hhead b x hx).2.le
      · exact fun y hy => hij.trans (hdevs b m y hy).2.ge
    apply ordered_append (k := j) hfront
    · exact ordered_of_rank fun x hx => (htail b x hx).2
    · intro x hx
      rcases List.mem_append.mp hx with hx | hx
      · exact (hhead b x hx).2.trans_le hij
      · exact (hdevs b m x hx).2.le
    · exact fun y hy => hjk.trans (htail b y hy).2.ge
  have hbus (b : Fin maxBusses) (m : Nat) : ∀ x ∈ head b ++ (List.range m).flatMap
      (atIndex fun d => inner (b, d)) ++ tail b, x.bus = some b := by
    intro x hx
    rcases List.mem_append.mp hx with hx | hx
    · rcases List.mem_append.mp hx with hx | hx
      · exact (hhead b x hx).1
      · exact (hdevs b m x hx).1
    · exact (htail b x hx).1
  rw [passTrace, List.pairwise_flatMap]
  constructor
  · intro b _
    unfold atIndex
    split
    · exact hround _ _
    · exact List.Pairwise.nil
  · refine List.pairwise_lt_range.imp ?_
    intro b b' hlt x hx y hy hprecede
    obtain ⟨hb, hx⟩ := mem_atIndex.mp hx
    obtain ⟨hb', hy⟩ := mem_atIndex.mp hy
    have heq := congrArg Fin.val (hprecede.bus_eq (hbus _ _ y hy) (hbus _ _ x hx))
    simp only at heq
    omega

end Order

section Bracketed

variable {busTable table} {config : IoConfig ω δ}

theorem rank_initTrace {x : HookCall} (hx : x ∈ initTrace busTable table config) : x.rank ≤ 1 := by
  obtain ⟨b, hx | ⟨d, hx⟩ | hx⟩ := mem_passTrace hx
  · rw [rank_of_mem_noteIf hx]
    exact Nat.zero_le 1
  · exact (rank_of_mem_noteIf hx).le
  · cases hx

theorem rank_deinitTrace {x : HookCall} (hx : x ∈ deinitTrace busTable table config) :
    3 ≤ x.rank := by
  obtain ⟨b, hx | ⟨d, hx⟩ | hx⟩ := mem_passTrace hx
  · cases hx
  · exact (rank_of_mem_noteIf hx).ge
  · rw [rank_of_mem_noteIf hx]
    exact Nat.le_succ 3

theorem initTrace_ordered : (initTrace busTable table config).Pairwise InOrder := by
  apply passTrace_ordered (i := 0) (j := 1) (k := 1) (Nat.zero_le 1) (Nat.le_refl 1)
  · exact fun b x hx => ⟨bus_of_mem_noteIf hx, rank_of_mem_noteIf hx⟩
  · exact fun slot x hx => ⟨bus_of_mem_noteIf hx, rank_of_mem_noteIf hx⟩
  · intro b x hx
    cases hx

theorem deinitTrace_ordered : (deinitTrace busTable table config).Pairwise InOrder := by
  apply passTrace_ordered (i := 3) (j := 3) (k := 4) (Nat.le_refl 3) (Nat.le_succ 3)
  · intro b x hx
    cases hx
  · exact fun slot x hx => ⟨bus_of_mem_noteIf hx, rank_of_mem_noteIf hx⟩
  · exact fun b x hx => ⟨bus_of_mem_noteIf hx, rank_of_mem_noteIf hx⟩

theorem count_openBus (b : Fin maxBusses) :
    (initTrace busTable table config).count (.openBus b) =
      if (b.val : Int) < config.numBusses ∧ hasBusHook busTable config (·.openBus) b then 1
      else 0 := by
  rw [initTrace, count_bus b]
  · simp only [count_noteIf, List.count_nil, Nat.add_zero]
    exact (ite_and ..).symm
  · intro b' hb'
    exact (HookCall.openBus.inj (mem_noteIf.mp hb').2).symm
  · intro b' hb'
    cases hb'
  · intro slot hslot
    cases (mem_noteIf.mp hslot).2

theorem count_closeBus (b : Fin maxBusses) :
    (deinitTrace busTable table config).count (.closeBus b) =
      if (b.val : Int) < config.numBusses ∧ hasBusHook busTable config (·.closeBus) b then 1
      else 0 := by
  rw [deinitTrace, count_bus b]
  · simp only [count_noteIf, List.count_nil, Nat.zero_add]
    exact (ite_and ..).symm
  · intro b' hb'
    cases hb'
  · intro b' hb'
    exact (HookCall.closeBus.inj (mem_noteIf.mp hb').2).symm
  · intro slot hslot
    cases (mem_noteIf.mp hslot).2

theorem count_init (slot : Slot) :
    (initTrace busTable table config).count (.init slot) =
      if config.HasSlot slot ∧ hasDevHook table config (·.init) slot then 1 else 0 := by
  rw [initTrace, count_dev slot]
  · simp only [count_noteIf]
    exact (ite_and ..).symm
  · intro slot' hslot'
    exact (HookCall.init.inj (mem_noteIf.mp hslot').2).symm
  · intro b hb
    cases (mem_noteIf.mp hb).2
  · intro b hb
    cases hb

theorem count_deinit (slot : Slot) :
    (deinitTrace busTable table config).count (.deinit slot) =
      if config.HasSlot slot ∧ hasDevHook table config (·.deinit) slot then 1 else 0 := by
  rw [deinitTrace, count_dev slot]
  · simp only [count_noteIf]
    exact (ite_and ..).symm
  · intro slot' hslot'
    exact (HookCall.deinit.inj (mem_noteIf.mp hslot').2).symm
  · intro b hb
    cases hb
  · intro b hb
    cases (mem_noteIf.mp hb).2

variable {calls : List DrvCall}

theorem rank_io {x : HookCall} (hx : x ∈ calls.map HookCall.io) : x.rank = 2 := by
  obtain ⟨call, -, rfl⟩ := List.mem_map.mp hx
  rfl

/-- What comes first is called by the first pass only. -/
theorem count_early {x : HookCall} (hx : x.rank ≤ 1) :
    (initTrace busTable table config ++ calls.map HookCall.io ++
      deinitTrace busTable table config).count x = (initTrace busTable table config).count x := by
  have hnotIo : x ∉ calls.map HookCall.io := by
    intro hmem
    have := rank_io hmem
    omega
  have hnotDeinit : x ∉ deinitTrace busTable table config := by
    intro hmem
    have := rank_deinitTrace hmem
    omega
  rw [List.count_append, List.count_append, List.count_eq_zero_of_not_mem hnotIo,
    List.count_eq_zero_of_not_mem hnotDeinit, Nat.add_zero]

/-- What comes last is called by the last pass only. -/
theorem count_late {x : HookCall} (hx : 3 ≤ x.rank) :
    (initTrace busTable table config ++ calls.map HookCall.io ++
      deinitTrace busTable table config).count x = (deinitTrace busTable table config).count x := by
  have hnotInit : x ∉ initTrace busTable table config := by
    intro hmem
    have := rank_initTrace hmem
    omega
  have hnotIo : x ∉ calls.map HookCall.io := by
    intro hmem
    have := rank_io hmem
    omega
  rw [List.count_append, List.count_append, List.count_eq_zero_of_not_mem hnotInit,
    List.count_eq_zero_of_not_mem hnotIo, Nat.add_zero, Nat.zero_add]

/-- The requests between the passes come after the one and before the other. -/
theorem ordered_of_traces : (initTrace busTable table config ++ calls.map HookCall.io ++
    deinitTrace busTable table config).Pairwise InOrder := by
  have hmiddle :
      (initTrace busTable table config ++ calls.map HookCall.io).Pairwise InOrder := by
    apply ordered_append (k := 1) initTrace_ordered (ordered_of_rank fun _ hx => rank_io hx)
    · exact fun x hx => rank_initTrace hx
    · intro y hy
      rw [rank_io hy]
      exact Nat.le_succ 1
  apply ordered_append (k := 2) hmiddle deinitTrace_ordered
  · intro x hx
    rcases List.mem_append.mp hx with hx | hx
    · exact (rank_initTrace hx).trans (Nat.le_succ 1)
    · exact (rank_io hx).le
  · intro y hy
    exact Nat.le_of_succ_le (rank_deinitTrace hy)

/-- Both passes with calls of configured devices between them. -/
theorem bracketed_of_traces
    (hcalls : ∀ call ∈ calls, config.InRange call.indices.1 call.indices.2) :
    Bracketed busTable table config
      (initTrace busTable table config ++ calls.map .io ++
        deinitTrace busTable table config) where
  opened b := (count_early (x := .openBus b) (Nat.zero_le 1)).trans (count_openBus b)
  closed b := (count_late (x := .closeBus b) (Nat.le_succ 3)).trans (count_closeBus b)
  initialised slot := (count_early (x := .init slot) (Nat.le_refl 1)).trans (count_init slot)
  deinitialised slot := (count_late (x := .deinit slot) (Nat.le_refl 3)).trans (count_deinit slot)
  reached call hcall := by
    rcases List.mem_append.mp hcall with hmem | hmem
    · rcases List.mem_append.mp hmem with hmem | hmem
      · exact absurd (rank_initTrace hmem) (by simp [HookCall.rank])
      · obtain ⟨call', hmem, heq⟩ := List.mem_map.mp hmem
        rw [← HookCall.io.inj heq]
        exact hcalls call' hmem
    · exact absurd (rank_deinitTrace hmem) (by simp [HookCall.rank])
  ordered := ordered_of_traces

end Bracketed

section Bracketable

variable {busTable table} {config : IoConfig ω δ} {trace : List HookCall} {call other : HookCall}

/-- The calls made so far are the first ones of a trace that is bracketable as a whole. -/
theorem Bracketable.append_left {more : List HookCall}
    (h : Bracketable busTable table config (trace ++ more)) :
    Bracketable busTable table config trace := by
  obtain ⟨later, hlater⟩ := h
  exact ⟨more ++ later, by rwa [← List.append_assoc]⟩

/-- Each round of a loop comes behind the rounds before it. -/
theorem Bracketable.round {part : Nat → List HookCall} {n i : Nat}
    (h : Bracketable busTable table config (trace ++ (List.range n).flatMap part)) (hi : i < n) :
    Bracketable busTable table config (trace ++ (List.range i).flatMap part ++ part i) := by
  obtain ⟨k, rfl⟩ : ∃ k, n = i + 1 + k := ⟨n - (i + 1), by omega⟩
  rw [List.range_add, List.flatMap_append, ← List.append_assoc] at h
  have hround := h.append_left
  rwa [List.range_succ, List.flatMap_append, List.flatMap_singleton, ← List.append_assoc] at hround

/-- What must come before a call, and comes at all, has come. -/
theorem Bracketed.mem_of_precedes {later : List HookCall}
    (h : Bracketed busTable table config (trace ++ [call] ++ later))
    (hprecede : MustPrecede other call) (hmem : other ∈ trace ++ [call] ++ later) :
    other ∈ trace := by
  rcases List.mem_append.mp hmem with hmem | hlater
  · rcases List.mem_append.mp hmem with htrace | hcall
    · exact htrace
    · rw [List.mem_singleton.mp hcall] at hprecede
      exact absurd hprecede.rank_lt (Nat.lt_irrefl _)
  · have hordered := (List.pairwise_append.mp h.ordered).2.2
    exact absurd hprecede
      (hordered call (List.mem_append_right _ (List.mem_singleton_self _)) other hlater)

/-- The device has been initialised by the time of a call that needs it. -/
theorem Bracketable.init_mem {slot : Slot} (hslot : config.HasSlot slot)
    (h : Bracketable busTable table config (trace ++ [call]))
    (hprecede : MustPrecede (.init slot) call)
    (hhook : hasDevHook table config (·.init) slot = true) : .init slot ∈ trace := by
  obtain ⟨later, hlater⟩ := h
  apply hlater.mem_of_precedes hprecede
  apply List.count_pos_iff.mp
  rw [hlater.initialised, if_pos ⟨hslot, hhook⟩]
  exact Nat.zero_lt_one

/-- What a call must precede has not come yet. -/
theorem Bracketable.not_mem (h : Bracketable busTable table config (trace ++ [call]))
    (hprecede : MustPrecede call other) : other ∉ trace := by
  obtain ⟨later, hlater⟩ := h
  intro hmem
  have hordered := (List.pairwise_append.mp (List.pairwise_append.mp hlater.ordered).1).2.2
  exact hordered other hmem call (List.mem_singleton_self _) hprecede

theorem Bracketable.deinit_notMem {slot : Slot}
    (h : Bracketable busTable table config (trace ++ [.deinit slot])) :
    .deinit slot ∉ trace := by
  obtain ⟨later, hlater⟩ := h
  intro hmem
  have hone : (trace ++ [HookCall.deinit slot] ++ later).count (HookCall.deinit slot) ≤ 1 := by
    rw [hlater.deinitialised]
    split <;> omega
  have hfirst := List.count_pos_iff.mpr hmem
  rw [List.count_append, List.count_append, List.count_singleton_self] at hone
  omega

/-- After `io_init` and any requests, more of them may come. -/
theorem initTrace_receptive {calls : List DrvCall}
    (hcalls : ∀ call ∈ calls, config.InRange call.indices.1 call.indices.2) :
    Receptive busTable table config (initTrace busTable table config ++ calls.map .io) := by
  intro more hmore
  refine ⟨deinitTrace busTable table config, ?_⟩
  rw [List.append_assoc (initTrace busTable table config), ← List.map_append]
  apply bracketed_of_traces
  intro call hcall
  rcases List.mem_append.mp hcall with hold | hnew
  · exact hcalls call hold
  · exact hmore call hnew

end Bracketable

end Switcher
