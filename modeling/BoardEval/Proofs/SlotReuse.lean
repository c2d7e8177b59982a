import BoardEval.Engine.Cpu

/-!
# Tenants of the processor engine

Every model that the processor engine loads moves into a slot. The number of the slot comes
from a 32-bit counter that wraps around, and nothing is checked: a load puts its model
under the next number whoever is there, and a release empties the slot whose number the
model carries, whoever is there.

Tenants, the models loaded and not yet released, are kept apart exactly as long as neither
of this happens: no model is loaded when the counter has come back to the number of a
tenant, and no model is released that is no tenant but carries the number of one. As long
as fewer models are loaded than there are numbers, and only tenants are released, both is
excluded.

The engine is taken alone, with its device. Handles and contexts are not part of this module.
-/

namespace BoardEval

/-- How many slot numbers there are. -/
def slotCount : Nat := 0x100000000

/-- The slot number of the model that was loaded after `n` others. -/
def slotNumber (n : Nat) : Int := (n + slotLimit) % slotCount - slotLimit

/-- The counter goes through the slot numbers in turn. -/
theorem slotNumber_succ (n : Nat) : slotNumber (n + 1) = CpuEngine.slotAfter (slotNumber n) := by
  unfold slotNumber CpuEngine.slotAfter slotLimit slotCount
  split <;> omega

/-- Two models get one number exactly if a whole round of the counter lies between them. -/
theorem slotNumber_eq_iff {m n : Nat} (order : m ≤ n) :
    slotNumber m = slotNumber n ↔ slotCount ∣ n - m := by
  unfold slotNumber slotLimit slotCount
  omega

/-- A model loaded and not yet released, with the number of models loaded before it. -/
structure Tenant where
  model : LoadedModel
  order : Nat

namespace Tenant

/-- The slot number that the model got when it was loaded. -/
def slot (t : Tenant) : Int := slotNumber t.order

/-- The entry under which the engine has put the model. -/
def entry (t : Tenant) : Int × CompiledModel :=
  (t.slot, ⟨t.model.version, t.model.config.maxBatchSize⟩)

end Tenant

/-- A processor engine beside the record of its tenants. -/
structure Tenancy where
  engine : CpuEngine
  tenants : List Tenant
  loads : Nat

namespace Tenancy

/-- A model is loaded, or released. Any model can be given to a release, also one that was
released before or comes from another engine. -/
inductive Call
  | load (d : Descriptor) (config : ModelConfig)
  | release (model : LoadedModel)

/-- Loads count up; releases do not. -/
def Call.isLoad : Call → Bool
  | .load .. => true
  | .release _ => false

/-- An engine that was just given its context. -/
def start (network : Network) (config : ContextConfig) : Tenancy :=
  ⟨(Engine.createContext (CpuEngine.new network) config).1, [], 0⟩

/-- A call of the engine. A load that succeeds adds a tenant; a release of a tenant takes it
away. -/
def call (t : Tenancy) : Call → Tenancy
  | .load d config =>
    match t.engine.loadModel d config with
    | (e, .ok model) => ⟨e, ⟨model, t.loads⟩ :: t.tenants, t.loads + 1⟩
    | (e, .error _) => { t with engine := e }
  | .release model =>
    ⟨t.engine.releaseModel model, t.tenants.eraseP fun tenant => tenant.model = model, t.loads⟩

/-- Calls one after the other. -/
def after (t : Tenancy) (calls : List Call) : Tenancy := calls.foldl call t

/-- No tenant interferes with another. They have different slots, the slot of each holds
the version and the capacity that it was loaded with, and no other slot is live. -/
structure Apart (t : Tenancy) : Prop where
  distinct : t.tenants.Pairwise fun a b => a.model.slot ≠ b.model.slot
  kept : ∀ tenant ∈ t.tenants, ∃ slot, tenant.model.slot = some slot ∧
    t.engine.slots.get? slot = some ⟨tenant.model.version, tenant.model.config.maxBatchSize⟩
  count : Engine.liveSlots t.engine = some t.tenants.length

/-- A call that takes the slot of a tenant from it: a load on which the counter has come
back to its number, or the release of a model that is no tenant and carries its number. -/
def Collides (t : Tenancy) : Call → Prop
  | .load _ _ => ∃ tenant ∈ t.tenants, slotCount ∣ t.loads - tenant.order
  | .release model => (∀ tenant ∈ t.tenants, tenant.model ≠ model) ∧
    ∃ tenant ∈ t.tenants, tenant.model.slot = model.slot

/-- What holds of every record, whatever was called. -/
structure Ready (t : Tenancy) : Prop where
  device : t.engine.hasDevice = true
  earlier : ∀ tenant ∈ t.tenants, tenant.order < t.loads

/-- The engine and the record of its tenants agree. -/
structure Exact (t : Tenancy) : Prop extends t.Ready where
  counter : t.engine.nextSlot = slotNumber t.loads
  placed : ∀ tenant ∈ t.tenants, tenant.model.slot = some tenant.slot
  distinct : (t.tenants.map Tenant.slot).Nodup
  entries : t.engine.slots.entries.Perm (t.tenants.map Tenant.entry)

/-- At first there are neither tenants nor slots. -/
theorem start_exact (network : Network) (config : ContextConfig) :
    (start network config).Exact where
  device := rfl
  counter := by show (0 : Int) = slotNumber 0; decide
  placed := by simp [start]
  earlier := by simp [start]
  distinct := .nil
  entries := .nil

section

variable {t : Tenancy}

/-- The record after one call more. -/
theorem after_cons (c : Call) (calls : List Call) :
    t.after (c :: calls) = (t.call c).after calls := rfl

/-- A load with a device succeeds, in the slot of the counter. -/
theorem loadModel_ok {e : CpuEngine} (device : e.hasDevice = true) (d : Descriptor)
    (config : ModelConfig) :
    e.loadModel d config = ((e.createSlot d config).1,
      .ok ⟨.secondary, e.network.version.getD d.version, some e.nextSlot, config⟩) := by
  simp [CpuEngine.loadModel, CpuEngine.createSlot, CpuEngine.compiled, device,
    SlotMap.get?_insert_self]

/-- A release empties the slot that the model carries, if anybody is there. -/
theorem releaseModel_slot (e : CpuEngine) {model : LoadedModel} {slot : Int}
    (here : model.slot = some slot) :
    e.releaseModel model = { e with slots := e.slots.erase slot } := by
  simp only [CpuEngine.releaseModel, here, CpuEngine.destroySlot]
  cases used : e.slots.contains slot with
  | true => rfl
  | false =>
    have unused : slot ∉ e.slots.slots := by simp [← SlotMap.contains_iff, used]
    rw [SlotMap.erase_unused unused]
    rfl

/-- A release empties at most a slot. -/
theorem releaseModel_frame (e : CpuEngine) (model : LoadedModel) :
    (e.releaseModel model).hasDevice = e.hasDevice ∧
      (e.releaseModel model).network = e.network := by
  cases here : model.slot with
  | none => simp only [CpuEngine.releaseModel, here, and_self]
  | some slot =>
    rw [releaseModel_slot e here]
    exact ⟨rfl, rfl⟩

/-- A release is no load. -/
theorem release_loads (model : LoadedModel) : (t.call (.release model)).loads = t.loads := rfl

/-- A release leaves the network. -/
theorem release_network (model : LoadedModel) :
    (t.call (.release model)).engine.network = t.engine.network :=
  (releaseModel_frame t.engine model).2

/-- A release of a model that is no tenant leaves the record alone. -/
theorem release_stranger {model : LoadedModel}
    (strange : ∀ tenant ∈ t.tenants, tenant.model ≠ model) :
    t.call (.release model) = { t with engine := t.engine.releaseModel model } := by
  rw [call, List.eraseP_of_forall_not]
  simpa using strange

namespace Ready

variable (ready : t.Ready)
include ready

/-- A load adds a tenant. -/
theorem call_load (d : Descriptor) (config : ModelConfig) :
    t.call (.load d config) = ⟨(t.engine.createSlot d config).1,
      ⟨⟨.secondary, t.engine.network.version.getD d.version, some t.engine.nextSlot, config⟩,
        t.loads⟩ :: t.tenants, t.loads + 1⟩ := by
  rw [call, loadModel_ok ready.device]

/-- Every call keeps the device and the order of the loads. -/
theorem call (c : Call) : (t.call c).Ready := by
  cases c with
  | load d config =>
    rw [ready.call_load]
    refine ⟨ready.device, ?_⟩
    intro tenant member
    rcases List.mem_cons.mp member with rfl | before
    · exact Nat.lt_succ_self _
    · exact Nat.lt_succ_of_lt (ready.earlier tenant before)
  | release model =>
    exact ⟨(releaseModel_frame _ _).1.trans ready.device,
      fun tenant member => ready.earlier tenant (List.mem_of_mem_eraseP member)⟩

/-- Any calls do. The induction is on them. -/
theorem after (calls : List Call) : (t.after calls).Ready := by
  induction calls generalizing t with
  | nil => exact ready
  | cons c calls inductionHypothesis => exact inductionHypothesis (ready.call c)

/-- Loads are counted. -/
theorem after_loads (calls : List Call) :
    (t.after calls).loads = t.loads + calls.countP Call.isLoad := by
  induction calls generalizing t with
  | nil => rfl
  | cons c calls inductionHypothesis =>
    rw [after_cons, inductionHypothesis (ready.call c), List.countP_cons]
    cases c with
    | load d config =>
      rw [ready.call_load]
      simp only [Call.isLoad, if_true]
      omega
    | release model => simp [release_loads, Call.isLoad]

end Ready

namespace Exact

variable (exact : t.Exact)
include exact

/-- The live slots are those of the tenants. -/
theorem slots : t.engine.slots.slots.Perm (t.tenants.map Tenant.slot) := by
  have both := exact.entries.map Prod.fst
  rw [List.map_map] at both
  exact both

/-- Where engine and record agree, each tenant has a live slot of its own, and there
are no other live slots. -/
theorem apart : t.Apart where
  distinct := by
    have slots := List.pairwise_map.mp exact.distinct
    apply slots.imp_of_mem
    intro a b first second other same
    rw [exact.placed a first, exact.placed b second] at same
    exact other (Option.some.inj same)
  kept := by
    intro tenant member
    have listed := exact.entries.mem_iff.mpr (List.mem_map_of_mem member)
    exact ⟨tenant.slot, exact.placed tenant member,
      SlotMap.get?_of_mem (exact.slots.nodup_iff.mpr exact.distinct) listed⟩
  count := by
    have length := exact.entries.length_eq
    rw [List.length_map] at length
    exact congrArg some length

/-- The number of a tenant is that of the next load if a round of the counter is over. -/
theorem slot_eq_next {tenant : Tenant} (member : tenant ∈ t.tenants) :
    tenant.slot = t.engine.nextSlot ↔ slotCount ∣ t.loads - tenant.order := by
  rw [exact.counter]
  exact slotNumber_eq_iff (Nat.le_of_lt (exact.earlier tenant member))

/-- A load that meets no tenant keeps the record exact. -/
theorem load {d : Descriptor} {config : ModelConfig} (free : ¬t.Collides (.load d config)) :
    (t.call (.load d config)).Exact := by
  have other : ∀ tenant ∈ t.tenants, tenant.slot ≠ t.engine.nextSlot := fun tenant member same =>
    free ⟨tenant, member, (exact.slot_eq_next member).mp same⟩
  have unused : t.engine.nextSlot ∉ t.engine.slots.slots := by
    rw [exact.slots.mem_iff, List.mem_map]
    rintro ⟨tenant, member, same⟩
    exact other tenant member same
  have ready := exact.toReady.call (.load d config)
  rw [exact.call_load] at ready ⊢
  refine ⟨ready, ?counter, ?placed, ?distinct, ?entries⟩
  case counter =>
    rw [slotNumber_succ, ← exact.counter]
    rfl
  case placed =>
    intro tenant member
    rcases List.mem_cons.mp member with rfl | before
    · exact congrArg some exact.counter
    · exact exact.placed tenant before
  case distinct =>
    rw [List.map_cons, List.nodup_cons, List.mem_map]
    refine ⟨?_, exact.distinct⟩
    rintro ⟨tenant, member, same⟩
    exact other tenant member (same.trans exact.counter.symm)
  case entries =>
    have inserted : (t.engine.createSlot d config).1.slots.entries =
        (t.engine.nextSlot, ⟨t.engine.network.version.getD d.version, config.maxBatchSize⟩) ::
          t.engine.slots.entries := by
      simp only [CpuEngine.createSlot, SlotMap.insert, SlotMap.erase_unused unused]
    rw [inserted, List.map_cons, Tenant.entry, Tenant.slot, ← exact.counter]
    exact exact.entries.cons _

/-- A release of a tenant takes away that tenant. -/
theorem release_tenant {model : LoadedModel} (live : ∃ tenant ∈ t.tenants, tenant.model = model) :
    (t.call (.release model)).Exact := by
  obtain ⟨found, member, same⟩ := live
  obtain ⟨tenant, front, back, _, here, split, erased⟩ :=
    List.exists_of_eraseP (p := fun tenant => decide (tenant.model = model)) member
      (decide_eq_true same)
  obtain rfl : tenant.model = model := of_decide_eq_true here
  have listed : tenant ∈ t.tenants := split ▸ List.mem_append_right _ List.mem_cons_self
  have others : ∀ other ∈ front ++ back, other ∈ t.tenants := by
    intro other member
    rw [split]
    exact List.mem_append.mpr ((List.mem_append.mp member).imp_right (List.mem_cons_of_mem _))
  have moved : t.tenants.Perm (tenant :: (front ++ back)) := split ▸ List.perm_middle
  have distinct := (moved.map Tenant.slot).nodup_iff.mp exact.distinct
  rw [List.map_cons, List.nodup_cons] at distinct
  have entry := exact.entries.mem_iff.mpr (List.mem_map_of_mem (f := Tenant.entry) listed)
  have rest := SlotMap.erase_perm (exact.slots.nodup_iff.mpr exact.distinct) entry
  rw [Tenancy.call, erased, releaseModel_slot _ (exact.placed tenant listed)]
  exact {
    device := exact.device
    counter := exact.counter
    placed := fun other member => exact.placed other (others other member)
    earlier := fun other member => exact.earlier other (others other member)
    distinct := distinct.2
    entries := (rest.symm.trans (exact.entries.trans (moved.map Tenant.entry))).cons_inv }

/-- A release that harms no tenant keeps the record exact. -/
theorem release {model : LoadedModel} (harmless : ¬t.Collides (.release model)) :
    (t.call (.release model)).Exact := by
  by_cases live : ∃ tenant ∈ t.tenants, tenant.model = model
  · exact exact.release_tenant live
  have strange : ∀ tenant ∈ t.tenants, tenant.model ≠ model := fun tenant member same =>
    live ⟨tenant, member, same⟩
  have unchanged : t.engine.releaseModel model = t.engine := by
    cases here : model.slot with
    | none => simp only [CpuEngine.releaseModel, here]
    | some slot =>
      have unused : slot ∉ t.engine.slots.slots := by
        rw [exact.slots.mem_iff, List.mem_map]
        rintro ⟨tenant, member, rfl⟩
        exact harmless ⟨strange, tenant, member, (exact.placed tenant member).trans here.symm⟩
      rw [releaseModel_slot _ here, SlotMap.erase_unused unused]
  rw [release_stranger strange, unchanged]
  exact exact

/-- A call that does not collide keeps the record exact. -/
theorem call_free {c : Call} (free : ¬t.Collides c) : (t.call c).Exact := by
  cases c with
  | load => exact exact.load free
  | release => exact exact.release free

/-- A call that collides takes the slot of a tenant away from it. -/
theorem call_collides {c : Call} (collides : t.Collides c) : ¬(t.call c).Apart := by
  cases c with
  | load d config =>
    obtain ⟨tenant, member, round⟩ := collides
    intro apart
    rw [exact.call_load] at apart
    have other := (List.pairwise_cons.mp apart.distinct).1 tenant member
    rw [exact.placed tenant member, (exact.slot_eq_next member).mpr round] at other
    exact other rfl
  | release model =>
    obtain ⟨strange, tenant, member, same⟩ := collides
    have here : model.slot = some tenant.slot := same.symm.trans (exact.placed tenant member)
    intro apart
    rw [release_stranger strange, releaseModel_slot _ here] at apart
    obtain ⟨slot, there, entry⟩ := apart.kept tenant member
    obtain rfl := Option.some.inj ((exact.placed tenant member).symm.trans there)
    simp only [SlotMap.get?_erase_self] at entry
    contradiction

/-- Tenants stay apart over a run exactly if no call of it collides. The induction is on the
calls; the record is exact up to the first call that collides. -/
theorem apart_iff (calls : List Call) :
    (∀ k, (t.after (calls.take k)).Apart) ↔
      ∀ k c, calls[k]? = some c → ¬(t.after (calls.take k)).Collides c := by
  induction calls generalizing t with
  | nil =>
    simp only [List.take_nil, List.getElem?_nil, reduceCtorEq, false_implies, implies_true,
      iff_true]
    exact fun _ => exact.apart
  | cons c calls inductionHypothesis =>
    constructor
    · intro apart
      have free : ¬t.Collides c := fun collides => exact.call_collides collides (apart 1)
      have rest := (inductionHypothesis (exact.call_free free)).mp fun k => apart (k + 1)
      intro k c' listed
      cases k with
      | zero =>
        obtain rfl := Option.some.inj listed
        exact free
      | succ k => exact rest k c' listed
    · intro harmless
      have free : ¬t.Collides c := harmless 0 c rfl
      have rest := (inductionHypothesis (exact.call_free free)).mpr fun k c' listed =>
        harmless (k + 1) c' listed
      intro k
      cases k with
      | zero => exact exact.apart
      | succ k => exact rest k

end Exact

end

section

variable (network : Network) (config : ContextConfig) (calls : List Call)

/-- Over every sequence of loads and releases, every load succeeds, and the tenants stay apart
exactly as long as no call collides. -/
theorem apart_iff_no_collision :
    (∀ k d c, ∃ e model,
      ((start network config).after (calls.take k)).engine.loadModel d c = (e, .ok model)) ∧
    ((∀ k, ((start network config).after (calls.take k)).Apart) ↔
      ∀ k c, calls[k]? = some c → ¬((start network config).after (calls.take k)).Collides c) := by
  have exact := start_exact network config
  refine ⟨?_, exact.apart_iff calls⟩
  intro k d c
  exact ⟨_, _, loadModel_ok (exact.toReady.after (calls.take k)).device d c⟩

/-- While there are numbers that were never used, tenants are kept apart if only tenants are
released. -/
theorem apart_of_few_loads (few : calls.countP Call.isLoad ≤ slotCount)
    (own : ∀ k model, calls[k]? = some (.release model) →
      ∃ tenant ∈ ((start network config).after (calls.take k)).tenants, tenant.model = model)
    (k : Nat) : ((start network config).after (calls.take k)).Apart := by
  have exact := start_exact network config
  refine (exact.apart_iff calls).mpr ?_ k
  intro k c listed collides
  cases c with
  | load d c =>
    obtain ⟨tenant, member, round⟩ := collides
    have earlier := (exact.toReady.after (calls.take k)).earlier tenant member
    have loads : ((start network config).after (calls.take k)).loads < slotCount := by
      obtain ⟨inside, here⟩ := List.getElem?_eq_some_iff.mp listed
      have split := List.take_append_drop k calls
      rw [List.drop_eq_getElem_cons inside, here] at split
      have count := congrArg (List.countP Call.isLoad) split
      rw [List.countP_append, List.countP_cons_of_pos rfl] at count
      rw [exact.toReady.after_loads]
      simp only [start]
      omega
    exact absurd (Nat.le_of_dvd (by omega) round) (by omega)
  | release model =>
    obtain ⟨tenant, member, same⟩ := own k model listed
    exact collides.1 tenant member same

end

/-- `n` models, each released as soon as it is loaded; `first` models were loaded before. -/
def passing (d : Descriptor) (config : ModelConfig) (version : Int) (first : Nat) : Nat → List Call
  | 0 => []
  | n + 1 => .load d config :: .release ⟨.secondary, version, some (slotNumber first), config⟩ ::
      passing d config version (first + 1) n

section

variable {t : Tenancy} (d : Descriptor) (config : ModelConfig)

/-- A model that passes through moves the counter on and leaves everything else alone. -/
theorem Exact.pass (exact : t.Exact) (free : ¬t.Collides (.load d config)) :
    ∃ t' : Tenancy, t'.Exact ∧ t'.tenants = t.tenants ∧ t'.loads = t.loads + 1 ∧
      t'.engine.network = t.engine.network ∧
      ∀ calls, t.after (.load d config :: .release ⟨.secondary,
        t.engine.network.version.getD d.version, some (slotNumber t.loads), config⟩ :: calls) =
          t'.after calls := by
  have loaded := exact.load free
  have called := exact.call_load d config
  rw [exact.counter] at called
  rw [called] at loaded
  have released := loaded.release_tenant ⟨_, List.mem_cons_self, rfl⟩
  have gone : ∀ model (rest : List Tenant),
      (⟨model, t.loads⟩ :: rest).eraseP (fun tenant => decide (tenant.model = model)) = rest :=
    fun model rest => List.eraseP_cons_of_pos (decide_eq_true rfl)
  refine ⟨_, released, gone _ _, release_loads _, release_network _, ?_⟩
  intro calls
  rw [after_cons, after_cons, called]

/-- Models that pass through leave a tenant alone while the counter is not back at its number. -/
theorem Exact.after_passing (exact : t.Exact) {tenant : Tenant} (alone : t.tenants = [tenant])
    (n : Nat) (short : t.loads + n ≤ tenant.order + slotCount) :
    ∃ t' : Tenancy, t'.Exact ∧ t'.tenants = [tenant] ∧ t'.loads = t.loads + n ∧
      ∀ calls, t.after (passing d config (t.engine.network.version.getD d.version) t.loads n ++
        calls) = t'.after calls := by
  induction n generalizing t with
  | zero => exact ⟨t, exact, alone, rfl, fun _ => rfl⟩
  | succ n inductionHypothesis =>
    have free : ¬t.Collides (.load d config) := by
      rintro ⟨other, member, round⟩
      have earlier := exact.earlier other member
      rw [alone, List.mem_singleton] at member
      subst member
      exact absurd (Nat.le_of_dvd (by omega) round) (by omega)
    obtain ⟨next, exact', tenants, loads, network, passed⟩ := exact.pass d config free
    obtain ⟨last, exact'', tenants', loads', ran⟩ :=
      inductionHypothesis exact' (tenants.trans alone) (by omega)
    rw [network, loads] at ran
    refine ⟨last, exact'', tenants', by omega, ?_⟩
    intro calls
    rw [passing, List.cons_append, List.cons_append, passed, ran]

/-- When the counter is back at the number of a tenant, the next model gets its slot. -/
theorem Exact.load_back (exact : t.Exact) {tenant : Tenant} (alone : t.tenants = [tenant])
    (back : t.loads = tenant.order + slotCount) :
    (t.call (.load d config)).tenants.map (·.model.slot) =
      [tenant.model.slot, tenant.model.slot] ∧
    Engine.liveSlots (t.call (.load d config)).engine = some 1 := by
  have member : tenant ∈ t.tenants := by simp [alone]
  have here : tenant.slot = t.engine.nextSlot :=
    (exact.slot_eq_next member).mpr ⟨1, by omega⟩
  have only : t.engine.slots.entries = [tenant.entry] := by
    have entries := exact.entries
    rw [alone] at entries
    exact List.perm_singleton.mp entries
  have emptied : (t.engine.slots.erase t.engine.nextSlot).entries = [] := by
    simp [SlotMap.erase, only, Tenant.entry, here]
  rw [exact.call_load, exact.placed tenant member, here, alone]
  refine ⟨?_, ?_⟩
  · simp [exact.placed tenant member, here]
  · exact congrArg some (congrArg List.length (congrArg (List.cons _) emptied))

end

/-- A model is loaded, one model for every other slot number passes through, and a last one
is loaded. -/
def round (d : Descriptor) (config : ModelConfig) (version : Int) : List Call :=
  .load d config :: (passing d config version 1 (slotCount - 1) ++ [.load d config])

/-- After a round there are two models that were loaded and never released, and one slot for
both of them. -/
theorem after_round (network : Network) (context : ContextConfig) (d : Descriptor)
    (config : ModelConfig) :
    ∃ t, (start network context).after (round d config (network.version.getD d.version)) = t ∧
      t.tenants.map (·.model.slot) = [some 0, some 0] ∧ Engine.liveSlots t.engine = some 1 := by
  have exact := start_exact network context
  have free : ¬(start network context).Collides (.load d config) := by
    rintro ⟨tenant, member, _⟩
    exact absurd member List.not_mem_nil
  have loaded := exact.load free
  have called := exact.call_load d config
  have loads : ((start network context).call (.load d config)).loads = 1 := by rw [called]; rfl
  have same : ((start network context).call (.load d config)).engine.network = network := by
    rw [called]
    rfl
  obtain ⟨tenant, alone, order, zero⟩ : ∃ tenant : Tenant,
      ((start network context).call (.load d config)).tenants = [tenant] ∧ tenant.order = 0 ∧
        tenant.model.slot = some 0 := ⟨_, by rw [called]; rfl, rfl, rfl⟩
  obtain ⟨last, exact', tenants, loads', ran⟩ :=
    loaded.after_passing d config alone (slotCount - 1) (by rw [loads, order]; decide)
  have back : last.loads = tenant.order + slotCount := by rw [loads', loads, order]; decide
  rw [same, loads] at ran
  refine ⟨_, rfl, ?_⟩
  rw [round, after_cons, ran, ← zero]
  exact exact'.load_back d config tenants back

/-- Two sequences of calls after which tenants are not apart. In the first one every release is
of the model loaded last, and the counter comes round; in the second one a model of another
engine is released, whose number is that of the only tenant. -/
theorem tenants_meet :
    let network : Network := ⟨fun _ _ => .error .implicit, none⟩
    let d : Descriptor := ⟨"tiny", 3, 22, 14, 1, 3, 1⟩
    let config : ModelConfig := ⟨.square 19, 1, false, false, 100, 0⟩
    ¬((start network .default).after (round d config 3)).Apart ∧
      ¬((start network .default).after [.load d config,
        .release ⟨.secondary, 3, some 0, { config with maxBatchSize := 2 }⟩]).Apart := by
  intro network d config
  constructor
  · obtain ⟨t, ran, slots, _⟩ := after_round network .default d config
    intro apart
    have version : network.version.getD d.version = 3 := rfl
    rw [version] at ran
    rw [ran] at apart
    have distinct := List.pairwise_map.mpr apart.distinct
    rw [slots] at distinct
    exact absurd distinct (by decide)
  · intro apart
    exact absurd apart.count (by decide)

end Tenancy

end BoardEval
