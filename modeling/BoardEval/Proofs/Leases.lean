import BoardEval.Engine.Any
import BoardEval.Proofs.Lifecycles

/-!
# Slots on loan

Engines that keep an exact set of live slots: a model that is loaded takes a slot that was not
live, or none; a model that is released gives its slot back; and nothing else changes slots,
whether it succeeds or not. What is live is what the engine itself reports of its slots.

On such engines the models that are loaded and not yet released have their slots on loan. As
long as that is all that happened, every engine has the slots that it had at the beginning and
the slots on loan, and once all are released, those of the beginning.
-/

namespace BoardEval

section

variable {ε : Type} [Engine ε]

/-- The version of the model in a slot, if the slot is live. -/
def Engine.versionIn? (e : ε) (slot : Int) : Option Int :=
  match Engine.slotVersion e slot with
  | some (.ok version) => some version
  | _ => none

/-- The same slots are live, with the same versions. -/
def Engine.SameSlots (e e' : ε) : Prop :=
  ∀ slot, Engine.versionIn? e' slot = Engine.versionIn? e slot

/-- Sound engines keep an exact set of live slots. Loading may fail at any time. -/
structure SlotLaws (Sound : ε → Prop) : Prop where
  refused : ∀ {e e' : ε} {d config cause}, Sound e →
    Engine.loadModel e d config = (e', .error cause) → Sound e' ∧ Engine.SameSlots e e'
  loaded : ∀ {e e' : ε} {d config model}, Sound e →
    Engine.loadModel e d config = (e', .ok model) → Sound e' ∧
      (∀ slot, model.slot = some slot → Engine.versionIn? e slot = none ∧
        Engine.versionIn? e' slot = some model.version) ∧
      ∀ slot, model.slot ≠ some slot → Engine.versionIn? e' slot = Engine.versionIn? e slot
  released : ∀ {e : ε} (model), Sound e → Sound (Engine.releaseModel e model) ∧
    (∀ slot, model.slot = some slot →
      Engine.versionIn? (Engine.releaseModel e model) slot = none) ∧
    ∀ slot, model.slot ≠ some slot →
      Engine.versionIn? (Engine.releaseModel e model) slot = Engine.versionIn? e slot
  created : ∀ {e : ε} (config), Sound e → Sound (Engine.createContext e config).1 ∧
    Engine.SameSlots e (Engine.createContext e config).1
  destroyed : ∀ {e : ε}, Sound e → Sound (Engine.destroyContext e) ∧
    Engine.SameSlots e (Engine.destroyContext e)

/-! ## Engines that obey the laws -/

namespace HostEngine

/-- Every slot was issued by the counter. -/
def Issued (e : HostEngine) : Prop := ∀ slot, e.slots.contains slot = true → slot < e.nextSlot

/-- A host engine tells versions only if it has slots, that is, in the second
place. -/
theorem versionIn?_eq (e : HostEngine) (slot : Int) :
    Engine.versionIn? e slot = if e.hasSlots then e.slots.get? slot else none := by
  simp only [Engine.versionIn?, Engine.slotVersion, slotVersion]
  cases e.hasSlots with
  | false => rfl
  | true => cases e.slots.get? slot <;> rfl

/-- In the second place a host engine tells what its slots hold. -/
theorem versionIn?_second {e : HostEngine} (second : e.kind = .secondary) (slot : Int) :
    Engine.versionIn? e slot = e.slots.get? slot := by
  rw [versionIn?_eq, hasSlots, second]
  rfl

/-- The counter is at a slot that is not live. -/
theorem Issued.next {e : HostEngine} (issued : e.Issued) : e.slots.get? e.nextSlot = none := by
  rw [← Option.not_isSome_iff_eq_none]
  intro live
  exact Int.lt_irrefl _ (issued e.nextSlot live)

/-- A model that is loaded takes the slot at the counter, or none. -/
theorem Issued.loaded {e e' : HostEngine} {d : Descriptor} {config : ModelConfig}
    {model : LoadedModel} (issued : e.Issued) (loaded : e.loadModel d config = (e', .ok model)) :
    e'.Issued ∧
      (∀ slot, model.slot = some slot → Engine.versionIn? e slot = none ∧
        Engine.versionIn? e' slot = some model.version) ∧
      ∀ slot, model.slot ≠ some slot → Engine.versionIn? e' slot = Engine.versionIn? e slot := by
  rcases loadModel_slotted loaded with ⟨_, bare, rfl⟩ | ⟨second, placed, after⟩
  · refine ⟨issued, ?_, fun _ _ => rfl⟩
    intro slot here
    exact nomatch here.symm.trans bare
  have second' : e'.kind = .secondary := by rw [after, second]
  have slots : e'.slots = e.slots.insert e.nextSlot model.version := by rw [after]
  have next : e'.nextSlot = e.nextSlot + 1 := by rw [after]
  refine ⟨?_, ?_, ?_⟩
  · intro slot here
    rw [next]
    by_cases new : slot = e.nextSlot
    · rw [new]
      exact Int.lt_succ _
    · rw [slots, SlotMap.contains, SlotMap.get?_insert_other new] at here
      exact Int.lt_add_one_of_le (Int.le_of_lt (issued slot here))
  · intro slot here
    obtain rfl := Option.some.inj (here.symm.trans placed)
    rw [versionIn?_second second, versionIn?_second second', slots]
    exact ⟨issued.next, SlotMap.get?_insert_self _ _ _⟩
  · intro slot elsewhere
    have other : slot ≠ e.nextSlot := by
      rintro rfl
      exact elsewhere placed
    rw [versionIn?_second second, versionIn?_second second', slots]
    exact SlotMap.get?_insert_other other

/-- A model that is released frees its slot, if it has one. -/
theorem Issued.released {e : HostEngine} (issued : e.Issued) (model : LoadedModel) :
    (e.releaseModel model).Issued ∧
      (∀ slot, model.slot = some slot →
        Engine.versionIn? (e.releaseModel model) slot = none) ∧
      ∀ slot, model.slot ≠ some slot →
        Engine.versionIn? (e.releaseModel model) slot = Engine.versionIn? e slot := by
  cases here : model.slot with
  | none =>
    have same : e.releaseModel model = e := by rw [releaseModel, here]
    rw [same]
    refine ⟨issued, ?_, fun _ _ => rfl⟩
    rintro _ ⟨⟩
  | some slot =>
    rw [releaseModel_slot e here]
    refine ⟨?_, ?_, ?_⟩
    · intro other live
      by_cases same : other = slot
      · rw [same, SlotMap.contains, SlotMap.get?_erase_self] at live
        cases live
      · rw [SlotMap.contains, SlotMap.get?_erase_other same] at live
        exact issued other live
    · rintro _ ⟨⟩
      rw [versionIn?_eq, SlotMap.get?_erase_self, ite_self]
    · intro other elsewhere
      have apart : other ≠ slot := fun same => elsewhere (congrArg some same.symm)
      rw [versionIn?_eq, versionIn?_eq, SlotMap.get?_erase_other apart]
      rfl

/-- A host engine keeps an exact set of slots: the counter never returns to one of them. -/
theorem slotLaws : SlotLaws Issued where
  refused issued failed := by
    obtain rfl := loadModel_failed failed
    exact ⟨issued, fun _ => rfl⟩
  loaded issued loaded := issued.loaded loaded
  released model issued := issued.released model
  created _ issued := ⟨issued, fun _ => rfl⟩
  destroyed issued := ⟨issued, fun _ => rfl⟩

end HostEngine

/-- An engine without slots obeys the laws. -/
theorem SlotLaws.slotless (empty : ∀ (e : ε) slot, Engine.versionIn? e slot = none)
    (bare : ∀ {e e' : ε} {d config model},
      Engine.loadModel e d config = (e', .ok model) → model.slot = none) :
    SlotLaws fun _ : ε => True := by
  have same (e e' : ε) : Engine.SameSlots e e' := fun slot =>
    (empty e' slot).trans (empty e slot).symm
  constructor
  case refused => exact fun _ _ => ⟨trivial, same _ _⟩
  case loaded =>
    intro e e' d config model _ loaded
    refine ⟨trivial, ?_, fun slot _ => same e e' slot⟩
    intro slot here
    exact nomatch here.symm.trans (bare loaded)
  case released =>
    exact fun _ _ => ⟨trivial, fun slot _ => empty _ slot, fun slot _ => same _ _ slot⟩
  case created => exact fun _ _ => ⟨trivial, same _ _⟩
  case destroyed => exact fun _ => ⟨trivial, same _ _⟩

/-- A graphics engine has no slots and so keeps the laws in any state. -/
theorem GpuEngine.slotLaws : SlotLaws fun _ : GpuEngine => True :=
  .slotless (fun _ _ => rfl) fun loaded => by rw [(loadModel_ok loaded).2]

/-- A scripted engine has no slots and so keeps the laws in any state, whatever it
fails with. -/
theorem ScriptedEngine.slotLaws : SlotLaws fun _ : ScriptedEngine => True :=
  .slotless (fun _ _ => rfl) fun loaded => by rw [(loadModel_ok loaded).2]

namespace AnyEngine

/-- Engines that keep an exact set of live slots. The processor engine is not one of them, as
its counter wraps around. -/
def KeepsSlots : AnyEngine → Prop
  | .host e => e.Issued
  | .gpu _ => True
  | .scripted _ => True
  | .cpu _ => False

/-- They obey the laws, each by its own. -/
theorem slotLaws : SlotLaws KeepsSlots where
  refused := by
    intro e e' d config cause sound failed
    cases e with
    | host e =>
      obtain ⟨e', rfl, failed'⟩ := loadModel_host failed
      exact HostEngine.slotLaws.refused sound failed'
    | cpu e => exact sound.elim
    | gpu e =>
      obtain ⟨e', rfl, failed'⟩ := loadModel_gpu failed
      exact GpuEngine.slotLaws.refused sound failed'
    | scripted e =>
      obtain ⟨e', rfl, failed'⟩ := loadModel_scripted failed
      exact ScriptedEngine.slotLaws.refused sound failed'
  loaded := by
    intro e e' d config model sound loaded
    cases e with
    | host e =>
      obtain ⟨e', rfl, loaded'⟩ := loadModel_host loaded
      exact HostEngine.slotLaws.loaded sound loaded'
    | cpu e => exact sound.elim
    | gpu e =>
      obtain ⟨e', rfl, loaded'⟩ := loadModel_gpu loaded
      exact GpuEngine.slotLaws.loaded sound loaded'
    | scripted e =>
      obtain ⟨e', rfl, loaded'⟩ := loadModel_scripted loaded
      exact ScriptedEngine.slotLaws.loaded sound loaded'
  released := by
    intro e model sound
    cases e with
    | host e => exact HostEngine.slotLaws.released model sound
    | cpu e => exact sound.elim
    | gpu e => exact GpuEngine.slotLaws.released (e := e) model sound
    | scripted e => exact ScriptedEngine.slotLaws.released (e := e) model sound
  created := by
    intro e config sound
    cases e with
    | host e => exact HostEngine.slotLaws.created config sound
    | cpu e => exact sound.elim
    | gpu e => exact GpuEngine.slotLaws.created (e := e) config sound
    | scripted e => exact ScriptedEngine.slotLaws.created (e := e) config sound
  destroyed := by
    intro e sound
    cases e with
    | host e => exact HostEngine.slotLaws.destroyed sound
    | cpu e => exact sound.elim
    | gpu e => exact GpuEngine.slotLaws.destroyed (e := e) sound
    | scripted e => exact ScriptedEngine.slotLaws.destroyed (e := e) sound

end AnyEngine

/-! ## Models on an engine -/

/-- An engine that has the slots of `first` and lodges the models besides: their slots were not
live at first, hold their versions now, and are all different. -/
structure Lodges (Sound : ε → Prop) (first : ε) (models : List LoadedModel) (e : ε) : Prop where
  sound : Sound e
  held : ∀ m ∈ models, ∀ slot, m.slot = some slot →
    Engine.versionIn? first slot = none ∧ Engine.versionIn? e slot = some m.version
  others : ∀ slot, (∀ m ∈ models, m.slot ≠ some slot) →
    Engine.versionIn? e slot = Engine.versionIn? first slot
  apart : models.Pairwise fun a b => ∀ slot, a.slot = some slot → b.slot ≠ some slot

namespace Lodges

variable {Sound : ε → Prop} {first e e' : ε} {models : List LoadedModel}

/-- At first an engine lodges no model. -/
theorem nobody (sound : Sound e) : Lodges Sound e [] e :=
  ⟨sound, nofun, fun _ _ => rfl, .nil⟩

/-- Without a model on it the engine has the slots that it had at first. -/
theorem same (lodges : Lodges Sound first [] e) : Engine.SameSlots first e :=
  fun slot => lodges.others slot nofun

/-- The order of the models does not matter. -/
theorem reordered {models' : List LoadedModel} (moved : models.Perm models')
    (lodges : Lodges Sound first models e) : Lodges Sound first models' e where
  sound := lodges.sound
  held m member := lodges.held m (moved.mem_iff.mpr member)
  others slot unused := lodges.others slot fun m member => unused m (moved.mem_iff.mp member)
  apart := (moved.pairwise_iff fun {_ _} apart slot here there => apart slot there here).mp
    lodges.apart

/-- A step that keeps the slots keeps the models. -/
theorem step (lodges : Lodges Sound first models e)
    (kept : Sound e' ∧ Engine.SameSlots e e') : Lodges Sound first models e' where
  sound := kept.1
  held m member slot here := by
    rw [kept.2 slot]
    exact lodges.held m member slot here
  others slot unused := (kept.2 slot).trans (lodges.others slot unused)
  apart := lodges.apart

variable (laws : SlotLaws Sound)
include laws

/-- A model that is loaded is one model more. -/
theorem loaded {model : LoadedModel} {d : Descriptor} {config : ModelConfig}
    (lodges : Lodges Sound first models e)
    (called : Engine.loadModel e d config = (e', .ok model)) :
    Lodges Sound first (model :: models) e' := by
  obtain ⟨sound, placed, others⟩ := laws.loaded lodges.sound called
  -- Its slot was not live, so no model on the engine has it.
  have fresh {slot : Int} (here : model.slot = some slot) : ∀ m ∈ models, m.slot ≠ some slot := by
    intro m member there
    have live := (lodges.held m member slot there).2
    exact nomatch live.symm.trans (placed slot here).1
  constructor
  case sound => exact sound
  case held =>
    intro m member slot here
    rcases List.mem_cons.mp member with rfl | old
    · rw [← lodges.others slot (fresh here)]
      exact placed slot here
    · rw [others slot fun same => fresh same m old here]
      exact lodges.held m old slot here
  case others =>
    intro slot unused
    rw [List.forall_mem_cons] at unused
    exact (others slot unused.1).trans (lodges.others slot unused.2)
  case apart =>
    refine List.pairwise_cons.mpr ⟨?_, lodges.apart⟩
    intro m member slot here there
    exact fresh here m member there

/-- A model that is released is one model less. -/
theorem released {model : LoadedModel} (lodges : Lodges Sound first (model :: models) e) :
    Lodges Sound first models (Engine.releaseModel e model) := by
  obtain ⟨sound, freed, others⟩ := laws.released model lodges.sound
  obtain ⟨apart, rest⟩ := List.pairwise_cons.mp lodges.apart
  constructor
  case sound => exact sound
  case held =>
    intro m member slot here
    rw [others slot fun same => apart m member slot same here]
    exact lodges.held m (List.mem_cons_of_mem _ member) slot here
  case others =>
    intro slot unused
    by_cases its : model.slot = some slot
    · rw [freed slot its, (lodges.held model List.mem_cons_self slot its).1]
    · rw [others slot its]
      exact lodges.others slot (List.forall_mem_cons.mpr ⟨its, unused⟩)
  case apart => exact rest

end Lodges

/-! ## Handles on the engines of a registry -/

/-- The models of those handles that are on engine `k`. -/
def Handle.modelsOn (k : Nat) (handles : List Handle) : List LoadedModel :=
  (handles.filter fun h => h.engine == k).map (·.model)

/-- A handle on the engine counts with its model. -/
theorem Handle.modelsOn_here {k : Nat} {h : Handle} (here : h.engine = k) (handles : List Handle) :
    modelsOn k (h :: handles) = h.model :: modelsOn k handles := by
  rw [modelsOn, List.filter_cons_of_pos (by rw [here, beq_self_eq_true]), List.map_cons, modelsOn]

/-- A handle on another engine does not count. -/
theorem Handle.modelsOn_elsewhere {k : Nat} {h : Handle} (elsewhere : h.engine ≠ k)
    (handles : List Handle) : modelsOn k (h :: handles) = modelsOn k handles := by
  rw [modelsOn, List.filter_cons_of_neg (by simpa using elsewhere), modelsOn]

/-- Every engine has the slots that it has in `base` and lodges the models of the handles. -/
def Registry.Leases (Sound : ε → Prop) (base : Registry ε) (handles : List Handle)
    (r : Registry ε) : Prop :=
  ∀ (k : Nat) (first : ε), base.engines[k]? = some first →
    r.Has k (Lodges Sound first (Handle.modelsOn k handles))

/-- Every engine has the same live slots, with the same versions. -/
def Registry.SameSlots (r r' : Registry ε) : Prop :=
  ∀ (k : Nat) (e : ε), r.engines[k]? = some e → r'.Has k (Engine.SameSlots e)

namespace Registry.Leases

variable {Sound : ε → Prop} {base r r' : Registry ε} {handles : List Handle}

/-- At first nothing is on loan, provided that every engine is sound. -/
theorem nobody (sound : ∀ (k : Nat) (e : ε), base.engines[k]? = some e → Sound e) :
    Leases Sound base [] base :=
  fun k first listed => ⟨first, listed, .nobody (sound k first listed)⟩

/-- What is on loan does not depend on the order of the handles. -/
theorem reordered {handles' : List Handle} (moved : handles.Perm handles')
    (leases : Leases Sound base handles r) : Leases Sound base handles' r :=
  fun k first listed => (leases k first listed).imp fun _ lodges =>
    lodges.reordered ((moved.filter _).map _)

/-- If nothing is on loan, every engine has the slots that it has in `base`. -/
theorem same (leases : Leases Sound base [] r) : base.SameSlots r :=
  fun k first listed => (leases k first listed).imp fun _ lodges => lodges.same

/-- Only the engines matter. -/
theorem congr (same : r'.engines = r.engines) (leases : Leases Sound base handles r) :
    Leases Sound base handles r' := by
  intro k first listed
  unfold Registry.Has
  rw [same]
  exact leases k first listed

variable (laws : SlotLaws Sound)
include laws

/-- Creating contexts changes no slot, also where it fails and is undone. -/
theorem created (leases : Leases Sound base handles r) (config : ContextConfig)
    (created ids : List Nat) : Leases Sound base handles (r.createContexts config created ids).1 :=
  fun k first listed => (leases k first listed).createContexts
    (fun _ lodges => lodges.step (laws.created config lodges.sound))
    fun _ _ _ lodges => lodges.step (laws.destroyed lodges.sound)

/-- Letting go of a context changes no slot, also where engines are torn down. -/
theorem release (leases : Leases Sound base handles r) (id : Nat) :
    Leases Sound base handles (r.release id) :=
  fun k first listed => (leases k first listed).release
    (fun _ lodges => lodges.step (laws.destroyed lodges.sound)) id

/-- A handle that is not opened takes no slot. -/
theorem refused {contextId : Nat} {d : Descriptor} {maxBatchSize : Nat} {last : Bool}
    {routingIndex : Int} {server : Nat} {cause : Failure ServiceError}
    (leases : Leases Sound base handles r)
    (failed : Handle.openIn r contextId d maxBatchSize last routingIndex server =
      (r', .error cause)) : Leases Sound base handles r' := by
  intro k first listed
  rcases Handle.openIn_failed failed with rfl | ⟨j, engine, _, _, _, there, unloaded, rfl⟩
  · exact leases k first listed
  · exact (leases k first listed).replaced there fun _ lodges =>
      lodges.step (laws.refused lodges.sound unloaded)

/-- A handle that is opened has its model on its engine, and nothing else has changed. -/
theorem opened {contextId : Nat} {d : Descriptor} {maxBatchSize : Nat} {last : Bool}
    {routingIndex : Int} {server : Nat} {h : Handle} (leases : Leases Sound base handles r)
    (made : Handle.openIn r contextId d maxBatchSize last routingIndex server = (r', .ok h)) :
    Leases Sound base (h :: handles) r' := by
  intro k first listed
  obtain ⟨_, engine, engine', _, _, _, there, loaded, rfl, _⟩ := Handle.openIn_opened made
  obtain ⟨e, here, lodges⟩ := leases k first listed
  by_cases on : h.engine = k
  · subst on
    obtain rfl := Option.some.inj (there.symm.trans here)
    rw [Handle.modelsOn_here rfl]
    exact ⟨engine', Registry.setEngine_self there engine', lodges.loaded laws loaded⟩
  · rw [Handle.modelsOn_elsewhere on]
    exact ⟨e, (Registry.setEngine_other r engine' on).trans here, lodges⟩

/-- A handle that is closed gives its slot back. -/
theorem closed {h : Handle} (leases : Leases Sound base (h :: handles) r) :
    Leases Sound base handles (h.close r) := by
  rw [Handle.close_eq]
  apply release laws
  intro k first listed
  have before := leases k first listed
  by_cases on : h.engine = k
  · subst on
    rw [Handle.modelsOn_here rfl] at before
    obtain ⟨e, here, lodges⟩ := before
    refine ⟨Engine.releaseModel e h.model, ?_, lodges.released laws⟩
    rw [Handle.unloaded, here]
    exact Registry.setEngine_self here _
  · rw [Handle.modelsOn_elsewhere on] at before
    exact Handle.unloaded_has before fun same => absurd same on

/-- Closing the handles of servers gives their slots back. The induction is on the servers. -/
theorem closeServers {servers : List Server}
    (leases : Leases Sound base (servers.map (·.handle) ++ handles) r) :
    Leases Sound base handles (Session.closeServers r servers) := by
  induction servers generalizing r with
  | nil => exact leases
  | cons server rest inductionHypothesis =>
    rw [List.map_cons, List.cons_append] at leases
    exact inductionHypothesis (leases.closed laws)

end Registry.Leases

end

/-! ## Holders of a context -/

/-- Context `id` has `n` holders more than in `base`, and no other context is held otherwise. -/
def Registry.Lent {ε : Type} (base : Registry ε) (id n : Nat) (r : Registry ε) : Prop :=
  r.contexts = base.contexts.modify id fun s => { s with holders := s.holders + n }

namespace Registry.Lent

section

variable {ε : Type} {base r : Registry ε} {id n : Nat}

/-- At first nobody more holds the context. -/
theorem nobody (base : Registry ε) (id : Nat) : base.Lent id 0 base := by
  apply Array.ext_getElem?
  intro other
  rw [Array.getElem?_modify]
  split
  · cases base.contexts[other]? <;> rfl
  · rfl

/-- Nothing has changed if nobody holds the context any more than before. -/
theorem same (lent : base.Lent id 0 r) : r.contexts = base.contexts :=
  lent.trans (nobody base id).symm

/-- Contexts stay what they are, whoever holds them. -/
theorem context (lent : base.Lent id n r) (other : Nat) :
    (r.contexts[other]?).map (·.context) = (base.contexts[other]?).map (·.context) := by
  rw [lent, Array.getElem?_modify]
  split
  · rw [Option.map_map]
    rfl
  · rfl

/-- One holder more is counted. -/
theorem hold (lent : base.Lent id n r) : base.Lent id (n + 1) (r.hold id) := by
  unfold Lent
  rw [Registry.hold, lent]
  apply Array.ext_getElem?
  intro other
  simp only [Array.getElem?_modify]
  split
  · rw [Option.map_map]
    rfl
  · rfl

end

variable {ε : Type} [Engine ε] {base r r' : Registry ε} {id n : Nat}

/-- One holder less is counted; who is left decides whether engines are torn
down. -/
theorem release (lent : base.Lent id (n + 1) r) : base.Lent id n (r.release id) := by
  unfold Lent
  rw [release_contexts, lent]
  apply Array.ext_getElem?
  intro other
  simp only [Array.getElem?_modify]
  split
  · rw [Option.map_map]
    rfl
  · rfl

/-- A handle that is not opened holds nothing. -/
theorem refused {d : Descriptor} {maxBatchSize : Nat} {last : Bool} {routingIndex : Int}
    {server : Nat} {cause : Failure ServiceError} (lent : base.Lent id n r)
    (failed : Handle.openIn r id d maxBatchSize last routingIndex server = (r', .error cause)) :
    base.Lent id n r' := by
  rcases Handle.openIn_failed failed with rfl | ⟨_, _, _, _, _, _, _, rfl⟩
  · exact lent
  · exact lent

/-- A handle that is opened holds its context. -/
theorem opened {d : Descriptor} {maxBatchSize : Nat} {last : Bool} {routingIndex : Int}
    {server : Nat} {h : Handle} (lent : base.Lent id n r)
    (made : Handle.openIn r id d maxBatchSize last routingIndex server = (r', .ok h)) :
    base.Lent id (n + 1) r' ∧ h.context = id := by
  obtain ⟨_, _, engine', _, _, _, _, _, rfl, through, _⟩ := Handle.openIn_opened made
  have unchanged : base.Lent id n (r.setEngine h.engine engine') := lent
  exact ⟨unchanged.hold, through⟩

/-- A handle that is closed lets go. -/
theorem closed {h : Handle} (lent : base.Lent id (n + 1) r) (through : h.context = id) :
    base.Lent id n (h.close r) := by
  subst through
  rw [Handle.close_eq]
  apply release
  unfold Lent
  rw [Handle.unloaded_contexts, lent]

end Registry.Lent

/-! ## What handles of one context have on loan -/

/-- The handles are what has changed since `base`: they have their slots on loan, and they hold
context `id`, which nobody else holds any more or any less than before. -/
structure Registry.Lends {ε : Type} [Engine ε] (Sound : ε → Prop) (base : Registry ε) (id : Nat)
    (handles : List Handle) (r : Registry ε) : Prop where
  leases : Leases Sound base handles r
  lent : base.Lent id handles.length r
  through : ∀ h ∈ handles, h.context = id

namespace Registry.Lends

variable {ε : Type} [Engine ε] {Sound : ε → Prop} {base r r' : Registry ε} {id : Nat}
  {handles : List Handle}

/-- At first no handle has anything on loan. -/
theorem nobody (sound : ∀ (k : Nat) (e : ε), base.engines[k]? = some e → Sound e) (id : Nat) :
    Lends Sound base id [] base :=
  ⟨.nobody sound, .nobody base id, fun _ member => absurd member List.not_mem_nil⟩

/-- What is on loan does not depend on the order of the handles. -/
theorem reordered {handles' : List Handle} (moved : handles.Perm handles')
    (lends : Lends Sound base id handles r) : Lends Sound base id handles' r where
  leases := lends.leases.reordered moved
  lent := moved.length_eq ▸ lends.lent
  through h member := lends.through h (moved.mem_iff.mpr member)

variable (laws : SlotLaws Sound)
include laws

/-- A handle that is not opened takes nothing: neither a slot nor the context. -/
theorem refused {d : Descriptor} {maxBatchSize : Nat} {last : Bool} {routingIndex : Int}
    {server : Nat} {cause : Failure ServiceError} (lends : Lends Sound base id handles r)
    (failed : Handle.openIn r id d maxBatchSize last routingIndex server = (r', .error cause)) :
    Lends Sound base id handles r' :=
  ⟨lends.leases.refused laws failed, lends.lent.refused failed, lends.through⟩

/-- A handle that is opened has its slot on loan and holds the context. -/
theorem opened {d : Descriptor} {maxBatchSize : Nat} {last : Bool} {routingIndex : Int}
    {server : Nat} {h : Handle} (lends : Lends Sound base id handles r)
    (made : Handle.openIn r id d maxBatchSize last routingIndex server = (r', .ok h)) :
    Lends Sound base id (h :: handles) r' := by
  obtain ⟨lent, through⟩ := lends.lent.opened made
  exact ⟨lends.leases.opened laws made, lent, List.forall_mem_cons.mpr ⟨through, lends.through⟩⟩

/-- A handle that is closed gives back what it had on loan. -/
theorem closed {h : Handle} (lends : Lends Sound base id (h :: handles) r) :
    Lends Sound base id handles (h.close r) := by
  obtain ⟨through, others⟩ := List.forall_mem_cons.mp lends.through
  exact ⟨lends.leases.closed laws, lends.lent.closed through, others⟩

/-- When the handles of all servers are closed, nothing is on loan. The induction is on the
servers. -/
theorem closeServers {servers : List Server}
    (lends : Lends Sound base id (servers.map (·.handle)) r) :
    Lends Sound base id [] (Session.closeServers r servers) := by
  induction servers generalizing r with
  | nil => exact lends
  | cons server rest inductionHypothesis => exact inductionHypothesis (lends.closed laws)

end Registry.Lends

end BoardEval
