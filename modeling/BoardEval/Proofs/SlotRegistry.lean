import BoardEval.Engine.Any
import BoardEval.Proofs.Lifecycles

/-!
# The slots of a secondary host engine

A host engine in the second place gives every model a slot. Whatever contexts share it and
whatever handles are opened through them, successfully or not, and closed, its slots are
those of the open handles, one for each, with the versions that the handles report. Slot
numbers only grow, so a number that was in use once belongs to one handle for ever.

Contexts come and go without any effect on slots; only loading and releasing matter.
-/

namespace BoardEval

/-- Engine slots and open handles match: every slot was issued, and the entries are the
slots and versions of the handles. -/
structure HostEngine.Registers (e : HostEngine) (handles : List Handle) : Prop where
  second : e.kind = .secondary
  issued : ∀ slot ∈ e.slots.slots, slot < e.nextSlot
  apart : e.slots.slots.Nodup
  entries : (handles.map fun h => (h.model.slot, h.model.version)).Perm
    (e.slots.entries.map fun entry => (some entry.1, entry.2))

/-- The engine runs the same function as before, and its next slot is no earlier one. -/
structure HostEngine.Follows (before after : HostEngine) : Prop where
  forward : after.forward = before.forward
  later : before.nextSlot ≤ after.nextSlot

namespace HostEngine

/-- An engine follows itself. -/
theorem Follows.refl (e : HostEngine) : e.Follows e := ⟨rfl, Int.le_refl _⟩

/-- The counter of slots only grows, so what follows a later state follows the
earlier one. -/
theorem Follows.trans {e e' e'' : HostEngine} (first : e.Follows e') (second : e'.Follows e'') :
    e.Follows e'' :=
  ⟨second.forward.trans first.forward, Int.le_trans first.later second.later⟩

section

variable {e : HostEngine} {handles : List Handle} (registers : e.Registers handles)
include registers

/-- A handle has a slot, and its version stands in it. -/
theorem Registers.slot {h : Handle} (opened : h ∈ handles) :
    ∃ slot, h.model.slot = some slot ∧ (slot, h.model.version) ∈ e.slots.entries := by
  have listed := registers.entries.mem_iff.mp (List.mem_map_of_mem opened)
  obtain ⟨⟨slot, version⟩, entry, same⟩ := List.mem_map.mp listed
  obtain ⟨here, value⟩ := Prod.mk.inj same
  simp only at here value
  exact ⟨slot, here.symm, value ▸ entry⟩

/-- Its slot was issued before the next one. -/
theorem Registers.slot_lt {h : Handle} (opened : h ∈ handles) {slot : Int}
    (here : h.model.slot = some slot) : slot < e.nextSlot := by
  obtain ⟨other, there, entry⟩ := registers.slot opened
  obtain rfl := Option.some.inj (here.symm.trans there)
  exact registers.issued slot (SlotMap.mem_slots entry)

/-- No two handles have the same slot. -/
theorem Registers.slots_nodup : (handles.map (·.model.slot)).Nodup := by
  have slots : (handles.map (·.model.slot)).Perm (e.slots.slots.map some) := by
    have both := registers.entries.map Prod.fst
    rw [List.map_map, List.map_map] at both
    rw [SlotMap.slots, List.map_map]
    exact both
  apply slots.nodup_iff.mpr
  exact List.Pairwise.map some (fun _ _ other same => other (Option.some.inj same))
    registers.apart

/-- There are as many slots as handles. -/
theorem Registers.size : e.slots.size = handles.length := by
  have length := registers.entries.length_eq
  rw [List.length_map, List.length_map] at length
  exact length.symm

/-- The engine finds the slot of every handle. -/
theorem Registers.contains {h : Handle} (opened : h ∈ handles) {slot : Int}
    (here : h.model.slot = some slot) : e.slots.contains slot = true := by
  obtain ⟨other, there, entry⟩ := registers.slot opened
  obtain rfl := Option.some.inj (here.symm.trans there)
  exact SlotMap.contains_iff.mpr (SlotMap.mem_slots entry)

/-- A run of a handle's model reports a missing slot only if the engine's function does. -/
theorem Registers.runBatch_slotNotFound {h : Handle} (opened : h ∈ handles) {slot : Int}
    (fails : Forward.Fails (e.runBatch h.model) (.slotNotFound slot)) :
    e.forward.Fails (.slotNotFound slot) := by
  rcases runBatch_fails fails with ⟨other, _⟩ | ⟨_, _, here, missing⟩ | ⟨_, other⟩ | own
  · exact nomatch other
  · rw [registers.contains opened here] at missing
    exact nomatch missing
  · exact nomatch other
  · exact own

/-- The order of the handles does not matter. -/
theorem Registers.reordered {others : List Handle} (moved : handles.Perm others) :
    e.Registers others :=
  { registers with entries := (moved.map _).symm.trans registers.entries }

/-- A model that is loaded takes a new slot. -/
theorem Registers.loaded {e' : HostEngine} {d : Descriptor} {config : ModelConfig} {h : Handle}
    (loaded : e.loadModel d config = (e', .ok h.model)) :
    h.model.slot = some e.nextSlot ∧ e'.Registers (handles ++ [h]) ∧ e.Follows e' := by
  obtain ⟨slot, rfl⟩ := loadModel_second registers.second loaded
  have unused : e.nextSlot ∉ e.slots.slots := fun listed =>
    absurd (registers.issued _ listed) (Int.lt_irrefl _)
  have inserted : (e.slots.insert e.nextSlot h.model.version).entries =
      (e.nextSlot, h.model.version) :: e.slots.entries := by
    rw [SlotMap.insert, SlotMap.erase_unused unused]
  refine ⟨slot, ?_, rfl, Int.le_add_one (Int.le_refl _)⟩
  constructor
  case second => exact registers.second
  case issued =>
    intro other listed
    rw [SlotMap.slots, inserted, List.map_cons, List.mem_cons] at listed
    rcases listed with rfl | old
    · exact Int.lt_succ _
    · exact Int.lt_add_one_of_le (Int.le_of_lt (registers.issued other old))
  case apart =>
    rw [SlotMap.slots, inserted, List.map_cons, List.nodup_cons]
    exact ⟨unused, registers.apart⟩
  case entries =>
    rw [inserted, List.map_cons, List.map_append, List.map_singleton, slot]
    exact (List.perm_append_singleton _ _).trans (registers.entries.cons _)

/-- A model that is released gives its slot back. -/
theorem Registers.released {h : Handle} {rest : List Handle} (moved : handles.Perm (h :: rest)) :
    (e.releaseModel h.model).Registers rest ∧ e.Follows (e.releaseModel h.model) := by
  have opened : h ∈ handles := moved.mem_iff.mpr List.mem_cons_self
  obtain ⟨slot, here, entry⟩ := registers.slot opened
  have erased := SlotMap.erase_perm registers.apart entry
  have slots := erased.map Prod.fst
  rw [releaseModel_slot e here]
  refine ⟨?_, rfl, Int.le_refl _⟩
  constructor
  case second => exact registers.second
  case issued =>
    intro other listed
    exact registers.issued other (slots.mem_iff.mpr (List.mem_cons_of_mem _ listed))
  case apart => exact (List.nodup_cons.mp (slots.nodup_iff.mp registers.apart)).2
  case entries =>
    have both := (moved.map _).symm.trans
      (registers.entries.trans (erased.map fun entry => (some entry.1, entry.2)))
    rw [List.map_cons, List.map_cons, here] at both
    exact List.Perm.cons_inv both

end

end HostEngine

namespace Session

/-- The open handles on engine `k`. -/
def boundTo {ε : Type} (s : Session ε) (k : Nat) : List Handle :=
  s.live.filter fun h => h.engine == k

/-- The handles on an engine are the open ones that were loaded by it. -/
theorem mem_boundTo {ε : Type} {s : Session ε} {k : Nat} {h : Handle} :
    h ∈ s.boundTo k ↔ h ∈ s.live ∧ h.engine = k := by
  rw [boundTo, List.mem_filter, beq_iff_eq]

/-- Opening a handle adds it to those of its engine. -/
theorem boundTo_opened {ε : Type} (s : Session ε) (registry : Registry ε) (h : Handle) (k : Nat) :
    boundTo { s with registry := registry, handles := s.handles.push (some h) } k =
      s.boundTo k ++ if h.engine = k then [h] else [] := by
  rw [boundTo, live_opened, List.filter_append, List.filter_cons, List.filter_nil]
  simp only [beq_iff_eq, boundTo]

/-- Closing a handle takes it from those of its engine. -/
theorem boundTo_closed {ε : Type} {s : Session ε} {number : Nat} {h : Handle}
    (opened : s.handle? number = some h) (registry : Registry ε) (k : Nat) :
    (s.boundTo k).Perm ((if h.engine = k then [h] else []) ++ boundTo { s with
      registry := registry, handles := s.handles.setIfInBounds number none } k) := by
  have moved := (live_closed opened registry).filter fun h => h.engine == k
  rw [← List.singleton_append, List.filter_append, List.filter_cons, List.filter_nil] at moved
  simpa only [beq_iff_eq, boundTo] using moved

/-- Engine `k` is a host engine that came from `first`, and its slots are those of the
given handles. -/
def Serves (first : HostEngine) (handles : List Handle) (engine : AnyEngine) : Prop :=
  ∃ e, engine = .host e ∧ e.Registers handles ∧ first.Follows e

/-- Creating a context changes no slot. -/
theorem Serves.created {first : HostEngine} {handles : List Handle} {engine : AnyEngine}
    (serves : Serves first handles engine) (config : ContextConfig) :
    Serves first handles (Engine.createContext engine config).1 := by
  obtain ⟨e, rfl, registers, follows⟩ := serves
  exact ⟨{ e with context := some config }, rfl, { registers with }, { follows with }⟩

/-- Destroying the context changes no slot: models stay loaded without it. -/
theorem Serves.destroyed {first : HostEngine} {handles : List Handle} {engine : AnyEngine}
    (serves : Serves first handles engine) :
    Serves first handles (Engine.destroyContext engine) := by
  obtain ⟨e, rfl, registers, follows⟩ := serves
  exact ⟨{ e with context := none }, rfl, { registers with }, { follows with }⟩

variable {s s' : Session AnyEngine} {op : Operation}

/-- Every change keeps the slots of a secondary host engine those of its open handles.

Proof: opening and closing a handle of this engine enters and erases one slot, and the
handles on it gain and lose one entry. All other operations touch contexts or other
engines, for which the slots stay as they are. -/
theorem Change.serves (change : s.Change op s') {k : Nat} {first : HostEngine}
    (serves : s.registry.Has k (Serves first (s.boundTo k))) :
    s'.registry.Has k (Serves first (s'.boundTo k)) := by
  -- Creating contexts serves no handle, whether it succeeds or is undone.
  have creating : ∀ c : Context, (s.registry.createContexts c.config [] c.engines).1.Has k
      (Serves first (s.boundTo k)) := fun c =>
    serves.createContexts (fun _ serves => serves.created c.config) fun _ _ _ => Serves.destroyed
  cases change with
  | nothing => exact serves
  | @refused c registry cause failed =>
    have kept := creating c
    rwa [failed] at kept
  | @built c registry created =>
    have kept := creating c
    rwa [created] at kept
  | shared used => exact serves
  | dropped referred => exact serves.release (fun _ => Serves.destroyed) _
  | @unloaded _ j engine engine' d config cause listed failed =>
    apply serves.replaced listed
    rintro - ⟨e, rfl, registers, follows⟩
    obtain ⟨e', rfl, refused⟩ := AnyEngine.loadModel_host failed
    obtain rfl := HostEngine.loadModel_failed refused
    exact ⟨e', rfl, registers, follows⟩
  | @loaded _ h engine engine' d config used bound listed loaded =>
    rw [boundTo_opened]
    by_cases here : h.engine = k
    · subst here
      obtain ⟨_, known, e, rfl, registers, follows⟩ := serves
      obtain rfl := Option.some.inj (listed.symm.trans known)
      obtain ⟨e', rfl, made⟩ := AnyEngine.loadModel_host loaded
      obtain ⟨_, registers', later⟩ := registers.loaded made
      rw [if_pos rfl]
      exact ⟨.host e', Registry.setEngine_self listed _, e', rfl, registers', follows.trans later⟩
    · rw [if_neg here, List.append_nil]
      exact serves.replaced listed fun same => absurd same here
  | @closed number h opened =>
    have moved := boundTo_closed opened (h.close s.registry) k
    have released : (h.unloaded s.registry).Has k (Serves first (boundTo { s with
        registry := h.close s.registry, handles := s.handles.setIfInBounds number none } k)) := by
      by_cases here : h.engine = k
      · subst here
        obtain ⟨_, known, e, rfl, registers, follows⟩ := serves
        rw [if_pos rfl] at moved
        obtain ⟨registers', later⟩ := registers.released moved
        refine ⟨.host (e.releaseModel h.model), ?_, _, rfl, registers', follows.trans later⟩
        rw [Handle.unloaded, known]
        exact Registry.setEngine_self known _
      · rw [if_neg here] at moved
        apply Handle.unloaded_has _ fun same => absurd same here
        apply serves.imp
        rintro _ ⟨e, rfl, registers, follows⟩
        exact ⟨e, rfl, registers.reordered moved, follows⟩
    exact released.release (fun _ => Serves.destroyed) h.context

/-- So does every run of operations. -/
theorem after_serves {k : Nat} {first : HostEngine}
    (serves : s.registry.Has k (Serves first (s.boundTo k))) (ops : List Operation) :
    (s.after ops).registry.Has k (Serves first ((s.after ops).boundTo k)) :=
  after_keeps (P := fun s => s.registry.Has k (Serves first (s.boundTo k))) serves
    (fun before op _ kept => ((s.after before).perform_change op).serves kept) ops
    (List.prefix_refl ops)

/-- The slots of engine `k` are those of its open handles, as the engine itself reports
them. -/
structure SlotsOf (s : Session AnyEngine) (k : Nat) (engine : AnyEngine) : Prop where
  count : Engine.liveSlots engine = some (s.boundTo k).length
  distinct : ((s.boundTo k).map (·.model.slot)).Nodup
  versions : ∀ h ∈ s.boundTo k, ∃ slot, h.model.slot = some slot ∧
    Engine.slotVersion engine slot = some (.ok h.model.version)

/-- A host engine whose entries match the handles reports just their slots. -/
theorem slotsOf_host {k : Nat} {e : HostEngine} (registers : e.Registers (s.boundTo k)) :
    s.SlotsOf k (.host e) := by
  have slotted : e.hasSlots = true := by rw [HostEngine.hasSlots, registers.second]; rfl
  constructor
  case count =>
    show (if e.hasSlots then some e.slots.size else none) = _
    rw [if_pos slotted, registers.size]
  case distinct => exact registers.slots_nodup
  case versions =>
    intro h opened
    obtain ⟨slot, here, entry⟩ := registers.slot opened
    refine ⟨slot, here, ?_⟩
    show (if e.hasSlots then some (e.slotVersion slot) else none) = _
    rw [if_pos slotted, HostEngine.slotVersion, SlotMap.get?_of_mem registers.apart entry]

section

variable {k : Nat} {e : HostEngine} (listed : s.registry.engines[k]? = some (.host e))
include listed

/-- A handle that is not opened leaves a host engine as it was. -/
theorem openHandle_failed_host {reference : Nat} {d : Descriptor} {maxBatchSize : Nat}
    {inputsChannelLast : Bool} {routingIndex : Int} {server : Nat} {cause : Failure ServiceError}
    (failed : s.openHandle reference d maxBatchSize inputsChannelLast routingIndex server =
      (s', .error cause)) : s'.registry.engines[k]? = some (.host e) := by
  rcases openHandle_failed failed with same | ⟨j, engine, engine', config, _, known, refused, after⟩
  · rwa [same]
  · rw [after]
    by_cases here : j = k
    · subst here
      obtain rfl := Option.some.inj (listed.symm.trans known)
      obtain ⟨e', rfl, unloaded⟩ := AnyEngine.loadModel_host refused
      obtain rfl := HostEngine.loadModel_failed unloaded
      exact Registry.setEngine_self known _
    · rwa [Registry.setEngine_other _ _ here]

/-- A handle that is opened on the engine gets its next slot. -/
theorem openHandle_slot (registers : e.Registers (s.boundTo k)) {reference : Nat} {d : Descriptor}
    {maxBatchSize : Nat} {inputsChannelLast : Bool} {routingIndex : Int} {server number : Nat}
    (opened : s.openHandle reference d maxBatchSize inputsChannelLast routingIndex server =
      (s', .ok number)) {h : Handle} (here : s'.handle? number = some h) (bound : h.engine = k) :
    h.model.slot = some e.nextSlot := by
  obtain ⟨h', there, engine, engine', config, known, loaded⟩ := openHandle_ok opened
  obtain rfl := Option.some.inj (here.symm.trans there)
  subst bound
  obtain rfl := Option.some.inj (listed.symm.trans known)
  obtain ⟨e', _, made⟩ := AnyEngine.loadModel_host loaded
  exact (registers.loaded made).1

/-- A batch of a handle on the engine reports a missing slot only if the engine's function
does. -/
theorem run_slotNotFound (registers : e.Registers (s.boundTo k)) {number : Nat} {h : Handle}
    (opened : s.handle? number = some h) (bound : h.engine = k) {p : Pool}
    {requests : List Request} {outputs : List Evaluation} {slot : Int}
    (failed : (s.run number p requests outputs).result =
      .error (.error (.engine (.slotNotFound slot)))) : e.forward.Fails (.slotNotFound slot) := by
  obtain ⟨engine, known, fails⟩ := run_failure opened failed
  subst bound
  obtain rfl := Option.some.inj (listed.symm.trans known)
  have mine : h ∈ s.boundTo h.engine := mem_boundTo.mpr ⟨mem_live.mpr ⟨number, opened⟩, rfl⟩
  exact registers.runBatch_slotNotFound mine fails

end

/-- Let engine `k` be a secondary host engine without slots, among any other engines. After
any operations its slots are those of its open handles, with their versions; a handle that
is not opened leaves the engine as it is; a handle that is opened gets a slot that no handle
had before; and a batch of an open handle finds its slot.

Proof: the invariant over all operations gives the slots. A new slot is the number at
the counter, and all slots that handles had at an earlier time were below the counter
of that time, which has only grown since. -/
theorem slots_follow_handles (engines : Array AnyEngine) (k : Nat) (e : HostEngine)
    (placed : engines[k]? = some (.host e)) (second : e.kind = .secondary)
    (unused : e.slots = .empty) (ops : List Operation) :
    let s := (start engines).after ops
    ∃ engine, s.registry.engines[k]? = some engine ∧ s.SlotsOf k engine ∧
      (∀ reference d maxBatchSize inputsChannelLast routingIndex server s' cause,
        s.openHandle reference d maxBatchSize inputsChannelLast routingIndex server =
            (s', .error cause) →
          s'.registry.engines[k]? = some engine) ∧
      (∀ earlier, earlier <+: ops → ∀ old ∈ ((start engines).after earlier).boundTo k,
        ∀ reference d maxBatchSize inputsChannelLast routingIndex server s' number h,
          s.openHandle reference d maxBatchSize inputsChannelLast routingIndex server =
              (s', .ok number) →
            s'.handle? number = some h → h.engine = k → h.model.slot ≠ old.model.slot) ∧
      ∀ number h, s.handle? number = some h → h.engine = k → ∀ p requests outputs slot,
        (s.run number p requests outputs).result =
            .error (.error (.engine (.slotNotFound slot))) →
          e.forward.Fails (.slotNotFound slot) := by
  have fresh : (start engines).registry.Has k (Serves e ((start engines).boundTo k)) := by
    refine ⟨_, placed, e, rfl, ⟨second, ?_, ?_, ?_⟩, .refl e⟩
    · rw [unused]
      exact fun _ listed => nomatch listed
    · rw [unused]
      exact List.nodup_nil
    · rw [unused]
      exact .refl []
  intro s
  obtain ⟨_, listed, last, rfl, registers, follows⟩ := after_serves fresh ops
  refine ⟨.host last, listed, slotsOf_host registers, ?_, ?_, ?_⟩
  · intro reference d maxBatchSize inputsChannelLast routingIndex server s' cause failed
    exact openHandle_failed_host listed failed
  · rintro earlier ⟨more, rfl⟩ old member reference d maxBatchSize inputsChannelLast routingIndex
      server s' number h opened here bound same
    -- The engine at the earlier time precedes the one that gives out the new slot.
    obtain ⟨_, there, before, rfl, registers', _⟩ := after_serves fresh earlier
    obtain ⟨_, now, after, rfl, _, between⟩ :=
      after_serves ⟨_, there, before, rfl, registers', .refl before⟩ more
    rw [← after_trans] at now
    obtain rfl := AnyEngine.host.inj (Option.some.inj (listed.symm.trans now))
    have next := openHandle_slot listed registers opened here bound
    have earlierSlot := registers'.slot_lt member (same.symm.trans next)
    exact absurd between.later (Int.not_le.mpr earlierSlot)
  · intro number h opened bound p requests outputs slot failed
    exact follows.forward ▸ run_slotNotFound listed registers opened bound failed

/-- A secondary engine with room for one more slot. -/
def nearlyFull : HostEngine :=
  { HostEngine.new .secondary (.ofRows Handle.tiny.shape (.echo Handle.tiny.shape)) with
    nextSlot := slotLimit - 2 }

/-- A context of that engine. -/
def nearlyFullContext : Context :=
  ⟨{ ContextConfig.default with extent := ⟨3, 2⟩ }, none, some 0⟩

/-- Two contexts share the engine, and a handle takes its last slot. -/
def fillingUp : List Operation :=
  [.build nearlyFullContext, .build nearlyFullContext, .load 0 Handle.tiny.descriptor 2 false 100 0]

/-- The session in which the slots are used up. -/
def fullSession : Session AnyEngine := (start #[.host nearlyFull]).after fillingUp

/-- The next handle finds the counter at its end and leaves the one slot as it is, and when
the first handle is closed no slot is left. -/
theorem slots_follow_handles_full :
    #[AnyEngine.host nearlyFull][0]? = some (.host nearlyFull) ∧
      nearlyFull.kind = .secondary ∧ nearlyFull.slots = .empty ∧
      (fullSession.openHandle 1 Handle.tiny.descriptor 2 false 100 0).2 =
        .error (.fault .implicit) ∧
      (∃ engine, fullSession.registry.engines[0]? = some engine ∧
        Engine.liveSlots engine = some 1 ∧
        (fullSession.openHandle 1 Handle.tiny.descriptor 2 false 100 0).1.registry.engines[0]? =
          some engine) ∧
      ∃ engine, (fullSession.perform (.close 0)).registry.engines[0]? = some engine ∧
        Engine.liveSlots engine = some 0 := by
  obtain ⟨engine, listed, slots, unchanged, _⟩ :=
    slots_follow_handles #[.host nearlyFull] 0 nearlyFull rfl rfl rfl fillingUp
  obtain ⟨engine', listed', slots', _⟩ :=
    slots_follow_handles #[.host nearlyFull] 0 nearlyFull rfl rfl rfl (fillingUp ++ [.close 0])
  rw [after_append] at listed' slots'
  have refused : (fullSession.openHandle 1 Handle.tiny.descriptor 2 false 100 0).2 =
      .error (.fault .implicit) := rfl
  have one : (fullSession.boundTo 0).length = 1 := rfl
  have none : ((fullSession.perform (.close 0)).boundTo 0).length = 0 := rfl
  refine ⟨rfl, rfl, rfl, refused, ⟨engine, listed, ?_, ?_⟩, engine', listed', ?_⟩
  · exact slots.count.trans (congrArg some one)
  · exact unchanged 1 _ 2 false 100 0 _ (.fault .implicit) (Prod.ext rfl refused)
  · exact slots'.count.trans (congrArg some none)

end Session

end BoardEval
