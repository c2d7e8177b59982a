import BoardEval.Proofs.Batches
import BoardEval.Service.Session

/-!
# Lives of contexts and handles

Contexts are built, shared and dropped, and handles are opened through them and closed,
in any order. `Change` lists what one operation can make of a session, with everything
that it leaves alone. From it follows the law of holders: the number that is stored with
a context is the number of references and open handles that use it, so a context lives
exactly as long as it has a user.

Running a batch returns tensors and evaluations and no session, so it is not among the
operations: whatever holds in all sessions holds before and after every batch.
-/

namespace BoardEval

/-! ## Arrays with gaps -/

/-- The entries of an array with gaps. -/
def occupied {α : Type} (xs : Array (Option α)) : List α := xs.toList.filterMap id

section

variable {α : Type} {xs : Array (Option α)}

/-- An entry is listed if some place of the array holds it. -/
theorem mem_occupied {a : α} : a ∈ occupied xs ↔ ∃ i : Nat, (xs[i]?).join = some a := by
  simp [occupied, Array.mem_iff_getElem?, Option.join_eq_some_iff]

/-- An entry that is added comes last. -/
theorem occupied_push (a : α) : occupied (xs.push (some a)) = occupied xs ++ [a] := by
  simp [occupied]

/-- Clearing an entry takes it away, once. -/
theorem occupied_cleared {i : Nat} {a : α} (here : (xs[i]?).join = some a) :
    (occupied xs).Perm (a :: occupied (xs.setIfInBounds i none)) := by
  rw [Option.join_eq_some_iff, ← Array.getElem?_toList, List.getElem?_eq_some_iff] at here
  obtain ⟨inside, entry⟩ := here
  obtain ⟨front, back, split, place⟩ :
      ∃ front back, xs.toList = front ++ some a :: back ∧ front.length = i := by
    refine ⟨xs.toList.take i, xs.toList.drop (i + 1), ?_, ?_⟩
    · rw [← entry, List.getElem_cons_drop, List.take_append_drop]
    · exact List.length_take_of_le (Nat.le_of_lt inside)
  have cleared : (xs.setIfInBounds i none).toList = front ++ none :: back := by
    rw [Array.toList_setIfInBounds, split, ← place, List.set_append_right _ _ (Nat.le_refl _),
      Nat.sub_self, List.set_cons_zero]
  rw [occupied, occupied, split, cleared]
  simp only [List.filterMap_append, List.filterMap_cons, id_eq]
  exact List.perm_middle

end

/-! ## Registries -/

namespace Registry

variable {ε : Type}

/-- The number of users that a context counts. -/
def holders (r : Registry ε) (id : Nat) : Nat := ((r.contexts[id]?).map (·.holders)).getD 0

/-- The engines that a context is bound to. -/
def enginesOf (r : Registry ε) (id : Nat) : List Nat :=
  ((r.contexts[id]?).map (·.context.engines)).getD []

/-- Engine `k` exists and has a property. -/
def Has (r : Registry ε) (k : Nat) (P : ε → Prop) : Prop := ∃ e, r.engines[k]? = some e ∧ P e

section

variable {r : Registry ε} {id other : Nat}

/-- Holders are counted in the contexts alone. -/
theorem holders_congr {r' : Registry ε} (same : r'.contexts = r.contexts) (id : Nat) :
    r'.holders id = r.holders id := by
  rw [holders, holders, same]

/-- Which engines a context binds is said by the contexts alone. -/
theorem enginesOf_congr {r' : Registry ε} (same : r'.contexts = r.contexts) (id : Nat) :
    r'.enginesOf id = r.enginesOf id := by
  rw [enginesOf, enginesOf, same]

/-- Only contexts that were registered have holders. -/
theorem contexts_of_held (held : 0 < r.holders id) : id < r.contexts.size := by
  apply Nat.lt_of_not_le
  intro beyond
  simp [holders, Array.getElem?_eq_none beyond] at held

/-- Holding a context counts one more for it and none for another. It has to be held
already, as it is wherever the program holds it again. -/
theorem holders_hold (held : 0 < r.holders id) (other : Nat) :
    (r.hold id).holders other = r.holders other + if id = other then 1 else 0 := by
  have known := contexts_of_held held
  simp only [holders, hold, Array.getElem?_modify]
  split
  · rename_i same
    subst same
    simp [Array.getElem?_eq_getElem known]
  · rfl

/-- Counting users again leaves the engines of a context alone. -/
theorem enginesOf_recount {r' : Registry ε} (count : Nat → Nat)
    (recount : r'.contexts = r.contexts.modify id fun s => { s with holders := count s.holders })
    (other : Nat) : r'.enginesOf other = r.enginesOf other := by
  simp only [enginesOf, recount, Array.getElem?_modify]
  split
  · cases r.contexts[other]? <;> rfl
  · rfl

/-- Holding a context changes no binding. -/
theorem enginesOf_hold (r : Registry ε) (id other : Nat) :
    (r.hold id).enginesOf other = r.enginesOf other :=
  enginesOf_recount (· + 1) rfl other

/-- A new context has one user and the engines that it was built with. -/
theorem holders_pushed (r : Registry ε) (c : Context) (other : Nat) :
    holders { r with contexts := r.contexts.push ⟨c, 1⟩ } other =
      r.holders other + if r.contexts.size = other then 1 else 0 := by
  simp only [holders, Array.getElem?_push]
  by_cases new : r.contexts.size = other
  · subst new
    simp
  · rw [if_neg (Ne.symm new), if_neg new]
    rfl

/-- A new context binds its engines; the bindings of the others stay. -/
theorem enginesOf_pushed (r : Registry ε) (c : Context) (other : Nat) :
    enginesOf { r with contexts := r.contexts.push ⟨c, 1⟩ } other =
      if r.contexts.size = other then c.engines else r.enginesOf other := by
  simp only [enginesOf, Array.getElem?_push]
  by_cases new : r.contexts.size = other
  · rw [if_pos new.symm, if_pos new]
    rfl
  · rw [if_neg (Ne.symm new), if_neg new]

/-- A weaker property of an engine follows from a stronger one. -/
theorem Has.imp {k : Nat} {P Q : ε → Prop} (has : r.Has k P) (weaker : ∀ e, P e → Q e) :
    r.Has k Q := by
  obtain ⟨e, listed, holds⟩ := has
  exact ⟨e, listed, weaker e holds⟩

/-- Replacing an engine touches no other. -/
theorem setEngine_other (r : Registry ε) {j k : Nat} (e : ε) (apart : j ≠ k) :
    (r.setEngine j e).engines[k]? = r.engines[k]? :=
  Array.getElem?_setIfInBounds_ne apart

/-- An engine that is replaced is the new one. -/
theorem setEngine_self {k : Nat} {engine : ε} (listed : r.engines[k]? = some engine)
    (engine' : ε) : (r.setEngine k engine').engines[k]? = some engine' :=
  Array.getElem?_setIfInBounds_self_of_lt (Array.getElem?_eq_some_iff.mp listed).1

/-- An engine may be replaced by one that keeps the property. -/
theorem Has.replaced {j k : Nat} {P : ε → Prop} (has : r.Has k P) {engine engine' : ε}
    (listed : r.engines[j]? = some engine) (kept : j = k → P engine → P engine') :
    (r.setEngine j engine').Has k P := by
  obtain ⟨e, here, holds⟩ := has
  by_cases same : j = k
  · subst same
    obtain rfl := Option.some.inj (listed.symm.trans here)
    exact ⟨engine', setEngine_self listed engine', kept rfl holds⟩
  · exact ⟨e, (r.setEngine_other engine' same).trans here, holds⟩

end

variable [Engine ε] {r : Registry ε}

/-- Teardowns are made one after the other; an engine that does not exist is passed
over. -/
theorem destroyContexts_cons (r : Registry ε) (id : Nat) (ids : List Nat) :
    r.destroyContexts (id :: ids) = (match r.engines[id]? with
      | some engine => r.setEngine id (Engine.destroyContext engine)
      | none => r).destroyContexts ids := rfl

/-- Teardowns concern engines and leave the list of contexts alone. -/
theorem destroyContexts_contexts (r : Registry ε) (ids : List Nat) :
    (r.destroyContexts ids).contexts = r.contexts := by
  induction ids generalizing r with
  | nil => rfl
  | cons id ids inductionHypothesis =>
    rw [destroyContexts_cons, inductionHypothesis]
    split <;> rfl

/-- What a teardown does depends on the engines alone. -/
theorem destroyContexts_congr {r r' : Registry ε} (same : r.engines = r'.engines)
    (ids : List Nat) : (r.destroyContexts ids).engines = (r'.destroyContexts ids).engines := by
  induction ids generalizing r r' with
  | nil => exact same
  | cons id ids inductionHypothesis =>
    rw [destroyContexts_cons, destroyContexts_cons, ← same]
    apply inductionHypothesis
    split
    · simp only [setEngine, same]
    · exact same

/-- A teardown touches the listed engines only. -/
theorem destroyContexts_other (r : Registry ε) {ids : List Nat} {k : Nat} (unlisted : k ∉ ids) :
    (r.destroyContexts ids).engines[k]? = r.engines[k]? := by
  induction ids generalizing r with
  | nil => rfl
  | cons id ids inductionHypothesis =>
    rw [List.mem_cons, not_or] at unlisted
    rw [destroyContexts_cons, inductionHypothesis _ unlisted.2]
    split
    · exact r.setEngine_other _ (Ne.symm unlisted.1)
    · rfl

/-- What every teardown keeps of an engine, teardowns of any engines keep. The
induction is on their list. -/
theorem Has.destroyContexts {k : Nat} {P : ε → Prop} (has : r.Has k P)
    (destroys : ∀ e, P e → P (Engine.destroyContext e)) (ids : List Nat) :
    (r.destroyContexts ids).Has k P := by
  induction ids generalizing r with
  | nil => exact has
  | cons id ids inductionHypothesis =>
    rw [destroyContexts_cons]
    apply inductionHypothesis
    split
    · rename_i engine listed
      exact has.replaced listed fun _ => destroys engine
    · exact has

/-- Creations concern engines and leave the list of contexts alone, also where they
fail and are undone. -/
theorem createContexts_contexts (r : Registry ε) (config : ContextConfig)
    (created ids : List Nat) : (r.createContexts config created ids).1.contexts = r.contexts := by
  induction ids generalizing r created with
  | nil => rfl
  | cons id ids inductionHypothesis =>
    unfold createContexts
    split
    · exact inductionHypothesis r created
    · split
      · exact inductionHypothesis _ _
      · exact destroyContexts_contexts _ _

/-- Creating the contexts of engines registers nothing, however it ends. -/
theorem contexts_of_created {r' : Registry ε} {config : ContextConfig} {ids : List Nat}
    {result : Except EngineError Unit} (made : r.createContexts config [] ids = (r', result)) :
    r'.contexts = r.contexts := by
  rw [← r.createContexts_contexts config [] ids, made]

/-- What creations keep holds after them. If one is refused, the earlier ones are undone,
so it must survive that too. -/
theorem Has.createContexts {k : Nat} {P : ε → Prop} (has : r.Has k P) {config : ContextConfig}
    {created ids : List Nat} (creates : ∀ e : ε, P e → P (Engine.createContext e config).1)
    (undone : ∀ cause, (r.createContexts config created ids).2 = .error cause →
      ∀ e : ε, P e → P (Engine.destroyContext e)) :
    (r.createContexts config created ids).1.Has k P := by
  induction ids generalizing r created with
  | nil => exact has
  | cons id ids inductionHypothesis =>
    simp only [Registry.createContexts] at undone ⊢
    cases listed : r.engines[id]? with
    | none =>
      simp only [listed] at undone
      exact inductionHypothesis has undone
    | some engine =>
      have called : (r.setEngine id (Engine.createContext engine config).1).Has k P :=
        has.replaced listed fun _ => creates engine
      simp only [listed] at undone ⊢
      generalize Engine.createContext engine config = call at called undone ⊢
      obtain ⟨engine', result⟩ := call
      cases result with
      | ok u => exact inductionHypothesis called undone
      | error cause => exact called.destroyContexts (undone cause rfl) _

section

variable (r : Registry ε) (id : Nat)

/-- Letting go counts one holder less, and never less than none. -/
theorem release_contexts : (r.release id).contexts =
    r.contexts.modify id fun s => { s with holders := s.holders - 1 } := by
  unfold release
  split
  · rename_i unknown
    apply Array.ext_getElem?
    intro other
    rw [Array.getElem?_modify]
    split
    · rename_i same
      subst same
      rw [unknown]
      rfl
    · rfl
  · simp only
    split
    · exact destroyContexts_contexts _ _
    · rfl

/-- Letting go of a context counts one less for it and none less for another. -/
theorem holders_release (other : Nat) :
    (r.release id).holders other = r.holders other - if id = other then 1 else 0 := by
  simp only [holders, release_contexts, Array.getElem?_modify]
  split
  · cases r.contexts[other]? <;> simp
  · rfl

/-- Letting go of a context changes no binding, not even at the last holder. -/
theorem enginesOf_release (other : Nat) : (r.release id).enginesOf other = r.enginesOf other :=
  enginesOf_recount (· - 1) (r.release_contexts id) other

/-- The last user of a context takes the contexts of its engines along, and no other
does. -/
theorem release_engines : (r.release id).engines =
    if r.holders id = 1 then (r.destroyContexts (r.enginesOf id)).engines else r.engines := by
  unfold release
  split
  · rename_i unknown
    simp [holders, unknown]
  · rename_i shared known
    have holders : r.holders id = shared.holders := by simp [Registry.holders, known]
    have engines : r.enginesOf id = shared.context.engines := by simp [enginesOf, known]
    rw [holders, engines]
    simp only
    split
    · apply destroyContexts_congr
      rfl
    · rfl

/-- A context whose last user has let go is torn down. -/
theorem release_torn {r : Registry ε} {id other : Nat} (held : 0 < r.holders other)
    (gone : (r.release id).holders other = 0) :
    (r.release id).engines = (r.destroyContexts (r.enginesOf other)).engines := by
  rw [holders_release] at gone
  by_cases same : id = other
  · subst same
    rw [if_pos rfl] at gone
    rw [release_engines, if_pos (by omega)]
  · rw [if_neg same] at gone
    omega

end

/-- What every teardown keeps of an engine, letting go of a context keeps, whether
it was the last holder or not. -/
theorem Has.release {k : Nat} {P : ε → Prop} (has : r.Has k P)
    (destroys : ∀ e, P e → P (Engine.destroyContext e)) (id : Nat) : (r.release id).Has k P := by
  have torn := has.destroyContexts destroys (r.enginesOf id)
  unfold Has at has torn ⊢
  rw [release_engines]
  split
  · exact torn
  · exact has

/-- An engine is as it was after a release, unless the release tore its context down. -/
theorem Has.release_or {k : Nat} {P : ε → Prop} (has : r.Has k P) (id : Nat) :
    (r.release id).Has k P ∨ r.holders id = 1 ∧ k ∈ r.enginesOf id := by
  unfold Has at has ⊢
  rw [release_engines]
  by_cases last : r.holders id = 1
  · rw [if_pos last]
    by_cases listed : k ∈ r.enginesOf id
    · exact .inr ⟨last, listed⟩
    · rw [r.destroyContexts_other listed]
      exact .inl has
  · rw [if_neg last]
    exact .inl has

end Registry

/-! ## What an operation can do -/

namespace Handle

/-- The registry in which the model of a handle is released. -/
def unloaded {ε : Type} [Engine ε] (h : Handle) (r : Registry ε) : Registry ε :=
  match r.engines[h.engine]? with
  | some engine => r.setEngine h.engine (Engine.releaseModel engine h.model)
  | none => r

variable {ε : Type} [Engine ε] {r : Registry ε}

/-- Closing releases the model and then lets go of the context. -/
theorem close_eq (h : Handle) (r : Registry ε) : h.close r = (h.unloaded r).release h.context :=
  rfl

/-- Releasing a model leaves the list of contexts alone. -/
theorem unloaded_contexts (h : Handle) (r : Registry ε) : (h.unloaded r).contexts = r.contexts := by
  unfold unloaded
  split <;> rfl

/-- What releasing its model keeps of the handle's engine, releasing it keeps of any
engine. -/
theorem unloaded_has {h : Handle} {k : Nat} {P : ε → Prop} (has : r.Has k P)
    (releases : h.engine = k → ∀ e, P e → P (Engine.releaseModel e h.model)) :
    (h.unloaded r).Has k P := by
  unfold unloaded
  split
  · rename_i engine listed
    exact has.replaced listed fun same => releases same engine
  · exact has

end Handle

/-! ## Failures of batches -/

/-- A call of the pass can fail for that cause. -/
def Forward.Fails (run : Forward) (cause : EngineError) : Prop :=
  ∃ inputs slots n, (run inputs slots n).result = .error (.error cause)

/-- An engine's failure in a batch is one that its pass came to. -/
theorem Handle.execute_failure {h : Handle} {forward : Forward} {p : Pool}
    {requests : List Request} {outputs : List Evaluation} {cause : EngineError}
    (failed : (h.executeBy forward p requests outputs).result =
      .error (.error (.engine cause))) : forward.Fails cause := by
  cases loaded : (h.load p requests outputs).2 with
  | error broken =>
    rw [execute_refused loaded] at failed
    exact nomatch failed
  | ok u =>
    cases run : (h.ran forward p requests outputs).result with
    | error failure =>
      rw [execute_failed loaded run] at failed
      cases failure with
      | error cause' =>
        obtain rfl : cause' = cause := by simpa [Failure.map] using failed
        exact ⟨_, _, _, run⟩
      | fault broken => exact nomatch failed
    | ok u =>
      rw [execute_ran loaded run] at failed
      generalize decodeRows h.model.version 0 _ _ = decoded at failed
      obtain ⟨_, _, result⟩ := decoded
      cases result with
      | error broken => exact nomatch failed
      | ok u => exact nomatch failed

/-- A host engine fails a batch for want of a context, of a slot or of capacity, or because
its function fails. -/
theorem HostEngine.runBatch_fails {e : HostEngine} {model : LoadedModel} {cause : EngineError}
    (fails : Forward.Fails (e.runBatch model) cause) :
    (cause = .contextMissing ∧ e.context = none) ∨
      (∃ slot, cause = .slotNotFound slot ∧ model.slot = some slot ∧
        e.slots.contains slot = false) ∨
      (∃ n, cause = overCapacity n model.config.maxBatchSize) ∨ e.forward.Fails cause := by
  obtain ⟨inputs, slots, n, failed⟩ := fails
  unfold runBatch at failed
  by_cases bare : e.context = none
  · rw [if_pos (Option.isNone_iff_eq_none.mpr bare)] at failed
    cases failed
    exact .inl ⟨rfl, bare⟩
  rw [if_neg (mt Option.isNone_iff_eq_none.mp bare)] at failed
  cases lost : model.slot.filter fun slot => !e.slots.contains slot with
  | some slot =>
    rw [lost] at failed
    cases failed
    obtain ⟨known, missing⟩ := Option.filter_eq_some_iff.mp lost
    exact .inr (.inl ⟨slot, rfl, known, by simpa using missing⟩)
  | none =>
    rw [lost] at failed
    by_cases large : model.config.maxBatchSize < n
    · simp only [if_pos large] at failed
      cases failed
      exact .inr (.inr (.inl ⟨n, rfl⟩))
    · simp only [if_neg large] at failed
      exact .inr (.inr (.inr ⟨inputs, slots, n, failed⟩))

namespace Session

/-! ## Users -/

section

variable {ε : Type}

/-- The open handles. -/
def live (s : Session ε) : List Handle := occupied s.handles

/-- The contexts of all users, references and open handles alike, each as often as it is
used. -/
def users (s : Session ε) : List Nat := occupied s.references ++ s.live.map (·.context)

/-- Every context counts its users. -/
def Counted (s : Session ε) : Prop := ∀ id, s.registry.holders id = s.users.count id

/-- Every open handle runs on an engine of its context. -/
def Bound (s : Session ε) : Prop := ∀ h ∈ s.live, h.engine ∈ s.registry.enginesOf h.context

variable {s s' : Session ε}

/-- A handle is open if it can be found under some number. -/
theorem mem_live {h : Handle} : h ∈ s.live ↔ ∃ number, s.handle? number = some h := mem_occupied

/-- A context that is referred to has a user. -/
theorem referred_used {number id : Nat} (referred : s.reference? number = some id) :
    id ∈ s.users :=
  List.mem_append_left _ (mem_occupied.mpr ⟨number, referred⟩)

/-- A context with an open handle has a user. -/
theorem opened_used {h : Handle} (opened : h ∈ s.live) : h.context ∈ s.users :=
  List.mem_append_right _ (List.mem_map_of_mem opened)

/-- A new reference is a user more. -/
theorem users_referred (s : Session ε) (registry : Registry ε) (id : Nat) :
    (users { s with registry := registry, references := s.references.push (some id) }).Perm
      (id :: s.users) := by
  rw [users, users, occupied_push, List.append_assoc]
  exact List.perm_middle

/-- A dropped reference is a user less. -/
theorem users_dropped {number id : Nat} (referred : s.reference? number = some id)
    (registry : Registry ε) :
    s.users.Perm (id :: users { s with
      registry := registry, references := s.references.setIfInBounds number none }) :=
  (occupied_cleared referred).append_right _

/-- A new handle comes after those that are open. -/
theorem live_opened (s : Session ε) (registry : Registry ε) (h : Handle) :
    live { s with registry := registry, handles := s.handles.push (some h) } = s.live ++ [h] :=
  occupied_push h

/-- A new handle is a user more of its context. -/
theorem users_opened (s : Session ε) (registry : Registry ε) (h : Handle) :
    (users { s with registry := registry, handles := s.handles.push (some h) }).Perm
      (h.context :: s.users) := by
  rw [users, users, live_opened, List.map_append, ← List.append_assoc]
  exact List.perm_append_singleton _ _

/-- A handle that is closed is one less, whatever happens to the registry. -/
theorem live_closed {number : Nat} {h : Handle} (opened : s.handle? number = some h)
    (registry : Registry ε) :
    s.live.Perm (h :: live { s with
      registry := registry, handles := s.handles.setIfInBounds number none }) :=
  occupied_cleared opened

/-- A handle that is closed is a user less of its context. -/
theorem users_closed {number : Nat} {h : Handle} (opened : s.handle? number = some h)
    (registry : Registry ε) :
    s.users.Perm (h.context :: users { s with
      registry := registry, handles := s.handles.setIfInBounds number none }) :=
  (((live_closed opened registry).map _).append_left _).trans List.perm_middle

/-- At first nothing is held, and nothing counts. -/
theorem start_counted (engines : Array ε) : (start engines).Counted := fun _ => rfl

/-- At first there is no handle that could run elsewhere. -/
theorem start_bound (engines : Array ε) : (start engines).Bound := fun _ opened => nomatch opened

/-- Where users are counted, a context that is used is held. This is why using it
never finds it gone. -/
theorem Counted.held (counted : s.Counted) {id : Nat} (used : id ∈ s.users) :
    0 < s.registry.holders id := by
  rw [counted id]
  exact List.count_pos_iff.mpr used

/-- One user more is counted as one holder more. -/
theorem Counted.more (counted : s.Counted) {id : Nat} (users : s'.users.Perm (id :: s.users))
    (holders : ∀ other, s'.registry.holders other =
      s.registry.holders other + if id = other then 1 else 0) : s'.Counted := by
  intro other
  simp only [users.count_eq, List.count_cons, holders, counted other, beq_iff_eq]

/-- One user less is counted as one holder less. -/
theorem Counted.fewer (counted : s.Counted) {id : Nat} (users : s.users.Perm (id :: s'.users))
    (holders : ∀ other, s'.registry.holders other =
      s.registry.holders other - if id = other then 1 else 0) : s'.Counted := by
  intro other
  simp only [holders, counted other, users.count_eq, List.count_cons, beq_iff_eq,
    Nat.add_sub_cancel]

end

/-! ## Operations -/

/-- What is done with contexts and handles. Contexts are named by references, and a number
that is out of use does nothing. -/
inductive Operation where
  /-- Build a context and refer to it. -/
  | build (context : Context)
  /-- Refer once more to a context. -/
  | clone (reference : Nat)
  /-- Refer to the context of a handle. -/
  | share (handle : Nat)
  /-- Drop a reference. -/
  | drop (reference : Nat)
  /-- Open a handle through a context. -/
  | load (reference : Nat) (d : Descriptor) (maxBatchSize : Nat) (inputsChannelLast : Bool)
    (routingIndex : Int) (server : Nat)
  /-- Close a handle. -/
  | close (handle : Nat)

variable {ε : Type} [Engine ε]

/-- The session after an operation, successful or not. -/
def perform (s : Session ε) : Operation → Session ε
  | .build c => (s.buildContext c).1
  | .clone reference => (s.cloneContext reference).1
  | .share handle => (s.shareContext handle).1
  | .drop reference => s.dropContext reference
  | .load reference d maxBatchSize inputsChannelLast routingIndex server =>
    (s.openHandle reference d maxBatchSize inputsChannelLast routingIndex server).1
  | .close handle => s.closeHandle handle

/-- The session after some operations. -/
def after (s : Session ε) (ops : List Operation) : Session ε := ops.foldl perform s

/-- What an operation can make of a session. -/
inductive Change (s : Session ε) : Operation → Session ε → Prop where
  | nothing {op : Operation} : Change s op s
  | refused {c : Context} {registry : Registry ε} {cause : EngineError}
    (failed : s.registry.createContexts c.config [] c.engines = (registry, .error cause)) :
    Change s (.build c) { s with registry := registry }
  | built {c : Context} {registry : Registry ε}
    (created : s.registry.createContexts c.config [] c.engines = (registry, .ok ())) :
    Change s (.build c) { s with
      registry := { registry with contexts := registry.contexts.push ⟨c, 1⟩ }
      references := s.references.push (some registry.contexts.size) }
  | shared {op : Operation} {id : Nat} (used : id ∈ s.users) :
    Change s op { s with
      registry := s.registry.hold id
      references := s.references.push (some id) }
  | dropped {number id : Nat} (referred : s.reference? number = some id) :
    Change s (.drop number) { s with
      registry := s.registry.release id
      references := s.references.setIfInBounds number none }
  | unloaded {op : Operation} {k : Nat} {engine engine' : ε} {d : Descriptor}
    {config : ModelConfig} {cause : Failure EngineError}
    (listed : s.registry.engines[k]? = some engine)
    (failed : Engine.loadModel engine d config = (engine', .error cause)) :
    Change s op { s with registry := s.registry.setEngine k engine' }
  | loaded {op : Operation} {h : Handle} {engine engine' : ε} {d : Descriptor}
    {config : ModelConfig} (used : h.context ∈ s.users)
    (bound : h.engine ∈ s.registry.enginesOf h.context)
    (listed : s.registry.engines[h.engine]? = some engine)
    (loaded : Engine.loadModel engine d config = (engine', .ok h.model)) :
    Change s op { s with
      registry := (s.registry.setEngine h.engine engine').hold h.context
      handles := s.handles.push (some h) }
  | closed {number : Nat} {h : Handle} (opened : s.handle? number = some h) :
    Change s (.close number) { s with
      registry := h.close s.registry
      handles := s.handles.setIfInBounds number none }

variable {s s' : Session ε} {op : Operation}

/-- Building a context does nothing, undoes what it began, or registers one with a
single user. -/
theorem buildContext_change (s : Session ε) (c : Context) :
    s.Change (.build c) (s.buildContext c).1 := by
  unfold buildContext Registry.build
  cases c.config.validate with
  | error cause => exact .nothing
  | ok u =>
    by_cases empty : c.engines.isEmpty = true
    · simp only [empty, if_true]
      exact .nothing
    simp only [empty]
    cases s.registry.checkKinds c with
    | error cause => exact .nothing
    | ok u =>
      cases made : s.registry.createContexts c.config [] c.engines with
      | mk registry result =>
        cases result with
        | error cause => exact .refused made
        | ok u => exact .built made

/-- Opening a handle does nothing, leaves an engine after a failed load, or opens
one. The operation is left open, since opening is part of several. -/
theorem openHandle_change (s : Session ε) (number : Nat) (d : Descriptor) (maxBatchSize : Nat)
    (inputsChannelLast : Bool) (routingIndex : Int) (server : Nat) (op : Operation) :
    s.Change op (s.openHandle number d maxBatchSize inputsChannelLast routingIndex server).1 := by
  unfold openHandle
  cases referred : s.reference? number with
  | none => exact .nothing
  | some id =>
    simp only
    cases opened : Handle.openIn s.registry id d maxBatchSize inputsChannelLast routingIndex
      server with
    | mk registry result =>
      cases result with
      | error cause =>
        rcases Handle.openIn_failed opened with rfl | ⟨k, _, _, _, _, listed, failed, rfl⟩
        · exact .nothing
        · exact .unloaded listed failed
      | ok h =>
        obtain ⟨_, _, _, _, known, bound, listed, loaded, rfl, rfl, _⟩ :=
          Handle.openIn_opened opened
        refine .loaded (referred_used referred) ?_ listed loaded
        rw [Registry.enginesOf, known]
        exact bound

section

variable {reference : Nat} {d : Descriptor} {maxBatchSize : Nat} {inputsChannelLast : Bool}
  {routingIndex : Int} {server : Nat}

/-- A handle that could not be opened leaves the engines alone, unless it was one of them
that failed. -/
theorem openHandle_failed {cause : Failure ServiceError}
    (failed : s.openHandle reference d maxBatchSize inputsChannelLast routingIndex server =
      (s', .error cause)) :
    s'.registry = s.registry ∨ ∃ k engine engine' config cause',
      s.registry.engines[k]? = some engine ∧
        Engine.loadModel engine d config = (engine', .error cause') ∧
          s'.registry = s.registry.setEngine k engine' := by
  unfold openHandle at failed
  cases referred : s.reference? reference with
  | none =>
    rw [referred] at failed
    exact .inl (congrArg Session.registry (Prod.mk.inj failed).1.symm)
  | some id =>
    simp only [referred] at failed
    cases opened : Handle.openIn s.registry id d maxBatchSize inputsChannelLast routingIndex
      server with
    | mk registry result =>
      cases result with
      | error cause' =>
        rw [opened] at failed
        obtain ⟨rfl, _⟩ := Prod.mk.inj failed
        exact Handle.openIn_failed opened
      | ok h =>
        rw [opened] at failed
        exact nomatch (Prod.mk.inj failed).2

/-- A handle that was opened through a reference was opened in the context behind it. -/
theorem openHandle_openIn {number : Nat}
    (opened : s.openHandle reference d maxBatchSize inputsChannelLast routingIndex server =
      (s', .ok number)) :
    ∃ id h, s.reference? reference = some id ∧ s'.handle? number = some h ∧
      Handle.openIn s.registry id d maxBatchSize inputsChannelLast routingIndex server =
        (s'.registry, .ok h) := by
  unfold openHandle at opened
  cases referred : s.reference? reference with
  | none =>
    rw [referred] at opened
    exact nomatch (Prod.mk.inj opened).2
  | some id =>
    simp only [referred] at opened
    cases made : Handle.openIn s.registry id d maxBatchSize inputsChannelLast routingIndex
      server with
    | mk registry result =>
      cases result with
      | error cause =>
        rw [made] at opened
        exact nomatch (Prod.mk.inj opened).2
      | ok h =>
        rw [made] at opened
        obtain ⟨rfl, place⟩ := Prod.mk.inj opened
        obtain rfl := Except.ok.inj place
        exact ⟨id, h, rfl, congrArg Option.join Array.getElem?_push_size, made⟩

/-- A handle that was opened has the model that its engine loaded. -/
theorem openHandle_ok {number : Nat}
    (opened : s.openHandle reference d maxBatchSize inputsChannelLast routingIndex server =
      (s', .ok number)) :
    ∃ h, s'.handle? number = some h ∧ ∃ engine engine' config,
      s.registry.engines[h.engine]? = some engine ∧
        Engine.loadModel engine d config = (engine', .ok h.model) := by
  obtain ⟨_, h, _, here, made⟩ := openHandle_openIn opened
  obtain ⟨_, engine, engine', config, _, _, listed, loaded, _⟩ := Handle.openIn_opened made
  exact ⟨h, here, engine, engine', config, listed, loaded⟩

end

/-- Every operation makes one of these changes. -/
theorem perform_change (s : Session ε) (op : Operation) : s.Change op (s.perform op) := by
  cases op with
  | build c => exact buildContext_change s c
  | clone reference =>
    simp only [perform, cloneContext]
    cases referred : s.reference? reference with
    | none => exact .nothing
    | some id => exact .shared (referred_used referred)
  | share handle =>
    simp only [perform, shareContext]
    cases opened : s.handle? handle with
    | none => exact .nothing
    | some h => exact .shared (opened_used (mem_live.mpr ⟨handle, opened⟩))
  | drop reference =>
    simp only [perform, dropContext]
    cases referred : s.reference? reference with
    | none => exact .nothing
    | some id => exact .dropped referred
  | load reference d maxBatchSize inputsChannelLast routingIndex server =>
    exact openHandle_change s reference d maxBatchSize inputsChannelLast routingIndex server _
  | close handle =>
    simp only [perform, closeHandle]
    cases opened : s.handle? handle with
    | none => exact .nothing
    | some h => exact .closed opened

/-- A batch of an open handle is run by the handle's engine. -/
theorem run_eq {number : Nat} {h : Handle} {engine : ε} (opened : s.handle? number = some h)
    (listed : s.registry.engines[h.engine]? = some engine) (p : Pool) (requests : List Request)
    (outputs : List Evaluation) :
    s.run number p requests outputs = h.execute engine p requests outputs := by
  simp only [run, opened, listed, Option.bind_some, Option.map_some]

/-- An engine's failure in a batch of an open handle comes from a run of its model. -/
theorem run_failure {number : Nat} {h : Handle} (opened : s.handle? number = some h) {p : Pool}
    {requests : List Request} {outputs : List Evaluation} {cause : EngineError}
    (failed : (s.run number p requests outputs).result = .error (.error (.engine cause))) :
    s.registry.Has h.engine fun engine => (h.forward engine).Fails cause := by
  cases listed : s.registry.engines[h.engine]? with
  | none => simp [run, opened, listed] at failed
  | some engine =>
    rw [run_eq opened listed] at failed
    exact ⟨engine, listed, Handle.execute_failure failed⟩

/-! ## What every operation keeps -/

/-- What the changes of a run keep holds all along the run. -/
theorem after_keeps {P : Session ε → Prop} {ops : List Operation} (holds : P s)
    (kept : ∀ before op, before ++ [op] <+: ops → P (s.after before) →
      P ((s.after before).perform op)) :
    ∀ before, before <+: ops → P (s.after before) := by
  induction ops generalizing s with
  | nil =>
    intro before initial
    obtain rfl := List.prefix_nil.mp initial
    exact holds
  | cons first rest inductionHypothesis =>
    intro before initial
    cases before with
    | nil => exact holds
    | cons op before =>
      obtain ⟨rfl, behind⟩ := List.cons_prefix_cons.mp initial
      refine inductionHypothesis (kept [] op ⟨rest, rfl⟩ holds) ?_ before behind
      intro before later behind
      exact kept (op :: before) later (List.cons_prefix_cons.mpr ⟨rfl, behind⟩)

/-- Operations are carried out in turn, so a list of them may be cut anywhere. -/
theorem after_trans (s : Session ε) (ops more : List Operation) :
    s.after (ops ++ more) = (s.after ops).after more :=
  List.foldl_append

/-- One operation more is performed at the end. -/
theorem after_append (s : Session ε) (ops : List Operation) (op : Operation) :
    s.after (ops ++ [op]) = (s.after ops).perform op :=
  List.foldl_append

/-- Every change keeps the count of users right. -/
theorem Change.counted (change : s.Change op s') (counted : s.Counted) : s'.Counted := by
  cases change with
  | nothing => exact counted
  | @refused c registry cause failed =>
    have contexts := Registry.contexts_of_created failed
    exact fun id => (Registry.holders_congr contexts id).trans (counted id)
  | @built c registry created =>
    have contexts := Registry.contexts_of_created created
    apply counted.more (users_referred s _ _)
    intro other
    rw [← Registry.holders_congr contexts other]
    exact registry.holders_pushed c other
  | shared used =>
    exact counted.more (users_referred s _ _) (Registry.holders_hold (counted.held used))
  | dropped referred =>
    exact counted.fewer (users_dropped referred _) (s.registry.holders_release _)
  | unloaded listed failed => exact counted
  | loaded used bound listed loaded =>
    exact counted.more (users_opened s _ _) (Registry.holders_hold (counted.held used))
  | @closed number h opened =>
    apply counted.fewer (users_closed opened _)
    intro other
    rw [Handle.close_eq, Registry.holders_release,
      Registry.holders_congr (h.unloaded_contexts s.registry)]

/-- A context in use stays bound to its engines. -/
theorem Change.enginesOf (change : s.Change op s') {id : Nat} (held : 0 < s.registry.holders id) :
    s'.registry.enginesOf id = s.registry.enginesOf id := by
  cases change with
  | nothing => rfl
  | @refused c registry cause failed =>
    have contexts := Registry.contexts_of_created failed
    exact Registry.enginesOf_congr contexts id
  | @built c registry created =>
    have contexts := Registry.contexts_of_created created
    have known : id < registry.contexts.size := contexts ▸ Registry.contexts_of_held held
    rw [registry.enginesOf_pushed, if_neg (Nat.ne_of_gt known)]
    exact Registry.enginesOf_congr contexts id
  | shared used => exact s.registry.enginesOf_hold _ id
  | dropped referred => exact s.registry.enginesOf_release _ id
  | unloaded listed failed => rfl
  | loaded used bound listed loaded => exact Registry.enginesOf_hold _ _ id
  | @closed number h opened =>
    rw [Handle.close_eq, Registry.enginesOf_release]
    exact Registry.enginesOf_congr (h.unloaded_contexts s.registry) id

/-- A handle that is open after a change was open before, or its model was just loaded by
an engine of a context in use. -/
theorem Change.live (change : s.Change op s') {h : Handle} (opened : h ∈ s'.live) :
    h ∈ s.live ∨ h.context ∈ s.users ∧ h.engine ∈ s.registry.enginesOf h.context ∧
      ∃ engine engine' d config, s.registry.engines[h.engine]? = some engine ∧
        Engine.loadModel engine d config = (engine', .ok h.model) ∧
          s'.registry = (s.registry.setEngine h.engine engine').hold h.context := by
  cases change with
  | nothing => exact .inl opened
  | refused failed => exact .inl opened
  | built created => exact .inl opened
  | shared used => exact .inl opened
  | dropped referred => exact .inl opened
  | unloaded listed failed => exact .inl opened
  | loaded used bound listed loaded =>
    rw [live_opened] at opened
    rcases List.mem_append.mp opened with old | new
    · exact .inl old
    · obtain rfl := List.mem_singleton.mp new
      exact .inr ⟨used, bound, _, _, _, _, listed, loaded, rfl⟩
  | closed closed =>
    exact .inl ((live_closed closed _).mem_iff.mpr (List.mem_cons_of_mem _ opened))

/-- A context that is in use after a change was in use before, or was just built.

Proof: holders are users, and each operation adds a user only of a context that had
one, but for a build. -/
theorem Change.held (change : s.Change op s') (counted : s.Counted) {id : Nat}
    (held : 0 < s'.registry.holders id) :
    0 < s.registry.holders id ∨ ∃ c, op = .build c ∧ id = s.registry.contexts.size ∧
      s'.registry.enginesOf id = c.engines := by
  have used : id ∈ s'.users := List.count_pos_iff.mp (change.counted counted id ▸ held)
  cases change with
  | nothing => exact .inl held
  | refused failed => exact .inl (counted.held used)
  | @built c registry created =>
    rcases List.mem_cons.mp ((users_referred s _ _).mem_iff.mp used) with rfl | old
    · have contexts := Registry.contexts_of_created created
      refine .inr ⟨c, rfl, congrArg Array.size contexts, ?_⟩
      rw [registry.enginesOf_pushed, if_pos rfl]
    · exact .inl (counted.held old)
  | shared known =>
    rcases List.mem_cons.mp ((users_referred s _ _).mem_iff.mp used) with rfl | old
    · exact .inl (counted.held known)
    · exact .inl (counted.held old)
  | dropped referred =>
    exact .inl (counted.held ((users_dropped referred _).mem_iff.mpr
      (List.mem_cons_of_mem _ used)))
  | unloaded listed failed => exact .inl held
  | loaded known bound listed loaded =>
    rcases List.mem_cons.mp ((users_opened s _ _).mem_iff.mp used) with rfl | old
    · exact .inl (counted.held known)
    · exact .inl (counted.held old)
  | closed opened =>
    exact .inl (counted.held ((users_closed opened _).mem_iff.mpr
      (List.mem_cons_of_mem _ used)))

/-- Every change keeps the handles on engines of their contexts. -/
theorem Change.bound (change : s.Change op s') (counted : s.Counted) (bound : s.Bound) :
    s'.Bound := by
  intro h opened
  rcases change.live opened with old | ⟨used, here, _⟩
  · rw [change.enginesOf (counted.held (opened_used old))]
    exact bound h old
  · rw [change.enginesOf (counted.held used)]
    exact here

/-- When a context comes to its end, the contexts of its engines are torn down, and no
handle is opened. -/
theorem Change.torn (change : s.Change op s') (counted : s.Counted) {id : Nat}
    (held : 0 < s.registry.holders id) (gone : s'.registry.holders id = 0) :
    (∃ r : Registry ε,
      s'.registry.engines = (r.destroyContexts (s.registry.enginesOf id)).engines) ∧
        ∀ h ∈ s'.live, h ∈ s.live := by
  have used : id ∈ s.users := List.count_pos_iff.mp (counted id ▸ held)
  have unused : id ∉ s'.users := List.count_eq_zero.mp (change.counted counted id ▸ gone)
  have grown {other : Nat} (more : s'.users.Perm (other :: s.users)) : id ∈ s'.users :=
    more.mem_iff.mpr (List.mem_cons_of_mem _ used)
  cases change with
  | nothing => exact absurd used unused
  | refused failed => exact absurd used unused
  | built created => exact absurd (grown (users_referred s _ _)) unused
  | shared used => exact absurd (grown (users_referred s _ _)) unused
  | dropped referred => exact ⟨⟨_, Registry.release_torn held gone⟩, fun _ opened => opened⟩
  | unloaded listed failed => exact absurd used unused
  | loaded used bound listed loaded => exact absurd (grown (users_opened s _ _)) unused
  | @closed number h opened =>
    have contexts := h.unloaded_contexts s.registry
    have held' : 0 < (h.unloaded s.registry).holders id := Registry.holders_congr contexts id ▸ held
    refine ⟨⟨h.unloaded s.registry, ?_⟩, ?_⟩
    · rw [← Registry.enginesOf_congr contexts id]
      exact Registry.release_torn held' gone
    · exact fun _ still => (live_closed opened _).mem_iff.mpr (List.mem_cons_of_mem _ still)

end Session

end BoardEval
