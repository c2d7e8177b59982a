import BoardEval.Probe
import BoardEval.Proofs.ContextCalls
import BoardEval.Proofs.Engines
import BoardEval.Proofs.Startups

/-!
# What servers are started with

The settings of a server come from two places. The configuration of its evaluator gives the
batch size, the order of input channels and the routing index. Precision and inner channel
order are those of the context through which it is started; the context section of the
evaluator's own configuration is compared with the context as far as the board goes, and is not
looked at otherwise.

`Handle.Follows` says what a handle takes from where. A handle keeps it for good: `Onward` is
what no use of a session changes, in one law for each operation.
-/

namespace BoardEval

/-! ## Engines are of the kind that they are bound as -/

namespace Registry

section

variable {ε : Type} [Engine ε]

/-- Whatever engines the contexts of a registry bind, each is of the kind it is bound as. -/
def KindsSound (r : Registry ε) : Prop :=
  ∀ (id : Nat) (c : Context), (r.contexts[id]?).map (·.context) = some c → r.KindsMatch c

/-- A context whose kinds match may be registered. -/
theorem KindsSound.registered {r : Registry ε} {c : Context} (sound : r.KindsSound)
    (checked : r.KindsMatch c) (holders : Nat) :
    KindsSound { r with contexts := r.contexts.push ⟨c, holders⟩ } := by
  intro id other known
  simp only [Array.getElem?_push] at known
  split at known
  · obtain rfl := Option.some.inj known
    exact checked
  · exact sound id other known

end

variable {r r' : Registry AnyEngine}

/-- Kinds of engines do not change, so a context that matches them goes on matching
them. -/
theorem KindsMatch.kept {c : Context} (kinds : r.KindsMatch c) (keeps : r.Keeps r') :
    r'.KindsMatch c := by
  intro kind k engine bound listed
  obtain ⟨before, here, same⟩ := has_origin keeps.origins.symm listed
  rw [← AnyEngine.kind_made, ← same, AnyEngine.kind_made]
  exact kinds kind k before bound here

/-- As long as nothing is built, every context matches its engines if every one
did. -/
theorem KindsSound.kept (sound : r.KindsSound) (keeps : r.Keeps r') : r'.KindsSound := by
  intro id c known
  rw [keeps.contexts id] at known
  exact (sound id c known).kept keeps

/-- Closing the handles of servers builds nothing and remakes no engine. The
induction is on the servers. -/
theorem Keeps.closeServers (r : Registry AnyEngine) (servers : List Server) :
    r.Keeps (Session.closeServers r servers) := by
  induction servers generalizing r with
  | nil => exact .refl r
  | cons server rest inductionHypothesis =>
    exact (Keeps.close r server.handle).trans (inductionHypothesis _)

end Registry

/-! ## Handles that follow their settings -/

/-- What handle `h` of server `number` takes from where: the board, batch size, input order and
routing index of the evaluator's configuration, an engine of the context, and precision and
inner order as the context and its engine have them. -/
structure Handle.Follows (h : Handle) (c : Context) (config : EvaluatorConfig) (index : Int)
    (number : Nat) (engine : AnyEngine) : Prop where
  board : h.board = config.context.extent
  limit : h.maxBatchSize = config.maxBatchSize
  inputs : h.inputsChannelLast = config.inputsChannelLast
  bound : c.engineOf? (.ofRoutingIndex index) = some h.engine
  kind : (Engine.capabilities engine).kind = .ofRoutingIndex index
  loaded : h.model.kind = .ofRoutingIndex index
  settings : h.model.config = modelConfig c.config (Engine.capabilities engine)
    config.maxBatchSize config.inputsChannelLast index number

namespace Handle

variable {h : Handle} {c : Context} {config : EvaluatorConfig} {index : Int} {number : Nat}
  {engine engine' : AnyEngine}

/-- It does not matter what else was done with the engine. -/
theorem Follows.made (follows : h.Follows c config index number engine)
    (same : engine'.made = engine.made) : h.Follows c config index number engine' where
  board := follows.board
  limit := follows.limit
  inputs := follows.inputs
  bound := follows.bound
  kind := by
    rw [← AnyEngine.kind_made, same, AnyEngine.kind_made]
    exact follows.kind
  loaded := follows.loaded
  settings := by
    have precision : (Engine.capabilities engine').halfPrecision =
        (Engine.capabilities engine).halfPrecision := by
      rw [← AnyEngine.halfPrecision_made, same, AnyEngine.halfPrecision_made]
    rw [follows.settings, modelConfig, modelConfig, precision]

/-- Half precision needs the permission of the context and an engine that can do it, and gets
nothing from the evaluator's configuration. -/
theorem Follows.half_iff (follows : h.Follows c config index number engine) :
    h.model.config.half = true ↔
      c.config.half.allows = true ∧ (Engine.capabilities engine).halfPrecision = true := by
  rw [follows.settings, modelConfig]
  exact Bool.and_eq_true_iff

/-- A handle that could be opened follows the settings that it was opened with. -/
theorem openIn_follows {r r' : Registry AnyEngine} {contextId : Nat} {d : Descriptor}
    (known : (r.contexts[contextId]?).map (·.context) = some c) (kinds : r.KindsMatch c)
    (board : config.context.extent = c.config.extent)
    (opened : openIn r contextId d config.maxBatchSize config.inputsChannelLast index number =
      (r', .ok h)) :
    r'.Has h.engine (h.Follows c config index number) := by
  obtain ⟨_, _, shared, engine, _, here, bound, listed, loaded, _, fields⟩ := openIn_settings opened
  rw [here] at known
  obtain rfl : shared.context = c := Option.some.inj known
  obtain ⟨kind, _, settings⟩ := AnyEngine.loadModel_model loaded
  have right := kinds _ h.engine engine bound listed
  have follows : h.Follows shared.context config index number engine := by
    constructor
    case board => rw [fields, board]
    case limit => rw [fields]
    case inputs => rw [fields]
    case bound => exact bound
    case kind => exact right
    case loaded => exact kind.trans right
    case settings => exact settings
  have kept := Registry.has_origin (Registry.Keeps.openIn opened).origins listed
  exact kept.imp fun _ same => follows.made same

end Handle

/-- Handles of servers numbered from `number` on, one for each routing index and in their order,
each following its settings. -/
inductive Registry.Serves (r : Registry AnyEngine) (c : Context) (config : EvaluatorConfig) :
    Nat → List Int → List Handle → Prop where
  | nil {number : Nat} : Serves r c config number [] []
  | cons {number : Nat} {index : Int} {indices : List Int} {h : Handle} {handles : List Handle}
    (first : r.Has h.engine (h.Follows c config index number))
    (rest : Serves r c config (number + 1) indices handles) :
    Serves r c config number (index :: indices) (h :: handles)

namespace Registry.Serves

variable {r r' : Registry AnyEngine} {c : Context} {config : EvaluatorConfig} {number : Nat}
  {indices : List Int} {handles : List Handle}

/-- What the servers serve is settled by contexts and engines that a later registry
still has. -/
theorem later (serves : r.Serves c config number indices handles) (later : r.Later r') :
    r'.Serves c config number indices handles := by
  induction serves with
  | nil => exact .nil
  | cons first _ inductionHypothesis =>
    obtain ⟨engine, listed, follows⟩ := first
    exact .cons ((later.engines _ engine listed).imp fun _ same => follows.made same)
      inductionHypothesis

/-- There is one handle for every routing index. -/
theorem length (serves : r.Serves c config number indices handles) :
    handles.length = indices.length := by
  induction serves with
  | nil => rfl
  | cons _ _ inductionHypothesis => exact congrArg (· + 1) inductionHypothesis

/-- The handle in place `i` is that of the routing index in place `i`. -/
theorem get (serves : r.Serves c config number indices handles) {i : Nat} {h : Handle}
    (listed : handles[i]? = some h) :
    ∃ index, indices[i]? = some index ∧
      r.Has h.engine (h.Follows c config index (number + i)) := by
  induction serves generalizing i with
  | nil => exact nomatch listed
  | @cons number index _ _ _ first _ inductionHypothesis =>
    cases i with
    | zero =>
      obtain rfl := Option.some.inj listed
      exact ⟨index, rfl, first⟩
    | succ i =>
      rw [List.getElem?_cons_succ] at listed ⊢
      rw [← Nat.add_assoc, Nat.add_right_comm]
      exact inductionHypothesis listed

end Registry.Serves

namespace Session

/-! ## Starting servers -/

variable {contextId : Nat} {d : Descriptor} {config : EvaluatorConfig} {indices : List Int}
  {number : Nat} {before servers : List Server} {r r' : Registry AnyEngine}

/-- However the start of servers ends, the registry is kept. The induction is on the routing
indices still to be served. -/
theorem startServers_keeps {result : Except ServiceError (List Server)}
    (started : startServers contextId d config number before r indices = (r', result)) :
    r.Keeps r' := by
  induction indices generalizing number before r with
  | nil =>
    obtain ⟨rfl, _⟩ := Prod.mk.inj started
    exact .refl r
  | cons index rest inductionHypothesis =>
    obtain ⟨registry, _, opened, ⟨_, _, _, _, rfl⟩ | ⟨handle, _, ⟨_, _, rfl⟩ | ⟨_, _, others⟩⟩⟩ :=
      startServers_cons started
    all_goals refine (Registry.Keeps.openIn opened).trans ?_
    · exact .closeServers _ _
    · exact (Registry.Keeps.close registry handle).trans (.closeServers _ _)
    · exact inductionHypothesis others

/-- Servers that could be started are those that were there before, and one more for each
routing index, whose handle follows its settings. -/
theorem startServers_serve {c : Context} (known : (r.contexts[contextId]?).map (·.context) = some c)
    (kinds : r.KindsMatch c) (board : config.context.extent = c.config.extent)
    (started : startServers contextId d config number before r indices = (r', .ok servers)) :
    ∃ more, servers = before ++ more ∧
      r'.Serves c config number indices (more.map (·.handle)) := by
  induction indices generalizing number before r with
  | nil =>
    obtain ⟨_, same⟩ := Prod.mk.inj started
    obtain rfl := Except.ok.inj same
    exact ⟨[], (List.append_nil _).symm, .nil⟩
  | cons index rest inductionHypothesis =>
    obtain ⟨registry, h, _, opened, _, others⟩ := startServers_cons_ok started
    have keeps := Registry.Keeps.openIn opened
    have follows := Handle.openIn_follows known kinds board opened
    obtain ⟨more, rfl, serves⟩ :=
      inductionHypothesis ((keeps.contexts contextId).trans known) (kinds.kept keeps) others
    refine ⟨_ :: more, List.append_assoc _ _ _, .cons ?_ serves⟩
    obtain ⟨engine, listed, follows⟩ := follows
    exact (Registry.has_origin (startServers_keeps others).origins listed).imp fun _ same =>
      follows.made same

/-- Servers are started without a look at the context section of their settings. The induction
is on the routing indices. -/
theorem startServers_section (own : ContextConfig) :
    startServers contextId d { config with context := own } number before r indices =
      startServers contextId d config number before r indices := by
  induction indices generalizing number before r with
  | nil => rfl
  | cons index rest inductionHypothesis =>
    simp only [startServers, inductionHypothesis]

end Session

/-! ## What no use of a session changes -/

namespace Session

/-- Session `s'` may come after `s`: its registry is a later one, the kinds of its engines still
match, and the servers of an evaluator have the handles that they had, unless they are gone. -/
structure Onward (s s' : Session AnyEngine) : Prop where
  registry : s.registry.Later s'.registry
  kinds : s.registry.KindsSound → s'.registry.KindsSound
  size : s.evaluators.size ≤ s'.evaluators.size
  handles : ∀ number e', number < s.evaluators.size → s'.evaluator? number = some e' →
    e'.servers = [] ∨ ∃ e, s.evaluator? number = some e ∧
      e'.servers.map (·.handle) = e.servers.map (·.handle)

variable {s s' s'' : Session AnyEngine}

/-- What may come after a later session may come after the first one. -/
theorem Onward.trans (first : s.Onward s') (second : s'.Onward s'') : s.Onward s'' where
  registry := first.registry.trans second.registry
  kinds sound := second.kinds (first.kinds sound)
  size := Nat.le_trans first.size second.size
  handles number e'' inside listed := by
    rcases second.handles number e'' (Nat.lt_of_lt_of_le inside first.size) listed with
      stopped | ⟨e', there, same'⟩
    · exact .inl stopped
    rcases first.handles number e' inside there with stopped | ⟨e, here, same⟩
    · rw [stopped] at same'
      exact .inl (List.map_eq_nil_iff.mp same')
    · exact .inr ⟨e, here, same'.trans same⟩

/-- Nothing happens to evaluators. -/
theorem Onward.idle (registry : s.registry.Later s'.registry)
    (kinds : s.registry.KindsSound → s'.registry.KindsSound)
    (same : s'.evaluators = s.evaluators) : s.Onward s' where
  registry := registry
  kinds := kinds
  size := Nat.le_of_eq (by rw [same])
  handles number e' _ listed := by
    rw [evaluator?, same] at listed
    exact .inr ⟨e', listed, rfl⟩

/-- Every session may come after itself. -/
theorem Onward.refl (s : Session AnyEngine) : s.Onward s :=
  .idle (.refl _) id rfl

/-- The registry is kept, and one evaluator is replaced by one that has its handles, or has no
servers, or is gone. -/
theorem Onward.replace {number : Nat} {after : Option Evaluator}
    (registry : s.registry.Keeps s'.registry)
    (replaced : s'.evaluators = s.evaluators.setIfInBounds number after)
    (handles : ∀ e', after = some e' → e'.servers = [] ∨ ∃ e, s.evaluator? number = some e ∧
      e'.servers.map (·.handle) = e.servers.map (·.handle)) : s.Onward s' where
  registry := registry.later
  kinds sound := sound.kept registry
  size := Nat.le_of_eq (by rw [replaced, Array.size_setIfInBounds])
  handles other e' inside listed := by
    rw [evaluator?, replaced] at listed
    by_cases same : number = other
    · subst same
      rw [Array.getElem?_setIfInBounds_self_of_lt inside] at listed
      exact handles e' listed
    · rw [Array.getElem?_setIfInBounds_ne same] at listed
      exact .inr ⟨e', listed, rfl⟩

/-- An evaluator is put back after its servers took turns. -/
theorem Onward.settle (onward : s.Onward s') {number : Nat} {e after : Evaluator}
    (listed : s'.evaluator? number = some e)
    (carried : Server.Carried e.servers after.servers) (replies : List (Nat × Reply)) :
    s.Onward (s'.settle number e after replies) := by
  refine onward.trans (.replace (.closeServers _ _) rfl ?_)
  rintro _ ⟨⟩
  exact .inr ⟨e, listed, carried.handles⟩

/-- A change of contexts and handles is none of evaluators. -/
theorem Change.evaluators {op : Operation} (change : s.Change op s') :
    s'.evaluators = s.evaluators := by
  cases change <;> rfl

/-- An operation on contexts and handles. A context that is built has passed the check of
kinds. -/
theorem Onward.perform (s : Session AnyEngine) (op : Operation) : s.Onward (s.perform op) := by
  refine .idle (s.perform_change op).later ?_ (s.perform_change op).evaluators
  intro sound
  rcases (s.perform_change op).keeps with kept | ⟨c, registry, rfl, kept, grown⟩
  · exact sound.kept kept
  rcases s.buildContext_outcome c with ⟨_, refused⟩ | ⟨checked, _⟩
  · have same : s.perform (.build c) = s := congrArg Prod.fst refused
    rw [same]
    exact sound
  · rw [grown]
    exact (sound.kept kept).registered ((Registry.kindsMatch_of_checked checked).kept kept) 1

/-- Starting an evaluator, successfully or not, leaves the evaluators that there are
with their handles. -/
theorem Onward.startEvaluator (s : Session AnyEngine) (reference : Nat) (d : Descriptor)
    (config : EvaluatorConfig) : s.Onward (s.startEvaluator reference d config).1 := by
  rcases s.startEvaluator_cases reference d config with ⟨_, refused⟩ |
    ⟨_, _, _, _, _, _, _, ⟨_, _, failed, ended⟩ | ⟨_, _, ready, ended⟩⟩
  · rw [refused]
    exact .refl s
  · rw [ended]
    have keeps := startServers_keeps failed
    exact .idle keeps.later (·.kept keeps) rfl
  · rw [ended]
    have keeps := startServers_keeps ready
    constructor
    case registry => exact keeps.later
    case kinds => exact (·.kept keeps)
    case size => exact Array.size_push _ ▸ Nat.le_succ _
    case handles =>
      intro number e' inside listed
      rw [evaluator?, Array.getElem?_push_lt inside, ← Array.getElem?_eq_getElem inside] at listed
      exact .inr ⟨e', listed, rfl⟩

/-- Whatever an evaluator makes of a session may come after it. -/
theorem Works.onward {number : Nat} (works : Works number s s') : s.Onward s' := by
  induction works with
  | here => exact .refl s
  | recorded _ _ _ inductionHypothesis =>
    exact inductionHypothesis.trans (.idle (.refl _) id rfl)
  | settled _ listed carried replies inductionHypothesis =>
    exact inductionHypothesis.settle listed carried replies

/-- Waiting lets servers take turns; evaluators keep their servers and settings. -/
theorem Onward.await (s : Session AnyEngine) (ticket : Nat) : s.Onward (s.await ticket).1 := by
  cases known : s.tickets[ticket]? with
  | none =>
    have same : (s.await ticket).1 = s := by rw [Session.await, known]
    rw [same]
    exact .refl s
  | some t => exact (await_works known).onward

/-- A shutdown leaves one evaluator without servers and the others as they are. -/
theorem Onward.shutdown (s : Session AnyEngine) (number : Nat) : s.Onward (s.shutdown number) := by
  unfold Session.shutdown
  split
  · exact .refl s
  · refine .replace (.closeServers _ _) rfl ?_
    rintro _ ⟨⟩
    exact .inl rfl

/-- Dropping an evaluator leaves a gap under its number; nobody else moves. -/
theorem Onward.dropEvaluator (s : Session AnyEngine) (number : Nat) :
    s.Onward (s.dropEvaluator number) :=
  (Onward.shutdown s number).trans (.replace (.refl _) rfl fun _ gone => nomatch gone)

/-! ## Everything that can be done with a session -/

/-- The sessions that `s` can become. A turn may be taken by any server at any time, in between
the turns that requests and waiting bring about. -/
inductive Reaches (s : Session AnyEngine) : Session AnyEngine → Prop where
  | here : Reaches s s
  | perform {s' : Session AnyEngine} (reached : Reaches s s') (op : Operation) :
    Reaches s (s'.perform op)
  | startEvaluator {s' : Session AnyEngine} (reached : Reaches s s') (reference : Nat)
    (d : Descriptor) (config : EvaluatorConfig) :
    Reaches s (s'.startEvaluator reference d config).1
  | submit {s' : Session AnyEngine} (reached : Reaches s s') (number : Nat) (request : Request) :
    Reaches s (s'.submit number request).1
  | await {s' : Session AnyEngine} (reached : Reaches s s') (ticket : Nat) :
    Reaches s (s'.await ticket).1
  | evaluate {s' : Session AnyEngine} (reached : Reaches s s') (number : Nat)
    (request : Request) : Reaches s (s'.evaluate number request).1
  | turn {s' : Session AnyEngine} (reached : Reaches s s') {number : Nat} {e : Evaluator}
    (listed : s'.evaluator? number = some e) (i now : Nat) :
    Reaches s (s'.settle number e (e.turnOf s'.registry i now).1 (e.turnOf s'.registry i now).2)
  | shutdown {s' : Session AnyEngine} (reached : Reaches s s') (number : Nat) :
    Reaches s (s'.shutdown number)
  | dropEvaluator {s' : Session AnyEngine} (reached : Reaches s s') (number : Nat) :
    Reaches s (s'.dropEvaluator number)

/-- Whatever is reached may come after where it was reached from. The induction is
on the operations, with one law for each. -/
theorem Reaches.onward (reached : s.Reaches s') : s.Onward s' := by
  induction reached with
  | here => exact .refl s
  | perform _ op inductionHypothesis => exact inductionHypothesis.trans (.perform _ op)
  | startEvaluator _ reference d config inductionHypothesis =>
    exact inductionHypothesis.trans (.startEvaluator _ reference d config)
  | submit _ number request inductionHypothesis =>
    exact inductionHypothesis.trans (submit_works _ number request).onward
  | await _ ticket inductionHypothesis => exact inductionHypothesis.trans (.await _ ticket)
  | evaluate _ number request inductionHypothesis =>
    exact inductionHypothesis.trans (evaluate_works _ number request).onward
  | turn _ listed i now inductionHypothesis =>
    exact inductionHypothesis.settle listed (Evaluator.turnOf_carries _ _ now i) _
  | shutdown _ number inductionHypothesis => exact inductionHypothesis.trans (.shutdown _ number)
  | dropEvaluator _ number inductionHypothesis =>
    exact inductionHypothesis.trans (.dropEvaluator _ number)

/-- Wherever a session comes from, its contexts bind engines as what they are. -/
theorem Reaches.kinds {engines : Array AnyEngine} (reached : (start engines).Reaches s) :
    s.registry.KindsSound :=
  reached.onward.kinds fun _ _ known => nomatch known

/-- If an evaluator is to be started for another board than its context's, the start fails and
leaves the session as it was. -/
theorem startEvaluator_otherBoard {reference : Nat} {c : Context}
    (known : s.context? reference = some c) (d : Descriptor) {config : EvaluatorConfig}
    (other : config.context.extent ≠ c.config.extent) :
    ∃ cause, s.startEvaluator reference d config = (s, .error (.error cause)) := by
  obtain ⟨id, referred, _⟩ := Option.bind_eq_some_iff.mp known
  unfold Session.startEvaluator
  rw [referred, known]
  cases config.validate with
  | error cause => exact ⟨cause, rfl⟩
  | ok u => exact ⟨_, if_pos other⟩

/-- Of that section only the board counts. -/
theorem startEvaluator_section (s : Session AnyEngine) (reference : Nat) (d : Descriptor)
    (config : EvaluatorConfig) (half channelLast : Choice) (devices : List Int) :
    s.startEvaluator reference d
        { config with context := ⟨config.context.extent, half, channelLast, devices⟩ } =
      s.startEvaluator reference d config := by
  simp only [Session.startEvaluator, startServers_section]
  rfl

/-- A server of an evaluator has the handle that it had before. -/
theorem Onward.handle (onward : s.Onward s') {number : Nat} {e e' : Evaluator}
    (here : s.evaluator? number = some e) (there : s'.evaluator? number = some e') {i : Nat}
    {server : Server} (listed : e'.servers[i]? = some server) :
    (e.servers.map (·.handle))[i]? = some server.handle := by
  rcases onward.handles number e' (evaluator?_lt here) there with stopped | ⟨before, known, same⟩
  · rw [stopped] at listed
    exact nomatch listed
  · obtain rfl := Option.some.inj (here.symm.trans known)
    rw [← same, List.getElem?_map, listed]
    rfl

/-- An evaluator that could be started is about its context's board, and its servers follow
their settings. -/
theorem startEvaluator_serves {reference number : Nat} {d : Descriptor} {config : EvaluatorConfig}
    (kinds : s.registry.KindsSound)
    (started : s.startEvaluator reference d config = (s', .ok number)) :
    ∃ c e, s.context? reference = some c ∧ s'.evaluator? number = some e ∧
      s'.registry.Serves c config 0 config.routingIndices (e.servers.map (·.handle)) := by
  rcases s.startEvaluator_cases reference d config with ⟨_, refused⟩ |
    ⟨id, c, referred, known, _, board, _, ⟨_, _, _, failed⟩ | ⟨r, servers, ready, ended⟩⟩
  · exact nomatch (Prod.mk.inj (started.symm.trans refused)).2
  · exact nomatch (Prod.mk.inj (started.symm.trans failed)).2
  obtain ⟨rfl, identity⟩ := Prod.mk.inj (started.symm.trans ended)
  obtain rfl := Except.ok.inj identity
  obtain ⟨_, rfl, serves⟩ := startServers_serve known (kinds id c known) board ready
  refine ⟨c, _, ?_, congrArg Option.join Array.getElem?_push_size, serves⟩
  rw [context?, referred]
  exact known

/-- In whatever session an evaluator is started, a configuration for another board than the
context's is refused, and no other setting of its context section makes any difference. If it
is started, there is one server for each routing index. As long as the evaluator has servers,
whatever is done meanwhile, each runs on an engine of the kind of its routing index, for the
board, the batch size and the order of channels that the evaluator's configuration has, and in
half precision exactly if the context allows it and its engine can do it. That is within what
the configuration's own context section allows, unless this forbids half precision and the
context does not.

Proof: of the context section the start looks at the board alone. What the servers
serve then is settled by the context and by what never changes of its engines, and
both are kept by everything that a session can go through. -/
theorem servers_follow_settings {engines : Array AnyEngine} (reached : (start engines).Reaches s)
    (reference : Nat) (d : Descriptor) (config : EvaluatorConfig) :
    (∀ c, s.context? reference = some c → config.context.extent ≠ c.config.extent →
      ∃ cause, s.startEvaluator reference d config = (s, .error (.error cause))) ∧
    (∀ half channelLast devices, s.startEvaluator reference d
        { config with context := ⟨config.context.extent, half, channelLast, devices⟩ } =
      s.startEvaluator reference d config) ∧
    ∀ s' number, s.startEvaluator reference d config = (s', .ok number) →
      ∃ c e, s.context? reference = some c ∧ s'.evaluator? number = some e ∧
        e.servers.length = config.routingIndices.length ∧
        ∀ s'' e', s'.Reaches s'' → s''.evaluator? number = some e' →
          ∀ i (server : Server), e'.servers[i]? = some server →
            ∃ index engine, config.routingIndices[i]? = some index ∧
              s''.registry.engines[server.handle.engine]? = some engine ∧
              server.handle.Follows c config index i engine ∧
              (server.handle.model.config.half = true ↔
                c.config.half.allows = true ∧ (Engine.capabilities engine).halfPrecision = true) ∧
              ((config.context.half = .off → c.config.half = .off) →
                server.handle.model.config.half = true → config.context.half.allows = true) := by
  refine ⟨?_, ?_, ?_⟩
  · intro c known other
    exact startEvaluator_otherBoard known d other
  · intro half channelLast devices
    exact startEvaluator_section s reference d config half channelLast devices
  intro s' number started
  obtain ⟨c, e, known, here, serves⟩ := startEvaluator_serves reached.kinds started
  refine ⟨c, e, known, here, ?_, ?_⟩
  · rw [← serves.length, List.length_map]
  intro s'' e' later there i server listed
  have handle := later.onward.handle here there listed
  obtain ⟨index, routed, engine, hosted, follows⟩ :=
    (serves.later later.onward.registry).get handle
  rw [Nat.zero_add] at follows
  refine ⟨index, engine, routed, hosted, follows, follows.half_iff, ?_⟩
  intro agreed half
  have allowed := (follows.half_iff.mp half).1
  cases own : config.context.half with
  | off =>
    rw [agreed own] at allowed
    exact nomatch allowed
  | auto => rfl
  | on => rfl

/-- A processor engine, which can compute in half precision, an accelerated host engine, which
cannot, and a context of both that leaves precision to them. -/
def mixed : Session AnyEngine :=
  (start #[
    .cpu (.new (EchoNetwork.network ⟨2, 1, 2, 3, .inl (.zeros scoreSlots), none⟩)),
    .host (.new .accelerated (.ofRows Handle.tiny.shape (.echo Handle.tiny.shape)))]).after
      [.build ⟨⟨⟨3, 2⟩, .auto, .auto, []⟩, some 1, some 0⟩]

/-- Settings for a server on each of the two engines, with some choice of precision. -/
def mixedConfig (half : Choice) : EvaluatorConfig :=
  ⟨⟨⟨3, 2⟩, half, .auto, []⟩, 2, true, [100, 0], 0⟩

/-- Two servers are started. The first one computes in half precision and the second one does
not, and they go on as they were started when the context is dropped. -/
theorem servers_follow_settings_mixed :
    let started := mixed.startEvaluator 0 Handle.tiny.descriptor (mixedConfig .auto)
    let dropped := started.1.perform (.drop 0)
    started.2 = .ok 0 ∧
      (∃ e, started.1.evaluator? 0 = some e ∧
        e.servers.map (·.handle.model.config.half) = [true, false]) ∧
      ∃ e, dropped.evaluator? 0 = some e ∧ e.servers.length = 2 ∧
        ∀ (i : Nat) (server : Server), e.servers[i]? = some server →
          server.handle.board = ⟨3, 2⟩ ∧ server.handle.maxBatchSize = 2 ∧
            ∃ index, ([100, 0] : List Int)[i]? = some index ∧
              server.handle.model.kind = .ofRoutingIndex index := by
  intro started dropped
  have reached : (start _).Reaches mixed := .perform .here (.build _)
  have ready : mixed.startEvaluator 0 Handle.tiny.descriptor (mixedConfig .auto) =
      (started.1, .ok 0) := rfl
  obtain ⟨e, listed, both⟩ : ∃ e, dropped.evaluator? 0 = some e ∧ e.servers.length = 2 :=
    ⟨_, rfl, rfl⟩
  refine ⟨rfl, ⟨_, rfl, rfl⟩, e, listed, both, ?_⟩
  intro i server place
  obtain ⟨_, _, starts⟩ := servers_follow_settings reached 0 Handle.tiny.descriptor (mixedConfig .auto)
  obtain ⟨_, _, _, _, _, follow⟩ := starts started.1 0 ready
  obtain ⟨index, _, routed, _, follows, _⟩ :=
    follow dropped e (.perform .here (.drop 0)) listed i server place
  exact ⟨follows.board, follows.limit, index, routed, follows.loaded⟩

/-- An evaluator whose own configuration forbids half precision is started all the same through
that context, and its first server computes in half precision. -/
theorem precision_upgraded :
    let config := mixedConfig .off
    let started := mixed.startEvaluator 0 Handle.tiny.descriptor config
    config.context.half.allows = false ∧ started.2 = .ok 0 ∧
      ∃ e server, started.1.evaluator? 0 = some e ∧ e.servers[0]? = some server ∧
        server.handle.model.config.half = true :=
  ⟨rfl, rfl, _, _, rfl, rfl, rfl⟩

end Session

end BoardEval
