import BoardEval.Proofs.Leases
import BoardEval.Proofs.Sessions

/-!
# Starting and stopping evaluators

An evaluator that is started opens a handle for every routing index, one after the other. If
one of them cannot be opened, or gets no pool, the earlier ones are closed again, so nothing is
on loan: every engine has its slots back and the context its holders. If all are opened, there
is one server for each routing index, and their slots are all that is on loan.

While the evaluator is used, a server that stops for good gives its slot back. Contexts may be
built, shared and dropped meanwhile. When the evaluator is shut down or dropped, the slots of
the remaining servers are given back too.
-/

namespace BoardEval

/-! ## Lists of servers -/

/-- Servers that keep their handles; those that have stopped stay stopped. -/
inductive Server.Carried : List Server → List Server → Prop where
  | nil : Carried [] []
  | cons {old new : Server} {olds news : List Server} (handle : new.handle = old.handle)
    (alive : new.alive = true → old.alive = true) (rest : Carried olds news) :
    Carried (old :: olds) (new :: news)

namespace Server

/-- The handles of the servers that are alive. -/
def aliveHandles (servers : List Server) : List Handle :=
  (servers.filter (·.alive)).map (·.handle)

/-- The servers that have just stopped. -/
def stopped (before after : List Server) : List Server :=
  (before.zip after).filterMap fun (old, new) =>
    if old.alive && !new.alive then some new else none

/-- Servers that do nothing are carried. -/
theorem Carried.refl (servers : List Server) : Carried servers servers := by
  induction servers with
  | nil => exact .nil
  | cons server rest inductionHypothesis => exact .cons rfl id inductionHypothesis

/-- Servers that are carried twice are carried. -/
theorem Carried.trans {first second third : List Server} (before : Carried first second)
    (after : Carried second third) : Carried first third := by
  induction before generalizing third with
  | nil => exact after
  | cons handle alive _ inductionHypothesis =>
    cases after with
    | cons handle' alive' rest =>
      exact .cons (handle'.trans handle) (alive ∘ alive') (inductionHypothesis rest)

/-- Servers that are carried keep their handles. -/
theorem Carried.handles {old new : List Server} (carried : Carried old new) :
    new.map (·.handle) = old.map (·.handle) := by
  induction carried with
  | nil => rfl
  | cons handle _ _ inductionHypothesis =>
    rw [List.map_cons, List.map_cons, handle, inductionHypothesis]

/-- One server may take a turn. -/
theorem Carried.set {servers : List Server} {i : Nat} {old new : Server}
    (listed : servers[i]? = some old) (handle : new.handle = old.handle)
    (alive : new.alive = true → old.alive = true) : Carried servers (servers.set i new) := by
  induction servers generalizing i with
  | nil => exact .nil
  | cons server rest inductionHypothesis =>
    cases i with
    | zero =>
      obtain rfl := Option.some.inj listed
      exact .cons handle alive (.refl rest)
    | succ i => exact .cons rfl id (inductionHypothesis listed)

/-- The servers that were alive have just stopped or are alive still. -/
theorem Carried.split {before after : List Server} (carried : Carried before after) :
    (aliveHandles before).Perm ((stopped before after).map (·.handle) ++ aliveHandles after) := by
  induction carried with
  | nil => exact .refl _
  | @cons old new olds news handle alive _ inductionHypothesis =>
    cases was : old.alive with
    | false =>
      have is : new.alive = false := by
        rw [← Bool.not_eq_true]
        intro back
        exact nomatch was.symm.trans (alive back)
      simpa [aliveHandles, stopped, was, is] using inductionHypothesis
    | true =>
      cases is : new.alive with
      | true =>
        simp only [aliveHandles, stopped] at inductionHypothesis
        simpa [aliveHandles, stopped, was, is, handle] using
          (inductionHypothesis.cons old.handle).trans List.perm_middle.symm
      | false =>
        simpa [aliveHandles, stopped, was, is, handle] using inductionHypothesis.cons old.handle

/-- No batch brings a server back that has stopped. -/
theorem alive_of_runPending {forward : Forward} {s : Server}
    (alive : (s.runPending forward).1.alive = true) : s.alive = true := by
  simp only [runPending] at alive
  split at alive
  · exact nomatch alive
  · exact alive

/-- A server takes a turn with its own handle. -/
theorem turn_carries {ε : Type} [Engine ε] (engine : ε) (now : Nat) (s : Server)
    (queue : List Job) :
    (s.turn engine now queue).1.handle = s.handle ∧
      ((s.turn engine now queue).1.alive = true → s.alive = true) := by
  simp only [turn]
  split
  · exact ⟨rfl, alive_of_runPending (s := (s.take queue).1.observe now)⟩
  · exact ⟨rfl, id⟩

end Server

namespace Evaluator

variable {ε : Type} [Engine ε] (e : Evaluator) (r : Registry ε) (now : Nat)

/-- A turn of one server, whoever it is, leaves every server with its handle and
revives none. -/
theorem turnOf_carries (i : Nat) :
    Server.Carried e.servers (e.turnOf r i now).1.servers := by
  unfold turnOf
  split
  · exact .refl _
  rename_i server listed
  split
  · exact .refl _
  rename_i engine _
  split
  · obtain ⟨handle, alive⟩ := server.turn_carries engine now e.queue
    exact .set listed handle alive
  · exact .refl _

/-- So does the next turn, whoever's it is. -/
theorem turn_carries : Server.Carried e.servers (e.turn r now).1.servers :=
  e.turnOf_carries r now e.next

/-- A round is as many turns as there are servers. The induction is on their number. -/
theorem round_carries : Server.Carried e.servers (e.round r now).1.servers := by
  unfold round
  induction e.servers.length with
  | zero => exact .refl _
  | succ n inductionHypothesis =>
    rw [List.range_succ, List.foldl_append]
    exact inductionHypothesis.trans (turn_carries _ r now)

end Evaluator

namespace Session

/-! ## Starting -/

section

variable {ε : Type} [Engine ε] {Sound : ε → Prop} (laws : SlotLaws Sound)
include laws

/-- However the start of servers ends: if it fails, nothing is on loan any more, and if it
succeeds, there is one server more for each routing index, on the engine that the context binds
for it, and the handles of the servers are what is on loan. The induction is on the indices. -/
theorem startServers_lends {base r r' : Registry ε} {contextId : Nat} {c : Context}
    {d : Descriptor} {config : EvaluatorConfig} {indices : List Int} {number : Nat}
    {before : List Server} {result : Except ServiceError (List Server)}
    (known : (base.contexts[contextId]?).map (·.context) = some c)
    (started : startServers contextId d config number before r indices = (r', result))
    (lends : Registry.Lends Sound base contextId (before.map (·.handle)) r) :
    (∃ cause, result = .error cause ∧ Registry.Lends Sound base contextId [] r') ∨
      ∃ servers, result = .ok servers ∧
        Registry.Lends Sound base contextId (servers.map (·.handle)) r' ∧
        servers.map (fun server => some server.handle.engine) =
          before.map (fun server => some server.handle.engine) ++
            indices.map fun index => c.engineOf? (.ofRoutingIndex index) := by
  induction indices generalizing number before r with
  | nil =>
    obtain ⟨rfl, rfl⟩ := Prod.mk.inj started
    exact .inr ⟨before, rfl, lends, (List.append_nil _).symm⟩
  | cons index rest inductionHypothesis =>
    obtain ⟨registry, _, opened, ⟨failure, cause, rfl, rfl, rfl⟩ |
      ⟨handle, rfl, ⟨cause, rfl, rfl⟩ | ⟨pool, _, others⟩⟩⟩ := startServers_cons started
    · exact .inl ⟨cause, rfl, (lends.refused laws opened).closeServers laws⟩
    -- A handle without a pool is closed before the servers that were started.
    · exact .inl ⟨cause, rfl, ((lends.opened laws opened).closed laws).closeServers laws⟩
    have routed : c.engineOf? (.ofRoutingIndex index) = some handle.engine := by
      obtain ⟨_, _, shared, _, _, here, bound, _⟩ := Handle.openIn_settings opened
      have context := (lends.lent.context contextId).trans known
      rw [here] at context
      obtain rfl : shared.context = c := Option.some.inj context
      exact bound
    have moved := (lends.opened laws opened).reordered (List.perm_append_singleton handle _).symm
    have joined := inductionHypothesis others
    rw [List.map_append] at joined
    rcases joined moved with failed | ⟨servers, rfl, lends', engines⟩
    · exact .inl failed
    · refine .inr ⟨servers, rfl, lends', ?_⟩
      rw [engines, List.map_append, List.append_assoc, List.map_cons, List.map_cons, List.map_nil,
        List.singleton_append, ← routed]

end

/-! ## Use -/

/-- Replies do not move tickets to other evaluators. The induction is on the replies. -/
theorem deliver_evaluator {ε : Type} (s : Session ε) (replies : List (Nat × Reply)) (ticket : Nat) :
    ((s.deliver replies).tickets[ticket]?).map (·.evaluator) =
      (s.tickets[ticket]?).map (·.evaluator) := by
  unfold deliver
  generalize s.tickets = tickets
  induction replies generalizing tickets with
  | nil => rfl
  | cons reply rest inductionHypothesis =>
    rw [List.foldl_cons, inductionHypothesis, Array.getElem?_modify]
    split
    · rw [Option.map_map]
      rfl
    · rfl

section

variable {ε : Type} [Engine ε]

/-- What an evaluator makes of a session: its servers take turns with the handles that they
have, tickets get their replies, and time passes. -/
inductive Works (number : Nat) (s : Session ε) : Session ε → Prop where
  | here : Works number s s
  | recorded {s' : Session ε} (works : Works number s s') (tickets : Array Ticket) (clock : Nat) :
    Works number s { s' with tickets := tickets, clock := clock }
  | settled {s' : Session ε} (works : Works number s s') {e after : Evaluator}
    (listed : s'.evaluator? number = some e)
    (carried : Server.Carried e.servers after.servers) (replies : List (Nat × Reply)) :
    Works number s (s'.settle number e after replies)

variable {number : Nat} {s s' s'' : Session ε}

/-- What an evaluator makes of a session in two steps it makes of it. -/
theorem Works.trans (first : Works number s s') (second : Works number s' s'') :
    Works number s s'' := by
  induction second with
  | here => exact first
  | recorded _ tickets clock inductionHypothesis =>
    exact inductionHypothesis.recorded tickets clock
  | settled _ listed carried replies inductionHypothesis =>
    exact inductionHypothesis.settled listed carried replies

/-- A request is recorded, and one server takes a turn. -/
theorem submit_works (s : Session ε) (number : Nat) (request : Request) :
    Works number s (s.submit number request).1 := by
  unfold submit
  split
  · exact .here
  rename_i e listed
  split
  · exact .here
  have ticketed : Works number s { s with tickets := s.tickets.push ⟨number, .waiting⟩ } :=
    .recorded .here _ s.clock
  exact ticketed.settled listed (Evaluator.turn_carries (e.enqueue _) _ _) _

/-- While time passes, all servers take turns. The induction is on the number of rounds. -/
theorem passTime_works (s : Session ε) (number ticket fuel : Nat) :
    Works number s (passTime number ticket fuel s) := by
  induction fuel generalizing s with
  | zero => exact .here
  | succ fuel inductionHypothesis =>
    unfold passTime
    split
    · rename_i e _ listed
      have waited : Works number s { s with clock := s.clock + e.batchWait } :=
        .recorded .here s.tickets _
      exact (waited.settled listed (e.round_carries _ _) _).trans (inductionHypothesis _)
    · exact .here

/-- Waiting is time for the evaluator of the ticket. -/
theorem await_works {t : Ticket} {ticket : Nat} (known : s.tickets[ticket]? = some t) :
    Works t.evaluator s (s.await ticket).1 := by
  unfold await
  simp only [known]
  refine Works.recorded ?_ _ (Session.clock _)
  split
  · exact passTime_works s t.evaluator ticket _
  · exact .here

/-- A request is queued under a ticket of its evaluator. -/
theorem submit_ticket {s s' : Session ε} {number ticket : Nat} {request : Request}
    (accepted : s.submit number request = (s', .ok ticket)) :
    (s'.tickets[ticket]?).map (·.evaluator) = some number := by
  unfold submit at accepted
  split at accepted
  · exact nomatch (Prod.mk.inj accepted).2
  split at accepted
  · exact nomatch (Prod.mk.inj accepted).2
  obtain ⟨rfl, place⟩ := Prod.mk.inj accepted
  obtain rfl := Except.ok.inj place
  refine (deliver_evaluator _ _ _).trans ?_
  exact congrArg (Option.map _) Array.getElem?_push_size

/-- To evaluate a request is to submit it and to wait. -/
theorem evaluate_works (s : Session ε) (number : Nat) (request : Request) :
    Works number s (s.evaluate number request).1 := by
  have submitted := submit_works s number request
  unfold evaluate
  cases called : s.submit number request with
  | mk s' result =>
    rw [called] at submitted
    cases result with
    | error cause => exact submitted
    | ok ticket =>
      obtain ⟨t, known, rfl⟩ := Option.map_eq_some_iff.mp (submit_ticket called)
      exact submitted.trans (await_works known)

end

/-- Operations that open and close no handle. -/
def Operation.isQuiet : Operation → Bool
  | .load .. => false
  | .close _ => false
  | _ => true

section

variable {ε : Type} [Engine ε]

/-- The sessions after `s` in which evaluator `number` was used in whatever way: requests were
submitted to it and waited for, its servers took turns at any times, and contexts were built,
shared and dropped. Nobody else opened or closed a handle. -/
inductive Used (number : Nat) (s : Session ε) : Session ε → Prop where
  | unused : Used number s s
  | submit {s' : Session ε} (used : Used number s s') (request : Request) :
    Used number s (s'.submit number request).1
  | await {s' : Session ε} (used : Used number s s') {ticket : Nat}
    (own : (s'.tickets[ticket]?).map (·.evaluator) = some number) :
    Used number s (s'.await ticket).1
  | evaluate {s' : Session ε} (used : Used number s s') (request : Request) :
    Used number s (s'.evaluate number request).1
  | turn {s' : Session ε} (used : Used number s s') {e : Evaluator}
    (listed : s'.evaluator? number = some e) (i now : Nat) :
    Used number s (s'.settle number e (e.turnOf s'.registry i now).1
      (e.turnOf s'.registry i now).2)
  | perform {s' : Session ε} (used : Used number s s') {op : Operation}
    (quiet : op.isQuiet = true) : Used number s (s'.perform op)

/-- The servers of an evaluator that are alive have their slots on loan. -/
def Leased (Sound : ε → Prop) (base : Registry ε) (number : Nat) (s : Session ε) : Prop :=
  ∃ e, s.evaluator? number = some e ∧
    Registry.Leases Sound base (Server.aliveHandles e.servers) s.registry

/-- What the engines of a registry go through when no handle is opened or closed: nothing, the
creation of contexts, or the release of a context. -/
inductive Idles (r : Registry ε) : Registry ε → Prop where
  | alike {r' : Registry ε} (same : r'.engines = r.engines) : Idles r r'
  | created {r' : Registry ε} (config : ContextConfig) (ids : List Nat)
    (same : r'.engines = (r.createContexts config [] ids).1.engines) : Idles r r'
  | released (id : Nat) : Idles r (r.release id)

/-- Building a context opens no handle: engines go through the creation of contexts
at most. -/
theorem build_idles (r : Registry ε) (c : Context) : Idles r (r.build c).1 := by
  unfold Registry.build
  split
  · exact .alike rfl
  split
  · exact .alike rfl
  split
  · exact .alike rfl
  split
  · rename_i made
    exact .created c.config c.engines (by rw [made])
  · rename_i made
    exact .created c.config c.engines (by rw [made])

/-- A quiet operation changes references and lets the engines idle. -/
theorem perform_quiet (s : Session ε) {op : Operation} (quiet : op.isQuiet = true) :
    ∃ registry references,
      s.perform op = { s with registry := registry, references := references } ∧
        Idles s.registry registry := by
  cases op with
  | build c =>
    have idles := build_idles s.registry c
    simp only [perform, buildContext]
    split
    · rename_i built
      exact ⟨_, _, rfl, by rwa [built] at idles⟩
    · rename_i built
      exact ⟨_, _, rfl, by rwa [built] at idles⟩
  | clone reference =>
    simp only [perform, cloneContext]
    split
    · exact ⟨s.registry, s.references, rfl, .alike rfl⟩
    · exact ⟨_, _, rfl, .alike rfl⟩
  | share handle =>
    simp only [perform, shareContext]
    split
    · exact ⟨s.registry, s.references, rfl, .alike rfl⟩
    · exact ⟨_, _, rfl, .alike rfl⟩
  | drop reference =>
    simp only [perform, dropContext]
    split
    · exact ⟨s.registry, s.references, rfl, .alike rfl⟩
    · exact ⟨_, _, rfl, .released _⟩
  | load => cases quiet
  | close => cases quiet

end

section

variable {ε : Type} [Engine ε] {Sound : ε → Prop} (laws : SlotLaws Sound) {base : Registry ε}
  {number : Nat} {s s' : Session ε}
include laws

/-- Putting an evaluator back closes the handles of the servers that have just stopped. -/
theorem Leased.settle {e after : Evaluator} (leased : Leased Sound base number s)
    (listed : s.evaluator? number = some e) (carried : Server.Carried e.servers after.servers)
    (replies : List (Nat × Reply)) :
    Leased Sound base number (s.settle number e after replies) := by
  obtain ⟨_, here, leases⟩ := leased
  obtain rfl := Option.some.inj (here.symm.trans listed)
  exact ⟨after, evaluator?_replaced listed after,
    (leases.reordered carried.split).closeServers laws⟩

/-- An evaluator at work keeps its slots on loan; only servers that stop give theirs
back. -/
theorem Leased.works (leased : Leased Sound base number s) (works : Works number s s') :
    Leased Sound base number s' := by
  induction works with
  | here => exact leased
  | recorded _ _ _ inductionHypothesis => exact inductionHypothesis
  | settled _ listed carried replies inductionHypothesis =>
    exact inductionHypothesis.settle laws listed carried replies

/-- Operations on contexts take no slots. -/
theorem Leased.perform (leased : Leased Sound base number s) {op : Operation}
    (quiet : op.isQuiet = true) : Leased Sound base number (s.perform op) := by
  obtain ⟨e, listed, leases⟩ := leased
  obtain ⟨registry, references, performed, idles⟩ := s.perform_quiet quiet
  rw [performed]
  refine ⟨e, listed, ?_⟩
  cases idles with
  | alike same => exact leases.congr same
  | created config ids same => exact (leases.created laws config [] ids).congr same
  | released id => exact leases.release laws id

/-- So does an evaluator that is used in any way. The induction is on the uses. -/
theorem Leased.used (leased : Leased Sound base number s) (used : Used number s s') :
    Leased Sound base number s' := by
  induction used with
  | unused => exact leased
  | submit _ request inductionHypothesis =>
    exact inductionHypothesis.works laws (submit_works _ number request)
  | await _ own inductionHypothesis =>
    obtain ⟨t, known, rfl⟩ := Option.map_eq_some_iff.mp own
    exact inductionHypothesis.works laws (await_works known)
  | evaluate _ request inductionHypothesis =>
    exact inductionHypothesis.works laws (evaluate_works _ number request)
  | turn _ listed i now inductionHypothesis =>
    exact inductionHypothesis.settle laws listed (Evaluator.turnOf_carries _ _ now i) _
  | perform _ quiet inductionHypothesis => exact inductionHypothesis.perform laws quiet

/-- When the evaluator is shut down, nothing is on loan. -/
theorem Leased.shutdown (leased : Leased Sound base number s) :
    Registry.Leases Sound base [] (s.shutdown number).registry := by
  obtain ⟨e, listed, leases⟩ := leased
  unfold Session.shutdown
  rw [listed]
  have all := leases
  rw [Server.aliveHandles, ← List.append_nil (List.map _ _)] at all
  exact all.closeServers laws

/-- On engines that keep an exact set of live slots and may refuse any model, for any context,
network, settings and routing indices: if an evaluator is not started, there is no handle or
evaluator more than before, nobody holds a context more than before, and every engine has the
slots that it had. If it is started, there is one live server for each routing index, in order
and on the engine that the context binds for it, and their handles are what has changed: they
have their slots on loan and hold the context. When it is then used in whatever way and shut
down or dropped, every engine has the slots that it had before the start.

Proof: the start ends in one of three ways. Where it never comes to a server nothing
is on loan. Where a server fails, the induction over the routing indices has closed
the handles of the servers before it. Where all are started, their handles are what is
on loan, any use keeps that true of the servers that are alive, and both ways to end
close them. -/
theorem evaluators_restore_slots (s : Session ε)
    (sound : ∀ (k : Nat) (e : ε), s.registry.engines[k]? = some e → Sound e) (reference : Nat)
    (d : Descriptor) (config : EvaluatorConfig) :
    (∀ s' failure, s.startEvaluator reference d config = (s', .error failure) →
      s'.handles = s.handles ∧ s'.evaluators = s.evaluators ∧
        s'.registry.contexts = s.registry.contexts ∧ s.registry.SameSlots s'.registry) ∧
      ∀ s' number, s.startEvaluator reference d config = (s', .ok number) →
        ∃ id c e, s.reference? reference = some id ∧ s.context? reference = some c ∧
          s'.evaluator? number = some e ∧
          (e.servers.map fun server => some server.handle.engine) =
            config.routingIndices.map (fun index => c.engineOf? (.ofRoutingIndex index)) ∧
          (∀ server ∈ e.servers, server.alive = true) ∧
          Registry.Lends Sound s.registry id (e.servers.map (·.handle)) s'.registry ∧
          ∀ s'', Used number s' s'' →
            s.registry.SameSlots (s''.shutdown number).registry ∧
              s.registry.SameSlots (s''.dropEvaluator number).registry := by
  have nothing (id : Nat) := Registry.Lends.nobody sound id
  rcases s.startEvaluator_cases reference d config with ⟨_, refused⟩ |
    ⟨id, c, referred, known, _, _, _, ⟨r, _, failed, ended⟩ | ⟨r, servers, ready, ended⟩⟩
  · rw [refused]
    constructor
    · rintro s' failure ⟨⟩
      exact ⟨rfl, rfl, rfl, (nothing 0).leases.same⟩
    · intro _ _ other
      exact nomatch (Prod.mk.inj other).2
  · rw [ended]
    rcases startServers_lends laws known failed (nothing id) with
      ⟨_, _, lends⟩ | ⟨_, other, _⟩
    · constructor
      · rintro s' failure ⟨⟩
        exact ⟨rfl, rfl, lends.lent.same, lends.leases.same⟩
      · intro _ _ other
        exact nomatch (Prod.mk.inj other).2
    · exact nomatch other
  · rw [ended]
    rcases startServers_lends laws known ready (nothing id) with
      ⟨_, other, _⟩ | ⟨_, made, lends, engines⟩
    · exact nomatch other
    obtain rfl := Except.ok.inj made
    constructor
    · intro _ _ other
      exact nomatch (Prod.mk.inj other).2
    rintro s' number ⟨⟩
    have alive : ∀ server ∈ servers, server.alive = true := fun server member =>
      (startServers_fresh known (by simp) ready server member).alive
    refine ⟨id, c, _, referred, ?_, congrArg Option.join Array.getElem?_push_size, engines, alive,
      lends, ?_⟩
    · rw [context?, referred]
      exact known
    intro s'' used
    have leased : Leased Sound s.registry s.evaluators.size { s with
        registry := r
        evaluators := s.evaluators.push (some ⟨true, [], servers, c.config.extent,
          d.spatial * c.config.extent.cells, d.globals, config.batchWait, 0⟩) } := by
      refine ⟨_, congrArg Option.join Array.getElem?_push_size, ?_⟩
      rw [Server.aliveHandles, List.filter_eq_self.mpr alive]
      exact lends.leases
    have ended := ((leased.used laws used).shutdown laws).same
    exact ⟨ended, ended⟩

end

/-- An accelerated engine that refuses its second model, a secondary host engine, and a context
of both. -/
def flaky : Session AnyEngine :=
  (start #[
    .scripted { ScriptedEngine.failingAt "Flaky" .accelerated .runBatch .contextMissing with
      onLoad := fun n => if n = 1 then some (.modelLoad "no memory") else none },
    .host (.new .secondary (.ofRows Handle.tiny.shape (.echo Handle.tiny.shape)))]).after
      [.build ⟨⟨⟨3, 2⟩, .auto, .auto, []⟩, some 0, some 1⟩]

/-- Both engines of the session keep exact slots, the failing one because it has
none. -/
theorem flaky_keeps (k : Nat) (e : AnyEngine) (listed : flaky.registry.engines[k]? = some e) :
    e.KeepsSlots := by
  match k with
  | 0 =>
    obtain rfl := Option.some.inj listed
    trivial
  | 1 =>
    obtain rfl := Option.some.inj listed
    intro slot live
    exact nomatch live
  | k + 2 => exact nomatch listed

/-- Settings for servers of the given routing indices. -/
def flakyConfig (indices : List Int) : EvaluatorConfig :=
  ⟨⟨⟨3, 2⟩, .auto, .auto, []⟩, 2, true, indices, 0⟩

/-- The fourth server is not started, and the slots that the host engine gave out before are
free again. Two servers on the host engine are started and have two slots; after a request and
a shutdown these are free again, too. -/
theorem evaluators_restore_slots_flaky :
    let failed := flaky.startEvaluator 0 Handle.tiny.descriptor (flakyConfig [100, 0, 100, 0])
    let started := flaky.startEvaluator 0 Handle.tiny.descriptor (flakyConfig [100, 100])
    let used := (started.1.submit 0 (.tiny .zero)).1
    failed.2 = .error (.error (.serverInit (.engine (.modelLoad "no memory")))) ∧
      (∃ e, failed.1.registry.engines[1]? = some e ∧ ∀ slot, Engine.versionIn? e slot = none) ∧
      started.2 = .ok 0 ∧
      (∃ e, started.1.registry.engines[1]? = some e ∧ Engine.liveSlots e = some 2 ∧
        Engine.versionIn? e 0 = some 14 ∧ Engine.versionIn? e 1 = some 14) ∧
      ∃ e, (used.shutdown 0).registry.engines[1]? = some e ∧
        ∀ slot, Engine.versionIn? e slot = none := by
  intro failed started used
  have refused : flaky.startEvaluator 0 Handle.tiny.descriptor (flakyConfig [100, 0, 100, 0]) =
      (failed.1, .error (.error (.serverInit (.engine (.modelLoad "no memory"))))) := rfl
  have ready : flaky.startEvaluator 0 Handle.tiny.descriptor (flakyConfig [100, 100]) =
      (started.1, .ok 0) := rfl
  -- The host engine has no slots at first, so having the same slots is having none.
  have free {r : Registry AnyEngine} (same : flaky.registry.SameSlots r) :
      ∃ e, r.engines[1]? = some e ∧ ∀ slot, Engine.versionIn? e slot = none := by
    obtain ⟨e, listed, slots⟩ := same 1 _ rfl
    exact ⟨e, listed, slots⟩
  obtain ⟨afterFailure, _⟩ := evaluators_restore_slots AnyEngine.slotLaws flaky flaky_keeps 0
    Handle.tiny.descriptor (flakyConfig [100, 0, 100, 0])
  obtain ⟨_, afterStart⟩ := evaluators_restore_slots AnyEngine.slotLaws flaky flaky_keeps 0
    Handle.tiny.descriptor (flakyConfig [100, 100])
  obtain ⟨_, _, _, same⟩ := afterFailure failed.1 _ refused
  obtain ⟨_, _, _, _, _, _, _, _, _, stopped⟩ := afterStart started.1 0 ready
  obtain ⟨shut, _⟩ := stopped used (.submit .unused (.tiny .zero))
  exact ⟨rfl, free same, rfl, ⟨_, rfl, rfl, rfl, rfl⟩, free shut⟩

end Session

end BoardEval
