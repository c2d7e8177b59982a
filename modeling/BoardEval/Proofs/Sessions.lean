import BoardEval.Proofs.Interleaving
import BoardEval.Service.Session

/-!
# Evaluators of a session

Two facts tie sessions to the worlds of an evaluator. What a session starts is a
started evaluator: every server opened its handle through the one context and created a
pool of it. And the turn that a session gives to a server, all at once, is one of the
interleavings: the steps of one thread, with no other thread acting in between.
-/

namespace BoardEval

namespace Registry

variable {ε : Type}

/-- The contexts of one registry are those of the other, up to who holds them. -/
def SameContexts (r r' : Registry ε) : Prop :=
  ∀ id : Nat, (r'.contexts[id]?).map (·.context) = (r.contexts[id]?).map (·.context)

/-- Contexts that two steps keep one after the other, both keep. -/
theorem SameContexts.trans {r r' r'' : Registry ε} (first : r.SameContexts r')
    (second : r'.SameContexts r'') : r.SameContexts r'' :=
  fun id => (second id).trans (first id)

/-- Replacing an engine changes no context. -/
theorem setEngine_contexts (r : Registry ε) (id : Nat) (engine : ε) :
    r.SameContexts (r.setEngine id engine) := fun _ => rfl

/-- Holding a context changes who holds it and nothing else. -/
theorem hold_contexts (r : Registry ε) (id : Nat) : r.SameContexts (r.hold id) := by
  intro other
  simp only [hold, Array.getElem?_modify]
  split
  · cases r.contexts[other]? <;> rfl
  · rfl

end Registry

namespace Handle

variable {ε : Type} [Engine ε]

/-- A handle that could be opened is about its context's board and was made for what
was asked. -/
theorem openIn_ok {r r' : Registry ε} {contextId : Nat} {d : Descriptor} {maxBatchSize : Nat}
    {inputsChannelLast : Bool} {routingIndex : Int} {server : Nat} {h : Handle}
    (opened : openIn r contextId d maxBatchSize inputsChannelLast routingIndex server =
      (r', .ok h)) :
    r.SameContexts r' ∧ h.descriptor = d ∧ h.maxBatchSize = maxBatchSize ∧
      ∃ c, (r.contexts[contextId]?).map (·.context) = some c ∧ h.board = c.config.extent := by
  obtain ⟨shared, _, _, _, known, _, _, _, rfl, _, descriptor, limit, board⟩ :=
    openIn_opened opened
  refine ⟨(Registry.setEngine_contexts _ _ _).trans (Registry.hold_contexts _ _), descriptor,
    limit, shared.context, ?_, board⟩
  rw [known]
  rfl

end Handle

/-- A server as it is started. -/
structure Server.Fresh (c : Context) (d : Descriptor) (config : EvaluatorConfig) (s : Server) :
    Prop where
  board : s.handle.board = c.config.extent
  descriptor : s.handle.descriptor = d
  limit : s.handle.maxBatchSize = config.maxBatchSize
  pool : s.handle.createPool = .ok s.pool
  collector : s.collector = .new config.maxBatchSize config.batchWait
  pending : s.pending = []
  alive : s.alive = true

namespace Session

/-- An evaluator that is found is one that was started. -/
theorem evaluator?_lt {ε : Type} {s : Session ε} {number : Nat} {e : Evaluator}
    (known : s.evaluator? number = some e) : number < s.evaluators.size :=
  (Array.getElem?_eq_some_iff.mp (Option.join_eq_some_iff.mp known)).1

/-- An evaluator that is put back is found. -/
theorem evaluator?_replaced {ε : Type} {s : Session ε} {number : Nat} {e : Evaluator}
    (known : s.evaluator? number = some e) (after : Evaluator) :
    (s.evaluators.setIfInBounds number (some after))[number]?.join = some after :=
  congrArg Option.join (Array.getElem?_setIfInBounds_self_of_lt (evaluator?_lt known))

variable {ε : Type} [Engine ε]

section

variable {contextId : Nat} {d : Descriptor} {config : EvaluatorConfig} {indices : List Int}
  {number : Nat} {before servers : List Server} {r r' : Registry ε}

/-- How the start of the next server ends. Its handle cannot be opened, or is closed again
because it gets no pool, and the servers before it are stopped; or it is added to them, and the
others are started. -/
theorem startServers_cons {index : Int} {result : Except ServiceError (List Server)}
    (started : startServers contextId d config number before r (index :: indices) = (r', result)) :
    ∃ registry opening, Handle.openIn r contextId d config.maxBatchSize config.inputsChannelLast
        index number = (registry, opening) ∧
      ((∃ failure cause, opening = .error failure ∧ result = .error cause ∧
          r' = closeServers registry before) ∨
        ∃ handle, opening = .ok handle ∧
          ((∃ cause, result = .error cause ∧ r' = closeServers (handle.close registry) before) ∨
            ∃ pool, handle.createPool = .ok pool ∧
              startServers contextId d config (number + 1) (before ++
                [⟨handle, pool, .new config.maxBatchSize config.batchWait, [], true⟩]) registry
                indices = (r', result))) := by
  unfold startServers at started
  cases opened : Handle.openIn r contextId d config.maxBatchSize config.inputsChannelLast index
      number with
  | mk registry opening =>
  rw [opened] at started
  refine ⟨registry, opening, rfl, ?_⟩
  cases opening with
  | error failure =>
    cases failure <;>
    · obtain ⟨rfl, rfl⟩ := Prod.mk.inj started
      exact .inl ⟨_, _, rfl, rfl, rfl⟩
  | ok handle =>
    refine .inr ⟨handle, rfl, ?_⟩
    cases made : handle.createPool with
    | error failure =>
      simp only [made] at started
      cases failure <;>
      · obtain ⟨rfl, rfl⟩ := Prod.mk.inj started
        exact .inl ⟨_, rfl, rfl⟩
    | ok pool =>
      simp only [made] at started
      exact .inr ⟨pool, rfl, started⟩

/-- A start that succeeds added a server for the first routing index. -/
theorem startServers_cons_ok {index : Int}
    (started : startServers contextId d config number before r (index :: indices) =
      (r', .ok servers)) :
    ∃ registry handle pool, Handle.openIn r contextId d config.maxBatchSize
        config.inputsChannelLast index number = (registry, .ok handle) ∧
      handle.createPool = .ok pool ∧
        startServers contextId d config (number + 1) (before ++
          [⟨handle, pool, .new config.maxBatchSize config.batchWait, [], true⟩]) registry indices =
            (r', .ok servers) := by
  obtain ⟨registry, _, opened, ⟨_, _, _, failed, _⟩ | ⟨handle, rfl, ⟨_, failed, _⟩ |
    ⟨pool, made, others⟩⟩⟩ := startServers_cons started
  · exact nomatch failed
  · exact nomatch failed
  · exact ⟨registry, handle, pool, opened, made, others⟩

/-- Servers that could be started are fresh. The induction is on the routing indices
still to be served; no step changes what the context is. -/
theorem startServers_fresh {c : Context} (known : (r.contexts[contextId]?).map (·.context) = some c)
    (fresh : ∀ s ∈ before, s.Fresh c d config)
    (started : startServers contextId d config number before r indices = (r', .ok servers)) :
    ∀ s ∈ servers, s.Fresh c d config := by
  induction indices generalizing number before r with
  | nil =>
    obtain ⟨_, same⟩ := Prod.mk.inj started
    obtain rfl := Except.ok.inj same
    exact fresh
  | cons index rest inductionHypothesis =>
    obtain ⟨registry, handle, pool, opened, made, others⟩ := startServers_cons_ok started
    obtain ⟨same, descriptor, limit, c', known', board⟩ := Handle.openIn_ok opened
    obtain rfl := Option.some.inj (known.symm.trans known')
    refine inductionHypothesis ((same contextId).trans known) ?_ others
    intro s member
    rcases List.mem_append.mp member with old | new
    · exact fresh s old
    · obtain rfl := List.mem_singleton.mp new
      exact ⟨board, descriptor, limit, made, rfl, rfl, rfl⟩

end

/-- The start of an evaluator is refused at once, or it comes down to the start of its
servers: for a known context, and with settings and a network that were checked. -/
theorem startEvaluator_cases (s : Session ε) (number : Nat) (d : Descriptor)
    (config : EvaluatorConfig) :
    (∃ failure, s.startEvaluator number d config = (s, .error failure)) ∨
      ∃ id c, s.reference? number = some id ∧
        (s.registry.contexts[id]?).map (·.context) = some c ∧ config.validate = .ok () ∧
          config.context.extent = c.config.extent ∧ d.validate = .ok () ∧
            ((∃ r cause, startServers id d config 0 [] s.registry config.routingIndices =
                (r, .error cause) ∧
              s.startEvaluator number d config =
                ({ s with registry := r }, .error (.error cause))) ∨
            ∃ r servers, startServers id d config 0 [] s.registry config.routingIndices =
                (r, .ok servers) ∧
              s.startEvaluator number d config = ({ s with
                registry := r
                evaluators := s.evaluators.push (some ⟨true, [], servers, c.config.extent,
                  d.spatial * c.config.extent.cells, d.globals, config.batchWait, 0⟩) },
                .ok s.evaluators.size)) := by
  unfold startEvaluator
  cases referred : s.reference? number with
  | none => exact .inl ⟨_, rfl⟩
  | some id =>
  cases found : s.context? number with
  | none => exact .inl ⟨_, rfl⟩
  | some c =>
  have known : (s.registry.contexts[id]?).map (·.context) = some c := by
    simpa [context?, referred] using found
  cases checked : config.validate with
  | error cause => exact .inl ⟨_, rfl⟩
  | ok u =>
  by_cases extent : config.context.extent = c.config.extent
  case neg => exact .inl ⟨_, if_pos extent⟩
  have same : ¬config.context.extent ≠ c.config.extent := fun differs => differs extent
  simp only [if_neg same]
  cases valid : d.validate with
  | error cause => exact .inl ⟨_, rfl⟩
  | ok u =>
  refine .inr ⟨id, c, rfl, known, trivial, extent, rfl, ?_⟩
  cases started : startServers id d config 0 [] s.registry config.routingIndices with
  | mk r result =>
  cases result with
  | error cause => exact .inl ⟨r, cause, rfl, rfl⟩
  | ok servers => exact .inr ⟨r, servers, rfl, rfl⟩

/-- A session starts fresh servers for the board and the lengths that the evaluator checks
requests for. -/
theorem startEvaluator_fresh {s s' : Session ε} {number id : Nat} {d : Descriptor}
    {config : EvaluatorConfig} (started : s.startEvaluator number d config = (s', .ok id)) :
    ∃ e c, s'.evaluator? id = some e ∧ e.running = true ∧ e.queue = [] ∧
      e.board = c.config.extent ∧ e.spatialLength = d.spatial * e.board.cells ∧
        e.globalLength = d.globals ∧ ∀ server ∈ e.servers, server.Fresh c d config := by
  rcases s.startEvaluator_cases number d config with ⟨_, refused⟩ |
    ⟨_, c, _, known, _, _, _, ⟨_, _, _, failed⟩ | ⟨r, servers, ready, ended⟩⟩
  · exact nomatch (Prod.mk.inj (started.symm.trans refused)).2
  · exact nomatch (Prod.mk.inj (started.symm.trans failed)).2
  · obtain ⟨rfl, identity⟩ := Prod.mk.inj (started.symm.trans ended)
    obtain rfl := Except.ok.inj identity
    exact ⟨_, c, congrArg Option.join Array.getElem?_push_size, rfl, rfl, rfl, rfl, rfl,
      startServers_fresh known (by simp) ready⟩

/-- An evaluator that a session could start is a started evaluator, and its servers are
fresh. -/
theorem startEvaluator_started {s s' : Session ε} {number id : Nat} {d : Descriptor}
    {config : EvaluatorConfig} (started : s.startEvaluator number d config = (s', .ok id)) :
    ∃ e c, s'.evaluator? id = some e ∧ e.Started ∧
      ∀ server ∈ e.servers, server.Fresh c d config := by
  obtain ⟨e, c, listed, running, queue, board, spatial, globals, fresh⟩ :=
    startEvaluator_fresh started
  refine ⟨e, c, listed, ⟨running, queue, ?_, ?_, ?_, ?_⟩, fresh⟩
  · exact fun server member => .created (fresh server member).pool
  · exact fun server member => ⟨(fresh server member).pending, (fresh server member).alive⟩
  · intro server member
    rw [(fresh server member).collector, (fresh server member).limit]
    rfl
  · intro server member
    simp only [Handle.shape, PoolShape.ofDescriptor, PoolShape.denseSpatial, board, spatial,
      globals, (fresh server member).board, (fresh server member).descriptor, and_self]

end Session

namespace Thread

/-- What two runs give off, one after the other. -/
def Output.append (first second : Output) : Output :=
  ⟨first.batches ++ second.batches, first.replies ++ second.replies,
    first.dropped ++ second.dropped⟩

/-- What three parts of a run give off does not depend on which two are joined
first. -/
theorem Output.append_assoc (first second third : Output) :
    (first.append second).append third = first.append (second.append third) := by
  simp only [append, List.append_assoc]

/-- Steps of a given kind that one thread takes, with no other thread acting in between. -/
inductive Run (kind : List Job → Thread → List Job → Thread → Output → Prop) :
    List Job → Thread → List Job → Thread → Output → Prop where
  | done {queue t} : Run kind queue t queue t .nothing
  | next {queue queue' queue'' t t' t'' out out'} (step : kind queue t queue' t' out)
    (rest : Run kind queue' t' queue'' t'' out') :
    Run kind queue t queue'' t'' (out.append out')

section

variable {kind : List Job → Thread → List Job → Thread → Output → Prop} {running : Bool}
  {queue queue' queue'' : List Job} {t t' t'' : Thread} {out out' : Output} {s : Server}
  {net : RowNet}

/-- Two runs of a thread, one after the other, are a run that gives off what both
do. -/
theorem Run.trans (first : Run kind queue t queue' t' out)
    (second : Run kind queue' t' queue'' t'' out') :
    Run kind queue t queue'' t'' (out.append out') := by
  induction first with
  | done => exact second
  | next step _ inductionHypothesis =>
    rw [Output.append_assoc]
    exact .next step (inductionHypothesis second)

/-- A run of steps is one of any kind that has these steps. -/
theorem Run.widen {wider : List Job → Thread → List Job → Thread → Output → Prop}
    (wide : ∀ queue t queue' t' out, kind queue t queue' t' out → wider queue t queue' t' out)
    (run : Run kind queue t queue' t' out) : Run wider queue t queue' t' out := by
  induction run with
  | done => exact .done
  | next step _ inductionHypothesis => exact .next (wide _ _ _ _ _ step) inductionHypothesis

/-- A thread that takes jobs takes as many as there are and as it has room for. The
induction is on its room. -/
theorem Run.drains (running : Bool) (net : RowNet) (s : Server) (queue : List Job) (room : Nat) :
    ∃ left, (left = 0 ∨ queue.drop room = []) ∧
      Run (Step running) queue ⟨s, net, .draining room⟩ (queue.drop room)
        ⟨s.receive (queue.take room), net, .draining left⟩ .nothing := by
  induction room generalizing s queue with
  | zero => exact ⟨0, .inl rfl, by simpa [Server.receive] using Run.done⟩
  | succ room inductionHypothesis =>
    cases queue with
    | nil => exact ⟨room + 1, .inr rfl, by simpa [Server.receive] using Run.done⟩
    | cons job rest =>
      obtain ⟨left, ended, run⟩ := inductionHypothesis (s.receive [job]) rest
      refine ⟨left, ended, ?_⟩
      simpa [Server.receive, Output.append, Output.nothing] using Run.next .drain run

/-- A thread that sends answers sends them all. -/
theorem Run.sends (unsent : List (Nat × Reply)) :
    Run (Step running) queue ⟨s, net, .sending unsent⟩ queue ⟨s, net, .head⟩
      ⟨[], unsent, []⟩ := by
  induction unsent with
  | nil => exact .next Step.finish .done
  | cons reply rest inductionHypothesis => exact .next Step.send inductionHypothesis

/-- A thread of a running evaluator takes from the queue what a turn takes. -/
theorem Run.takes (net : RowNet) (s : Server) (queue : List Job) (now : Nat) :
    Run (Step true) queue ⟨s, net, .head⟩ (s.take queue).2
      ⟨(s.take queue).1.observe now, net, .deciding⟩ .nothing := by
  have waited : Run (Step true) queue ⟨s, net, .waiting⟩ (queue.drop 1)
      ⟨s.receive (queue.take 1), net, .draining (s.receive (queue.take 1)).room⟩ .nothing := by
    cases queue with
    | nil =>
      have same : s.receive [] = s := by simp [Server.receive]
      rw [List.take_nil, List.drop_nil, same]
      exact .next Step.timeout .done
    | cons job rest => exact .next Step.take .done
  obtain ⟨left, ended, drained⟩ := Run.drains true net (s.receive (queue.take 1))
    (queue.drop 1) (s.receive (queue.take 1)).room
  have entered : Run (Step true) queue ⟨s, net, .head⟩ _ _ .nothing :=
    .next (.enter rfl) (waited.trans drained)
  exact entered.trans (.next (.drained now ended) .done)

/-- The turn that a session gives to a server is a run of its thread, of any kind of steps
that has the call of the engine. -/
theorem Run.turn {ε : Type} [Engine ε] (engine : ε) (now : Nat)
    (wide : ∀ queue t queue' t' out, Step true queue t queue' t' out →
      kind queue t queue' t' out) {batches : List Batch}
    (call : kind (s.take queue).2 ⟨(s.take queue).1.observe now, net, .calling⟩ (s.take queue).2
      ⟨(((s.take queue).1.observe now).runPending (s.handle.forward engine)).1, net,
        .sending (((s.take queue).1.observe now).runPending (s.handle.forward engine)).2⟩
      ⟨batches, [], []⟩) :
    ∃ batches, Run kind queue ⟨s, net, .head⟩ (s.turn engine now queue).2.1
      ⟨(s.turn engine now queue).1, net, .head⟩ ⟨batches, (s.turn engine now queue).2.2, []⟩ := by
  let filled := (s.take queue).1.observe now
  have taken := (Run.takes net s queue now).widen wide
  cases ready : filled.isReady now with
  | false =>
    have turned : s.turn engine now queue = (filled, (s.take queue).2, []) := by
      simp only [Server.turn]
      exact if_neg (Bool.eq_false_iff.mp ready)
    rw [turned]
    exact ⟨[], taken.trans (.next (wide _ _ _ _ _ (.pass now ready)) .done)⟩
  | true =>
    let run := filled.runPending (s.handle.forward engine)
    have turned : s.turn engine now queue = (run.1, (s.take queue).2, run.2) := by
      simp only [Server.turn]
      exact if_pos ready
    have sent : Run kind (s.take queue).2 ⟨run.1, net, .sending run.2⟩ (s.take queue).2
        ⟨run.1, net, .head⟩ ⟨[], run.2, []⟩ := .widen wide (.sends run.2)
    have called := taken.trans (.next (wide _ _ _ _ _ (.call now ready)) (.next call sent))
    rw [turned]
    refine ⟨batches, ?_⟩
    simpa [Output.append, Output.nothing] using called

end

end Thread

namespace World

variable {e : Evaluator} {nets : Nat → RowNet} {w : World} {front back : List Thread}

/-- The world with one thread, the queue and the answers replaced. -/
def withThread (w : World) (front back : List Thread) (queue : List Job) (t : Thread)
    (replies : List (Nat × Reply)) : World :=
  { w with queue := queue, threads := front ++ t :: back, replies := replies }

/-- What one thread runs through, its world does. The induction is on the run. -/
theorem Reachable.run {running : Bool} {queue queue' : List Job} {t t' : Thread}
    {out : Thread.Output} (run : Thread.Run (Thread.Step running) queue t queue' t' out)
    (going : w.running = running)
    (reached : Reachable e nets { w with queue := queue, threads := front ++ t :: back }) :
    Reachable e nets { w with
      queue := queue'
      threads := front ++ t' :: back
      batches := w.batches ++ out.batches
      replies := w.replies ++ out.replies
      dropped := w.dropped ++ out.dropped } := by
  induction run generalizing w with
  | done => simpa [Thread.Output.nothing] using reached
  | @next _ _ _ _ _ _ first second step rest inductionHypothesis =>
    subst going
    let later := { w with
      batches := w.batches ++ first.batches
      replies := w.replies ++ first.replies
      dropped := w.dropped ++ first.dropped }
    have moved : Reachable e nets { later with queue := _, threads := front ++ _ :: back } :=
      reached.act rfl step
    simpa [later, Thread.Output.append] using inductionHypothesis (w := later) rfl moved

/-- The turn that a session gives to a server is a run of its thread. -/
theorem Reachable.turn {ε : Type} [Engine ε] {s : Server} {net : RowNet} {queue : List Job}
    {replies : List (Nat × Reply)} (going : w.running = true)
    (reached : Reachable e nets (w.withThread front back queue ⟨s, net, .head⟩ replies))
    (engine : ε) (now : Nat)
    (rowWise : (s.handle.forward engine).RowWise s.handle.shape s.handle.maxBatchSize net)
    (faultless : (s.handle.forward engine).Faultless s.handle.shape s.handle.maxBatchSize) :
    ∃ batches, Reachable e nets
      ({ w with batches := batches }.withThread front back (s.turn engine now queue).2.1
        ⟨(s.turn engine now queue).1, net, .head⟩ (replies ++ (s.turn engine now queue).2.2)) := by
  obtain ⟨batches, run⟩ := Thread.Run.turn engine now (fun _ _ _ _ _ step => step)
    (.run (s.handle.forward engine) rowWise faultless)
  have turned := Reachable.run (w := w.withThread front back queue ⟨s, net, .head⟩ replies) run
    going reached
  exact ⟨w.batches ++ batches, by simpa [withThread] using turned⟩

end World

end BoardEval
