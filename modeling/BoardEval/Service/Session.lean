import BoardEval.Service.Evaluator

/-!
# Sessions

A session is everything that is alive at one time: engines and contexts, the
references to contexts that users keep, open handles, running evaluators and the
tickets of submitted requests. Each operation is a function on sessions, so what
can happen is what sequences of operations can reach.

Objects are numbered by kind in the order in which they were made, and a number
is never used again. Time passes only while a submitter waits.
-/

namespace BoardEval

/-- A submitted request: the evaluator it went to and what came of it. -/
structure Ticket where
  evaluator : Nat
  reply : Reply

/-- Everything that users of one registry have open. Numbers are positions in these
arrays, so a number that was given out never stands for something else. -/
structure Session (ε : Type) where
  registry : Registry ε
  /-- Contexts that users refer to; a dropped reference leaves a gap. -/
  references : Array (Option Nat)
  handles : Array (Option Handle)
  evaluators : Array (Option Evaluator)
  tickets : Array Ticket
  clock : Nat

namespace Session

variable {ε : Type} [Engine ε]

/-- Engines and nothing else. -/
def start (engines : Array ε) : Session ε := ⟨⟨engines, #[]⟩, #[], #[], #[], #[], 0⟩

/-- The context behind a reference that was not dropped. -/
def reference? (s : Session ε) (number : Nat) : Option Nat := (s.references[number]?).join

/-- The handle under a number, unless it was closed. -/
def handle? (s : Session ε) (number : Nat) : Option Handle := (s.handles[number]?).join

/-- The evaluator under a number, unless it was dropped. -/
def evaluator? (s : Session ε) (number : Nat) : Option Evaluator := (s.evaluators[number]?).join

/-- The context behind a reference. -/
def context? (s : Session ε) (number : Nat) : Option Context :=
  (s.reference? number).bind fun id => (s.registry.contexts[id]?).map (·.context)

/-- Build a context and refer to it. -/
def buildContext (s : Session ε) (c : Context) : Session ε × Except ServiceError Nat :=
  match s.registry.build c with
  | (registry, .error cause) => ({ s with registry := registry }, .error cause)
  | (registry, .ok id) =>
    ({ s with registry := registry, references := s.references.push (some id) },
      .ok s.references.size)

/-- Refer once more to a context. -/
def cloneContext (s : Session ε) (number : Nat) : Session ε × Option Nat :=
  match s.reference? number with
  | none => (s, none)
  | some id =>
    ({ s with registry := s.registry.hold id, references := s.references.push (some id) },
      some s.references.size)

/-- Refer to the context that a handle holds. -/
def shareContext (s : Session ε) (number : Nat) : Session ε × Option Nat :=
  match s.handle? number with
  | none => (s, none)
  | some handle =>
    ({ s with
        registry := s.registry.hold handle.context
        references := s.references.push (some handle.context) },
      some s.references.size)

/-- Drop a reference. -/
def dropContext (s : Session ε) (number : Nat) : Session ε :=
  match s.reference? number with
  | none => s
  | some id =>
    { s with
      registry := s.registry.release id
      references := s.references.setIfInBounds number none }

/-- Open a handle through a context. -/
def openHandle (s : Session ε) (number : Nat) (d : Descriptor) (maxBatchSize : Nat)
    (inputsChannelLast : Bool) (routingIndex : Int) (server : Nat) :
    Session ε × Except (Failure ServiceError) Nat :=
  match s.reference? number with
  | none => (s, .error (.fault .implicit))
  | some id =>
    match Handle.openIn s.registry id d maxBatchSize inputsChannelLast routingIndex server with
    | (registry, .error cause) => ({ s with registry := registry }, .error cause)
    | (registry, .ok handle) =>
      ({ s with registry := registry, handles := s.handles.push (some handle) },
        .ok s.handles.size)

/-- Close a handle. -/
def closeHandle (s : Session ε) (number : Nat) : Session ε :=
  match s.handle? number with
  | none => s
  | some handle =>
    { s with
      registry := handle.close s.registry
      handles := s.handles.setIfInBounds number none }

/-- Run a batch through a handle. -/
def run (s : Session ε) (number : Nat) (p : Pool) (requests : List Request)
    (outputs : List Evaluation) : Execution :=
  match (s.handle? number).bind fun h => (s.registry.engines[h.engine]?).map fun e => (h, e) with
  | some (handle, engine) => handle.execute engine p requests outputs
  | none => ⟨p, outputs, .error (.fault .implicit)⟩

/-- Close the handles of servers, in order. -/
def closeServers (r : Registry ε) (servers : List Server) : Registry ε :=
  servers.foldl (fun r server => server.handle.close r) r

/-- Start one server per routing index, numbered from `number` on; the first
failure stops those that were started before it. -/
def startServers (contextId : Nat) (d : Descriptor) (config : EvaluatorConfig) :
    Nat → List Server → Registry ε → List Int →
      Registry ε × Except ServiceError (List Server)
  | _, started, r, [] => (r, .ok started)
  | number, started, r, index :: rest =>
    match Handle.openIn r contextId d config.maxBatchSize config.inputsChannelLast index number with
    | (r, .error (.error cause)) => (closeServers r started, .error (.serverInit cause))
    | (r, .error (.fault _)) => (closeServers r started, .error (.serverLost number))
    | (r, .ok handle) =>
      match handle.createPool with
      | .error (.error cause) =>
        (closeServers (handle.close r) started, .error (.serverInit cause))
      | .error (.fault _) => (closeServers (handle.close r) started, .error (.serverLost number))
      | .ok pool =>
        let server : Server :=
          ⟨handle, pool, .new config.maxBatchSize config.batchWait, [], true⟩
        startServers contextId d config (number + 1) (started ++ [server]) r rest

/-- Start an evaluator through a context. Its configuration must be about the
context's board. -/
def startEvaluator (s : Session ε) (number : Nat) (d : Descriptor) (config : EvaluatorConfig) :
    Session ε × Except (Failure ServiceError) Nat :=
  match s.reference? number, s.context? number with
  | some id, some context =>
    match config.validate with
    | .error cause => (s, .error (.error cause))
    | .ok () =>
      if config.context.extent ≠ context.config.extent then
        (s, .error (.error (.invalidConfig
          (.extentDiffers config.context.extent context.config.extent))))
      else
        match d.validate with
        | .error cause => (s, .error (.error (.setup cause)))
        | .ok () =>
          match startServers id d config 0 [] s.registry config.routingIndices with
          | (registry, .error cause) => ({ s with registry := registry }, .error (.error cause))
          | (registry, .ok servers) =>
            let board := context.config.extent
            let evaluator : Evaluator :=
              ⟨true, [], servers, board, d.spatial * board.cells, d.globals, config.batchWait, 0⟩
            ({ s with registry := registry, evaluators := s.evaluators.push (some evaluator) },
              .ok s.evaluators.size)
  | _, _ => (s, .error (.fault .implicit))

/-- Put replies on their tickets. -/
def deliver (s : Session ε) (replies : List (Nat × Reply)) : Session ε :=
  { s with tickets := replies.foldl (fun tickets (number, reply) =>
      tickets.modify number fun ticket => { ticket with reply := reply }) s.tickets }

/-- Put an evaluator back and deliver what it answered. A server that has just
stopped for good lets go of its handle. -/
def settle (s : Session ε) (number : Nat) (before after : Evaluator)
    (replies : List (Nat × Reply)) : Session ε :=
  let stopped := (before.servers.zip after.servers).filterMap fun (old, new) =>
    if old.alive && !new.alive then some new else none
  { (s.deliver replies) with
    registry := closeServers s.registry stopped
    evaluators := s.evaluators.setIfInBounds number (some after) }

/-- Check and queue a request; the next server takes its turn at once. -/
def submit (s : Session ε) (number : Nat) (request : Request) :
    Session ε × Except (Failure ServiceError) Nat :=
  match s.evaluator? number with
  | none => (s, .error (.fault .implicit))
  | some e =>
    match e.check request with
    | .error cause => (s, .error (.error cause))
    | .ok () =>
      let ticket := s.tickets.size
      let s := { s with tickets := s.tickets.push ⟨number, .waiting⟩ }
      let queued := e.enqueue ⟨ticket, request⟩
      let (after, replies) := queued.turn s.registry s.clock
      (s.settle number e after replies, .ok ticket)

/-- Let time pass for an evaluator, one batch wait at a time and at most `fuel`
times, until a ticket has its reply. -/
def passTime (evaluator ticket : Nat) : Nat → Session ε → Session ε
  | 0, s => s
  | fuel + 1, s =>
    match (s.tickets[ticket]?).map Ticket.reply, s.evaluator? evaluator with
    | some .waiting, some e =>
      let s := { s with clock := s.clock + e.batchWait }
      let (after, replies) := e.round s.registry s.clock
      passTime evaluator ticket fuel (s.settle evaluator e after replies)
    | _, _ => s

/-- Rounds after which every waiting job of an evaluator was in a batch. -/
def roundsNeeded (e : Evaluator) : Nat :=
  2 * (e.servers.foldl (fun n server => n + server.pending.length) e.queue.length + 1)

/-- Wait for the reply on a ticket. The reply is taken off the ticket; there is no
second one. -/
def await (s : Session ε) (number : Nat) : Session ε × Reply :=
  match s.tickets[number]? with
  | none => (s, .disconnected)
  | some ticket =>
    let s := match s.evaluator? ticket.evaluator with
      | some e => passTime ticket.evaluator number (roundsNeeded e) s
      | none => s
    let reply := ((s.tickets[number]?).map Ticket.reply).getD .disconnected
    (s.deliver [(number, .disconnected)], reply)

/-- Submit a request and wait for its reply. -/
def evaluate (s : Session ε) (number : Nat) (request : Request) :
    Session ε × Except (Failure ServiceError) Reply :=
  match s.submit number request with
  | (s, .error cause) => (s, .error cause)
  | (s, .ok ticket) =>
    let (s, reply) := s.await ticket
    (s, .ok reply)

/-- Stop the servers of an evaluator: their unfinished batches and the queue are
let go, and their handles are closed. -/
def shutdown (s : Session ε) (number : Nat) : Session ε :=
  match s.evaluator? number with
  | none => s
  | some e =>
    let dropped := (e.servers.flatMap (·.pending)) ++ e.queue
    let s := s.deliver (Server.disconnect dropped)
    { s with
      registry := closeServers s.registry (e.servers.filter (·.alive))
      evaluators := s.evaluators.setIfInBounds number
        (some { e with running := false, queue := [], servers := [] }) }

/-- Shut an evaluator down and forget it. -/
def dropEvaluator (s : Session ε) (number : Nat) : Session ε :=
  let s := s.shutdown number
  { s with evaluators := s.evaluators.setIfInBounds number none }

end Session

end BoardEval
