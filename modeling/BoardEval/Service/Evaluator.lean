import BoardEval.Service.Collector
import BoardEval.Service.Dispatch

/-!
# Queued evaluators

An evaluator owns one queue of checked requests and a number of servers. Each
server has a handle and a pool of its own and repeats one turn: take a job off
the queue, or none if there is none, take as many more as its batch has room
for, and run the batch if the collector says so. Every job is answered with the
evaluation of its own request, with the failure of its batch, or by being let
go, which its submitter notices.
-/

namespace BoardEval

/-- A queued request and the ticket that its answer goes to. -/
structure Job where
  ticket : Nat
  request : Request
  deriving DecidableEq

/-- What a submitter sees on a ticket. -/
inductive Reply where
  | waiting
  | answered (result : Except ServiceError Evaluation)
  /-- The job was let go; no answer will come. -/
  | disconnected

/-- What one thread of an evaluator owns: the handle through which it runs batches,
the storage for them and the batch that it fills. -/
structure Server where
  handle : Handle
  pool : Pool
  collector : Collector
  /-- The batch that is being filled, oldest job first. -/
  pending : List Job
  /-- A server that broke a contract has stopped for good. -/
  alive : Bool

namespace Server

/-- Let jobs go. -/
def disconnect (jobs : List Job) : List (Nat × Reply) :=
  jobs.map fun job => (job.ticket, .disconnected)

/-- Answer the jobs of a batch from how it ended. -/
def answers (jobs : List Job) (run : Execution) : List (Nat × Reply) :=
  match run.result with
  | .ok () => jobs.zipWith (fun job out => (job.ticket, .answered (.ok out))) run.outputs
  | .error (.error cause) =>
    jobs.map fun job => (job.ticket, .answered (.error (.batchFailed cause)))
  | .error (.fault _) => disconnect jobs

/-- Run the pending jobs as one batch. -/
def runPending (forward : Forward) (s : Server) : Server × List (Nat × Reply) :=
  let requests := s.pending.map (·.request)
  let run := s.handle.executeBy forward s.pool requests (requests.map Evaluation.forRequest)
  let alive := match run.result with
    | .error (.fault _) => false
    | _ => s.alive
  ({ s with pool := run.pool, pending := [], alive := alive, collector := s.collector.close },
    answers s.pending run)

/-- Put received jobs into the batch that is being filled. -/
def receive (s : Server) (jobs : List Job) : Server := { s with pending := s.pending ++ jobs }

/-- Room left in the batch. -/
def room (s : Server) : Nat := s.collector.room s.pending.length

/-- Take one job if there is one, and then as many as there is room for. -/
def take (s : Server) (queue : List Job) : Server × List Job :=
  let s := s.receive (queue.take 1)
  let queue := queue.drop 1
  (s.receive (queue.take s.room), queue.drop s.room)

/-- Let the collector take note of the batch at time `now`. -/
def observe (s : Server) (now : Nat) : Server :=
  { s with collector := s.collector.observe s.pending.length now }

/-- Whether the batch is to be run at time `now`. -/
def isReady (s : Server) (now : Nat) : Bool := s.collector.isReady s.pending.length now

/-- One turn of the serving loop at time `now`. -/
def turn {ε : Type} [Engine ε] (engine : ε) (now : Nat) (s : Server) (queue : List Job) :
    Server × List Job × List (Nat × Reply) :=
  let (s, queue) := s.take queue
  let s := s.observe now
  if s.isReady now then
    let (s, replies) := s.runPending (s.handle.forward engine)
    (s, queue, replies)
  else (s, queue, [])

end Server

/-- The shared part of an evaluator and its servers. A shut-down evaluator keeps its
queue: jobs may still be added to it, and nobody takes them. -/
structure Evaluator where
  running : Bool
  queue : List Job
  servers : List Server
  board : Extent
  spatialLength : Nat
  globalLength : Nat
  /-- How long a partial batch waits. -/
  batchWait : Nat
  /-- The server whose turn is next. -/
  next : Nat

namespace Evaluator

/-- Refuse a request that a server could not run. -/
def check (e : Evaluator) (request : Request) : Except ServiceError Unit :=
  if request.extent ≠ e.board then
    .error (.invalidConfig (.requestExtent request.extent e.board))
  else if request.spatial.size ≠ e.spatialLength ∨ request.globals.size ≠ e.globalLength then
    .error (.invalidConfig (.requestTensors request.spatial.size request.globals.size
      e.spatialLength e.globalLength))
  else .ok ()

/-- Queue a request that was checked. -/
def enqueue (e : Evaluator) (job : Job) : Evaluator := { e with queue := e.queue ++ [job] }

variable {ε : Type} [Engine ε]

/-- One turn of server number `i` at time `now`. A server that has stopped, or
whose engine is unknown, lets its turn pass. -/
def turnOf (e : Evaluator) (r : Registry ε) (i now : Nat) : Evaluator × List (Nat × Reply) :=
  match e.servers[i]? with
  | none => (e, [])
  | some s =>
    match r.engines[s.handle.engine]? with
    | none => (e, [])
    | some engine =>
      if s.alive then
        let (s, queue, replies) := s.turn engine now e.queue
        ({ e with servers := e.servers.set i s, queue := queue }, replies)
      else (e, [])

/-- The turn of the next server, in rotation. -/
def turn (e : Evaluator) (r : Registry ε) (now : Nat) : Evaluator × List (Nat × Reply) :=
  let (e', replies) := e.turnOf r e.next now
  ({ e' with next := if e.next + 1 < e.servers.length then e.next + 1 else 0 }, replies)

/-- A turn of every server, in rotation. -/
def round (e : Evaluator) (r : Registry ε) (now : Nat) : Evaluator × List (Nat × Reply) :=
  (List.range e.servers.length).foldl (fun (e, replies) _ =>
    let (e, more) := e.turn r now
    (e, replies ++ more)) (e, [])

/-- Number of servers that were started and not yet stopped. -/
def serverCount (e : Evaluator) : Nat := e.servers.length

end Evaluator

end BoardEval
