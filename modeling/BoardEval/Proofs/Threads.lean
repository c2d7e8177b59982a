import BoardEval.Proofs.Serving

/-!
# Serving threads

A serving thread repeats the turns of a server, but other threads act between any two
of its steps. Each of its steps reads or takes at most one thing that is shared: the
flag that the evaluator is running, one job of the queue, or the ticket of one answer.
The call of the engine is a step of its own; it may fail, and nothing is known of it but
that it is row-wise and breaks no promise.

`Effect` collects what any step does: jobs move and none is lost or doubled, what is
answered was answered rightly by a batch, and jobs are let go only after shutdown.
`Conserves` is the part of it that holds of any thread, whatever its engine does.
-/

namespace BoardEval

/-- Where a thread is in its loop. -/
inductive Phase where
  /-- About to read whether the evaluator is running. -/
  | head
  /-- Waiting for a job. -/
  | waiting
  /-- Taking further jobs, at most so many. -/
  | draining (room : Nat)
  /-- About to ask the collector. -/
  | deciding
  /-- In the call of the engine. -/
  | calling
  /-- Sending the answers of a batch. -/
  | sending (unsent : List (Nat × Reply))
  | stopped

/-- The answers that are still to be sent. -/
def Phase.unsent : Phase → List (Nat × Reply)
  | .sending unsent => unsent
  | _ => []

/-- A server with the place that its loop is at. The network is fixed for the whole
run; the engine may answer with its error instead at any call. -/
structure Thread where
  server : Server
  /-- The network that the engine runs for the server's handle. -/
  net : RowNet
  phase : Phase

namespace Thread

/-- The tickets of the jobs in the hands of the thread: pending, or to be answered. -/
def tickets (t : Thread) : List Nat :=
  t.server.pending.map (·.ticket) ++ t.phase.unsent.map (·.1)

/-- What a step gives off: a batch that was run, answers that were sent, jobs that were
let go. -/
structure Output where
  batches : List Batch
  replies : List (Nat × Reply)
  dropped : List Job

/-- Most steps give nothing off. -/
def Output.nothing : Output := ⟨[], [], []⟩

/-- The steps of a thread, from a queue and a thread to the queue and the thread after
it. Waiting for a job may end without one, and the clock may show any time. -/
inductive Step (running : Bool) : List Job → Thread → List Job → Thread → Output → Prop where
  | enter {queue s net} (going : running = true) :
    Step running queue ⟨s, net, .head⟩ queue ⟨s, net, .waiting⟩ .nothing
  | leave {queue s net} (closed : running = false) :
    Step running queue ⟨s, net, .head⟩ queue ⟨{ s with pending := [] }, net, .stopped⟩
      ⟨[], [], s.pending⟩
  | take {job queue s net} :
    Step running (job :: queue) ⟨s, net, .waiting⟩ queue
      ⟨s.receive [job], net, .draining (s.receive [job]).room⟩ .nothing
  | timeout {queue s net} :
    Step running queue ⟨s, net, .waiting⟩ queue ⟨s, net, .draining s.room⟩ .nothing
  | drain {job queue s net room} :
    Step running (job :: queue) ⟨s, net, .draining (room + 1)⟩ queue
      ⟨s.receive [job], net, .draining room⟩ .nothing
  | drained {queue s net room} (now : Nat) (ended : room = 0 ∨ queue = []) :
    Step running queue ⟨s, net, .draining room⟩ queue ⟨s.observe now, net, .deciding⟩ .nothing
  | pass {queue s net} (now : Nat) (unready : s.isReady now = false) :
    Step running queue ⟨s, net, .deciding⟩ queue ⟨s, net, .head⟩ .nothing
  | call {queue s net} (now : Nat) (ready : s.isReady now = true) :
    Step running queue ⟨s, net, .deciding⟩ queue ⟨s, net, .calling⟩ .nothing
  | run {queue s net} (forward : Forward)
    (rowWise : forward.RowWise s.handle.shape s.handle.maxBatchSize net)
    (faultless : forward.Faultless s.handle.shape s.handle.maxBatchSize) :
    Step running queue ⟨s, net, .calling⟩ queue
      ⟨(s.runPending forward).1, net, .sending (s.runPending forward).2⟩
      ⟨[s.batch forward net], [], []⟩
  | send {queue s net reply rest} :
    Step running queue ⟨s, net, .sending (reply :: rest)⟩ queue ⟨s, net, .sending rest⟩
      ⟨[], [reply], []⟩
  | finish {queue s net} :
    Step running queue ⟨s, net, .sending []⟩ queue ⟨s, net, .head⟩ .nothing

/-- Between the queue, the hands of a thread and what it gives off, no ticket is lost or
doubled. -/
def Conserves (queue : List Job) (t : Thread) (queue' : List Job) (t' : Thread)
    (out : Output) : Prop :=
  ∀ n, (queue.map (·.ticket)).count n + t.tickets.count n =
    (queue'.map (·.ticket)).count n + t'.tickets.count n + (out.replies.map (·.1)).count n +
      (out.dropped.map (·.ticket)).count n

section

variable {queue : List Job} {s : Server} {net : RowNet}

/-- Moving on to another part of the loop conserves tickets, as long as no job and
no unsent answer changes hands. -/
theorem Conserves.moved {s' : Server} {before after : Phase} (same : s'.pending = s.pending)
    (nothing : before.unsent = after.unsent) :
    Conserves queue ⟨s, net, before⟩ queue ⟨s', net, after⟩ .nothing := by
  intro n
  simp [Thread.tickets, same, nothing, Output.nothing]

/-- A job that is taken off the queue is in the hands of the thread. -/
theorem Conserves.received {job : Job} {before after : Phase} (idle : before.unsent = [])
    (idle' : after.unsent = []) :
    Conserves (job :: queue) ⟨s, net, before⟩ queue ⟨s.receive [job], net, after⟩ .nothing := by
  intro n
  simp only [Thread.tickets, idle, idle', Output.nothing, Server.receive, List.map_cons,
    List.map_append, List.map_nil, List.count_cons, List.count_append, List.count_nil]
  omega

/-- Stopping lets go of the pending jobs. -/
theorem Conserves.released {s' : Server} {before : Phase} (empty : s'.pending = [])
    (idle : before.unsent = []) :
    Conserves queue ⟨s, net, before⟩ queue ⟨s', net, .stopped⟩ ⟨[], [], s.pending⟩ := by
  intro n
  have silent : Phase.stopped.unsent = [] := rfl
  simp [Thread.tickets, empty, idle, silent]

/-- The jobs of a batch become answers that are to be sent. -/
theorem Conserves.ran (forward : Forward) (batches : List Batch) :
    Conserves queue ⟨s, net, .calling⟩ queue
      ⟨(s.runPending forward).1, net, .sending (s.runPending forward).2⟩ ⟨batches, [], []⟩ := by
  intro n
  simp [Thread.tickets, Phase.unsent, Server.answered_tickets, Server.runPending_pending]

/-- An answer that was sent is out of its hands. -/
theorem Conserves.sent {reply : Nat × Reply} {rest : List (Nat × Reply)} :
    Conserves queue ⟨s, net, .sending (reply :: rest)⟩ queue ⟨s, net, .sending rest⟩
      ⟨[], [reply], []⟩ := by
  intro n
  simp only [Thread.tickets, Phase.unsent, List.map_cons, List.map_nil, List.count_append,
    List.count_cons, List.count_nil]
  omega

end

/-- Every step conserves tickets, whatever is known of the thread. -/
theorem Step.conserves {running : Bool} {queue queue' : List Job} {t t' : Thread} {out : Output}
    (step : Step running queue t queue' t' out) : Conserves queue t queue' t' out := by
  cases step with
  | enter going => exact .moved rfl rfl
  | leave closed => exact .released rfl rfl
  | take => exact .received rfl rfl
  | timeout => exact .moved rfl rfl
  | drain => exact .received rfl rfl
  | drained now ended => exact .moved rfl rfl
  | pass now unready => exact .moved rfl rfl
  | call now ready => exact .moved rfl rfl
  | run forward rowWise faultless => exact .ran forward _
  | send => exact .sent
  | finish => exact .moved rfl rfl

end Thread

/-- A job that was let into the queue: its request was checked and has its ticket. -/
structure Job.Accepted (e : Evaluator) (accepted : List Request) (job : Job) : Prop where
  listed : accepted[job.ticket]? = some job.request
  checked : e.check job.request = .ok ()

/-- An accepted job stays accepted when more requests are. -/
theorem Job.Accepted.later {e : Evaluator} {accepted : List Request} {job : Job}
    (known : job.Accepted e accepted) (more : List Request) :
    job.Accepted e (accepted ++ more) := by
  obtain ⟨inside, _⟩ := List.getElem?_eq_some_iff.mp known.listed
  exact ⟨(List.getElem?_append_left inside).trans known.listed, known.checked⟩

namespace Server

variable {s : Server}

/-- A batch is never run without jobs. -/
theorem ready_nonempty {now : Nat} (ready : s.isReady now = true) : 1 ≤ s.pending.length := by
  apply Nat.one_le_iff_ne_zero.mpr
  intro empty
  simp [isReady, Collector.isReady, empty] at ready

/-- A batch that is not run yet is not full. -/
theorem unready_room {now : Nat} (positive : 1 ≤ s.collector.capacity)
    (unready : s.isReady now = false) : s.pending.length < s.collector.capacity := by
  simp only [isReady, Collector.isReady] at unready
  split at unready
  · omega
  · split at unready
    · exact Bool.noConfusion unready
    · omega

/-- Looking at the clock does not change how many jobs a batch takes. -/
theorem observe_capacity (now : Nat) :
    (s.observe now).collector.capacity = s.collector.capacity := by
  unfold observe Collector.observe
  split <;> rfl

/-- Pending jobs whose requests were checked can be run as a batch, if they are not too
many. -/
theorem admits {e : Evaluator} (positive : 1 ≤ s.pending.length)
    (limit : s.pending.length ≤ s.handle.maxBatchSize)
    (takes : ∀ q, e.check q = .ok () → s.handle.shape.Takes q)
    (checked : ∀ job ∈ s.pending, e.check job.request = .ok ()) :
    s.handle.Admits s.requests := by
  refine ⟨?_, ?_, ?_⟩
  · rw [requests, List.length_map]
    exact positive
  · rw [requests, List.length_map]
    exact limit
  · intro q listed
    obtain ⟨job, member, rfl⟩ := List.mem_map.mp listed
    exact takes job.request (checked job member)

end Server

namespace Thread

/-- How many jobs a thread may hold in each phase. The bound is the capacity of its
batches; where another job may still be taken, it is not reached. -/
def WithinRoom (t : Thread) : Prop :=
  let held := t.server.pending.length
  let capacity := t.server.collector.capacity
  match t.phase with
  | .head => held < capacity
  | .waiting => held < capacity
  | .draining room => held + room ≤ capacity
  | .deciding => held ≤ capacity
  | .calling => 1 ≤ held ∧ held ≤ capacity
  | .sending _ => t.server.pending = []
  | .stopped => t.server.pending = []

/-- A thread may stop taking jobs at any time. -/
theorem observed_withinRoom {s : Server} {net : RowNet} {left : Nat}
    (room : WithinRoom ⟨s, net, .draining left⟩) (now : Nat) :
    WithinRoom ⟨s.observe now, net, .deciding⟩ := by
  have bound : s.pending.length + left ≤ s.collector.capacity := room
  show s.pending.length ≤ (s.observe now).collector.capacity
  rw [Server.observe_capacity]
  omega

/-- Every step stays within the room: a job is taken only where there is room for it, and
only a batch that is not full is kept for another turn. -/
theorem Step.withinRoom {running : Bool} {queue queue' : List Job} {t t' : Thread} {out : Output}
    (step : Step running queue t queue' t' out)
    (positive : 1 ≤ t.server.collector.capacity) (room : t.WithinRoom) : t'.WithinRoom := by
  cases step with
  | enter going => exact room
  | leave closed => rfl
  | take =>
    simp only [WithinRoom, Server.receive, Server.room, Collector.room, List.length_append,
      List.length_singleton] at room ⊢
    omega
  | timeout =>
    simp only [WithinRoom, Server.room, Collector.room] at room ⊢
    omega
  | drain =>
    simp only [WithinRoom, Server.receive, List.length_append, List.length_singleton] at room ⊢
    omega
  | drained now ended => exact observed_withinRoom room now
  | pass now unready => exact Server.unready_room positive unready
  | call now ready => exact ⟨Server.ready_nonempty ready, room⟩
  | run forward rowWise faultless => rfl
  | send => exact room
  | finish =>
    simp only [WithinRoom] at room ⊢
    rw [room]
    exact positive

/-- The invariant of a thread. -/
structure Sound (e : Evaluator) (accepted : List Request) (t : Thread) : Prop where
  owned : t.server.handle.Owns t.server.pool
  fills : t.net.Fills t.server.handle.shape
  capacity : t.server.collector.capacity = t.server.handle.maxBatchSize
  alive : t.server.alive = true
  takes : ∀ q, e.check q = .ok () → t.server.handle.shape.Takes q
  jobs : ∀ job ∈ t.server.pending, job.Accepted e accepted
  room : t.WithinRoom

/-- A thread is not disturbed when more requests are accepted. -/
theorem Sound.later {e : Evaluator} {accepted : List Request} {t : Thread}
    (sound : t.Sound e accepted) (more : List Request) : t.Sound e (accepted ++ more) :=
  { sound with jobs := fun job member => (sound.jobs job member).later more }

/-- What a step of a sound thread does. -/
structure Effect (e : Evaluator) (accepted : List Request) (running : Bool) (queue : List Job)
    (t : Thread) (queue' : List Job) (t' : Thread) (out : Output) : Prop where
  sound : t'.Sound e accepted
  handle : t'.server.handle = t.server.handle
  net : t'.net = t.net
  taken : ∀ job ∈ queue', job ∈ queue
  tickets : ∀ n, (queue.map (·.ticket)).count n + t.tickets.count n =
    (queue'.map (·.ticket)).count n + t'.tickets.count n + (out.replies.map (·.1)).count n +
      (out.dropped.map (·.ticket)).count n
  replies : (t.phase.unsent ++ out.batches.flatMap (·.replies)).Perm
    (out.replies ++ t'.phase.unsent)
  batches : ∀ b ∈ out.batches, b.Right ∧ b.handle = t.server.handle ∧ b.net = t.net ∧
    ∀ job ∈ b.jobs, job.Accepted e accepted
  dropped : out.dropped ≠ [] → running = false

section

variable {e : Evaluator} {accepted : List Request} {running : Bool} {queue : List Job}
  {s : Server} {net : RowNet}

/-- A step that only moves on in the loop. -/
theorem Effect.moved {before after : Phase} (sound : Sound e accepted ⟨s, net, before⟩)
    (nothing : before.unsent = after.unsent)
    (room : WithinRoom ⟨s, net, after⟩) :
    Effect e accepted running queue ⟨s, net, before⟩ queue ⟨s, net, after⟩ .nothing where
  sound := { sound with room := room }
  handle := rfl
  net := rfl
  taken _ member := member
  tickets := Conserves.moved rfl nothing
  replies := by simp [nothing, Output.nothing]
  batches := by simp [Output.nothing]
  dropped := by simp [Output.nothing]

/-- A step that takes the first job of the queue. -/
theorem Effect.received {job : Job} {before after : Phase}
    (sound : Sound e accepted ⟨s, net, before⟩) (known : job.Accepted e accepted)
    (idle : before.unsent = []) (idle' : after.unsent = [])
    (room : WithinRoom ⟨s.receive [job], net, after⟩) :
    Effect e accepted running (job :: queue) ⟨s, net, before⟩ queue
      ⟨s.receive [job], net, after⟩ .nothing where
  sound := { sound with
    jobs := by
      intro other member
      rcases List.mem_append.mp member with old | new
      · exact sound.jobs other old
      · obtain rfl := List.mem_singleton.mp new
        exact known
    room := room }
  handle := rfl
  net := rfl
  taken _ member := List.mem_cons_of_mem _ member
  tickets := Conserves.received idle idle'
  replies := by simp [idle, idle', Output.nothing]
  batches := by simp [Output.nothing]
  dropped := by simp [Output.nothing]

/-- Leaving the loop lets the pending jobs go. -/
theorem Effect.left (sound : Sound e accepted ⟨s, net, .head⟩) (closed : running = false) :
    Effect e accepted running queue ⟨s, net, .head⟩ queue
      ⟨{ s with pending := [] }, net, .stopped⟩ ⟨[], [], s.pending⟩ where
  sound := { sound with
    jobs := fun _ member => nomatch member
    room := rfl }
  handle := rfl
  net := rfl
  taken _ member := member
  tickets := Conserves.released rfl rfl
  replies := by simp [Phase.unsent]
  batches := by simp
  dropped _ := closed

/-- Observing and asking the collector changes no job. -/
theorem Effect.observed {room : Nat} (sound : Sound e accepted ⟨s, net, .draining room⟩)
    (now : Nat) :
    Effect e accepted running queue ⟨s, net, .draining room⟩ queue
      ⟨s.observe now, net, .deciding⟩ .nothing where
  sound := { sound with
    capacity := (Server.observe_capacity now).trans sound.capacity
    room := observed_withinRoom sound.room now }
  handle := rfl
  net := rfl
  taken _ member := member
  tickets := Conserves.moved rfl rfl
  replies := by simp [Phase.unsent, Output.nothing]
  batches := by simp [Output.nothing]
  dropped := by simp [Output.nothing]

/-- The batch of a thread that calls the engine keeps its contract. -/
theorem Sound.admitted (sound : Sound e accepted ⟨s, net, .calling⟩) :
    s.handle.Admits s.requests := by
  obtain ⟨positive, limit⟩ :
      1 ≤ s.pending.length ∧ s.pending.length ≤ s.collector.capacity := sound.room
  exact Server.admits positive (sound.capacity ▸ limit) sound.takes
    fun job member => (sound.jobs job member).checked

/-- Running a batch turns its jobs into answers that are to be sent. -/
theorem Effect.ran (sound : Sound e accepted ⟨s, net, .calling⟩) {forward : Forward}
    (rowWise : forward.RowWise s.handle.shape s.handle.maxBatchSize net)
    (faultless : forward.Faultless s.handle.shape s.handle.maxBatchSize) :
    Effect e accepted running queue ⟨s, net, .calling⟩ queue
      ⟨(s.runPending forward).1, net, .sending (s.runPending forward).2⟩
      ⟨[s.batch forward net], [], []⟩ := by
  obtain ⟨right, alive⟩ :=
    Server.runPending_right sound.owned sound.admitted rowWise faultless
  constructor
  case sound =>
    exact { sound with
      owned := Server.runPending_owns sound.owned forward
      alive := alive.trans sound.alive
      jobs := fun _ member => nomatch member
      room := rfl }
  case handle => rfl
  case net => rfl
  case taken => exact fun _ member => member
  case tickets => exact Conserves.ran forward _
  case replies => simp [Phase.unsent, Server.batch]
  case batches =>
    intro b member
    obtain rfl := List.mem_singleton.mp member
    exact ⟨right, rfl, rfl, sound.jobs⟩
  case dropped => simp

/-- Sending an answer takes it off the list. -/
theorem Effect.sent {reply : Nat × Reply} {rest : List (Nat × Reply)}
    (sound : Sound e accepted ⟨s, net, .sending (reply :: rest)⟩) :
    Effect e accepted running queue ⟨s, net, .sending (reply :: rest)⟩ queue
      ⟨s, net, .sending rest⟩ ⟨[], [reply], []⟩ where
  sound := { sound with room := sound.room }
  handle := rfl
  net := rfl
  taken _ member := member
  tickets := Conserves.sent
  replies := by simp [Phase.unsent]
  batches := by simp
  dropped := by simp

/-- Every step of a sound thread has such an effect. -/
theorem Step.effect {t t' : Thread} {queue' : List Job} {out : Output}
    (step : Step running queue t queue' t' out) (sound : t.Sound e accepted)
    (known : ∀ job ∈ queue, job.Accepted e accepted) :
    Effect e accepted running queue t queue' t' out := by
  have positive : 1 ≤ t.server.collector.capacity :=
    sound.capacity ▸ sound.owned.fitted.positive
  have room := step.withinRoom positive sound.room
  cases step with
  | enter going => exact .moved sound rfl room
  | leave closed => exact .left sound closed
  | take => exact .received sound (known _ List.mem_cons_self) rfl rfl room
  | timeout => exact .moved sound rfl room
  | drain => exact .received sound (known _ List.mem_cons_self) rfl rfl room
  | drained now ended => exact .observed sound now
  | pass now unready => exact .moved sound rfl room
  | call now ready => exact .moved sound rfl room
  | run forward rowWise faultless => exact .ran sound rowWise faultless
  | send => exact .sent sound
  | finish => exact .moved sound rfl room

end

end Thread

end BoardEval
