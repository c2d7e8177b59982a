import BoardEval.Proofs.Threads

/-!
# Interleavings of an evaluator

An evaluator at work: submitters, one queue and any number of serving threads, whose
steps interleave freely, and a shutdown that may come at any moment. Beside what the
evaluator holds, a world remembers the accepted requests, whose numbers are the tickets
of their jobs, and logs the batches that were run, the answers that were sent and the
jobs that were let go.

The queue of an evaluator has a bound, which only makes submitters wait; the worlds
have none, so they include every run with a bound. What is proved is an invariant of
single steps and holds after any number of them.
-/

namespace BoardEval

/-- An evaluator with its threads, in between two steps of any of them, and what has
happened so far: the requests that were accepted, the batches that were run, the
replies that were sent and the jobs that were dropped. -/
structure World where
  /-- The evaluator as it was started: what requests are checked for. -/
  evaluator : Evaluator
  running : Bool
  queue : List Job
  threads : List Thread
  accepted : List Request
  batches : List Batch
  replies : List (Nat × Reply)
  dropped : List Job

/-- An evaluator that has just started: nothing is queued or pending, and every server
has a pool of its handle, for the board and the lengths that requests are checked
for. -/
structure Evaluator.Started (e : Evaluator) : Prop where
  running : e.running = true
  queue : e.queue = []
  pools : ∀ s ∈ e.servers, s.handle.Owns s.pool
  pending : ∀ s ∈ e.servers, s.pending = [] ∧ s.alive = true
  capacity : ∀ s ∈ e.servers, s.collector.capacity = s.handle.maxBatchSize
  lengths : ∀ s ∈ e.servers, s.handle.shape.board = e.board ∧
    s.handle.shape.denseSpatial = e.spatialLength ∧ s.handle.shape.globals = e.globalLength

/-- What an evaluator that has just started lets into the queue fits its handles. -/
theorem Evaluator.Started.takes {e : Evaluator} (started : e.Started) {s : Server}
    (listed : s ∈ e.servers) {q : Request} (checked : e.check q = .ok ()) :
    s.handle.shape.Takes q := by
  obtain ⟨board, spatial, globals⟩ := started.lengths s listed
  obtain ⟨extent, spatial', globals'⟩ := (e.check_ok_iff q).mp checked
  exact ⟨extent.trans board.symm, spatial'.trans spatial.symm, globals'.trans globals.symm⟩

namespace World

/-- The world of an evaluator whose servers run the given networks. -/
def start (e : Evaluator) (nets : Nat → RowNet) : World where
  evaluator := e
  running := e.running
  queue := e.queue
  threads := e.servers.mapIdx fun i s => ⟨s, nets i, .head⟩
  accepted := []
  batches := []
  replies := []
  dropped := []

/-- The steps of a world: a request is accepted, the evaluator is shut down, a thread
takes a step, or, once all threads have stopped after a shutdown, a queued job is let
go. -/
inductive Step : World → World → Prop where
  | submit {w : World} (request : Request) (checked : w.evaluator.check request = .ok ()) :
    Step w { w with
      queue := w.queue ++ [⟨w.accepted.length, request⟩]
      accepted := w.accepted ++ [request] }
  | shutdown {w : World} : Step w { w with running := false }
  | thread {w : World} {front back : List Thread} {t t' : Thread} {queue : List Job}
    {out : Thread.Output} (here : w.threads = front ++ t :: back)
    (step : t.Step w.running w.queue queue t' out) :
    Step w { w with
      queue := queue
      threads := front ++ t' :: back
      batches := w.batches ++ out.batches
      replies := w.replies ++ out.replies
      dropped := w.dropped ++ out.dropped }
  | discard {w : World} {job : Job} {rest : List Job} (closed : w.running = false)
    (stopped : ∀ t ∈ w.threads, t.phase = .stopped) (first : w.queue = job :: rest) :
    Step w { w with queue := rest, dropped := w.dropped ++ [job] }

/-- The worlds that an evaluator can come to. -/
inductive Reachable (e : Evaluator) (nets : Nat → RowNet) : World → Prop where
  | start : Reachable e nets (start e nets)
  | step {w w' : World} (reached : Reachable e nets w) (step : Step w w') : Reachable e nets w'

/-- The tickets in all places that a job can be in: the queue, the hands of a thread,
the answers that were sent, and the jobs that were let go. -/
def tickets (w : World) : List Nat :=
  w.queue.map (·.ticket) ++ w.threads.flatMap (·.tickets) ++ w.replies.map (·.1) ++
    w.dropped.map (·.ticket)

/-- The answers that threads have yet to send. -/
def unsent (w : World) : List (Nat × Reply) := w.threads.flatMap (·.phase.unsent)

/-- The invariant of a world. -/
structure Sound (w : World) : Prop where
  threads : ∀ t ∈ w.threads, t.Sound w.evaluator w.accepted
  queue : ∀ job ∈ w.queue, job.Accepted w.evaluator w.accepted
  tickets : w.tickets.Perm (List.range w.accepted.length)
  replies : (w.replies ++ w.unsent).Perm (w.batches.flatMap (·.replies))
  batches : ∀ b ∈ w.batches, b.Right ∧
    (∃ t ∈ w.threads, t.server.handle = b.handle ∧ t.net = b.net) ∧
    ∀ job ∈ b.jobs, job.Accepted w.evaluator w.accepted
  dropped : w.dropped ≠ [] → w.running = false

/-- A thread that has just started is sound. -/
theorem started_thread_sound {e : Evaluator} (started : e.Started) {s : Server}
    (listed : s ∈ e.servers) {net : RowNet} (full : net.Fills s.handle.shape) :
    Thread.Sound e [] ⟨s, net, .head⟩ := by
  obtain ⟨empty, alive⟩ := started.pending s listed
  have owned := started.pools s listed
  have capacity := started.capacity s listed
  refine ⟨owned, full, capacity, alive, fun q => started.takes listed, ?_, ?_⟩
  · rw [empty]
    exact fun _ member => nomatch member
  · simp only [Thread.WithinRoom, empty, capacity]
    exact owned.fitted.positive

/-- The first threads are those of the servers, about to enter their loops. -/
theorem mem_start {e : Evaluator} {nets : Nat → RowNet} {t : Thread}
    (member : t ∈ (start e nets).threads) :
    ∃ i s, e.servers[i]? = some s ∧ t = ⟨s, nets i, .head⟩ := by
  obtain ⟨i, inside, rfl⟩ := List.mem_mapIdx.mp member
  exact ⟨i, _, List.getElem?_eq_getElem inside, rfl⟩

/-- There are no tickets at the start. -/
theorem start_tickets {e : Evaluator} (started : e.Started) (nets : Nat → RowNet) :
    (start e nets).tickets = [] := by
  have idle : (start e nets).threads.flatMap (·.tickets) = [] := by
    rw [List.flatMap_eq_nil_iff]
    intro t member
    obtain ⟨i, s, listed, rfl⟩ := mem_start member
    simp [Thread.tickets, Phase.unsent, (started.pending s (List.mem_of_getElem? listed)).1]
  have queue : (start e nets).queue = [] := started.queue
  rw [tickets, idle, queue]
  rfl

/-- A started evaluator is sound before the first step: nothing was accepted, and
every thread is fresh. -/
theorem start_sound {e : Evaluator} {nets : Nat → RowNet} (started : e.Started)
    (fills : ∀ (i : Nat) s, e.servers[i]? = some s → (nets i).Fills s.handle.shape) :
    (start e nets).Sound := by
  have silent : (start e nets).unsent = [] := by
    rw [unsent, List.flatMap_eq_nil_iff]
    intro t member
    obtain ⟨_, _, _, rfl⟩ := mem_start member
    rfl
  constructor
  case threads =>
    intro t member
    obtain ⟨i, s, listed, rfl⟩ := mem_start member
    exact started_thread_sound started (List.mem_of_getElem? listed) (fills i s listed)
  case queue =>
    intro job member
    have queued : job ∈ e.queue := member
    rw [started.queue] at queued
    exact absurd queued List.not_mem_nil
  case tickets =>
    rw [start_tickets started]
    exact .refl _
  case replies =>
    rw [silent]
    exact .refl _
  case batches => exact fun _ member => absurd member List.not_mem_nil
  case dropped => exact fun some => absurd rfl some

section

variable {w : World}

/-- Accepting a request puts its ticket, the next one, into the queue. -/
theorem submit_tickets (tickets : w.tickets.Perm (List.range w.accepted.length))
    (request : Request) :
    World.tickets { w with
      queue := w.queue ++ [⟨w.accepted.length, request⟩]
      accepted := w.accepted ++ [request] } |>.Perm
        (List.range (w.accepted ++ [request]).length) := by
  rw [List.perm_iff_count]
  intro n
  have before := tickets.count_eq n
  simp only [World.tickets, List.count_append, List.map_append, List.map_cons, List.map_nil,
    List.length_append, List.length_singleton, List.range_succ] at before ⊢
  omega

/-- Exchanging one thread conserves the tickets of the world as that thread conserves its
own. -/
theorem thread_tickets {front back : List Thread} {t t' : Thread} {queue : List Job}
    {out : Thread.Output} (here : w.threads = front ++ t :: back)
    (conserves : t.Conserves w.queue queue t' out) :
    World.tickets { w with
      queue := queue
      threads := front ++ t' :: back
      batches := w.batches ++ out.batches
      replies := w.replies ++ out.replies
      dropped := w.dropped ++ out.dropped } |>.Perm w.tickets := by
  rw [List.perm_iff_count]
  intro n
  have moved := conserves n
  simp only [World.tickets, here, List.count_append, List.map_append, List.flatMap_append,
    List.flatMap_cons]
  omega

/-- Letting go of a queued job moves its ticket. -/
theorem discard_tickets {job : Job} {rest : List Job} (first : w.queue = job :: rest) :
    (World.tickets { w with queue := rest, dropped := w.dropped ++ [job] }).Perm
      w.tickets := by
  rw [List.perm_iff_count]
  intro n
  simp only [World.tickets, first, List.count_append, List.map_append, List.map_cons,
    List.map_nil, List.count_cons, List.count_nil]
  omega

/-- Accepting a checked request keeps a world sound: its ticket is the next number,
and its job waits in the queue. -/
theorem submit_sound (sound : w.Sound) {request : Request}
    (checked : w.evaluator.check request = .ok ()) :
    Sound { w with
      queue := w.queue ++ [⟨w.accepted.length, request⟩]
      accepted := w.accepted ++ [request] } where
  threads t member := (sound.threads t member).later _
  queue := by
    intro job member
    rcases List.mem_append.mp member with old | new
    · exact (sound.queue job old).later _
    · obtain rfl := List.mem_singleton.mp new
      exact ⟨by simp, checked⟩
  tickets := submit_tickets sound.tickets request
  replies := sound.replies
  batches := by
    intro b member
    obtain ⟨right, served, jobs⟩ := sound.batches b member
    exact ⟨right, served, fun job listed => (jobs job listed).later _⟩
  dropped := sound.dropped

/-- When one thread is exchanged for another, the others stay. -/
theorem mem_exchanged {front back : List Thread} {t t' other : Thread}
    (member : other ∈ front ++ t :: back) : other = t ∨ other ∈ front ++ t' :: back := by
  rcases List.mem_append.mp member with before | after
  · exact .inr (List.mem_append_left _ before)
  · rcases List.mem_cons.mp after with same | behind
    · exact .inl same
    · exact .inr (List.mem_append_right _ (List.mem_cons_of_mem _ behind))

/-- A step of a thread moves tickets and answers as its effect says; the other threads
are as they were.

Proof: the effect of a step says what moved between the queue, the hands of the thread
and what it gives off. Tickets and replies are counted on both sides of that step;
batches, servers and networks of the other threads are the old ones. -/
theorem thread_sound (sound : w.Sound) {front back : List Thread} {t t' : Thread}
    {queue : List Job} {out : Thread.Output} (here : w.threads = front ++ t :: back)
    (step : t.Step w.running w.queue queue t' out) :
    Sound { w with
      queue := queue
      threads := front ++ t' :: back
      batches := w.batches ++ out.batches
      replies := w.replies ++ out.replies
      dropped := w.dropped ++ out.dropped } := by
  have threads := sound.threads
  rw [here] at threads
  have effect := step.effect (threads t (by simp)) sound.queue
  constructor
  case threads =>
    intro other member
    rcases mem_exchanged member with rfl | old
    · exact effect.sound
    · exact threads other old
  case queue => exact fun job member => sound.queue job (effect.taken job member)
  case tickets => exact (thread_tickets here effect.tickets).trans sound.tickets
  case replies =>
    classical
    rw [List.perm_iff_count]
    intro reply
    have before := sound.replies.count_eq reply
    have moved := effect.replies.count_eq reply
    simp only [unsent, here, List.count_append, List.flatMap_append, List.flatMap_cons]
      at before moved ⊢
    omega
  case batches =>
    intro b member
    rcases List.mem_append.mp member with old | new
    · obtain ⟨right, ⟨server, listed, same⟩, jobs⟩ := sound.batches b old
      refine ⟨right, ?_, jobs⟩
      rw [here] at listed
      rcases mem_exchanged listed with rfl | other
      · exact ⟨t', by simp, effect.handle.trans same.1, effect.net.trans same.2⟩
      · exact ⟨server, other, same⟩
    · obtain ⟨right, handle, net, jobs⟩ := effect.batches b new
      exact ⟨right, ⟨t', by simp, effect.handle.trans handle.symm, effect.net.trans net.symm⟩,
        jobs⟩
  case dropped =>
    intro some
    by_cases old : w.dropped = []
    · have new : out.dropped ≠ [] := by
        intro none
        exact some (by rw [old, none]; rfl)
      exact effect.dropped new
    · exact sound.dropped old

/-- Every step keeps a world sound. -/
theorem step_sound {w' : World} (sound : w.Sound) (step : Step w w') : w'.Sound := by
  cases step with
  | submit request checked => exact submit_sound sound checked
  | shutdown => exact { sound with dropped := fun _ => rfl }
  | thread here step => exact thread_sound sound here step
  | discard closed stopped first =>
    refine { sound with queue := ?_, tickets := ?_, dropped := fun _ => closed }
    · intro job member
      exact sound.queue job (first ▸ List.mem_cons_of_mem _ member)
    · exact (discard_tickets first).trans sound.tickets

end

/-- A thread of an evaluator may take a step whatever the others are at. -/
theorem Reachable.act {e : Evaluator} {nets : Nat → RowNet} {w : World}
    {front back : List Thread} {t t' : Thread} {queue : List Job} {out : Thread.Output}
    (reached : Reachable e nets w) (here : w.threads = front ++ t :: back)
    (step : t.Step w.running w.queue queue t' out) :
    Reachable e nets { w with
      queue := queue
      threads := front ++ t' :: back
      batches := w.batches ++ out.batches
      replies := w.replies ++ out.replies
      dropped := w.dropped ++ out.dropped } :=
  reached.step (.thread here step)

/-- Every world that a started evaluator can come to is sound. -/
theorem Reachable.sound {e : Evaluator} {nets : Nat → RowNet} {w : World}
    (reached : Reachable e nets w) (started : e.Started)
    (fills : ∀ (i : Nat) s, e.servers[i]? = some s → (nets i).Fills s.handle.shape) :
    w.Sound := by
  induction reached with
  | start => exact start_sound started fills
  | step _ step sound => exact step_sound sound step

/-- Unsent answers are in the hands of their threads. -/
theorem unsent_held (threads : List Thread) (n : Nat) :
    ((threads.flatMap (·.phase.unsent)).map (·.1)).count n ≤
      (threads.flatMap (·.tickets)).count n := by
  induction threads with
  | nil => exact Nat.le_refl 0
  | cons t rest inductionHypothesis =>
    simp only [List.flatMap_cons, List.map_append, List.count_append, Thread.tickets]
    simp only [Thread.tickets] at inductionHypothesis
    omega

section

variable {w : World} (sound : w.Sound)
include sound

/-- An answer comes from a batch that was run. -/
theorem Sound.from_batch {answer : Nat × Reply} (sent : answer ∈ w.replies) :
    ∃ b ∈ w.batches, answer ∈ b.replies :=
  List.mem_flatMap.mp (sound.replies.mem_iff.mp (List.mem_append_left _ sent))

/-- No job is in two batches. -/
theorem Sound.batches_apart : ((w.batches.flatMap (·.jobs)).map (·.ticket)).Nodup := by
  -- The answers of all batches are sent or unsent, so their tickets lie in two of the
  -- places of the world, and no ticket is there twice.
  have answers : w.batches.flatMap (fun b => b.jobs.map (·.ticket)) =
      w.batches.flatMap fun b => b.replies.map (·.1) := by
    unfold List.flatMap
    rw [List.map_congr_left fun b member => ((sound.batches b member).1.tickets).symm]
  have places := sound.replies.map (·.1)
  rw [List.map_flatMap, ← answers, List.map_append] at places
  rw [List.map_flatMap, List.nodup_iff_count]
  intro n
  have once : w.tickets.count n ≤ 1 := by
    have nodup := sound.tickets.nodup_iff.mpr List.nodup_range
    exact List.nodup_iff_count.mp nodup n
  have held := unsent_held w.threads n
  have both := places.count_eq n
  simp only [World.tickets, World.unsent, List.count_append] at once held both
  omega

/-- Each job of a batch whose call failed is answered with that failure, or will be as
soon as its thread gets there. -/
theorem Sound.failure_answered {b : Batch} (member : b ∈ w.batches) {cause : EngineError}
    (call : b.call = .error (.error cause)) {job : Job} (listed : job ∈ b.jobs) :
    Batch.failed cause job ∈ w.replies ++ w.unsent := by
  have right := (sound.batches b member).1
  simp only [Batch.Right, call] at right
  apply sound.replies.mem_iff.mpr
  apply List.mem_flatMap.mpr
  exact ⟨b, member, right ▸ List.mem_map.mpr ⟨job, listed, rfl⟩⟩

/-- An evaluation that was sent is what the serving handle computes for that request
alone. -/
theorem Sound.evaluated_alone {b : Batch} (member : b ∈ w.batches) {job : Job}
    (listed : job ∈ b.jobs) {e : Evaluation} (answer : b.handle.Answer b.net job.request e) :
    w.accepted[job.ticket]? = some job.request ∧ b.handle.Alone b.net job.request e := by
  obtain ⟨_, ⟨t, thread, handle, net⟩, jobs⟩ := sound.batches b member
  obtain ⟨accepted, checked⟩ := jobs job listed
  have served := sound.threads t thread
  have full : b.net.Fills b.handle.shape := handle ▸ net ▸ served.fills
  have admitted : b.handle.Admits [job.request] := by
    refine ⟨Nat.le_refl 1, handle ▸ served.owned.fitted.positive, ?_⟩
    intro q single
    obtain rfl := List.mem_singleton.mp single
    exact handle ▸ served.takes _ checked
  exact ⟨accepted, answer.alone full admitted⟩

end

/-! ## A run of two threads -/

/-- An idle server for the tiny handle. -/
def tinyServer : Server := ⟨.tiny, .blank Handle.tiny.shape "tiny" 2, .new 2 0, [], true⟩

/-- An evaluator with that server. -/
def tinyEvaluator : Evaluator where
  running := true
  queue := []
  servers := [tinyServer]
  board := ⟨3, 2⟩
  spatialLength := 132
  globalLength := 19
  batchWait := 0
  next := 0

/-- However many such servers there are, the evaluator may start. -/
theorem tiny_started {servers : List Server} (same : ∀ s ∈ servers, s = tinyServer) :
    Evaluator.Started { tinyEvaluator with servers := servers } := by
  refine ⟨rfl, rfl, ?_, ?_, ?_, ?_⟩
  · intro s member
    rw [same s member]
    exact Handle.tiny_owns
  · intro s member
    rw [same s member]
    exact ⟨rfl, rfl⟩
  · intro s member
    rw [same s member]
    rfl
  · intro s member
    rw [same s member]
    exact ⟨rfl, rfl, rfl⟩

/-- So it may with one. -/
theorem tinyEvaluator_started : tinyEvaluator.Started :=
  tiny_started fun _ member => List.mem_singleton.mp member

/-- It accepts the tiny requests. -/
theorem tinyEvaluator_checks {optimism : Number.Double} :
    tinyEvaluator.check (.tiny optimism) = .ok () :=
  (Evaluator.check_ok_iff _ _).mpr ⟨rfl, Tensor.size_zeros _, Tensor.size_zeros _⟩

/-- An evaluator with two of these servers. -/
def tinyPair : Evaluator := { tinyEvaluator with servers := [tinyServer, tinyServer] }

/-- The pair may start too. -/
theorem tinyPair_started : tinyPair.Started :=
  tiny_started fun _ member => List.eq_of_mem_replicate (n := 2) member

/-- It accepts what either of its servers alone would be given. -/
theorem tinyPair_checks {optimism : Number.Double} : tinyPair.check (.tiny optimism) = .ok () :=
  tinyEvaluator_checks

/-- A thread may send all answers that it has, one after the other. -/
theorem Reachable.sends {e : Evaluator} {nets : Nat → RowNet} {w : World}
    {front back : List Thread} {s : Server} {net : RowNet} {unsent : List (Nat × Reply)}
    (reached : Reachable e nets w)
    (here : w.threads = front ++ ⟨s, net, .sending unsent⟩ :: back) :
    Reachable e nets { w with
      threads := front ++ ⟨s, net, .sending []⟩ :: back
      replies := w.replies ++ unsent } := by
  induction unsent generalizing w with
  | nil =>
    rw [List.append_nil, ← here]
    exact reached
  | cons reply rest inductionHypothesis =>
    have sent := inductionHypothesis (reached.act here .send) rfl
    simpa only [List.append_assoc, List.append_nil, List.singleton_append] using sent

section

variable {e : Evaluator} {nets : Nat → RowNet} {w : World} {t t' other : Thread} {queue : List Job}
  {out : Thread.Output} (reached : Reachable e nets w)
include reached

/-- A step of the first of two threads. -/
theorem Reachable.first (here : w.threads = [t, other])
    (step : t.Step w.running w.queue queue t' out) :
    Reachable e nets { w with
      queue := queue
      threads := [t', other]
      batches := w.batches ++ out.batches
      replies := w.replies ++ out.replies
      dropped := w.dropped ++ out.dropped } :=
  reached.act (show w.threads = [] ++ t :: [other] from here) step

/-- A step of the second of two threads. -/
theorem Reachable.second (here : w.threads = [other, t])
    (step : t.Step w.running w.queue queue t' out) :
    Reachable e nets { w with
      queue := queue
      threads := [other, t']
      batches := w.batches ++ out.batches
      replies := w.replies ++ out.replies
      dropped := w.dropped ++ out.dropped } :=
  reached.act (show w.threads = [other] ++ t :: [] from here) step

variable {s : Server} {net : RowNet} {unsent : List (Nat × Reply)}

/-- The first of two threads sends its answers. -/
theorem Reachable.firstSends (here : w.threads = [⟨s, net, .sending unsent⟩, other]) :
    Reachable e nets { w with
      threads := [⟨s, net, .sending []⟩, other]
      replies := w.replies ++ unsent } :=
  reached.sends (show w.threads = [] ++ ⟨s, net, .sending unsent⟩ :: [other] from here)

/-- The second of two threads sends its answers. -/
theorem Reachable.secondSends (here : w.threads = [other, ⟨s, net, .sending unsent⟩]) :
    Reachable e nets { w with
      threads := [other, ⟨s, net, .sending []⟩]
      replies := w.replies ++ unsent } :=
  reached.sends (show w.threads = [other] ++ ⟨s, net, .sending unsent⟩ :: [] from here)

end

/-- The first server of the pair with the two jobs that it takes. -/
def tinyFull : Server :=
  ((tinyServer.receive [⟨0, .tiny .zero⟩]).receive [⟨1, .tiny .one⟩]).observe 0

/-- The second one with the job that is left. -/
def tinyHalf : Server := (tinyServer.receive [⟨2, .tiny .zero⟩]).observe 0

/-- The network of both. -/
def tinyNet : RowNet := .echo Handle.tiny.shape

/-- Both threads call the engine, the first for two jobs and the second for one. A fourth job has
been accepted meanwhile. -/
def tinyCalling : World where
  evaluator := tinyPair
  running := true
  queue := [⟨3, .tiny .one⟩]
  threads := [⟨tinyFull, tinyNet, .calling⟩, ⟨tinyHalf, tinyNet, .calling⟩]
  accepted := [.tiny .zero, .tiny .one, .tiny .zero, .tiny .one]
  batches := []
  replies := []
  dropped := []

/-- The second call has ended before the first, which only shows in the order of the answers. The
evaluator was shut down between them, so the fourth job has been let go. -/
def tinySettled (first second : Forward) : World where
  evaluator := tinyPair
  running := false
  queue := []
  threads := [⟨{ (tinyFull.runPending first).1 with pending := [] }, tinyNet, .stopped⟩,
    ⟨{ (tinyHalf.runPending second).1 with pending := [] }, tinyNet, .stopped⟩]
  accepted := [.tiny .zero, .tiny .one, .tiny .zero, .tiny .one]
  batches := [tinyHalf.batch second tinyNet, tinyFull.batch first tinyNet]
  replies := (tinyHalf.runPending second).2 ++ (tinyFull.runPending first).2
  dropped := [⟨3, .tiny .one⟩]

/-- The second thread takes its job when the first has taken as many as it has room for. -/
theorem tinyCalling_reachable : Reachable tinyPair (fun _ => tinyNet) tinyCalling := by
  have begun : Reachable tinyPair (fun _ => tinyNet) (start tinyPair _) := .start
  have queued := ((begun.step (.submit (.tiny .zero) tinyPair_checks)).step
    (.submit (.tiny .one) tinyPair_checks)).step (.submit (.tiny .zero) tinyPair_checks)
  have entered := (queued.first rfl (.enter rfl)).second rfl (.enter rfl)
  have taken := ((entered.first rfl .take).first rfl .drain).second rfl .take
  have observed := (taken.first rfl (.drained 0 (.inl rfl))).second rfl (.drained 0 (.inr rfl))
  exact ((observed.first rfl (.call 0 rfl)).second rfl (.call 0 rfl)).step
    (.submit (.tiny .one) tinyPair_checks)

/-- Whatever comes of the two calls, the threads answer, notice the shutdown and stop. -/
theorem tinySettled_reachable {first second : Forward}
    (rowWise : first.RowWise Handle.tiny.shape 2 tinyNet)
    (rowWise' : second.RowWise Handle.tiny.shape 2 tinyNet)
    (faultless : first.Faultless Handle.tiny.shape 2)
    (faultless' : second.Faultless Handle.tiny.shape 2) :
    Reachable tinyPair (fun _ => tinyNet) (tinySettled first second) := by
  have ran := (tinyCalling_reachable.second rfl (.run second rowWise' faultless')).first rfl
    (.run first rowWise faultless)
  have sent := ((ran.secondSends rfl).step .shutdown).firstSends rfl
  have finished := (sent.first rfl .finish).second rfl .finish
  have left := (finished.first rfl (.leave rfl)).second rfl (.leave rfl)
  have stopped (s s' : Server) : ∀ t ∈ [(⟨s, tinyNet, .stopped⟩ : Thread), ⟨s', tinyNet, .stopped⟩],
      t.phase = .stopped := List.forall_mem_cons.mpr ⟨rfl, List.forall_mem_singleton.mpr rfl⟩
  have discarded := left.step (.discard rfl (stopped _ _) rfl)
  simpa only [tinySettled, tinyCalling, Thread.Output.nothing, Server.runPending_pending,
    List.append_nil, List.nil_append, List.cons_append] using discarded

/-! ## Conservation -/

/-- Whatever the interleaving, in every world that a started evaluator can come to:

* each accepted request is in exactly one place, and there once: in the queue, in the
  hands of one thread, answered, or let go; and it is part of at most one batch;
* an answer is either the evaluation that the handle of the serving thread computes for
  that very request alone, or the failure of its own batch's call of the engine;
* a batch whose call failed answers that failure to all of its jobs;
* jobs are let go only after a shutdown.

Proof: the invariant holds in every reachable world. A reply belongs to a batch whose
answers are right, which makes it the failure of that batch or the evaluation of its
own request; the request is found under its ticket. -/
theorem evaluator_conserves {e : Evaluator} {nets : Nat → RowNet} {w : World}
    (started : e.Started)
    (fills : ∀ (i : Nat) s, e.servers[i]? = some s → (nets i).Fills s.handle.shape)
    (reached : Reachable e nets w) :
    w.tickets.Perm (List.range w.accepted.length) ∧
      ((w.batches.flatMap (·.jobs)).map (·.ticket)).Nodup ∧
      (∀ ticket reply, (ticket, reply) ∈ w.replies → ∃ b ∈ w.batches,
        (∃ t ∈ w.threads, t.server.handle = b.handle ∧ t.net = b.net) ∧
        ∃ job ∈ b.jobs, job.ticket = ticket ∧ w.accepted[ticket]? = some job.request ∧
          ((∃ out, reply = .answered (.ok out) ∧ b.handle.Alone b.net job.request out) ∨
            ∃ cause, reply = .answered (.error (.batchFailed (.engine cause))) ∧
              b.call = .error (.error cause))) ∧
      (∀ b ∈ w.batches, ∀ cause, b.call = .error (.error cause) → ∀ job ∈ b.jobs,
        (job.ticket, .answered (.error (.batchFailed (.engine cause)))) ∈ w.replies ++ w.unsent) ∧
      (w.dropped ≠ [] → w.running = false) := by
  have sound := reached.sound started fills
  refine ⟨sound.tickets, sound.batches_apart, ?_, ?_, sound.dropped⟩
  · intro ticket reply sent
    obtain ⟨b, member, answer⟩ := sound.from_batch sent
    obtain ⟨right, served, jobs⟩ := sound.batches b member
    refine ⟨b, member, served, ?_⟩
    rcases right.reply answer with
      ⟨job, listed, out, rfl, ok, _, value⟩ | ⟨job, listed, cause, same, call⟩
    · obtain ⟨accepted, alone⟩ := sound.evaluated_alone member listed value
      exact ⟨job, listed, rfl, accepted, .inl ⟨out, ok, alone⟩⟩
    · obtain ⟨rfl, rfl⟩ := Prod.mk.inj same
      exact ⟨job, listed, rfl, (jobs job listed).listed, .inr ⟨cause, rfl, call⟩⟩
  · intro b member cause call job listed
    exact sound.failure_answered member call listed

/-- Two threads serve three jobs in calls that overlap: the first answers the two of its batch, and
the call of the second fails. A fourth job is let go after the shutdown. -/
theorem evaluator_conserves_tiny :
    let nets : Nat → RowNet := fun _ => tinyNet
    tinyPair.Started ∧
      (∀ (i : Nat) s, tinyPair.servers[i]? = some s → (nets i).Fills s.handle.shape) ∧
      ∃ w, Reachable tinyPair nets w ∧ w.running = false ∧ w.tickets.Perm [0, 1, 2, 3] ∧
        w.batches.map (·.jobs.length) = [1, 2] ∧ w.replies.map (·.1) = [2, 0, 1] ∧
        w.dropped.map (·.ticket) = [3] ∧
        (2, .answered (.error (.batchFailed (.engine .contextMissing)))) ∈ w.replies ∧
        ∃ out, (1, .answered (.ok out)) ∈ w.replies ∧ Handle.tiny.Alone tinyNet (.tiny .one) out := by
  intro nets
  have full : tinyNet.Fills Handle.tiny.shape := RowNet.echo_fills _
  have fills : ∀ (i : Nat) s, tinyPair.servers[i]? = some s → (nets i).Fills s.handle.shape := by
    intro i s listed
    rw [show s = tinyServer from List.eq_of_mem_replicate (n := 2) (List.mem_of_getElem? listed)]
    exact full
  let echo := Forward.ofRows Handle.tiny.shape tinyNet
  let refuse : Forward := fun _ slots _ => .fail slots .contextMissing
  have settled : Reachable tinyPair nets (tinySettled echo refuse) :=
    tinySettled_reachable (Forward.ofRows_rowWise full 2) ⟨fun _ _ _ _ _ _ _ => nofun⟩
      (fun _ _ _ _ _ _ _ _ => nofun) (fun _ _ _ _ _ _ _ _ => nofun)
  obtain ⟨tickets, _, answers, failures, _⟩ := evaluator_conserves tinyPair_started fills settled
  have answered : (tinySettled echo refuse).replies.map (·.1) = [2, 0, 1] := by
    have lost : _ = [2] := Server.answered_tickets (s := tinyHalf) refuse
    have served : _ = [0, 1] := Server.answered_tickets (s := tinyFull) echo
    simp only [tinySettled, List.map_append, lost, served]
    rfl
  refine ⟨tinyPair_started, fills, _, settled, rfl, tickets, rfl, answered, rfl, ?_, ?_⟩
  · have call : (tinyHalf.batch refuse tinyNet).call = .error (.error .contextMissing) := rfl
    have failed := failures _ List.mem_cons_self _ call ⟨2, .tiny .zero⟩ (List.mem_singleton.mpr rfl)
    have silent : (tinySettled echo refuse).unsent = [] := rfl
    rwa [silent, List.append_nil] at failed
  · have asked : 1 ∈ (tinySettled echo refuse).replies.map (·.1) := by simp [answered]
    obtain ⟨⟨_, reply⟩, sent, rfl⟩ := List.mem_map.mp asked
    obtain ⟨b, member, _, job, listed, ticket, _, outcome⟩ := answers _ _ sent
    -- The other batch has no such ticket, and the call of this one succeeded.
    simp only [tinySettled, List.mem_cons, List.not_mem_nil, or_false] at member
    rcases member with rfl | rfl
    · obtain rfl := List.mem_singleton.mp listed
      exact absurd ticket (by decide)
    · have jobs : job ∈ [(⟨0, .tiny .zero⟩ : Job), ⟨1, .tiny .one⟩] := listed
      simp only [List.mem_cons, List.not_mem_nil, or_false] at jobs
      rcases jobs with rfl | rfl
      · exact absurd ticket (by decide)
      rcases outcome with ⟨out, rfl, alone⟩ | ⟨cause, _, call⟩
      · exact ⟨out, sent, alone⟩
      · exact nomatch call

end World

end BoardEval
