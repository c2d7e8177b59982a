import BoardEval.Proofs.Contract
import BoardEval.Proofs.Shutdown

/-!
# Serving loops

What users can do to a serving thread. They offer any requests, well-formed or not. A
thread waits for a job with or without success, takes further jobs as long as there are any
and there is room, or stops taking them earlier, and asks its collector at any time of the
clock. Its engine may answer anything. The turns that a session gives to its servers are
among these schedules.

`Steady` is the invariant of the loop. Between two batches there is room for another job,
and the clock of the batch runs exactly while jobs are pending. With what requests are
checked for, this makes every batch one of the right size in which no promise is broken
(`Unbroken`). So a thread stops after a shutdown, or by a fault of the engine itself, and
never because of a request.
-/

namespace BoardEval

/-- The clock runs after a look at a batch with jobs, or if it ran before. -/
theorem Collector.observe_isOpen (c : Collector) (pending now : Nat) :
    (c.observe pending now).isOpen = true ↔ 0 < pending ∨ c.isOpen = true := by
  unfold observe isOpen
  split
  · rename_i starts
    simp [starts.1]
  · rename_i kept
    refine ⟨.inr, ?_⟩
    rintro (positive | running)
    · simpa [positive, Option.isSome_iff_ne_none] using kept
    · exact running

/-! ## Batches of pending jobs -/

namespace Server

/-- The evaluations that a server makes for its pending jobs. -/
def blanks (s : Server) : List Evaluation := s.requests.map .forRequest

/-- The pool once the pending jobs were written to it, and whether they could be. -/
def filling (s : Server) : Pool × Except Fault Unit :=
  s.handle.loadGuarded s.pool s.requests s.blanks

/-- No promise is broken on the way of the pending jobs through a batch, with a guard on
every step: neither when evaluations are made for them, nor by the batch as a whole, nor
when its rows are checked and copied, nor when the engine is handed its rows, nor, whatever
the engine leaves there, when they are decoded. -/
structure Unbroken (s : Server) : Prop where
  evaluations : ∀ q ∈ s.requests,
    Evaluation.blankChecked q.extent q.wantsOwnership = .ok (.forRequest q)
  batch : s.handle.checkBatch s.pool s.requests.length s.blanks.length = .ok ()
  rows : s.filling.2 = .ok ()
  slices : ∃ io, s.filling.1.batchGuarded s.requests.length = .ok io
  decoding : ∀ heads, (Handle.decodeRowsGuarded s.handle.model.version 0
    (s.requests.zip s.blanks) (s.filling.1.store s.requests.length heads)).2.2 = .ok ()

section

variable {s : Server} (owned : s.handle.Owns s.pool) (admitted : s.handle.Admits s.requests)
include owned admitted

/-- The pending jobs can be written to the pool with the evaluations that were made
for them. -/
theorem blanks_loaded : (s.handle.load s.pool s.requests s.blanks).2 = .ok () :=
  Handle.load_ok owned.fitted admitted (List.length_map _)
    (Handle.roomy_forRequests admitted.takes)

/-- The board of the handle has few enough cells for an evaluation. -/
theorem blanks_made {q : Request} (listed : q ∈ s.requests) :
    Evaluation.blankChecked q.extent q.wantsOwnership = .ok (.forRequest q) := by
  have playable := owned.served.allocated.memory.board
  rw [owned.fitted.shape, ← (admitted.takes q listed).extent] at playable
  obtain ⟨_, _, few⟩ := Extent.playable_cells playable
  have word : q.extent.cells < wordLimit := by
    unfold wordLimit
    omega
  have bytes : 4 * (q.extent.cells + 1) ≤ allocationLimit := by
    unfold allocationLimit
    omega
  simp only [Evaluation.blankChecked, bind_ok_iff, Extent.cellsInWord, fitsWord_ok_iff,
    requireImplicit_ok_iff, pure_ok_iff, decide_eq_true_eq]
  exact ⟨_, ⟨word, rfl⟩, (), bytes, rfl⟩

/-- Whatever an engine leaves in its rows can be decoded. -/
theorem blanks_decoded (heads : BatchOutputs) :
    (Handle.decodeRowsGuarded s.handle.model.version 0 (s.requests.zip s.blanks)
      ((s.handle.load s.pool s.requests s.blanks).1.store s.requests.length heads)).2.2 =
        .ok () := by
  have fitted := owned.fitted
  have loaded := blanks_loaded owned admitted
  have allocated := owned.served.allocated
  -- The pool is the one after a pass that answers these heads.
  obtain ⟨sound, alike⟩ := Handle.filled_sound (h := s.handle) fitted.sound
    (fun _ _ _ => .ok heads) s.requests s.blanks
  have room := alike.capacity ▸ Handle.paired_room fitted.sound loaded
  obtain ⟨outs, decoded, _⟩ := Handle.decodeRows_ok s.handle.model.version sound 0
    (s.requests.zip s.blanks) room (by
      intro pair member
      rw [alike.shape, fitted.shape]
      exact Handle.roomy_forRequests admitted.takes _ (List.of_mem_zip member).2)
  have guarded := Handle.decodeRowsGuarded_eq (allocated.of_alike sound alike)
    s.handle.model.version 0 (s.requests.zip s.blanks) room
  exact congrArg (·.2.2) guarded |>.trans (congrArg Prod.snd decoded)

/-- A batch that fits its handle breaks no promise. -/
theorem unbroken : s.Unbroken := by
  have fitted := owned.fitted
  have loaded := blanks_loaded owned admitted
  have allocated := owned.served.allocated
  have same : s.filling = s.handle.load s.pool s.requests s.blanks :=
    Handle.loadGuarded_eq allocated s.requests s.blanks
  constructor
  case evaluations => exact fun q listed => blanks_made owned admitted listed
  case batch => exact ((Handle.load_ok_iff fitted.sound _ _).mp loaded).1
  case rows => rw [same, loaded]
  case slices =>
    obtain ⟨positive, _, room, _⟩ := Handle.loaded_room fitted.sound loaded
    obtain ⟨sound, alike⟩ := Handle.load_sound (h := s.handle) fitted.sound s.requests s.blanks
    have rows := (Pool.requireBatch_ok_iff _ _ ()).mpr ⟨positive, alike.capacity ▸ room⟩
    rw [same, Pool.batchGuarded_eq (allocated.of_alike sound alike), Pool.batch, rows]
    exact ⟨_, rfl⟩
  case decoding => exact same ▸ blanks_decoded owned admitted

/-- If running the batch faults nevertheless, that is the fault of the engine. -/
theorem fault_of_engine {forward : Forward} {broken : Fault}
    (ended : (s.execution forward).result = .error (.fault broken)) :
    s.call forward = .error (.fault broken) := by
  have loaded := blanks_loaded owned admitted
  cases call : s.call forward with
  | ok u =>
    have contract := (Handle.contract_iff_loaded owned.fitted.sound _ _).mpr loaded
    have sized : ∀ out ∈ s.blanks, out.WellSized := by
      intro out member
      obtain ⟨q, listed, rfl⟩ := List.mem_map.mp member
      exact Evaluation.blankChecked_wellSized _ _ _ (blanks_made owned admitted listed)
    have complete : (s.execution forward).result = .ok () :=
      Handle.execute_complete owned.fitted.sound contract sized forward call
    rw [ended] at complete
    contradiction
  | error failure =>
    have failed : s.execution forward = _ := Handle.execute_failed loaded call
    rw [failed] at ended
    cases failure with
    | fault cause =>
      obtain rfl : cause = broken := by simpa [Failure.map] using ended
      rfl
    | error cause => simp [Failure.map] at ended

end

variable {s : Server}

/-- Taking jobs puts each into the batch or leaves it in the queue, in order. -/
theorem take_keeps (s : Server) (queue : List Job) :
    (s.take queue).1.pending ++ (s.take queue).2 = s.pending ++ queue := by
  simp only [take, receive, List.append_assoc, List.take_append_drop]

/-- A batch that is not full is never overfilled. -/
theorem take_length (room : s.pending.length < s.collector.capacity) (queue : List Job) :
    (s.take queue).1.pending.length ≤ s.collector.capacity := by
  simp only [take, receive, Server.room, Collector.room, List.length_append, List.length_take]
  omega

/-- After a look at the batch the clock runs exactly if there are jobs, unless it ran before
without any. -/
theorem observe_clock (early : s.collector.isOpen = true → s.pending ≠ []) (now : Nat) :
    (s.observe now).collector.isOpen = true ↔ s.pending ≠ [] := by
  simp only [observe, Collector.observe_isOpen, List.length_pos_iff]
  exact ⟨fun seen => seen.elim id early, .inl⟩

/-- A batch that was run leaves no job and no clock. -/
theorem runPending_clock (forward : Forward) :
    (s.runPending forward).1.collector.isOpen = true ↔ (s.runPending forward).1.pending ≠ [] := by
  simp [runPending, Collector.close, Collector.isOpen]

end Server

/-! ## Steady threads -/

namespace Thread

/-- When the clock of the batch runs: exactly while jobs are pending. A thread that takes
jobs has not looked at them yet, so there may be jobs and no clock. -/
def Clocked (t : Thread) : Prop :=
  match t.phase with
  | .draining _ => t.server.collector.isOpen = true → t.server.pending ≠ []
  | .stopped => True
  | _ => t.server.collector.isOpen = true ↔ t.server.pending ≠ []

/-- The invariant of a thread whose engine may do anything. -/
structure Steady (e : Evaluator) (limit : Nat) (t : Thread) : Prop where
  owned : t.server.handle.Owns t.server.pool
  capacity : t.server.collector.capacity = limit
  size : t.server.handle.maxBatchSize = limit
  takes : ∀ q, e.check q = .ok () → t.server.handle.shape.Takes q
  jobs : ∀ job ∈ t.server.pending, e.check job.request = .ok ()
  room : t.WithinRoom
  clock : t.Clocked

section

variable {e : Evaluator} {limit : Nat} {running : Bool} {queue queue' : List Job} {t t' : Thread}
  {out : Output}

/-- A step starts and stops the clock with the jobs. -/
theorem Step.clocked (step : Step running queue t queue' t' out) (clock : t.Clocked) :
    t'.Clocked := by
  cases step with
  | enter going => exact clock
  | leave closed => trivial
  | take => exact fun _ => by simp [Server.receive]
  | timeout => exact clock.mp
  | drain => exact fun _ => by simp [Server.receive]
  | drained now ended => exact Server.observe_clock clock now
  | pass now unready => exact clock
  | call now ready => exact clock
  | run forward rowWise faultless => exact Server.runPending_clock forward
  | send => exact clock
  | finish => exact clock

/-- So does any act, failing calls included. -/
theorem Act.clocked (act : Act running queue t queue' t' out) (clock : t.Clocked) :
    t'.Clocked := by
  cases act with
  | step step => exact step.clocked clock
  | run forward kept => exact Server.runPending_clock forward
  | crash forward broken ended => trivial

/-- No act takes more jobs than a batch has room for. -/
theorem Act.withinRoom (act : Act running queue t queue' t' out)
    (positive : 1 ≤ t.server.collector.capacity) (room : t.WithinRoom) : t'.WithinRoom := by
  cases act with
  | step step => exact step.withinRoom positive room
  | run forward kept => rfl
  | crash forward broken ended => rfl

/-- What leaves the queue by an act of a thread goes to the end of its batch. -/
theorem Act.taken (act : Act running queue t queue' t' out) :
    ∃ jobs, queue = jobs ++ queue' ∧
      (jobs ≠ [] → t'.server.pending = t.server.pending ++ jobs) := by
  cases act with
  | step step =>
    cases step with
    | take => exact ⟨[_], rfl, fun _ => rfl⟩
    | drain => exact ⟨[_], rfl, fun _ => rfl⟩
    | _ => exact ⟨[], rfl, fun some => absurd rfl some⟩
  | run forward kept => exact ⟨[], rfl, fun some => absurd rfl some⟩
  | crash forward broken ended => exact ⟨[], rfl, fun some => absurd rfl some⟩

/-- A thread lets jobs go only when it stops. -/
theorem Act.released (act : Act running queue t queue' t' out) (some : out.dropped ≠ []) :
    t'.phase = .stopped := by
  cases act with
  | step step =>
    cases step with
    | leave closed => rfl
    | _ => exact absurd rfl some
  | run forward kept => exact absurd rfl some
  | crash forward broken ended => rfl

/-- Batches of a steady thread have room for one job at least. -/
theorem Steady.positive (steady : t.Steady e limit) : 1 ≤ t.server.collector.capacity :=
  steady.capacity ▸ steady.size ▸ steady.owned.fitted.positive

/-- A steady thread at the head of its loop. -/
theorem Steady.idle (steady : t.Steady e limit) (head : t.phase = .head) :
    t.server.pending.length < limit ∧
      (t.server.collector.isOpen = true ↔ t.server.pending ≠ []) := by
  obtain ⟨s, net, phase⟩ := t
  obtain rfl : phase = .head := head
  exact ⟨steady.capacity ▸ steady.room, steady.clock⟩

/-- A steady thread that waits for a job has room for it. -/
theorem Steady.awaits (steady : t.Steady e limit) (waiting : t.phase = .waiting) :
    t.server.pending.length < t.server.collector.capacity := by
  obtain ⟨s, net, phase⟩ := t
  obtain rfl : phase = .waiting := waiting
  exact steady.room

/-- The batch of a steady thread that calls its engine fits the handle. -/
theorem Steady.admitted (steady : t.Steady e limit) (calling : t.phase = .calling) :
    1 ≤ t.server.pending.length ∧ t.server.pending.length ≤ limit ∧
      t.server.handle.Admits t.server.requests := by
  obtain ⟨s, net, phase⟩ := t
  obtain rfl : phase = .calling := calling
  obtain ⟨positive, full⟩ :
      1 ≤ s.pending.length ∧ s.pending.length ≤ s.collector.capacity := steady.room
  have bound : s.pending.length ≤ limit := steady.capacity ▸ full
  exact ⟨positive, bound,
    Server.admits positive (steady.size.symm ▸ bound) steady.takes steady.jobs⟩

/-- A thread may stop taking jobs at any time. -/
theorem Steady.observed {s : Server} {net : RowNet} {left : Nat}
    (steady : Steady e limit ⟨s, net, .draining left⟩) (now : Nat) :
    Steady e limit ⟨s.observe now, net, .deciding⟩ :=
  { steady with
    capacity := (Server.observe_capacity now).trans steady.capacity
    room := observed_withinRoom steady.room now
    clock := Server.observe_clock steady.clock now }

/-- A thread that takes a checked job stays steady, with what is known of its room. -/
theorem Steady.received {job : Job} {s : Server} {net : RowNet} {before after : Phase}
    (steady : Steady e limit ⟨s, net, before⟩) (checked : e.check job.request = .ok ())
    (room : WithinRoom ⟨s.receive [job], net, after⟩)
    (clock : Clocked ⟨s.receive [job], net, after⟩) :
    Steady e limit ⟨s.receive [job], net, after⟩ :=
  { steady with
    jobs := by
      intro other member
      rcases List.mem_append.mp member with old | new
      · exact steady.jobs other old
      · obtain rfl := List.mem_singleton.mp new
        exact checked
    room := room
    clock := clock }

/-- A batch that was run, however it ended, leaves a pool of the handle and no jobs. -/
theorem Steady.ran {s : Server} {net : RowNet} {before after : Phase}
    (steady : Steady e limit ⟨s, net, before⟩) (forward : Forward)
    (room : WithinRoom ⟨(s.runPending forward).1, net, after⟩)
    (clock : Clocked ⟨(s.runPending forward).1, net, after⟩) :
    Steady e limit ⟨(s.runPending forward).1, net, after⟩ :=
  { steady with
    owned := Server.runPending_owns steady.owned forward
    jobs := fun _ member => nomatch member
    room := room
    clock := clock }

/-- Every act keeps a thread steady, if the jobs in the queue were checked. -/
theorem Act.steady (act : Act running queue t queue' t' out) (steady : t.Steady e limit)
    (checked : ∀ job ∈ queue, e.check job.request = .ok ()) : t'.Steady e limit := by
  have room := act.withinRoom steady.positive steady.room
  have clock := act.clocked steady.clock
  cases act with
  | step step =>
    cases step with
    | leave closed =>
      exact { steady with
        jobs := fun _ member => absurd member List.not_mem_nil
        room := room
        clock := clock }
    | take => exact steady.received (checked _ List.mem_cons_self) room clock
    | drain => exact steady.received (checked _ List.mem_cons_self) room clock
    | drained now ended => exact steady.observed now
    | run forward rowWise faultless => exact steady.ran forward room clock
    | _ => exact { steady with room := room, clock := clock }
  | run forward kept => exact steady.ran forward room clock
  | crash forward broken ended => exact steady.ran forward room clock

/-- A thread stops after a shutdown or in a call of its engine. -/
theorem Act.stops (act : Act running queue t queue' t' out) (stopped : t'.phase = .stopped) :
    running = false ∨ t.phase = .calling := by
  cases act with
  | step step =>
    cases step with
    | leave closed => exact .inl closed
    | _ => contradiction
  | run forward kept => contradiction
  | crash forward broken ended => exact .inr rfl

end

end Thread

/-! ## All schedules -/

namespace Service

/-- Someone offers a request. It is queued if it passes the check; if not, it is refused and
nothing changes. -/
def offer (v : Service) (request : Request) : Service :=
  match v.world.evaluator.check request with
  | .error _ => v
  | .ok () =>
    { v with world := { v.world with
        queue := v.world.queue ++ [⟨v.world.accepted.length, request⟩]
        accepted := v.world.accepted ++ [request] } }

section

variable {v : Service} {request : Request}

/-- A refused request leaves no trace. -/
theorem offer_refused {cause : ServiceError}
    (refused : v.world.evaluator.check request = .error cause) : v.offer request = v := by
  simp only [offer, refused]

/-- A request that passes the check is queued under the next ticket. -/
theorem offer_checked (checked : v.world.evaluator.check request = .ok ()) :
    v.offer request = { v with world := { v.world with
      queue := v.world.queue ++ [⟨v.world.accepted.length, request⟩]
      accepted := v.world.accepted ++ [request] } } := by
  simp only [offer, checked]

end

/-- The steps of a service, when requests need not be well-formed and a thread may stop
taking jobs although the queue is not empty. -/
inductive Move : Service → Service → Prop where
  | step {v v' : Service} (step : Step v v') : Move v v'
  | offer {v : Service} (request : Request) : Move v (v.offer request)
  | cease {w : World} {stage : Stage} {settled : Nat} {front back : List Thread} {s : Server}
    {net : RowNet} {left : Nat} (here : w.threads = front ++ ⟨s, net, .draining left⟩ :: back)
    (now : Nat) :
    Move ⟨w, stage, settled⟩
      ⟨{ w with threads := front ++ ⟨s.observe now, net, .deciding⟩ :: back }, stage, settled⟩

/-- The states that such steps lead to. -/
inductive Arises (e : Evaluator) (nets : Nat → RowNet) : Service → Prop where
  | start : Arises e nets (start e nets)
  | move {v v' : Service} (arisen : Arises e nets v) (move : Move v v') : Arises e nets v'

/-- The invariant of a service, whatever is offered to it. -/
structure Steady (limit : Nat) (v : Service) : Prop where
  threads : ∀ t ∈ v.world.threads, t.Steady v.world.evaluator limit
  queue : ∀ job ∈ v.world.queue, v.world.evaluator.check job.request = .ok ()
  tickets : v.world.tickets.Perm (List.range v.world.accepted.length)
  closing : v.stage ≠ .serving → v.world.running = false
  dropped : v.world.dropped ≠ [] →
    v.world.running = false ∨ ∃ t ∈ v.world.threads, t.phase = .stopped

/-- A service is steady when it starts: its servers are fresh, and nothing was
offered yet. -/
theorem start_steady {e : Evaluator} (started : e.Started) {c : Context} {d : Descriptor}
    {config : EvaluatorConfig} (fresh : ∀ s ∈ e.servers, s.Fresh c d config)
    (nets : Nat → RowNet) : (start e nets).Steady config.maxBatchSize where
  threads := by
    intro t member
    obtain ⟨i, s, listed, rfl⟩ := World.mem_start member
    have new := fresh s (List.mem_of_getElem? listed)
    have owned := started.pools s (List.mem_of_getElem? listed)
    constructor
    case owned => exact owned
    case capacity => exact congrArg Collector.capacity new.collector
    case size => exact new.limit
    case takes => exact fun q => started.takes (List.mem_of_getElem? listed)
    case jobs =>
      intro job held
      rw [new.pending] at held
      exact absurd held List.not_mem_nil
    case room =>
      simp only [Thread.WithinRoom, new.pending, new.collector, Collector.new, ← new.limit]
      exact owned.fitted.positive
    case clock =>
      simp [Thread.Clocked, new.pending, new.collector, Collector.new, Collector.isOpen]
  queue := by
    intro job member
    have queued : job ∈ e.queue := member
    rw [started.queue] at queued
    exact absurd queued List.not_mem_nil
  tickets := by
    simp only [start, World.start_tickets started]
    exact .refl _
  closing := fun other => absurd rfl other
  dropped := fun some => absurd rfl some

/-- What a checked request adds was checked. -/
theorem Steady.submitted {limit : Nat} {w : World} {stage : Stage} {settled : Nat}
    (steady : Steady limit ⟨w, stage, settled⟩) {request : Request}
    (checked : w.evaluator.check request = .ok ()) :
    Steady limit ⟨{ w with
      queue := w.queue ++ [⟨w.accepted.length, request⟩]
      accepted := w.accepted ++ [request] }, stage, settled⟩ :=
  { steady with
    queue := by
      intro job member
      rcases List.mem_append.mp member with old | new
      · exact steady.queue job old
      · obtain rfl := List.mem_singleton.mp new
        exact checked
    tickets := World.submit_tickets steady.tickets request }

/-- Exchanging a thread that is in its loop for a steady one keeps the service steady, if
that thread conserves tickets and stops where it lets jobs go. -/
theorem Steady.exchanged {limit : Nat} {w : World} {stage : Stage} {settled : Nat}
    (steady : Steady limit ⟨w, stage, settled⟩) {front back : List Thread} {t t' : Thread}
    {queue : List Job} {out : Thread.Output} (here : w.threads = front ++ t :: back)
    (after : t'.Steady w.evaluator limit) (going : t.phase ≠ .stopped)
    (conserves : t.Conserves w.queue queue t' out) (left : ∀ job ∈ queue, job ∈ w.queue)
    (released : out.dropped ≠ [] → t'.phase = .stopped) :
    Steady limit ⟨{ w with
      queue := queue
      threads := front ++ t' :: back
      batches := w.batches ++ out.batches
      replies := w.replies ++ out.replies
      dropped := w.dropped ++ out.dropped }, stage, settled⟩ where
  threads := by
    intro other member
    rcases World.mem_exchanged member with rfl | old
    · exact after
    · exact steady.threads other (here ▸ old)
  queue job member := steady.queue job (left job member)
  tickets := (World.thread_tickets here conserves).trans steady.tickets
  closing := steady.closing
  dropped := by
    intro some
    by_cases before : w.dropped = []
    · refine .inr ⟨t', by simp, released fun none => some ?_⟩
      rw [before, none]
      rfl
    · rcases steady.dropped before with closed | ⟨other, member, stopped⟩
      · exact .inl closed
      · have listed : other ∈ front ++ t :: back := here ▸ member
        rcases World.mem_exchanged listed with rfl | kept
        · exact absurd stopped going
        · exact .inr ⟨other, kept, stopped⟩

/-- Every step of a service keeps it steady. -/
theorem Step.steady {limit : Nat} {v v' : Service} (step : Step v v')
    (steady : v.Steady limit) : v'.Steady limit := by
  cases step with
  | submit request free checked => exact steady.submitted checked
  | shutdown free => exact { steady with closing := fun _ => rfl, dropped := fun _ => .inl rfl }
  | thread here act =>
    obtain ⟨jobs, queued, _⟩ := act.taken
    exact steady.exchanged here (act.steady (steady.threads _ (here ▸ by simp)) steady.queue)
      act.going act.conserves (fun _ member => queued ▸ List.mem_append_right jobs member)
      act.released
  | discard stopped first =>
    have closed := steady.closing nofun
    exact { steady with
      queue := fun job member => steady.queue job (first ▸ List.mem_cons_of_mem _ member)
      tickets := (World.discard_tickets first).trans steady.tickets
      dropped := fun _ => .inl closed }
  | finish stopped empty => exact { steady with closing := fun _ => steady.closing nofun }

/-- Every move keeps a service steady, ill-formed offers and failing engines
included. -/
theorem Move.steady {limit : Nat} {v v' : Service} (move : Move v v')
    (steady : v.Steady limit) : v'.Steady limit := by
  cases move with
  | step step => exact step.steady steady
  | @offer _ request =>
    cases checked : v.world.evaluator.check request with
    | error cause =>
      rw [offer_refused checked]
      exact steady
    | ok u =>
      rw [offer_checked checked]
      exact steady.submitted checked
  | @cease w _ _ _ _ s net left here now =>
    have listed : ⟨s, net, .draining left⟩ ∈ w.threads := here ▸ by simp
    have observed := (steady.threads _ listed).observed now
    have quiet : Thread.Conserves w.queue ⟨s, net, .draining left⟩ w.queue
        ⟨s.observe now, net, .deciding⟩ .nothing := .moved rfl rfl
    have exchanged := steady.exchanged here observed nofun quiet (fun _ member => member)
      fun some => absurd rfl some
    simpa [Thread.Output.nothing] using exchanged

/-- Whatever arises is steady. The induction is on the steps. -/
theorem Arises.steady {limit : Nat} {e : Evaluator} {nets : Nat → RowNet} {v : Service}
    (arisen : Arises e nets v) (begun : (Service.start e nets).Steady limit) :
    v.Steady limit := by
  induction arisen with
  | start => exact begun
  | move _ move steady => exact move.steady steady

section

variable {e : Evaluator} {nets : Nat → RowNet} {w : World} {stage : Stage} {settled : Nat}
  {front back : List Thread}

/-- What one thread runs through, its service does. The induction is on the run. -/
theorem Arises.run {running : Bool} {queue queue' : List Job} {t t' : Thread}
    {out : Thread.Output} (run : Thread.Run (Thread.Act running) queue t queue' t' out)
    (going : w.running = running)
    (arisen : Arises e nets
      ⟨{ w with queue := queue, threads := front ++ t :: back }, stage, settled⟩) :
    Arises e nets ⟨{ w with
      queue := queue'
      threads := front ++ t' :: back
      batches := w.batches ++ out.batches
      replies := w.replies ++ out.replies
      dropped := w.dropped ++ out.dropped }, stage, settled⟩ := by
  induction run generalizing w with
  | done => simpa [Thread.Output.nothing] using arisen
  | @next _ _ _ _ _ _ first second act rest inductionHypothesis =>
    subst going
    let later := { w with
      batches := w.batches ++ first.batches
      replies := w.replies ++ first.replies
      dropped := w.dropped ++ first.dropped }
    have moved : Arises e nets
        ⟨{ later with queue := _, threads := front ++ _ :: back }, stage, settled⟩ :=
      arisen.move (.step (.thread rfl act))
    simpa [later, Thread.Output.append] using inductionHypothesis (w := later) rfl moved

/-- The turn that a session gives to a server is one of the schedules, with any engine whose
call breaks no promise. -/
theorem Arises.turn {ε : Type} [Engine ε] {s : Server} {net : RowNet} (engine : ε) (now : Nat)
    (going : w.running = true) (here : w.threads = front ++ ⟨s, net, .head⟩ :: back)
    (arisen : Arises e nets ⟨w, stage, settled⟩)
    (kept : ∀ broken, (((s.take w.queue).1.observe now).execution
      (s.handle.forward engine)).result ≠ .error (.fault broken)) :
    ∃ batches, Arises e nets ⟨{ w with
      queue := (s.turn engine now w.queue).2.1
      threads := front ++ ⟨(s.turn engine now w.queue).1, net, .head⟩ :: back
      batches := batches
      replies := w.replies ++ (s.turn engine now w.queue).2.2 }, stage, settled⟩ := by
  obtain ⟨batches, run⟩ := Thread.Run.turn engine now (fun _ _ _ _ _ step => .step step)
    (Thread.Act.run (s.handle.forward engine) kept)
  have spread : Arises e nets ⟨{ w with
      queue := w.queue
      threads := front ++ ⟨s, net, .head⟩ :: back }, stage, settled⟩ := by
    rw [← here]
    exact arisen
  exact ⟨w.batches ++ batches, by simpa using Arises.run run going spread⟩

end

/-- An act of the only thread of a service. -/
theorem Arises.alone {e : Evaluator} {nets : Nat → RowNet} {w : World} {stage : Stage}
    {settled : Nat} {t t' : Thread} {queue : List Job} {out : Thread.Output}
    (arisen : Arises e nets ⟨w, stage, settled⟩) (here : w.threads = [t])
    (act : t.Act w.running w.queue queue t' out) :
    Arises e nets ⟨{ w with
      queue := queue
      threads := [t']
      batches := w.batches ++ out.batches
      replies := w.replies ++ out.replies
      dropped := w.dropped ++ out.dropped }, stage, settled⟩ :=
  arisen.move (.step (.thread (show w.threads = [] ++ t :: [] from here) act))

end Service

namespace Session

variable {ε : Type} [Engine ε]

/-- For every evaluator that a session could start, whatever is offered to it and however
its threads are scheduled: each accepted request is in one place, and jobs are let go only
after a shutdown or by a thread that has stopped. For each of its threads:

* at the head of its loop there is room for another job, and the clock of its batch runs
  exactly if jobs are pending;
* taking jobs puts each into the batch or leaves it in the queue, and never overfills the
  batch; and whatever an act of the thread takes off the queue is in its batch then;
* the batch that it calls its engine with has at least one job and at most as many as a
  batch may have, no promise is broken on its way, and if running it faults all the same
  the call of the engine did;
* it stops only after a shutdown or in such a call.

Proof: steadiness holds in every state that arises. It gives the room and the clock at
the head of the loop, a batch that fits its handle before each call, and for such a
batch all guards are known to pass. -/
theorem requests_trip_no_thread {s s' : Session ε} {number id : Nat} {d : Descriptor}
    {config : EvaluatorConfig} (started : s.startEvaluator number d config = (s', .ok id)) :
    ∃ e, s'.evaluator? id = some e ∧ ∀ nets v, Service.Arises e nets v →
      v.world.tickets.Perm (List.range v.world.accepted.length) ∧
      (v.world.dropped ≠ [] →
        v.world.running = false ∨ ∃ t ∈ v.world.threads, t.phase = .stopped) ∧
      ∀ t ∈ v.world.threads,
        (t.phase = .head → t.server.pending.length < config.maxBatchSize ∧
          (t.server.collector.isOpen = true ↔ t.server.pending ≠ [])) ∧
        (t.phase = .waiting → ∀ queue,
          (t.server.take queue).1.pending ++ (t.server.take queue).2 =
            t.server.pending ++ queue ∧
          (t.server.take queue).1.pending.length ≤ config.maxBatchSize) ∧
        (t.phase = .calling → 1 ≤ t.server.pending.length ∧
          t.server.pending.length ≤ config.maxBatchSize ∧ t.server.Unbroken ∧
          ∀ forward broken, (t.server.execution forward).result = .error (.fault broken) →
            t.server.call forward = .error (.fault broken)) ∧
        ∀ queue t' out, t.Act v.world.running v.world.queue queue t' out →
          (∃ jobs, v.world.queue = jobs ++ queue ∧
            (jobs ≠ [] → t'.server.pending = t.server.pending ++ jobs)) ∧
          (t'.phase = .stopped → v.world.running = false ∨ t.phase = .calling) := by
  obtain ⟨e, c, listed, begun, fresh⟩ := startEvaluator_started started
  refine ⟨e, listed, ?_⟩
  intro nets v arisen
  have steady := arisen.steady (Service.start_steady begun fresh nets)
  refine ⟨steady.tickets, steady.dropped, ?_⟩
  intro t member
  have calm := steady.threads t member
  refine ⟨calm.idle, ?_, ?_, fun queue t' out act => ⟨act.taken, act.stops⟩⟩
  · intro waiting queue
    have bounded := Server.take_length (calm.awaits waiting) queue
    exact ⟨t.server.take_keeps queue, calm.capacity ▸ bounded⟩
  · intro calling
    obtain ⟨positive, limit, admitted⟩ := calm.admitted calling
    exact ⟨positive, limit, Server.unbroken calm.owned admitted,
      fun forward broken => Server.fault_of_engine calm.owned admitted⟩

/-- A session with the engine of the tiny handle and a context for its board. -/
def tiny : Session HostEngine :=
  ((start #[Handle.tinyEngine]).buildContext ⟨⟨⟨3, 2⟩, .auto, .auto, []⟩, some 0, none⟩).1

/-- Batches of at most two on one server. -/
def tinyConfig : EvaluatorConfig := ⟨⟨⟨3, 2⟩, .auto, .auto, []⟩, 2, true, [0], 0⟩

/-- An evaluator is started and offered a request for another board, which it refuses, and
one for its own. Its thread takes that one, finds its batch ready and calls the engine. -/
theorem requests_trip_no_thread_tiny :
    ∃ s' e v t, tiny.startEvaluator 0 Handle.tiny.descriptor tinyConfig = (s', .ok 0) ∧
      s'.evaluator? 0 = some e ∧ Service.Arises e (fun _ => .echo Handle.tiny.shape) v ∧
      v.world.accepted = [.tiny .zero] ∧ v.world.threads = [t] ∧ t.phase = .calling ∧
      t.server.pending = [⟨0, .tiny .zero⟩] ∧ t.server.Unbroken := by
  have started : tiny.startEvaluator 0 Handle.tiny.descriptor tinyConfig = (_, .ok 0) := rfl
  obtain ⟨e, listed, safe⟩ := requests_trip_no_thread started
  let net : RowNet := .echo Handle.tiny.shape
  obtain ⟨s, start, idle, collector, board, spatial, globals⟩ :
      ∃ s, Service.start e (fun _ => net) =
          ⟨⟨e, true, [], [⟨s, net, .head⟩], [], [], [], []⟩, .serving, 0⟩ ∧
        s.pending = [] ∧ s.collector = .new 2 0 ∧
        e.board = ⟨3, 2⟩ ∧ e.spatialLength = 132 ∧ e.globalLength = 19 := by
    obtain rfl := Option.some.inj listed
    exact ⟨_, rfl, rfl, rfl, rfl, rfl, rfl⟩
  let other : Request := { Request.tiny .zero with extent := ⟨2, 2⟩ }
  have refused : e.check other = .error (.invalidConfig (.requestExtent ⟨2, 2⟩ e.board)) := by
    simp [Evaluator.check, other, board]
  have checked : e.check (.tiny .zero) = .ok () :=
    (e.check_ok_iff _).mpr
      ⟨board.symm, spatial ▸ Tensor.size_zeros _, globals ▸ Tensor.size_zeros _⟩
  have begun : Service.Arises e (fun _ => net)
      ⟨⟨e, true, [], [⟨s, net, .head⟩], [], [], [], []⟩, .serving, 0⟩ := start ▸ .start
  have unmoved := begun.move (.offer other)
  rw [Service.offer_refused refused] at unmoved
  have offered := unmoved.move (.offer (.tiny .zero))
  rw [Service.offer_checked checked] at offered
  have taken := (offered.alone rfl (.step (.enter rfl))).alone rfl (.step .take)
  have ready : ((s.receive [⟨0, .tiny .zero⟩]).observe 0).isReady 0 = true := by
    simp [Server.isReady, Server.observe, Server.receive, idle, collector, Collector.new,
      Collector.observe, Collector.isReady]
  have drained := taken.alone rfl (.step (.drained 0 (.inr rfl)))
  have calling := drained.alone rfl (.step (.call 0 ready))
  obtain ⟨_, _, threads⟩ := safe _ _ calling
  obtain ⟨_, _, run, _⟩ := threads _ (List.mem_singleton.mpr rfl)
  obtain ⟨_, _, unbroken, _⟩ := run rfl
  refine ⟨_, e, _, _, started, listed, calling, rfl, rfl, rfl, ?_, unbroken⟩
  simp [Server.observe, Server.receive, idle]

end Session

end BoardEval
