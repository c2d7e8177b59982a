import BoardEval.Proofs.Sessions

/-!
# Shutting an evaluator down

A shutdown has the evaluator to itself. It clears the flag, waits until every thread has
stopped, lets go of the jobs that are still queued, and returns; then submitters may come
again. So every request that was accepted before it returned is settled: an answer was
sent, or its job was let go and the submitter learns of it.

The evaluator keeps both ends of its queue, and so a request that comes after the
shutdown is accepted still. No thread is left to take its job, and unless there is
another shutdown its submitter waits in vain. What is settled in an evaluator that was
shut down is therefore exactly what was accepted before the shutdown returned.

Nothing is assumed of the engine here. A call of it may end in any way, and one that
breaks a promise stops the thread, which lets go of its batch. The bound of the queue
is left out, as it is for worlds: all it does is make submitters wait.
-/

namespace BoardEval

namespace Thread

/-- The steps of a thread whose engine may do anything. -/
inductive Act (running : Bool) : List Job → Thread → List Job → Thread → Output → Prop where
  | step {queue queue' t t' out} (step : Step running queue t queue' t' out) :
    Act running queue t queue' t' out
  /-- A call that broke no promise. -/
  | run {queue s net} (forward : Forward)
    (kept : ∀ broken, (s.execution forward).result ≠ .error (.fault broken)) :
    Act running queue ⟨s, net, .calling⟩ queue
      ⟨(s.runPending forward).1, net, .sending (s.runPending forward).2⟩ .nothing
  /-- A call that broke a promise. -/
  | crash {queue s net} (forward : Forward) (broken : Fault)
    (ended : (s.execution forward).result = .error (.fault broken)) :
    Act running queue ⟨s, net, .calling⟩ queue ⟨(s.runPending forward).1, net, .stopped⟩
      ⟨[], [], s.pending⟩

section

variable {running : Bool} {queue queue' : List Job} {t t' : Thread} {out : Output}

/-- Every act conserves tickets: a batch that fails or faults gives its jobs off as
well. -/
theorem Act.conserves (act : Act running queue t queue' t' out) :
    Conserves queue t queue' t' out := by
  cases act with
  | step step => exact step.conserves
  | run forward kept => exact .ran forward []
  | crash forward broken ended => exact .released rfl rfl

/-- A thread that has stopped acts no more. -/
theorem Act.going (act : Act running queue t queue' t' out) : t.phase ≠ .stopped := by
  cases act with
  | step step => cases step <;> exact nofun
  | run forward kept => exact nofun
  | crash forward broken ended => exact nofun

/-- A thread stops with empty hands. -/
theorem Act.rested (act : Act running queue t queue' t' out) (stopped : t'.phase = .stopped) :
    t'.tickets = [] := by
  cases act with
  | step step =>
    cases step with
    | leave closed => rfl
    | _ => exact nomatch stopped
  | run forward kept => exact nomatch stopped
  | crash forward broken ended => rfl

end

/-- A thread at the head of its loop, once it has read that the evaluator is shut down. -/
def stop (t : Thread) : Thread := ⟨{ t.server with pending := [] }, t.net, .stopped⟩

end Thread

/-- How far an evaluator is with its shutdown. -/
inductive Stage where
  | serving
  /-- The shutdown is under way, and there are no submitters. -/
  | closing
  /-- The shutdown has returned. -/
  | closed

/-- An evaluator and its users. -/
structure Service where
  world : World
  stage : Stage
  /-- How many requests had been accepted when a shutdown returned the last time. -/
  settled : Nat

/-- The submitter of a ticket was sent an answer or learns that there will be none. -/
def World.Resolved (w : World) (ticket : Nat) : Prop :=
  ticket ∈ w.replies.map (·.1) ∨ ticket ∈ w.dropped.map (·.ticket)

namespace Service

/-- The service of an evaluator that has just started. -/
def start (e : Evaluator) (nets : Nat → RowNet) : Service := ⟨.start e nets, .serving, 0⟩

/-- The steps of a service. Submitting and shutting down need an evaluator that is not
being shut down; the threads act at any time. A shutdown waits for all threads before it
empties the queue, and returns when the queue is empty. -/
inductive Step : Service → Service → Prop where
  | submit {w : World} {stage : Stage} {settled : Nat} (request : Request)
    (free : stage ≠ .closing) (checked : w.evaluator.check request = .ok ()) :
    Step ⟨w, stage, settled⟩ ⟨{ w with
      queue := w.queue ++ [⟨w.accepted.length, request⟩]
      accepted := w.accepted ++ [request] }, stage, settled⟩
  | shutdown {w : World} {stage : Stage} {settled : Nat} (free : stage ≠ .closing) :
    Step ⟨w, stage, settled⟩ ⟨{ w with running := false }, .closing, settled⟩
  | thread {w : World} {stage : Stage} {settled : Nat} {front back : List Thread}
    {t t' : Thread} {queue : List Job} {out : Thread.Output}
    (here : w.threads = front ++ t :: back) (act : t.Act w.running w.queue queue t' out) :
    Step ⟨w, stage, settled⟩ ⟨{ w with
      queue := queue
      threads := front ++ t' :: back
      batches := w.batches ++ out.batches
      replies := w.replies ++ out.replies
      dropped := w.dropped ++ out.dropped }, stage, settled⟩
  | discard {w : World} {settled : Nat} {job : Job} {rest : List Job}
    (stopped : ∀ t ∈ w.threads, t.phase = .stopped) (first : w.queue = job :: rest) :
    Step ⟨w, .closing, settled⟩
      ⟨{ w with queue := rest, dropped := w.dropped ++ [job] }, .closing, settled⟩
  | finish {w : World} {settled : Nat} (stopped : ∀ t ∈ w.threads, t.phase = .stopped)
    (empty : w.queue = []) : Step ⟨w, .closing, settled⟩ ⟨w, .closed, w.accepted.length⟩

/-- The states that the service of an evaluator can come to. -/
inductive Reachable (e : Evaluator) (nets : Nat → RowNet) : Service → Prop where
  | start : Reachable e nets (start e nets)
  | step {v v' : Service} (reached : Reachable e nets v) (step : Step v v') :
    Reachable e nets v'

/-! ## A shutdown from beginning to end -/

/-- The world after idle threads have read that it is shut down. -/
def halted (w : World) : World :=
  { w with
    running := false
    threads := w.threads.map .stop
    dropped := w.dropped ++ w.threads.flatMap (·.server.pending) }

/-- The world after its queue was let go. -/
def emptied (w : World) : World := { w with queue := [], dropped := w.dropped ++ w.queue }

section

variable {e : Evaluator} {nets : Nat → RowNet} {w : World} {settled : Nat}

/-- Idle threads leave one after the other. -/
theorem Reachable.leaves {front back : List Thread}
    (reached : Reachable e nets ⟨{ w with threads := front ++ back }, .closing, settled⟩)
    (closed : w.running = false) (idle : ∀ t ∈ back, t.phase = .head) :
    Reachable e nets ⟨{ w with
      threads := front ++ back.map .stop
      dropped := w.dropped ++ back.flatMap (·.server.pending) }, .closing, settled⟩ := by
  induction back generalizing front w with
  | nil => simpa using reached
  | cons t rest inductionHypothesis =>
    obtain ⟨s, net, phase⟩ := t
    obtain rfl : phase = .head := idle _ List.mem_cons_self
    have left := reached.step (.thread rfl (.step (.leave closed)))
    have moved : Reachable e nets ⟨{ { w with dropped := w.dropped ++ s.pending } with
        threads := (front ++ [Thread.stop ⟨s, net, .head⟩]) ++ rest }, .closing, settled⟩ := by
      simpa [Thread.stop] using left
    have gone := inductionHypothesis (w := { w with dropped := w.dropped ++ s.pending }) moved
      closed fun t member => idle t (List.mem_cons_of_mem _ member)
    simpa using gone

/-- When all threads have stopped, the queue is emptied. -/
theorem Reachable.empties (reached : Reachable e nets ⟨w, .closing, settled⟩)
    (stopped : ∀ t ∈ w.threads, t.phase = .stopped) :
    Reachable e nets ⟨emptied w, .closing, settled⟩ := by
  generalize queued : w.queue = queue
  induction queue generalizing w with
  | nil =>
    have same : emptied w = w := by rw [emptied, queued, List.append_nil, ← queued]
    rw [same]
    exact reached
  | cons job rest inductionHypothesis =>
    have moved := reached.step (.discard stopped queued)
    have emptied := inductionHypothesis moved stopped rfl
    simpa [Service.emptied, queued] using emptied

/-- A shutdown that comes while no thread is in the middle of a turn lets go of what the
threads and the queue have, and returns. -/
theorem Reachable.shutDown {stage : Stage} (reached : Reachable e nets ⟨w, stage, settled⟩)
    (free : stage ≠ .closing) (idle : ∀ t ∈ w.threads, t.phase = .head) :
    Reachable e nets ⟨emptied (halted w), .closed, w.accepted.length⟩ := by
  have stopped : ∀ t ∈ (halted w).threads, t.phase = .stopped := by
    intro t member
    obtain ⟨_, _, rfl⟩ := List.mem_map.mp member
    rfl
  have closing : Reachable e nets
      ⟨{ w with running := false, threads := [] ++ w.threads }, .closing, settled⟩ :=
    reached.step (.shutdown free)
  have left : Reachable e nets ⟨halted w, .closing, settled⟩ :=
    Reachable.leaves (w := { w with running := false }) closing rfl idle
  exact (left.empties stopped).step (.finish stopped rfl)

end

/-- In the first state no thread is in the middle of a turn. -/
theorem start_idle (e : Evaluator) (nets : Nat → RowNet) :
    ∀ t ∈ (start e nets).world.threads, t.phase = .head := by
  intro t member
  obtain ⟨_, _, _, rfl⟩ := World.mem_start member
  rfl

/-! ## What a shutdown settles -/

/-- What holds after a shutdown has returned: no thread is left, and the queue has the
requests that were accepted since. -/
structure Ended (v : Service) : Prop where
  stopped : ∀ t ∈ v.world.threads, t.phase = .stopped
  settled : v.settled ≤ v.world.accepted.length
  late : v.world.queue.map (·.ticket) =
    List.range' v.settled (v.world.accepted.length - v.settled)

/-- The invariant of a service. -/
structure Sound (v : Service) : Prop where
  tickets : v.world.tickets.Perm (List.range v.world.accepted.length)
  rested : ∀ t ∈ v.world.threads, t.phase = .stopped → t.tickets = []
  ended : v.stage = .closed → v.Ended

/-- A service that was just started is sound. -/
theorem start_sound {e : Evaluator} (started : e.Started) (nets : Nat → RowNet) :
    (start e nets).Sound where
  tickets := by
    simp only [start, World.start_tickets started]
    exact .refl _
  rested := by
    intro t member stopped
    obtain ⟨_, _, _, rfl⟩ := World.mem_start member
    exact nomatch stopped
  ended := nofun

/-- A request that comes after the shutdown is late. -/
theorem Ended.submitted {w : World} {stage : Stage} {settled : Nat}
    (ended : Ended ⟨w, stage, settled⟩) (request : Request) :
    Ended ⟨{ w with
      queue := w.queue ++ [⟨w.accepted.length, request⟩]
      accepted := w.accepted ++ [request] }, stage, settled⟩ := by
  have bound : settled ≤ w.accepted.length := ended.settled
  have late : w.queue.map (·.ticket) = List.range' settled (w.accepted.length - settled) :=
    ended.late
  refine ⟨ended.stopped, ?_, ?_⟩
  · simp only [List.length_append, List.length_singleton]
    omega
  · have more : w.accepted.length + 1 - settled = w.accepted.length - settled + 1 := by omega
    have last : settled + 1 * (w.accepted.length - settled) = w.accepted.length := by omega
    simp only [List.map_append, late, List.length_append, List.length_singleton, more,
      List.range'_concat, last, List.map_cons, List.map_nil]

/-- Every step keeps a service sound. -/
theorem step_sound {v v' : Service} (sound : v.Sound) (step : Step v v') : v'.Sound := by
  have tickets := sound.tickets
  cases step with
  | submit request free checked =>
    exact ⟨World.submit_tickets tickets request, sound.rested,
      fun closed => (sound.ended closed).submitted request⟩
  | shutdown free => exact ⟨tickets, sound.rested, nofun⟩
  | @thread w stage settled front back t t' queue out here act =>
    have known : ∀ other ∈ front ++ t :: back, other.phase = .stopped → other.tickets = [] :=
      here ▸ sound.rested
    refine ⟨(World.thread_tickets here act.conserves).trans tickets, ?_, ?_⟩
    · intro other member stopped
      rcases World.mem_exchanged member with rfl | old
      · exact act.rested stopped
      · exact known other old stopped
    · intro closed
      have stopped := (sound.ended closed).stopped t (here ▸ by simp)
      exact absurd stopped act.going
  | discard stopped first =>
    exact ⟨(World.discard_tickets first).trans tickets, sound.rested, nofun⟩
  | finish stopped empty =>
    refine ⟨tickets, sound.rested, fun _ => ⟨stopped, Nat.le_refl _, ?_⟩⟩
    simp [empty]

/-- A service is sound after any steps. The induction is on them. -/
theorem Reachable.sound {e : Evaluator} {nets : Nat → RowNet} {v : Service}
    (reached : Reachable e nets v) (started : e.Started) : v.Sound := by
  induction reached with
  | start => exact start_sound started nets
  | step _ step sound => exact step_sound sound step

/-- After a shutdown a ticket is resolved if it was given before the shutdown returned,
and only then. No thread has one in its hands, so each is in the queue or resolved, and
not both. -/
theorem Sound.resolved_iff {v : Service} (sound : v.Sound) (closed : v.stage = .closed)
    {ticket : Nat} (accepted : ticket < v.world.accepted.length) :
    v.world.Resolved ticket ↔ ticket < v.settled := by
  have ended := sound.ended closed
  have idle : v.world.threads.flatMap (·.tickets) = [] := by
    rw [List.flatMap_eq_nil_iff]
    exact fun t member => sound.rested t member (ended.stopped t member)
  have places := sound.tickets
  rw [World.tickets, idle, List.append_nil, List.append_assoc, ended.late] at places
  have apart := (List.nodup_append.mp (places.nodup_iff.mpr List.nodup_range)).2.2
  have resolved : v.world.Resolved ticket ↔
      ticket ∈ v.world.replies.map (·.1) ++ v.world.dropped.map (·.ticket) :=
    List.mem_append.symm
  constructor
  · intro settled
    apply Nat.lt_of_not_le
    intro late
    have queued : ticket ∈
        List.range' v.settled (v.world.accepted.length - v.settled) := by
      rw [List.mem_range'_1]
      omega
    exact apart ticket queued ticket (resolved.mp settled) rfl
  · intro early
    have somewhere := places.mem_iff.mpr (List.mem_range.mpr accepted)
    rcases List.mem_append.mp somewhere with queued | settled
    · rw [List.mem_range'_1] at queued
      omega
    · exact resolved.mpr settled

/-- In every state in which a shutdown has returned, all threads have stopped, and of the
accepted requests exactly those are settled that were accepted before it returned: the
later ones are all still queued. So nothing is left over if and only if nothing was
accepted since. -/
theorem shutdown_settles {e : Evaluator} {nets : Nat → RowNet} {v : Service}
    (started : e.Started) (reached : Reachable e nets v) (closed : v.stage = .closed) :
    (∀ t ∈ v.world.threads, t.phase = .stopped) ∧
      v.world.queue.map (·.ticket) =
        List.range' v.settled (v.world.accepted.length - v.settled) ∧
      (∀ ticket < v.world.accepted.length,
        v.world.Resolved ticket ↔ ticket < v.settled) ∧
      ((v.world.queue = [] ∧ ∀ ticket < v.world.accepted.length, v.world.Resolved ticket) ↔
        v.world.accepted.length = v.settled) := by
  have sound := reached.sound started
  have ended := sound.ended closed
  have bound := ended.settled
  have length : v.world.queue.length = v.world.accepted.length - v.settled := by
    simpa using congrArg List.length ended.late
  refine ⟨ended.stopped, ended.late, fun ticket => sound.resolved_iff closed, ?_⟩
  constructor
  · rintro ⟨empty, -⟩
    rw [empty, List.length_nil] at length
    omega
  · intro same
    refine ⟨List.eq_nil_of_length_eq_zero (by omega), ?_⟩
    intro ticket accepted
    exact (sound.resolved_iff closed accepted).mpr (same ▸ accepted)

/-- A request that came before the shutdown was let go, one that came after it waits. -/
theorem shutdown_settles_tiny :
    World.tinyEvaluator.Started ∧
      ∃ v, Reachable World.tinyEvaluator (fun _ => .echo Handle.tiny.shape) v ∧
        v.stage = .closed ∧ v.world.accepted.length = 2 ∧ v.settled = 1 ∧
        v.world.Resolved 0 ∧ ¬ v.world.Resolved 1 := by
  have begun : Reachable World.tinyEvaluator (fun _ => .echo Handle.tiny.shape) _ := .start
  have early := begun.step (.submit (.tiny .zero) nofun World.tinyEvaluator_checks)
  have ended := early.shutDown nofun (start_idle _ _)
  have late := ended.step (.submit (.tiny .zero) nofun World.tinyEvaluator_checks)
  obtain ⟨_, _, resolved, _⟩ := shutdown_settles World.tinyEvaluator_started late rfl
  refine ⟨World.tinyEvaluator_started, _, late, rfl, rfl, rfl, ?_, ?_⟩
  · exact (resolved 0 Nat.zero_lt_two).mpr Nat.zero_lt_one
  · intro second
    exact absurd ((resolved 1 Nat.one_lt_two).mp second) (Nat.lt_irrefl 1)

/-- The tiny evaluator, shut down at once, after it has accepted a request since. -/
def tinyLate : Service where
  world := { halted (.start World.tinyEvaluator fun _ => .echo Handle.tiny.shape) with
    queue := [⟨0, .tiny .zero⟩]
    accepted := [.tiny .zero] }
  stage := .closed
  settled := 0

/-- Its shutdown has returned, and yet there is a job in the queue whose submitter was
neither answered nor disconnected. -/
theorem late_request_unresolved :
    World.tinyEvaluator.Started ∧
      Reachable World.tinyEvaluator (fun _ => .echo Handle.tiny.shape) tinyLate ∧
      tinyLate.stage = .closed ∧ tinyLate.world.queue ≠ [] ∧
      0 < tinyLate.world.accepted.length ∧ ¬ tinyLate.world.Resolved 0 := by
  have begun : Reachable World.tinyEvaluator (fun _ => .echo Handle.tiny.shape) _ := .start
  have ended := begun.shutDown nofun (start_idle _ _)
  have late := ended.step (.submit (.tiny .zero) nofun World.tinyEvaluator_checks)
  refine ⟨World.tinyEvaluator_started, late, rfl, nofun, Nat.zero_lt_one, ?_⟩
  rintro (answered | dropped)
  · exact nomatch answered
  · exact nomatch dropped

end Service

/-! ## Sessions -/

namespace Session

variable {ε : Type} {s : Session ε} {number : Nat} {e : Evaluator}

variable [Engine ε]

/-- Without servers a round changes nothing, and settling it neither. -/
theorem settle_deserted (known : s.evaluator? number = some e) (deserted : e.servers = [])
    (now : Nat) :
    s.settle number e (e.round s.registry now).1 (e.round s.registry now).2 = s := by
  have there : s.evaluators[number]? = some (some e) := Option.join_eq_some_iff.mp known
  have same : s.evaluators.setIfInBounds number (some e) = s.evaluators := by
    apply Array.ext_getElem?
    intro other
    rcases Nat.decEq number other with apart | rfl
    · exact Array.getElem?_setIfInBounds_ne apart
    · have inside := (Array.getElem?_eq_some_iff.mp there).1
      rw [Array.getElem?_setIfInBounds_self_of_lt inside, there]
  simp [Evaluator.round, settle, deliver, closeServers, deserted, same]

/-- However long a submitter waits for an evaluator without servers, no reply comes. -/
theorem passTime_deserted {ticket : Nat} (known : s.evaluator? number = some e)
    (deserted : e.servers = []) (waiting : (s.tickets[ticket]?).map Ticket.reply = some .waiting)
    (fuel : Nat) :
    ((passTime number ticket fuel s).tickets[ticket]?).map Ticket.reply = some .waiting := by
  induction fuel generalizing s with
  | zero => exact waiting
  | succ fuel inductionHypothesis =>
    let later := { s with clock := s.clock + e.batchWait }
    have settled := settle_deserted (s := later) known deserted later.clock
    simp only [passTime, waiting, known]
    rw [settled]
    exact inductionHypothesis known waiting

/-- Waiting for a job that was queued after the last server had gone ends without a
reply. -/
theorem await_deserted {ticket : Nat} (known : s.evaluator? number = some e)
    (deserted : e.servers = []) (listed : s.tickets[ticket]? = some ⟨number, .waiting⟩) :
    (s.await ticket).2 = .waiting := by
  have waiting : (s.tickets[ticket]?).map Ticket.reply = some .waiting := by rw [listed]; rfl
  simp only [await, listed, known, passTime_deserted known deserted waiting, Option.getD_some]

/-- A shutdown leaves an evaluator behind that has no servers and checks requests as
before. -/
theorem shutdown_deserted (known : s.evaluator? number = some e) :
    (s.shutdown number).evaluator? number =
      some { e with running := false, queue := [], servers := [] } := by
  rw [shutdown, known]
  exact evaluator?_replaced known _

/-- Without servers a checked request is accepted and queued, and that is all. -/
theorem submit_deserted {request : Request} (known : s.evaluator? number = some e)
    (deserted : e.servers = []) (checked : e.check request = .ok ()) :
    s.submit number request = ({ s with
      tickets := s.tickets.push ⟨number, .waiting⟩
      evaluators := s.evaluators.setIfInBounds number
        (some { e.enqueue ⟨s.tickets.size, request⟩ with next := 0 }) },
      .ok s.tickets.size) := by
  simp [submit, known, checked, Evaluator.turn, Evaluator.turnOf, Evaluator.enqueue, deserted,
    settle, deliver, closeServers]

/-- After a shutdown, a request that passes the check is still accepted, and whoever
evaluates it waits for ever. -/
theorem evaluate_after_shutdown {request : Request} (known : s.evaluator? number = some e)
    (checked : e.check request = .ok ()) :
    ((s.shutdown number).evaluate number request).2 = .ok .waiting := by
  have ended := shutdown_deserted known
  rw [evaluate, submit_deserted ended rfl checked]
  exact congrArg Except.ok
    (await_deserted (evaluator?_replaced ended _) rfl Array.getElem?_push_size)

end Session

end BoardEval
