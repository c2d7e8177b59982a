import BoardEval.Proofs.Batching
import BoardEval.Service.Evaluator

/-!
# Serving a batch of jobs

A server runs its pending jobs as one batch and answers every one of them, in order:
with the network's answer to its own request if the call of the engine succeeded, and
with the failure of that call if it did not. What a queued request was checked for is
all that a batch of such requests needs, so no promise is ever broken.
-/

namespace BoardEval

/-- A request is let into the queue if it is about the board and its tensors have
the lengths of the network. -/
theorem Evaluator.check_ok_iff (e : Evaluator) (q : Request) :
    e.check q = .ok () ↔
      q.extent = e.board ∧ q.spatial.size = e.spatialLength ∧ q.globals.size = e.globalLength := by
  unfold check
  split
  · simp [*]
  · split
    · rename_i extent tensors
      simp only [reduceCtorEq, false_iff, not_and]
      intro _ spatial globals
      exact tensors.elim (· spatial) (· globals)
    · rename_i extent tensors
      simp only [not_or, Decidable.not_not] at extent tensors
      simp [extent, tensors]

/-- A run of a batch: who served it, which jobs it was made of, how the call of the
engine ended, and what each job is answered. -/
structure Batch where
  handle : Handle
  net : RowNet
  jobs : List Job
  call : Except (Failure EngineError) Unit
  replies : List (Nat × Reply)

namespace Batch

/-- The answer to a job that was evaluated. -/
def evaluated (job : Job) (e : Evaluation) : Nat × Reply := (job.ticket, .answered (.ok e))

/-- The answer to a job whose batch failed: the error of the engine, the same one
for every job. -/
def failed (cause : EngineError) (job : Job) : Nat × Reply :=
  (job.ticket, .answered (.error (.batchFailed (.engine cause))))

/-- The answers of a batch are right: the network's, row for row, or the failure of
its call for every job. The call broke no promise. -/
def Right (b : Batch) : Prop :=
  match b.call with
  | .ok () => ∃ outs, b.handle.Answers b.net (b.jobs.map (·.request)) outs ∧
      b.replies = b.jobs.zipWith evaluated outs
  | .error (.error cause) => b.replies = b.jobs.map (failed cause)
  | .error (.fault _) => False

variable {b : Batch}

/-- With an evaluation for each job, each is answered. -/
theorem evaluated_tickets {jobs : List Job} {outs : List Evaluation}
    (length : outs.length = jobs.length) :
    (jobs.zipWith evaluated outs).map (·.1) = jobs.map (·.ticket) := by
  rw [List.map_zipWith]
  apply List.ext_getElem
  · simp [length]
  · simp [evaluated]

/-- Each job is answered once, in order. -/
theorem Right.tickets (right : b.Right) : b.replies.map (·.1) = b.jobs.map (·.ticket) := by
  unfold Right at right
  split at right
  · obtain ⟨outs, answers, replies⟩ := right
    rw [replies]
    exact evaluated_tickets (answers.length.trans (List.length_map _))
  · rw [right]
    simp [failed]
  · exact right.elim

/-- An answer is an evaluation by the network or the failure of the batch's call. -/
theorem Right.reply (right : b.Right) {ticket : Nat} {reply : Reply}
    (member : (ticket, reply) ∈ b.replies) :
    (∃ job ∈ b.jobs, ∃ e, job.ticket = ticket ∧ reply = .answered (.ok e) ∧
        b.call = .ok () ∧ b.handle.Answer b.net job.request e) ∨
      ∃ job ∈ b.jobs, ∃ cause, (ticket, reply) = failed cause job ∧
        b.call = .error (.error cause) := by
  unfold Right at right
  split at right
  · rename_i call
    obtain ⟨outs, answers, replies⟩ := right
    rw [replies] at member
    obtain ⟨k, inside, here⟩ := List.getElem_of_mem member
    simp only [List.length_zipWith, Nat.lt_min] at inside
    simp only [List.getElem_zipWith, evaluated, Prod.mk.injEq] at here
    obtain ⟨e, there, answer⟩ := answers.rows k b.jobs[k].request
      (by simp [List.getElem?_eq_getElem inside.1])
    obtain rfl : outs[k] = e := by simpa [inside.2] using there
    exact .inl ⟨b.jobs[k], List.getElem_mem _, outs[k], here.1, here.2.symm, call, answer⟩
  · rename_i cause call
    rw [right] at member
    obtain ⟨job, listed, same⟩ := List.mem_map.mp member
    exact .inr ⟨job, listed, cause, same.symm, call⟩
  · exact right.elim

end Batch

namespace Server

variable {s : Server}

/-- The requests of the pending jobs, oldest first. -/
def requests (s : Server) : List Request := s.pending.map (·.request)

/-- How the call of the engine ends for the pending jobs. -/
def call (forward : Forward) (s : Server) : Except (Failure EngineError) Unit :=
  (s.handle.ran forward s.pool s.requests (s.requests.map .forRequest)).result

/-- The execution of the pending jobs as one batch. -/
def execution (forward : Forward) (s : Server) : Execution :=
  s.handle.executeBy forward s.pool s.requests (s.requests.map .forRequest)

/-- The record of running the pending jobs. -/
def batch (forward : Forward) (net : RowNet) (s : Server) : Batch :=
  ⟨s.handle, net, s.pending, s.call forward, (s.runPending forward).2⟩

/-- The replies are made from the jobs and the execution alone. -/
theorem runPending_replies (forward : Forward) :
    (s.runPending forward).2 = answers s.pending (s.execution forward) := rfl

/-- With any pass, and however the batch ends, its jobs get one answer each, in order,
or are let go. -/
theorem answered_tickets (forward : Forward) :
    (s.runPending forward).2.map (·.1) = s.pending.map (·.ticket) := by
  have sized : (s.execution forward).outputs.length = s.pending.length := by
    have evaluations : (s.requests.map Evaluation.forRequest).length = s.requests.length :=
      List.length_map _
    exact (Handle.execute_length evaluations).trans (List.length_map _)
  rw [runPending_replies, answers]
  split
  · exact Batch.evaluated_tickets sized
  · simp
  · simp [disconnect]

/-- A server stops for good only if its batch broke a promise. -/
theorem runPending_alive (forward : Forward)
    (kept : ∀ broken, (s.execution forward).result ≠ .error (.fault broken)) :
    (s.runPending forward).1.alive = s.alive := by
  unfold execution at kept
  unfold runPending
  dsimp only
  split
  · rename_i broken ended
    exact absurd ended (kept broken)
  · rfl

/-- However a batch ends, no job of it is left. -/
theorem runPending_pending (forward : Forward) : (s.runPending forward).1.pending = [] := rfl

/-- The pool that served a batch is still a pool of the handle. -/
theorem runPending_owns (owned : s.handle.Owns s.pool) (forward : Forward) :
    s.handle.Owns (s.runPending forward).1.pool :=
  .used owned s.handle forward _ _

/-- Running pending jobs that fit the handle answers them rightly, and the server
stays alive.

Proof: a call that fails answers every job with its failure. A call that succeeds was
made on requests that fit, so each evaluation is the network's for its own request; a
fault is excluded by what is known of the engine. -/
theorem runPending_right (owned : s.handle.Owns s.pool) (admitted : s.handle.Admits s.requests)
    {forward : Forward} {net : RowNet}
    (rowWise : forward.RowWise s.handle.shape s.handle.maxBatchSize net)
    (faultless : forward.Faultless s.handle.shape s.handle.maxBatchSize) :
    (s.batch forward net).Right ∧ (s.runPending forward).1.alive = s.alive := by
  have fitted := owned.fitted
  have loaded := Handle.load_ok fitted admitted (List.length_map _)
    (Handle.roomy_forRequests admitted.takes)
  cases call : s.call forward with
  | error failure =>
    have ended : s.execution forward = _ := Handle.execute_failed loaded call
    cases failure with
    | fault broken =>
      obtain ⟨shaped, _⟩ := Handle.loaded_inputs fitted loaded
      exact absurd call (faultless _ _ _ broken admitted.positive admitted.limit shaped
        (Handle.loaded_outputs fitted loaded))
    | error cause =>
      constructor
      · simp only [Batch.Right, batch, call]
        rw [runPending_replies, ended]
        rfl
      · apply runPending_alive
        intro broken
        rw [ended]
        simp [Failure.map]
  | ok u =>
    obtain ⟨outs, done, answered⟩ := Handle.evaluations_of_ran fitted rowWise admitted call
    obtain ⟨result, outputs⟩ := Handle.evaluations_ok_iff.mp done
    constructor
    · simp only [Batch.Right, batch, call]
      refine ⟨outs, answered, ?_⟩
      rw [runPending_replies, answers, execution, result, outputs]
      rfl
    · apply runPending_alive
      intro broken
      rw [execution, result]
      exact nofun

end Server

end BoardEval
