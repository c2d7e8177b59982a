import BoardEval.Service.Collector
import Mathlib.Data.List.Induction

/-!
# Deadlines of partial batches

A collector is called at readings of a clock: it takes note of the jobs that wait,
is asked whether a batch is ready and how long to wait, and is closed when the batch
has run. The questions leave it as it is, so what it knows is decided by the other
calls: since the last close, the first one that found a job waiting opened the clock.

Nothing but a close moves that opening again, whatever later calls find waiting. The
batch is ready from the opening and the longest wait on, sooner if it is full, and
never if it is empty; and whoever waits as long as the collector says wakes no later.

All of this holds at times that no call before them exceeds, as on a clock that never
runs backwards. The unit of time does not matter.
-/

namespace BoardEval

namespace Collector

/-- A call to a collector. -/
inductive Call where
  | observe (pending : Nat)
  | isReady (pending : Nat)
  | nextWait (idle : Nat)
  | close
  deriving DecidableEq, Repr

/-- A call at a reading of the clock. -/
structure Event where
  time : Nat
  call : Call
  deriving DecidableEq, Repr

/-- The batch has been run. -/
def Event.closes (event : Event) : Bool := event.call == .close

/-- Jobs are found waiting. -/
def Event.finds (event : Event) : Bool :=
  match event.call with
  | .observe pending => decide (0 < pending)
  | _ => false

/-- What a call makes of a collector. -/
def perform (c : Collector) (event : Event) : Collector :=
  match event.call with
  | .observe pending => c.observe pending event.time
  | .isReady _ => c
  | .nextWait _ => c
  | .close => c.close

/-- What a series of calls makes of a collector. -/
def after (c : Collector) (history : List Event) : Collector := history.foldl perform c

/-- The calls since the last close, or since the beginning. -/
def sinceClose (history : List Event) : List Event :=
  (history.reverse.takeWhile fun event => !event.closes).reverse

/-- When jobs were first found waiting. -/
def firstFound (history : List Event) : Option Nat := (history.find? Event.finds).map Event.time

section

variable (c : Collector) (event : Event)

/-- No call changes the capacity. -/
@[simp] theorem perform_capacity : (c.perform event).capacity = c.capacity := by
  unfold perform observe
  split
  · split <;> rfl
  all_goals rfl

/-- No call changes how long a batch waits. -/
@[simp] theorem perform_maxWait : (c.perform event).maxWait = c.maxWait := by
  unfold perform observe
  split
  · split <;> rfl
  all_goals rfl

/-- A close forgets the opening, a find is the opening if there was none, and no other call
changes it. -/
theorem perform_openedAt : (c.perform event).openedAt =
    if event.closes then none
    else c.openedAt.or (if event.finds then some event.time else none) := by
  obtain ⟨time, call⟩ := event
  cases call with
  | observe pending =>
    by_cases found : 0 < pending
    · cases opening : c.openedAt <;>
        simp [perform, observe, Event.closes, Event.finds, found, opening]
    · simp [perform, observe, Event.closes, Event.finds, found]
  | isReady => simp [perform, Event.closes, Event.finds]
  | nextWait => simp [perform, Event.closes, Event.finds]
  | close => simp [perform, close, Event.closes]

variable (history : List Event)

/-- The last event is carried out on what the events before it lead to. -/
theorem after_concat : c.after (history ++ [event]) = (c.after history).perform event := by
  simp [after]

/-- The capacity is the one that the collector was made with. -/
@[simp] theorem after_capacity : (c.after history).capacity = c.capacity := by
  induction history using List.reverseRecOn with
  | nil => rfl
  | append_singleton history event inductionHypothesis =>
    rw [after_concat, perform_capacity, inductionHypothesis]

/-- The wait is the one that the collector was made with. -/
@[simp] theorem after_maxWait : (c.after history).maxWait = c.maxWait := by
  induction history using List.reverseRecOn with
  | nil => rfl
  | append_singleton history event inductionHypothesis =>
    rw [after_concat, perform_maxWait, inductionHypothesis]

end

/-- A closing event starts the history of a batch over; any other event belongs to
the batch. -/
theorem sinceClose_concat (history : List Event) (event : Event) :
    sinceClose (history ++ [event]) =
      if event.closes then [] else sinceClose history ++ [event] := by
  cases closes : event.closes <;> simp [sinceClose, closes]

/-- An event finds the first job only if no event before it has found one. -/
theorem firstFound_concat (history : List Event) (event : Event) :
    firstFound (history ++ [event]) =
      (firstFound history).or (if event.finds then some event.time else none) := by
  rw [firstFound, firstFound, List.find?_append, List.find?_singleton]
  cases history.find? Event.finds <;> cases event.finds <;> rfl

/-- The clock was opened when jobs were first found waiting since the last close. -/
theorem openedAt_after (capacity maxWait : Nat) (history : List Event) :
    ((new capacity maxWait).after history).openedAt = firstFound (sinceClose history) := by
  induction history using List.reverseRecOn with
  | nil => rfl
  | append_singleton history event inductionHypothesis =>
    rw [after_concat, perform_openedAt, inductionHypothesis, sinceClose_concat]
    cases event.closes
    · exact (firstFound_concat _ _).symm
    · rfl

/-- As long as the batch is not closed, its opening stays. -/
theorem openedAt_stays {c : Collector} {opened : Nat} (opening : c.openedAt = some opened)
    {later : List Event} (unclosed : ∀ event ∈ later, event.closes = false) :
    (c.after later).openedAt = some opened := by
  induction later using List.reverseRecOn with
  | nil => exact opening
  | append_singleton later event inductionHypothesis =>
    have earlier := inductionHypothesis fun other listed =>
      unclosed other (List.mem_append_left _ listed)
    have kept := unclosed event (List.mem_append_right _ (List.mem_singleton_self event))
    rw [after_concat, perform_openedAt, kept, earlier]
    rfl

/-- The opening is a time at which the collector was called. -/
theorem firstFound_mem {history : List Event} {opened : Nat}
    (found : firstFound (sinceClose history) = some opened) :
    ∃ event ∈ history, event.time = opened := by
  obtain ⟨event, first, time⟩ := Option.map_eq_some_iff.mp found
  have listed := List.mem_of_find?_eq_some first
  have recent := List.mem_reverse.mp listed
  exact ⟨event, List.mem_reverse.mp ((List.takeWhile_sublist _).subset recent), time⟩

/-- When a batch is ready. -/
theorem isReady_iff (c : Collector) (pending now : Nat) : c.isReady pending now = true ↔
    0 < pending ∧ (c.capacity ≤ pending ∨
      ∃ opened, c.openedAt = some opened ∧ c.maxWait ≤ now - opened) := by
  unfold isReady
  by_cases empty : pending = 0
  · simp [empty]
  by_cases full : c.capacity ≤ pending
  · simp [empty, full, Nat.pos_of_ne_zero empty]
  · cases opening : c.openedAt <;> simp [empty, full, Nat.pos_of_ne_zero empty]

/-- A server looks at its queue again after the idle time at the latest, also if the
deadline is farther away. -/
theorem nextWait_le_idle (c : Collector) (idle now : Nat) : c.nextWait idle now ≤ idle := by
  unfold nextWait
  split
  · exact Nat.min_le_right _ _
  · exact Nat.le_refl _

/-- Who waits as long as the collector says wakes at the deadline, unless it has passed. -/
theorem wake_le_deadline {c : Collector} {opened now : Nat} (opening : c.openedAt = some opened)
    (begun : opened ≤ now) (early : now - opened < c.maxWait) (idle : Nat) :
    now + c.nextWait idle now ≤ opened + c.maxWait := by
  have short : c.nextWait idle now ≤ c.maxWait - (now - opened) := by
    rw [nextWait, opening]
    exact Nat.min_le_left _ _
  omega

/-- What a collector with a history promises at a time: when the batch was opened, that nothing
but a close moves the opening, that waiting does not outlast the deadline, and that the batch is
ready at the deadline and ever after, and before it if it is full. -/
structure Punctual (capacity maxWait : Nat) (history : List Event) (now : Nat) (c : Collector) :
    Prop where
  opening : c.openedAt = firstFound (sinceClose history)
  fixed : ∀ opened later, c.openedAt = some opened → (∀ event ∈ later, event.closes = false) →
    (c.after later).openedAt = some opened
  wakes : ∀ opened pending idle, c.openedAt = some opened → 0 < pending → pending < capacity →
    c.isReady pending now = false → now + c.nextWait idle now ≤ opened + maxWait
  polls : ∀ idle, c.nextWait idle now ≤ idle
  ready : ∀ pending, c.isReady pending now = true ↔ 0 < pending ∧
    (capacity ≤ pending ∨ ∃ opened, c.openedAt = some opened ∧ opened + maxWait ≤ now)
  due : ∀ opened later pending moment, c.openedAt = some opened →
    (∀ event ∈ later, event.closes = false) → opened + maxWait ≤ moment → 0 < pending →
    (c.after later).isReady pending moment = true

/-- Whatever calls a collector has had, it is punctual at every time from then on.

Proof: the time at which the batch was opened is the time of the first event that
found a job since the last close. No event lies in the future, so the time that has
passed is a difference without loss, and each promise is a comparison with the wait. -/
theorem punctual (capacity maxWait : Nat) {history : List Event} {now : Nat}
    (past : ∀ event ∈ history, event.time ≤ now) :
    Punctual capacity maxWait history now ((new capacity maxWait).after history) := by
  have sameCapacity : ((new capacity maxWait).after history).capacity = capacity :=
    after_capacity _ _
  have sameWait : ((new capacity maxWait).after history).maxWait = maxWait := after_maxWait _ _
  have opening := openedAt_after capacity maxWait history
  generalize (new capacity maxWait).after history = c at *
  have begun {opened : Nat} (known : c.openedAt = some opened) : opened ≤ now := by
    obtain ⟨event, listed, rfl⟩ := firstFound_mem (opening ▸ known)
    exact past event listed
  constructor
  case opening => exact opening
  case fixed => exact fun opened later known unclosed => openedAt_stays known unclosed
  case wakes =>
    intro opened pending idle known waiting partly unready
    have early : now - opened < c.maxWait := by
      by_contra late
      have ready : c.isReady pending now = true :=
        (c.isReady_iff pending now).mpr ⟨waiting, .inr ⟨opened, known, Nat.not_lt.mp late⟩⟩
      simp [ready] at unready
    have wake := wake_le_deadline known (begun known) early idle
    rwa [sameWait] at wake
  case polls => exact fun idle => c.nextWait_le_idle idle now
  case ready =>
    intro pending
    rw [isReady_iff, sameCapacity, sameWait]
    refine and_congr_right fun _ => or_congr_right (exists_congr fun opened => ?_)
    refine and_congr_right fun known => ?_
    have order := begun known
    omega
  case due =>
    intro opened later pending moment known unclosed deadline waiting
    have wait : (c.after later).maxWait = maxWait := by rw [after_maxWait, sameWait]
    apply (isReady_iff _ _ _).mpr
    refine ⟨waiting, .inr ⟨opened, openedAt_stays known unclosed, ?_⟩⟩
    rw [wait]
    omega

/-- A batch of three that may wait for twenty: jobs come and go, the batch is run, and the next
one is opened by the jobs found at 30, not by the idle look at 27 and not again at 41. -/
def busyHistory : List Event :=
  [⟨3, .observe 2⟩, ⟨9, .observe 1⟩, ⟨9, .isReady 1⟩, ⟨21, .nextWait 10⟩, ⟨23, .isReady 1⟩,
    ⟨23, .close⟩, ⟨27, .observe 0⟩, ⟨27, .nextWait 10⟩, ⟨30, .observe 1⟩, ⟨41, .observe 2⟩]

/-- At 45 the batch has five left, also if it is looked at again before it is due. -/
theorem punctual_busy :
    (∀ event ∈ busyHistory, event.time ≤ 45) ∧
      let c := (new 3 20).after busyHistory
      c.openedAt = some 30 ∧ c.isReady 2 45 = false ∧ 45 + c.nextWait 10 45 ≤ 30 + 20 ∧
        c.isReady 3 45 = true ∧ (c.after [⟨48, .observe 1⟩]).isReady 1 50 = true := by
  have past : ∀ event ∈ busyHistory, event.time ≤ 45 := by decide
  have promises := punctual 3 20 past
  have opened : ((new 3 20).after busyHistory).openedAt = some 30 :=
    promises.opening.trans (by decide)
  have early : ((new 3 20).after busyHistory).isReady 2 45 = false := by decide
  refine ⟨past, opened, early, promises.wakes 30 2 10 opened (by decide) (by decide) early,
    (promises.ready 3).mpr ⟨by decide, .inl (Nat.le_refl 3)⟩,
    promises.due 30 _ 1 50 opened (by decide) (by decide) (by decide)⟩

end Collector

end BoardEval
