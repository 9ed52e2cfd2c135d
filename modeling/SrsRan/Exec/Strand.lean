import SrsRan.Lib.Run
import Mathlib.Data.List.Basic

/-!
# Task strands

`task_strand` with its two lock policies, as threads that interleave at the accesses to the queue of tasks and to the word
of the lock policy.  A `Worker` takes tasks from the queue: a job, or a caller or job in `handle_failed_task_dispatch`.

The queue is a FIFO whose pop succeeds when it holds an element.  The wrapped executor may refuse a job, and runs one that
it took at any later time.  A batch limit of `numeric_limits::max()` is `none`, the counter is not bounded, and a
compare-and-exchange does not fail spuriously.
-/

namespace SrsRan.Exec

/-- What a worker is there for. -/
inductive Purpose where
  /-- `run_enqueued_tasks`, with what is left of the batch -/
  | run (maxPops : Option ℕ)
  /-- `handle_failed_task_dispatch`, in the call that pushed the task or in a job -/
  | drop (call : Option ℕ)
deriving DecidableEq

/-- Where a worker stands. -/
inductive Pc where
  | start
  /-- in `get_queue_size`, which found no task after it had set the lock bit -/
  | locking
  /-- in the loop over the queue: `left` tasks to pop, and `popped` done -/
  | popping (queueSize left popped : ℕ)
  | inTask (queueSize left popped : ℕ) (task : ℕ)
  /-- in `on_task_completion`, going to clear the lock bit -/
  | unlocking
  /-- in `dispatch_value_dequeue_task` -/
  | yielding
deriving DecidableEq

structure Worker where
  purpose : Purpose
  pc : Pc
deriving DecidableEq

/-- The shared memory, and the histories that no step reads. -/
structure Shared where
  queue : List ℕ
  count : ℕ
  locked : Bool
  log : List ℕ
  /-- history: the tasks in the order of their pops, and whether they were run -/
  taken : List (ℕ × Bool)
  accepted : List ℕ
  refused : List ℕ
deriving DecidableEq

/-- The strand, with its calls and jobs. -/
structure Strand extends Shared where
  /-- calls that have pushed their task and have not counted it -/
  pushed : List ℕ
  /-- calls that acquired the strand and have not dispatched a job -/
  acquired : List ℕ
  workers : List Worker
deriving DecidableEq

/-- The parameters of a strand: the lock policy and the batch limit. -/
structure StrandConfig where
  /-- `force_dispatch_strand_lock` instead of `basic_strand_lock` -/
  force : Bool
  maxBatch : Option ℕ
  /-- the assertion of the constructor -/
  batch_ok : force = true → maxBatch = none

/-- Threads choose their next step; the executor takes a job or not (`ok`). -/
inductive StrandAction where
  | push (task : ℕ)
  | full (task : ℕ)
  | onNewTask (task : ℕ)
  | dispatch (task : ℕ) (ok : Bool)
  /-- the next step of a worker; `ok` matters in `dispatch_value_dequeue_task` only -/
  | work (i : ℕ) (ok : Bool)
deriving DecidableEq

/-- The thread of an action is not at the point where it could take it. -/
inductive NotEnabled where
  | notEnabled
deriving DecidableEq

namespace Strand

variable (cfg : StrandConfig)

def init : Strand where
  queue := []
  count := 0
  locked := false
  log := []
  taken := []
  accepted := []
  refused := []
  pushed := []
  acquired := []
  workers := []

def Purpose.maxCount : Purpose → ℕ → ℕ
  | .run (some maxPops), queueSize => min queueSize maxPops
  | .run none, queueSize => queueSize
  | .drop _, queueSize => queueSize

def Purpose.minus : Purpose → ℕ → Purpose
  | .run (some maxPops), n => .run (some (maxPops - n))
  | p, _ => p

def enter (w : Worker) (queueSize : ℕ) : Option Worker :=
  if queueSize = 0 then none
  else some { w with pc := .popping queueSize (Purpose.maxCount w.purpose queueSize) 0 }

def afterCompletion (w : Worker) (queueSize : ℕ) : Option Worker :=
  if w.purpose = .run (some 0) ∧ queueSize > 0 then some { w with pc := .yielding } else enter w queueSize

variable (s : Shared)

def getQueueSize (w : Worker) : Shared × Option Worker :=
  if cfg.force then
    if s.locked then (s, none)
    else if s.count = 0 then ({ s with locked := true }, some { w with pc := .locking })
    else ({ s with locked := true }, enter w s.count)
  else (s, enter w s.count)

def onTaskCompletion (w : Worker) (n : ℕ) : Shared × Option Worker :=
  let w := { w with purpose := Purpose.minus w.purpose n }
  let s := { s with count := s.count - n }
  if cfg.force ∧ s.count = 0 then (s, some { w with pc := .unlocking })
  else (s, afterCompletion w s.count)

def tryUnlock (next : ℕ → Option Worker) : Shared × Option Worker :=
  if s.count = 0 then ({ s with locked := false }, none) else (s, next s.count)

def popTask (w : Worker) (queueSize left popped : ℕ) : Shared × Option Worker :=
  match s.queue, w.purpose with
  | t :: rest, .run _ =>
    ({ s with queue := rest, taken := s.taken ++ [(t, true)] },
      some { w with pc := .inTask queueSize left (popped + 1) t })
  | t :: rest, .drop _ =>
    ({ s with queue := rest, taken := s.taken ++ [(t, false)] },
      some { w with pc := .popping queueSize left (popped + 1) })
  | [], .run _ => (s, some { w with pc := .popping queueSize 0 queueSize })
  | [], .drop _ => (s, some { w with pc := .popping queueSize 0 popped })

/-- One atomic access of a worker; `ok` says whether the executor accepts its job. -/
def workerStep (w : Worker) (ok : Bool) : Shared × Option Worker :=
  match w.pc with
  | .start => getQueueSize cfg s w
  | .locking => tryUnlock s (enter w)
  | .popping queueSize (left + 1) popped => popTask s w queueSize left popped
  | .popping _ 0 popped => onTaskCompletion cfg s w popped
  | .inTask queueSize left popped _ => (s, some { w with pc := .popping queueSize left popped })
  | .unlocking => tryUnlock s (afterCompletion w)
  | .yielding =>
    -- the new job takes the place of this one
    (s, some { purpose := if ok then .run cfg.maxBatch else .drop none, pc := .start })

def finish (w : Worker) : Shared :=
  match w.purpose with
  | .drop (some t) => { s with refused := s.refused ++ [t] }
  | _ => s

def acquires : Bool := if cfg.force then !s.locked else s.count = 0

def step (s : Strand) : StrandAction → Except NotEnabled Strand
  | .push t =>
    if t ∈ s.log ∨ t ∈ s.refused then .error .notEnabled
    else .ok { s with queue := s.queue ++ [t], log := s.log ++ [t], pushed := s.pushed ++ [t] }
  | .full t =>
    if t ∈ s.log ∨ t ∈ s.refused then .error .notEnabled else .ok { s with refused := s.refused ++ [t] }
  | .onNewTask t =>
    if t ∈ s.pushed then
      if acquires cfg s.toShared then
        .ok { s with count := s.count + 1, pushed := s.pushed.erase t, acquired := s.acquired ++ [t] }
      else .ok { s with count := s.count + 1, pushed := s.pushed.erase t, accepted := s.accepted ++ [t] }
    else .error .notEnabled
  | .dispatch t ok =>
    if t ∈ s.acquired then
      if ok then
        .ok { s with
          acquired := s.acquired.erase t, accepted := s.accepted ++ [t],
          workers := s.workers ++ [{ purpose := .run cfg.maxBatch, pc := .start }] }
      else
        .ok { s with
          acquired := s.acquired.erase t, workers := s.workers ++ [{ purpose := .drop (some t), pc := .start }] }
    else .error .notEnabled
  | .work i ok =>
    match s.workers[i]? with
    | none => .error .notEnabled
    | some w =>
      let r := workerStep cfg s.toShared w ok
      match r.2 with
      | some w' => .ok { s with toShared := r.1, workers := s.workers.set i w' }
      | none => .ok { s with toShared := finish r.1 w, workers := s.workers.eraseIdx i }

end Strand

end SrsRan.Exec
