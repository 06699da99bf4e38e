import Leoflow.Lib.RWMutex
import Leoflow.Lib.Runs

/-!
# The buffered dispatcher

`BufferedDispatcher` of `internal/dispatch/buffered.go` with a buffer: callers of `Dispatch`, callers
of `Close` and the workers, each at a place of its code. A step is one access to what they share: the
lock, `closed`, the queue, the one-shot `once`, the wait group, or a call of the inner dispatcher or
the sink. Any order of enabled steps is a run. A request is named by the call of `Dispatch` that
carries it, and the lists `passed`, `succeeded`, `failed` and `reported` record what happened to it.
-/

namespace Leoflow

open Lib (RWMutex)

/-- `executor.Disposition`. -/
inductive Disposition where
  | dispatched | backpressure | rejected
deriving DecidableEq

/-- How a call of the inner dispatcher ends. -/
inductive InnerAnswer where
  | accepted
  | error (disposition : Disposition) (cause : String)
  | panic
deriving DecidableEq

/-- What `dispatchOne` reports for an answer; the disposition is not looked at. -/
def InnerAnswer.failure : InnerAnswer → Option String
  | accepted => none
  | error _ cause => some ("dispatch_failed: " ++ cause)
  | panic => some "dispatch_failed: worker panic"

/-- A `BufferConfig` that selects the buffer, and whether there is a sink. -/
structure BufferConfig where
  bufferSize : Nat
  workers : Int
  sink : Bool
  positive : 0 < bufferSize

/-- The workers that are started, at least one. -/
def BufferConfig.poolSize (cfg : BufferConfig) : Nat :=
  if cfg.workers ≤ 0 then 1 else cfg.workers.toNat

/-- Where a call of `Dispatch` is: it holds the read lock from `locked` to `refused`, and is
`admitted` once it has seen that the dispatcher is open. -/
inductive DispatchCall where
  | notCalled
  | locked
  | admitted
  | sent
  | refused
  | returned (accepted : Bool)
deriving DecidableEq

namespace DispatchCall

/-- The call holds the read lock. -/
def holds : DispatchCall → Bool
  | locked | admitted | sent | refused => true
  | _ => false

/-- The request was taken into the buffer. -/
def accepts : DispatchCall → Bool
  | sent | returned true => true
  | _ => false

end DispatchCall

/-- Where a call of `Close` is: inside `once.Do` from `inOnce` to `unlocked`, and then waiting for
the workers or the timeout. -/
inductive CloseCall where
  | notCalled
  | inOnce
  | locked
  | marked
  | cut
  | unlocked
  | waiting
  | returned (drained : Bool)
deriving DecidableEq

namespace CloseCall

/-- The call holds the write lock. -/
def holds : CloseCall → Bool
  | locked | marked | cut => true
  | _ => false

/-- The call is in `closeOnce`. -/
def inside : CloseCall → Bool
  | inOnce | locked | marked | cut | unlocked => true
  | _ => false

/-- The dispatcher is marked as closed. -/
def hasMarked : CloseCall → Bool
  | marked | cut | unlocked => true
  | _ => false

/-- The channel is closed. -/
def hasCut : CloseCall → Bool
  | cut | unlocked => true
  | _ => false

end CloseCall

/-- `sync.Once`. -/
inductive OnceState (ι : Type) where
  | fresh
  | running (c : ι)
  | done

/-- Where a worker is: at the `range`, or in `dispatchOne` before, in and after the inner call. -/
inductive Worker (ι : Type) where
  | idle
  | received (i : ι)
  | calling (i : ι)
  | reporting (i : ι) (reason : String)
  | exited
deriving DecidableEq

namespace Worker

variable {ι : Type}

/-- The request a worker has taken and not passed on. -/
def taken : Worker ι → Option ι
  | received i => some i
  | _ => none

/-- The request whose inner call is under way. -/
def underway : Worker ι → Option ι
  | calling i => some i
  | _ => none

/-- The request whose failure is to be reported. -/
def unreported : Worker ι → Option ι
  | reporting i _ => some i
  | _ => none

end Worker

/-- What decides who may use the queue. `crashed` is a send on the closed queue or a second close of
it. -/
structure Gate (ι : Type) where
  calls : ι → DispatchCall := fun _ => .notCalled
  closes : ι → CloseCall := fun _ => .notCalled
  mu : RWMutex ι ι := {}
  closed : Bool := false
  once : OnceState ι := .fresh
  queueClosed : Bool := false
  crashed : Bool := false

/-- The dispatcher with its callers. -/
structure Buffered (ι : Type) extends Gate ι where
  queue : List ι := []
  pool : List (Worker ι)
  passed : List ι := []
  succeeded : List ι := []
  failed : List ι := []
  reported : List ι := []

/-- The accesses of `Dispatch`. -/
inductive DispatchStep where
  | rLock | readClosed | select | rUnlock
deriving DecidableEq

/-- The accesses of `Close`. -/
inductive CloseStep where
  | enterOnce | lock | setClosed | closeQueue | unlock | leaveOnce | drained | timeout
deriving DecidableEq

/-- The accesses of a worker. -/
inductive WorkerStep (ι : Type) where
  | receive
  | exit
  | call (i : ι)
  | answer (i : ι) (a : InnerAnswer)
  | report (i : ι) (reason : String)
deriving DecidableEq

/-- A step of some party. -/
inductive BufferedAction (ι : Type) where
  | dispatch (i : ι) (s : DispatchStep)
  | close (c : ι) (s : CloseStep)
  | worker (s : WorkerStep ι)
deriving DecidableEq

namespace Buffered

variable {ι : Type} [DecidableEq ι]

/-- The call of `Dispatch` is at another point. -/
def setCall (b : Buffered ι) (i : ι) (p : DispatchCall) : Buffered ι :=
  { b with calls := Function.update b.calls i p }

/-- The call of `Close` is at another point. -/
def setClose (b : Buffered ι) (c : ι) (p : CloseCall) : Buffered ι :=
  { b with closes := Function.update b.closes c p }

/-- One worker goes on; workers that are at the same place are not told apart. -/
def setWorker (b : Buffered ι) (old new : Worker ι) : Buffered ι :=
  { b with pool := new :: b.pool.erase old }

section Fields

variable (b : Buffered ι) (old new : Worker ι)

@[simp] theorem setWorker_queue : (b.setWorker old new).queue = b.queue := rfl

@[simp] theorem setWorker_passed : (b.setWorker old new).passed = b.passed := rfl

@[simp] theorem setWorker_succeeded : (b.setWorker old new).succeeded = b.succeeded := rfl

@[simp] theorem setWorker_failed : (b.setWorker old new).failed = b.failed := rfl

@[simp] theorem setWorker_reported : (b.setWorker old new).reported = b.reported := rfl

@[simp] theorem setWorker_toGate : (b.setWorker old new).toGate = b.toGate := rfl

end Fields

/-- `Dispatch`. -/
def dispatchStep (cfg : BufferConfig) (b : Buffered ι) (i : ι) : DispatchStep → Option (Buffered ι)
  | .rLock =>
    if b.calls i = .notCalled then
      (b.mu.rLock i).map fun mu => { b.setCall i .locked with mu := mu }
    else none
  | .readClosed =>
    if b.calls i = .locked then some (b.setCall i (if b.closed then .refused else .admitted))
    else none
  | .select =>
    if b.calls i = .admitted then
      if b.queueClosed then some { b with crashed := true }
      else if b.queue.length < cfg.bufferSize then
        some { b.setCall i .sent with queue := b.queue ++ [i] }
      else some (b.setCall i .refused)
    else none
  | .rUnlock =>
    match b.calls i with
    | .sent => some { b.setCall i (.returned true) with mu := b.mu.rUnlock i }
    | .refused => some { b.setCall i (.returned false) with mu := b.mu.rUnlock i }
    | _ => none

/-- `Close`. `once.Do` blocks while another call is inside; the wait ends when every worker is done
or at the timeout. -/
def closeStep (b : Buffered ι) (c : ι) : CloseStep → Option (Buffered ι)
  | .enterOnce =>
    if b.closes c = .notCalled then
      match b.once with
      | .fresh => some { b.setClose c .inOnce with once := .running c }
      | .running _ => none
      | .done => some (b.setClose c .waiting)
    else none
  | .lock =>
    if b.closes c = .inOnce then
      (b.mu.lock c).map fun mu => { b.setClose c .locked with mu := mu }
    else none
  | .setClosed =>
    if b.closes c = .locked then some { b.setClose c .marked with closed := true } else none
  | .closeQueue =>
    if b.closes c = .marked then
      some { b.setClose c .cut with queueClosed := true, crashed := b.crashed || b.queueClosed }
    else none
  | .unlock =>
    if b.closes c = .cut then some { b.setClose c .unlocked with mu := b.mu.unlock } else none
  | .leaveOnce =>
    if b.closes c = .unlocked then some { b.setClose c .waiting with once := .done } else none
  | .drained =>
    if b.closes c = .waiting ∧ ∀ w ∈ b.pool, w = .exited then some (b.setClose c (.returned true))
    else none
  | .timeout => if b.closes c = .waiting then some (b.setClose c (.returned false)) else none

/-- `worker`, `dispatchOne` and `reportFailure`. A panic of the inner dispatcher is recovered. -/
def workerStep (cfg : BufferConfig) (b : Buffered ι) : WorkerStep ι → Option (Buffered ι)
  | .receive =>
    match b.queue with
    | i :: rest =>
      if .idle ∈ b.pool then some { b.setWorker .idle (.received i) with queue := rest } else none
    | [] => none
  | .exit =>
    if .idle ∈ b.pool ∧ b.queue = [] ∧ b.queueClosed then some (b.setWorker .idle .exited)
    else none
  | .call i =>
    if .received i ∈ b.pool then
      some { b.setWorker (.received i) (.calling i) with passed := i :: b.passed }
    else none
  | .answer i a =>
    if .calling i ∈ b.pool then
      match a.failure with
      | none => some { b.setWorker (.calling i) .idle with succeeded := i :: b.succeeded }
      | some reason =>
        some { b.setWorker (.calling i) (.reporting i reason) with failed := i :: b.failed }
    else none
  | .report i reason =>
    if .reporting i reason ∈ b.pool then
      some { b.setWorker (.reporting i reason) .idle with
        reported := if cfg.sink then i :: b.reported else b.reported }
    else none

/-- A step of one of the goroutines. -/
def step (cfg : BufferConfig) (b : Buffered ι) : BufferedAction ι → Option (Buffered ι)
  | .dispatch i s => b.dispatchStep cfg i s
  | .close c s => b.closeStep c s
  | .worker s => b.workerStep cfg s

/-- `NewBufferedDispatcher`: every worker waits. -/
def new (cfg : BufferConfig) : Buffered ι where
  pool := List.replicate cfg.poolSize .idle

/-- The dispatcher under any number of calls. -/
def system (ι : Type) [DecidableEq ι] (cfg : BufferConfig) : Lib.System (Buffered ι) (BufferedAction ι) where
  init b := b = new cfg
  step := step cfg

/-! ## Who moves the pool -/

section Pool

variable {cfg : BufferConfig} {b b' : Buffered ι}

theorem mem_setWorker {old new w : Worker ι} (h : w ∈ (b.setWorker old new).pool) : w = new ∨ w ∈ b.pool := by
  rcases List.mem_cons.mp h with h | h
  · exact .inl h
  · exact .inr (List.mem_of_mem_erase h)

theorem pool_dispatchStep {i : ι} {s : DispatchStep} (h : b.dispatchStep cfg i s = some b') : b'.pool = b.pool := by
  cases s with
  | rLock =>
    simp only [dispatchStep, Option.ite_none_right_eq_some, Option.map_eq_some_iff] at h
    obtain ⟨-, mu, -, rfl⟩ := h
    rfl
  | readClosed | select | rUnlock =>
    simp only [dispatchStep] at h
    (repeat' split at h) <;> cases h <;> rfl

theorem pool_closeStep {c : ι} {s : CloseStep} (h : b.closeStep c s = some b') : b'.pool = b.pool := by
  cases s with
  | lock =>
    simp only [closeStep, Option.ite_none_right_eq_some, Option.map_eq_some_iff] at h
    obtain ⟨-, mu, -, rfl⟩ := h
    rfl
  | _ =>
    simp only [closeStep] at h
    (repeat' split at h) <;> cases h <;> rfl

end Pool

end Buffered

end Leoflow
