import Leoflow.Dispatch.Buffered
import Leoflow.System.Rejections

/-!
# Dispatch with and without a buffer

`Pipeline` is the control plane with the `BufferedDispatcher` between the leader and the inner dispatcher: a
`Dispatch` of the tick is a call of the buffer, the request goes to the leader's books when it enters the queue,
and the sink is `MarkTaskDispatchFailed`. In `Direct` the tick calls the inner dispatcher itself. Both take its
answers from one table: `answers key n` is that of the `n`-th call for the task instance.
-/

namespace Leoflow

/-- The answers of the inner dispatcher, for each run and task in the order of the calls. -/
abbrev InnerAnswers := String × String → Nat → InnerAnswer

/-- The statements that fail a task for its dispatch. -/
def Statement.isDispatchVerdict : Statement → Bool
  | markTaskDispatchFailed .. | failDispatchExhausted .. => true
  | _ => false

/-- The step fails the task for its dispatch. -/
def World.failsDispatch (w : World) (a : Action) (key : String × String) : Bool :=
  ((w.write a).statement w.db).any fun s => s.isDispatchVerdict &&
    w.db.tis.any fun r => r.key == key && (s.update w.db.now).guard r

/-! ## Through the buffer -/

/-- A call of `Dispatch` by the tick, with the placement its request gets if the buffer takes it. -/
structure Offer where
  run : String
  task : String
  number : Nat
  placement : Nat
deriving DecidableEq

namespace Offer

/-- The task that is offered. -/
def key (i : Offer) : String × String := (i.run, i.task)

/-- The request of an offer that was taken. -/
def isOf (i : Offer) (q : Request) : Bool :=
  q.buffered && q.run == i.run && q.task == i.task && q.placement == i.placement

end Offer

/-- The control plane with its buffer. `call` is the `Dispatch` the tick is in, and `used` counts the
answers of the inner dispatcher. -/
structure Pipeline where
  leader : World × Rejections
  buffer : Buffered Offer
  call : Option Offer := none
  offers : Nat := 0
  used : String × String → Nat := fun _ => 0

/-- The steps. `written` says whether the sink's statement reached the database. -/
inductive PipelineAction where
  | world (a : Action)
  | offer
  | dispatch (s : DispatchStep)
  | close (c : Offer) (s : CloseStep)
  | receive
  | exit
  | callInner (i : Offer)
  | answer (i : Offer) (q : Request)
  | report (i : Offer) (reason : String) (q : Request) (written : Bool)
deriving DecidableEq

/-- The text of `ErrAtCapacity`. -/
def errAtCapacity : String := "dispatch buffer at capacity; will retry next tick"

namespace Pipeline

/-- What the rest of the control plane may do: the tick waits for its `Dispatch`, a request is worked
on only while its inner call is under way, and it ends with the call. -/
def admits (p : Pipeline) : Action → Bool
  | .tick (.dispatch ..) | .requestFails .. | .requestDone _ => false
  | .tick _ => p.call.isNone
  | .resolve q | .create q _ => p.buffer.pool.any fun k => k.underway.any fun i => i.isOf q
  | _ => true

/-- The `select` of this offer puts it into the queue. -/
def sends (bcfg : BufferConfig) (p : Pipeline) (i : Offer) : Bool :=
  p.buffer.calls i == .admitted && !p.buffer.queueClosed && decide (p.buffer.queue.length < bcfg.bufferSize)

/-- The next answer of the inner dispatcher for the task. -/
def nextAnswer (answers : InnerAnswers) (p : Pipeline) (i : Offer) : InnerAnswer :=
  answers i.key (p.used i.key)

/-- What a step is for the leader and its books; `none` where it is not enabled. -/
def leaderPart (bcfg : BufferConfig) (answers : InnerAnswers) (p : Pipeline) : PipelineAction → Option (Option Action)
  | .world a => if p.admits a then some (some a) else none
  | .offer => if p.call.isNone ∧ p.leader.1.offering?.isSome then some none else none
  | .dispatch s => p.call.map fun i =>
    match s with
    | .select => if p.sends bcfg i then some (.tick (.dispatch .dispatched true)) else none
    | .rUnlock =>
      if p.buffer.calls i = .refused then
        some (.tick (.dispatch (.rejected errAtCapacity false) true))
      else none
    | _ => none
  | .close .. | .receive | .exit | .callInner _ => some none
  | .answer i q =>
    match (p.nextAnswer answers i).failure with
    | none => if i.isOf q then some (some (.requestDone q)) else none
    | some _ => some none
  | .report i reason q written =>
    if i.isOf q then
      some (some (if bcfg.sink && written then .requestFails q reason else .requestDone q))
    else none

/-- What a step is for the buffer. -/
def bufferPart (answers : InnerAnswers) (p : Pipeline) : PipelineAction → Option (BufferedAction Offer)
  | .world _ | .offer => none
  | .dispatch s => p.call.map fun i => .dispatch i s
  | .close c s => some (.close c s)
  | .receive => some (.worker .receive)
  | .exit => some (.worker .exit)
  | .callInner i => some (.worker (.call i))
  | .answer i _ => some (.worker (.answer i (p.nextAnswer answers i)))
  | .report i reason _ _ => some (.worker (.report i reason))

/-- The `Dispatch` the tick is in after a step. -/
def callAfter (p : Pipeline) : PipelineAction → Option Offer
  | .offer => p.leader.1.offering?.map fun key =>
    ⟨key.1, key.2, p.offers, (p.leader.1.request key.1 key.2 true).placement⟩
  | .dispatch .rUnlock => none
  | _ => p.call

/-- How many inner answers of a task are used up. -/
def usedAfter (p : Pipeline) : PipelineAction → String × String → Nat
  | .answer i _ => Function.update p.used i.key (p.used i.key + 1)
  | _ => p.used

/-- One step. -/
def step (cfg : Config) (bcfg : BufferConfig) (answers : InnerAnswers) (p : Pipeline)
    (a : PipelineAction) : Option Pipeline :=
  (p.leaderPart bcfg answers a).bind fun la =>
    ((rejectionSystem cfg).stepOr p.leader la).bind fun leader =>
      ((Buffered.system Offer bcfg).stepOr p.buffer (p.bufferPart answers a)).map fun buffer =>
        { leader := leader
          buffer := buffer
          call := p.callAfter a
          offers := if a = .offer then p.offers + 1 else p.offers
          used := p.usedAfter a }

/-- The control plane and an empty buffer. -/
def start (bcfg : BufferConfig) (now : Time) : Pipeline where
  leader := (.empty now, fun _ => 0)
  buffer := .new bcfg

/-- The control plane that dispatches through a buffer. -/
def system (cfg : Config) (bcfg : BufferConfig) (answers : InnerAnswers) : Lib.System Pipeline PipelineAction where
  init p := ∃ now, p = start bcfg now
  step := step cfg bcfg answers

/-- The action fails the task for its dispatch. -/
def fails (cfg : Config) (bcfg : BufferConfig) (answers : InnerAnswers) (p : Pipeline)
    (a : PipelineAction) (key : String × String) : Bool :=
  (p.step cfg bcfg answers a).isSome &&
    (p.leaderPart bcfg answers a).any fun la => la.any fun la => p.leader.1.failsDispatch la key

/-- The offers of the task that the buffer refused. -/
def refusals (p : Pipeline) (key : String × String) : Nat := p.leader.2 key

end Pipeline

/-! ## Without a buffer -/

/-- The control plane whose tick calls the inner dispatcher. -/
structure Direct where
  leader : World × Rejections
  used : String × String → Nat := fun _ => 0

/-- The steps. `landed` says whether a call that returned an error has created something. -/
inductive DirectAction where
  | world (a : Action)
  | callInner (landed : Bool)
deriving DecidableEq

/-- An error of the inner dispatcher that is not backpressure. -/
def InnerAnswer.isRejection : InnerAnswer → Bool
  | error .backpressure _ => false
  | error _ _ => true
  | _ => false

/-- What a call of the inner dispatcher is for the tick; a panic leaves the run behind. -/
def InnerAnswer.tickAction (landed : Bool) : InnerAnswer → TickAction
  | accepted => .dispatch .dispatched false
  | error .backpressure cause => .dispatch (.backpressure cause landed) false
  | error _ cause => .dispatch (.rejected cause landed) false
  | panic => .abandon

namespace Direct

/-- What a step is for the leader; `none` where it is not enabled. -/
def leaderPart (answers : InnerAnswers) (p : Direct) : DirectAction → Option Action
  | .world (.tick (.dispatch ..)) => none
  | .world a => some a
  | .callInner landed => p.leader.1.offering?.map fun key =>
    .tick ((answers key (p.used key)).tickAction landed)

/-- The answers used after a step. -/
def usedAfter (p : Direct) : DirectAction → String × String → Nat
  | .world _ => p.used
  | .callInner _ =>
    match p.leader.1.offering? with
    | some key => Function.update p.used key (p.used key + 1)
    | none => p.used

/-- A step of the control plane, whose dispatches ask the inner dispatcher at once. -/
def step (cfg : Config) (answers : InnerAnswers) (p : Direct) (a : DirectAction) : Option Direct :=
  (p.leaderPart answers a).bind fun la => ((rejectionSystem cfg).step p.leader la).map fun leader =>
    { leader := leader, used := p.usedAfter a }

/-- The control plane, with no answer used. -/
def start (now : Time) : Direct where
  leader := (.empty now, fun _ => 0)

/-- The control plane that dispatches synchronously. -/
def system (cfg : Config) (answers : InnerAnswers) : Lib.System Direct DirectAction where
  init p := ∃ now, p = start now
  step := step cfg answers

/-- The action fails the task for its dispatch. -/
def fails (cfg : Config) (answers : InnerAnswers) (p : Direct) (a : DirectAction) (key : String × String) : Bool :=
  (p.step cfg answers a).isSome && (p.leaderPart answers a).any fun la => p.leader.1.failsDispatch la key

end Direct

end Leoflow
