import Leoflow.Executor.Pods
import Leoflow.Executor.Reapers

/-!
# Sweeps that ask the cluster

One `run` of the dispatch-lost, pod-lost and warm-worker-lost reapers: `stale_queued_reap.go`,
`pod_lost_reap.go` and `warm_worker_lost_reap.go`. What the store, the cluster, the presence cache
and the destructive gate answer are parameters, by the candidate's index. A sweep is the list of the calls it makes.
-/

namespace Leoflow

open Executor (WarmPodInfo)

/-! ## Reads -/

/-- The phase of a pod. -/
inductive PodPhase where
  | pending | running | succeeded | failed | unknown
deriving DecidableEq

/-- What a probe finds of a task's pod. -/
inductive PodPresence where
  | live | terminal | absent
deriving DecidableEq

/-- `TaskPodPresence`, from what the LIST of the attempt's pods returned. A live pod wins over a
finished one. -/
def taskPodPresence : Except String (List PodPhase) → Except String PodPresence
  | .error e => .error e
  | .ok [] => .ok .absent
  | .ok phases =>
    if phases.any fun p => p == .pending || p == .running then .ok .live else .ok .terminal

/-- The names of the pods that are not terminal. -/
def liveNames (pods : List WarmPodInfo) : List String :=
  (pods.filter fun p => !p.terminal).map WarmPodInfo.name

theorem not_mem_liveNames {pods : List WarmPodInfo} {name : String} :
    name ∉ liveNames pods ↔ ∀ p ∈ pods, p.name = name → p.terminal := by
  simp only [liveNames, List.mem_map, List.mem_filter, not_exists, not_and, Bool.not_eq_true']
  refine forall_congr' fun p => ?_
  rw [and_imp]
  refine forall_congr' fun _ => ?_
  cases p.terminal <;> simp

/-- A nil lister (`none`) and a LIST error both give the empty set. -/
def liveWarmPodNames : Option (Except String (List WarmPodInfo)) → List String
  | none => []
  | some (.error _) => []
  | some (.ok pods) => liveNames pods

/-- What a reaper is answered about one candidate: by the presence cache, the LIST of the attempt's pods, the gate
before the mark, the mark with whether it changed the row, and the gate before the teardown. -/
structure Answers where
  cachedPodActive : Bool := false
  taskPods : Except String (List PodPhase) := .ok []
  gate : Bool := true
  marked : Except String Bool := .ok true
  teardownGate : Bool := true

/-! ## One sweep -/

/-- A call of a sweep that changes something. -/
inductive SweepCall (γ : Type) where
  | mark (c : γ)
  | deleteTaskPod (c : γ)
deriving DecidableEq

section Sweep

variable {γ : Type}

/-- The `reapOne` of the reapers: the gate, the mark, and where `tearsDown` allows it the teardown
behind the gate again. -/
def reapOne (tearsDown : Bool → Bool) (ans : Answers) (c : γ) : List (SweepCall γ) :=
  if !ans.gate then []
  else .mark c :: match ans.marked with
    | .error _ => []
    | .ok applied => if tearsDown applied && ans.teardownGate then [.deleteTaskPod c] else []

/-- The loop of a `run`: each candidate that is not deferred is reaped. A call comes with its candidate's place. -/
def sweepCalls (takes : γ → Answers → Bool) (tearsDown : Bool → Bool) (candidates : List γ)
    (answers : Nat → Answers) : List (Nat × SweepCall γ) :=
  candidates.zipIdx.flatMap fun ci =>
    if takes ci.1 (answers ci.2) then (reapOne tearsDown (answers ci.2) ci.1).map (ci.2, ·) else []

/-- The calls alone. -/
def sweep (takes : γ → Answers → Bool) (tearsDown : Bool → Bool) (candidates : List γ)
    (answers : Nat → Answers) : List (SweepCall γ) :=
  (sweepCalls takes tearsDown candidates answers).map Prod.snd

theorem mark_mem_reapOne {tearsDown : Bool → Bool} {ans : Answers} {c c' : γ} :
    .mark c' ∈ reapOne tearsDown ans c ↔ ans.gate ∧ c' = c := by
  unfold reapOne
  cases ans.gate with
  | false => simp
  | true =>
    cases ans.marked with
    | error => simp
    | ok applied => cases h : tearsDown applied && ans.teardownGate <;> simp [h]

theorem mark_mem_sweep {takes : γ → Answers → Bool} {tearsDown : Bool → Bool} {candidates : List γ}
    {answers : Nat → Answers} {c : γ} : .mark c ∈ sweep takes tearsDown candidates answers ↔
      ∃ i, candidates[i]? = some c ∧ takes c (answers i) ∧ (answers i).gate := by
  simp only [sweep, sweepCalls, List.mem_map, List.mem_flatMap, Prod.exists, List.mem_zipIdx_iff_getElem?]
  constructor
  · rintro ⟨i, _, ⟨c', _, hi, hm⟩, hsnd⟩
    split at hm
    next ht =>
      obtain ⟨call, hcall, heq⟩ := List.mem_map.mp hm
      cases heq
      cases hsnd
      obtain ⟨hgate, rfl⟩ := mark_mem_reapOne.mp hcall
      exact ⟨i, hi, ht, hgate⟩
    · cases hm
  · rintro ⟨i, hi, ht, hgate⟩
    refine ⟨i, _, ⟨c, i, hi, ?_⟩, rfl⟩
    rw [if_pos ht]
    exact List.mem_map_of_mem (mark_mem_reapOne.mpr ⟨hgate, rfl⟩)

/-- The gate that a call is made behind. -/
def Answers.opens (ans : Answers) : SweepCall γ → Bool
  | .mark _ => ans.gate
  | .deleteTaskPod _ => ans.teardownGate

theorem opens_of_mem_reapOne {tearsDown : Bool → Bool} {ans : Answers} {c : γ} {call : SweepCall γ}
    (h : call ∈ reapOne tearsDown ans c) : ans.opens call := by
  unfold reapOne at h
  split at h
  · cases h
  next hgate =>
    rcases List.mem_cons.mp h with rfl | h
    · simpa [Answers.opens] using hgate
    · split at h
      · cases h
      · split at h
        next hteardown =>
          obtain rfl := List.mem_singleton.mp h
          exact (Bool.and_eq_true_iff.mp hteardown).2
        · cases h

/-- Every call of a run is behind its open gate. -/
def Opened (answers : Nat → Answers) (run : Except String (List (Nat × SweepCall γ))) : Prop :=
  ∀ calls, run = .ok calls → ∀ c ∈ calls, (answers c.1).opens c.2

theorem opened_nil {answers : Nat → Answers} : Opened (γ := γ) answers (.ok []) := by
  rintro calls ⟨⟩ c hc
  cases hc

theorem opened_sweepCalls (takes : γ → Answers → Bool) (tearsDown : Bool → Bool) (candidates : List γ)
    (answers : Nat → Answers) : Opened answers (.ok (sweepCalls takes tearsDown candidates answers)) := by
  rintro calls ⟨⟩ c hc
  obtain ⟨ci, -, hmem⟩ := List.mem_flatMap.mp hc
  split at hmem
  · obtain ⟨call, hcall, rfl⟩ := List.mem_map.mp hmem
    exact opens_of_mem_reapOne hcall
  · cases hmem

theorem opened_map (takes : γ → Answers → Bool) (tearsDown : Bool → Bool) (candidates : Except String (List γ))
    (answers : Nat → Answers) : Opened answers (candidates.map fun cs => sweepCalls takes tearsDown cs answers) := by
  cases candidates with
  | error => exact fun calls h => by cases h
  | ok cs => exact opened_sweepCalls takes tearsDown cs answers

end Sweep

/-! ## The dispatch-lost reaper -/

/-- A `run` of `dispatchLostReaper` with all it reads. `pods` and `cache` say whether the pod manager and the
presence cache are wired; `warmPods` is what `ListWarmPods` answered. -/
structure DispatchLostSweep where
  threshold : Duration
  pods : Bool := true
  cache : Bool := false
  candidates : Except String (List StaleQueuedCandidate)
  warmPods : Option (Except String (List WarmPodInfo))
  now : Time
  answers : Nat → Answers

namespace DispatchLostSweep

variable (s : DispatchLostSweep)

/-- What the presence cache or the attempt's own pods defer. -/
def podDefers (ans : Answers) : Bool :=
  if s.cache && ans.cachedPodActive then true
  else if s.pods then
    match taskPodPresence ans.taskPods with
    | .error _ => true
    | .ok .live => true
    | .ok _ => false
  else false

/-- The body of the loop up to `reapOne`. -/
def takes (c : StaleQueuedCandidate) (ans : Answers) : Bool :=
  if !isDispatchLost c s.threshold s.now then false
  else if c.warmWorkerID ≠ "" ∧ c.warmWorkerID ∈ liveWarmPodNames s.warmPods then false
  else !s.podDefers ans

/-- `dispatchLostReaper.run`, with the places. `MarkTaskDispatchLost` returns no row count, so the teardown follows
every mark that returned no error. -/
def calls : Except String (List (Nat × SweepCall StaleQueuedCandidate)) :=
  s.candidates.map fun cs => sweepCalls s.takes (fun _ => s.pods) cs s.answers

/-- The calls of the dispatch-lost reaper, or its error. -/
def run : Except String (List (SweepCall StaleQueuedCandidate)) := s.calls.map (·.map Prod.snd)

end DispatchLostSweep

/-! ## The pod-lost reaper -/

/-- What the live read authorises: only an attempt with no pod at all is reaped. -/
def podIsAbsent (cache : Bool) (ans : Answers) : Bool :=
  !(cache && ans.cachedPodActive) && match taskPodPresence ans.taskPods with
    | .ok .absent => true
    | _ => false

/-- `podLostReaper.run`, with the places; without a pod manager it does nothing. -/
def podLostCalls (grace : Duration) (pods cache : Bool)
    (candidates : Except String (List PodLostCandidate)) (now : Time) (answers : Nat → Answers) :
    Except String (List (Nat × SweepCall PodLostCandidate)) :=
  if !pods then .ok []
  else candidates.map fun cs =>
    sweepCalls (fun c ans => isPodLostCandidate c grace now && podIsAbsent cache ans) (fun applied => applied) cs
      answers

theorem opened_podLostCalls (grace : Duration) (pods cache : Bool) (candidates : Except String (List PodLostCandidate))
    (now : Time) (answers : Nat → Answers) :
    Opened answers (podLostCalls grace pods cache candidates now answers) := by
  unfold podLostCalls
  split
  · exact opened_nil
  · exact opened_map _ _ _ _

/-- The calls of the pod-lost reaper, or its error. -/
def podLostRun (grace : Duration) (pods cache : Bool)
    (candidates : Except String (List PodLostCandidate)) (now : Time) (answers : Nat → Answers) :
    Except String (List (SweepCall PodLostCandidate)) :=
  (podLostCalls grace pods cache candidates now answers).map (·.map Prod.snd)

/-! ## The warm-worker-lost reaper -/

/-- `warmWorkerLostReaper.run`, with the places. Here a LIST error ends the sweep without a mark, and so does a nil
lister. -/
def warmWorkerLostCalls (candidates : Except String (List WarmBoundTI))
    (warmPods : Option (Except String (List WarmPodInfo))) (answers : Nat → Answers) :
    Except String (List (Nat × SweepCall WarmBoundTI)) :=
  match warmPods with
  | none => .ok []
  | some listed => candidates.bind fun bound =>
    if bound.isEmpty then .ok []
    else match listed with
      | .error _ => .ok []
      | .ok pods =>
        .ok <| sweepCalls (fun c _ => !(liveNames pods).contains c.warmWorkerID) (fun _ => false) bound answers

theorem opened_warmWorkerLostCalls (candidates : Except String (List WarmBoundTI))
    (warmPods : Option (Except String (List WarmPodInfo))) (answers : Nat → Answers) :
    Opened answers (warmWorkerLostCalls candidates warmPods answers) := by
  unfold warmWorkerLostCalls
  split
  · exact opened_nil
  next listed =>
    cases candidates with
    | error => exact fun calls h => by cases h
    | ok bound =>
      simp only [Except.bind]
      split
      · exact opened_nil
      · split
        · exact opened_nil
        · exact opened_sweepCalls _ _ _ _

/-- The calls of the warm-worker-lost reaper, or its error. -/
def warmWorkerLostRun (candidates : Except String (List WarmBoundTI))
    (warmPods : Option (Except String (List WarmPodInfo))) (answers : Nat → Answers) :
    Except String (List (SweepCall WarmBoundTI)) :=
  (warmWorkerLostCalls candidates warmPods answers).map (·.map Prod.snd)

end Leoflow
