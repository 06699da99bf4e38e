import Leoflow.Domain.State

/-!
# Leadership as the reapers see it

`SetLeading`, `LeaderSince`, `MarkSteppingDown` and `ClearSteppingDown` of `internal/scheduler`, with the
sync state of the pod informer and the stamp of the reconciler's last completed sweep. `SetLeading`
stores the stamp and the flag one after the other, in this order both ways, and readers may come
between the two stores.
-/

namespace Leoflow

/-- What the gates of the reapers read. `leaderSince` is `none` for a stamp of zero. The number and the
start of the term are not kept by the code. -/
structure Leadership where
  now : Time
  leaderSince : Option Time := none
  leading : Bool := false
  steppingDown : Bool := false
  /-- The context of the process is cancelled. -/
  shutdown : Bool := false
  informerSynced : Bool := false
  lastSweepCompleted : Time := 0
  term : Nat := 0
  termStart : Option Time := none
deriving DecidableEq

/-- What happens to the leadership of an instance. -/
inductive LeaderAction where
  | advance (d : Nat)
  /-- `SetLeading(true)` stores the stamp; a term begins. -/
  | storeStamp
  /-- `SetLeading(true)` stores the flag. -/
  | storeFlag
  /-- `SetLeading(false)` clears the stamp. -/
  | clearStamp
  /-- `SetLeading(false)` clears the flag; the term is over. -/
  | clearFlag
  | markSteppingDown
  | clearSteppingDown
  | shutdown
  | informer (synced : Bool)
  | sweepCompleted
deriving DecidableEq

namespace Leadership

/-- The calls of `SetLeading` alternate, as `runAsLeader` makes them. -/
def step (s : Leadership) : LeaderAction → Option Leadership
  | .advance d => some { s with now := s.now + d }
  | .storeStamp =>
    if s.leading || s.leaderSince.isSome then none
    else some { s with leaderSince := some s.now, term := s.term + 1, termStart := some s.now }
  | .storeFlag =>
    if s.leading || s.leaderSince.isNone then none else some { s with leading := true }
  | .clearStamp =>
    if s.leading && s.leaderSince.isSome then some { s with leaderSince := none } else none
  | .clearFlag =>
    if s.leading && s.leaderSince.isNone then some { s with leading := false, termStart := none }
    else none
  | .markSteppingDown => some { s with steppingDown := true }
  | .clearSteppingDown => some { s with steppingDown := false }
  | .shutdown => some { s with shutdown := true }
  | .informer synced => some { s with informerSynced := synced }
  | .sweepCompleted => some { s with lastSweepCompleted := s.now }

/-- The stamp is that of the term, and only a term leads. -/
structure Sound (s : Leadership) : Prop where
  stamp : ∀ t, s.leaderSince = some t → s.termStart = some t
  leads : s.leading → s.termStart.isSome

variable {s s' : Leadership} {a : LeaderAction}

/-- Every step keeps the stamp that of the term. -/
theorem step_sound (hs : s.Sound) (h : s.step a = some s') : s'.Sound := by
  obtain ⟨hstamp, hleads⟩ := hs
  cases a with
  | storeStamp =>
    simp only [step] at h
    split at h
    · cases h
    · cases h
      exact ⟨fun t ht => ht, fun _ => rfl⟩
  | storeFlag =>
    simp only [step] at h
    split at h
    · cases h
    next hopen =>
      cases h
      refine ⟨hstamp, fun _ => ?_⟩
      show s.termStart.isSome
      cases hl : s.leaderSince with
      | none => simp [hl] at hopen
      | some t =>
        rw [hstamp t hl]
        rfl
  | clearStamp =>
    simp only [step] at h
    split at h
    · cases h
      exact ⟨(fun t ht => by cases ht), hleads⟩
    · cases h
  | clearFlag =>
    simp only [step] at h
    split at h
    next hopen =>
      cases h
      refine ⟨fun t ht => ?_, fun hl => by cases hl⟩
      have ht' : s.leaderSince = some t := ht
      simp [ht'] at hopen
    · cases h
  | advance | markSteppingDown | clearSteppingDown | shutdown | informer | sweepCompleted =>
    cases h
    exact ⟨hstamp, hleads⟩

theorem step_now (h : s.step a = some s') : s.now ≤ s'.now := by
  cases a with
  | advance d =>
    cases h
    exact Int.le_add_of_nonneg_right (Int.natCast_nonneg d)
  | storeStamp | storeFlag | clearStamp | clearFlag =>
    simp only [step] at h
    split at h <;> cases h
    exact Int.le_refl _
  | markSteppingDown | clearSteppingDown | shutdown | informer | sweepCompleted =>
    cases h
    exact Int.le_refl _

/-- A stamp was there before, or a new term has begun with it. -/
theorem step_stamp (h : s.step a = some s') :
    (s'.term = s.term ∧ ∀ t, s'.leaderSince = some t → s.leaderSince = some t) ∨ s'.term = s.term + 1 := by
  cases a with
  | storeStamp =>
    simp only [step] at h
    split at h <;> cases h
    exact .inr rfl
  | clearStamp =>
    simp only [step] at h
    split at h <;> cases h
    exact .inl ⟨rfl, fun t ht => by cases ht⟩
  | storeFlag | clearFlag =>
    simp only [step] at h
    split at h <;> cases h
    exact .inl ⟨rfl, fun t ht => ht⟩
  | advance | markSteppingDown | clearSteppingDown | shutdown | informer | sweepCompleted =>
    cases h
    exact .inl ⟨rfl, fun t ht => ht⟩

end Leadership

/-- A history: the states of leadership one after another, and what led from each to the next. -/
structure Timeline where
  state : Nat → Leadership
  action : Nat → LeaderAction
  start : (state 0).leaderSince = none ∧ (state 0).leading = false
  step : ∀ n, (state n).step (action n) = some (state (n + 1))

namespace Timeline

variable (τ : Timeline)

theorem sound (n : Nat) : (τ.state n).Sound := by
  induction n with
  | zero =>
    obtain ⟨hstamp, hlead⟩ := τ.start
    exact ⟨(fun t ht => by cases hstamp.symm.trans ht), fun hl => by cases hlead.symm.trans hl⟩
  | succ n ih => exact Leadership.step_sound ih (τ.step n)

theorem now_mono {n m : Nat} (h : n ≤ m) : (τ.state n).now ≤ (τ.state m).now := by
  induction h with
  | refl => exact Int.le_refl _
  | step _ ih => exact Int.le_trans ih (Leadership.step_now (τ.step _))

theorem term_mono {n m : Nat} (h : n ≤ m) : (τ.state n).term ≤ (τ.state m).term := by
  induction h with
  | refl => exact Nat.le_refl _
  | @step m _ ih =>
    show (τ.state n).term ≤ (τ.state (m + 1)).term
    rcases Leadership.step_stamp (τ.step m) with ⟨heq, -⟩ | heq <;> omega

theorem stamp_before {n m : Nat} (h : n ≤ m) (hterm : (τ.state n).term = (τ.state m).term) {t : Time}
    (ht : (τ.state m).leaderSince = some t) : (τ.state n).leaderSince = some t := by
  induction h with
  | refl => exact ht
  | @step m h ih =>
    have hle := τ.term_mono h
    have hterm : (τ.state n).term = (τ.state (m + 1)).term := hterm
    rcases Leadership.step_stamp (τ.step m) with ⟨heq, hkept⟩ | heq
    · exact ih (hterm.trans heq) (hkept t ht)
    · omega

end Timeline

end Leoflow
