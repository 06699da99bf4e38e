import Leoflow.Domain.State
import Leoflow.Lib.GoMap

/-!
# The rate limiter

The fixed-window limiter of `internal/auth/ratelimit.go`. `Blocked` and `Allow` each hold its mutex, so each
is one step at one time.
-/

namespace Leoflow.Auth

/-- The failures of a key in its window. -/
structure WindowState where
  count : Nat
  resetAt : Time
deriving DecidableEq

variable {st : WindowState}

/-- A limit of failures for each key and window. -/
structure RateLimiter where
  limit : Nat
  window : Duration
  buckets : Lib.GoMap WindowState

/-- A limiter that has counted nothing. -/
def newRateLimiter (limit : Nat) (window : Duration) : RateLimiter := ⟨limit, window, ∅⟩

namespace RateLimiter

variable {r : RateLimiter} {key : String} {now : Time}

/-- The bucket of a key, unless its window is over. -/
def current (r : RateLimiter) (key : String) (now : Time) : Option WindowState :=
  match r.buckets.lookup key with
  | none => none
  | some st => if now > st.resetAt then none else some st

/-- `Blocked`: the key is at its limit. -/
def blocked (r : RateLimiter) (key : String) (now : Time) : Bool :=
  match r.current key now with
  | none => false
  | some st => decide (st.count ≥ r.limit)

/-- `Allow`: count one more, unless the key is at its limit. -/
def allow (r : RateLimiter) (key : String) (now : Time) : RateLimiter × Bool :=
  match r.current key now with
  | none => ({ r with buckets := r.buckets.insert key ⟨1, now + r.window⟩ }, true)
  | some st =>
    if st.count ≥ r.limit then (r, false)
    else ({ r with buckets := r.buckets.insert key { st with count := st.count + 1 } }, true)

/-- What is charged to a key in the window in effect. -/
def charged (r : RateLimiter) (key : String) (now : Time) : Nat :=
  ((r.current key now).map WindowState.count).getD 0

theorem current_eq_some : r.current key now = some st ↔ r.buckets.lookup key = some st ∧ now ≤ st.resetAt := by
  unfold current
  cases hlook : r.buckets.lookup key with
  | none => simp
  | some b =>
    by_cases hlate : now > b.resetAt
    · simp only [if_pos hlate]
      constructor
      · intro h; cases h
      · rintro ⟨h, hle⟩
        obtain rfl := Option.some.inj h
        exact absurd hle (Int.not_le.mpr hlate)
    · simp only [if_neg hlate, Option.some.injEq]
      constructor
      · rintro rfl
        exact ⟨rfl, Int.not_lt.mp hlate⟩
      · exact fun h => h.1

theorem current_of_later {later : Time} (h : now ≤ later) (hst : r.current key later = some st) :
    r.current key now = some st := by
  obtain ⟨hlook, hle⟩ := current_eq_some.mp hst
  exact current_eq_some.mpr ⟨hlook, Int.le_trans h hle⟩

theorem charged_of_current (h : r.current key now = some st) : r.charged key now = st.count := by
  rw [charged, h]; rfl

theorem charged_of_idle (h : r.current key now = none) : r.charged key now = 0 := by
  rw [charged, h]; rfl

@[simp] theorem limit_allow : (r.allow key now).1.limit = r.limit := by
  unfold allow
  split
  · rfl
  · split <;> rfl

theorem lookup_allow_of_ne {key' : String} (h : key' ≠ key) :
    (r.allow key now).1.buckets.lookup key' = r.buckets.lookup key' := by
  unfold allow
  split
  · exact AList.lookup_insert_ne h
  · split
    · rfl
    · exact AList.lookup_insert_ne h

theorem current_allow_of_ne {key' : String} (h : key' ≠ key) (t : Time) :
    (r.allow key now).1.current key' t = r.current key' t := by
  unfold current
  rw [lookup_allow_of_ne h]

theorem current_allow_of_current (h : r.current key now = some st) (hlt : st.count < r.limit) :
    (r.allow key now).1.current key now = some { st with count := st.count + 1 } := by
  unfold allow
  simp only [h, if_neg (not_le.mpr hlt)]
  exact current_eq_some.mpr ⟨AList.lookup_insert _, (current_eq_some.mp h).2⟩

theorem charged_allow_of_idle (h : r.current key now = none) (hst : (r.allow key now).1.current key now = some st) :
    st.count = 1 := by
  unfold allow at hst
  simp only [h] at hst
  have hlook := (current_eq_some.mp hst).1
  rw [AList.lookup_insert] at hlook
  rw [← Option.some.inj hlook]

end RateLimiter

end Leoflow.Auth
