import Mathlib.Tactic.IntervalCases
import Leoflow.Domain.State

/-!
# Dispatch backoff and the infra re-placement delay

`internal/scheduler/dispatch_backoff.go` and the jitter of `plan.go`.
-/

namespace Leoflow

/-- The wait after the first failure. -/
def dispatchBackoffBase : Duration := 5 * second

/-- The longest wait. -/
def dispatchBackoffCap : Duration := 5 * minute

/-- A task fails with this dispatch failure. -/
def dispatchMaxAttempts : Int := 6

/-- A lost task is placed again this many times. -/
def infraMaxAttempts : Int := 6

/-- Re-places are spread over this window. -/
def infraReplaceJitterWindow : Duration := 30 * second

/-- The loop of `dispatchBackoff`: the remaining doublings of `d`. -/
def doubleUpTo (cap d : Duration) : Nat → Duration
  | 0 => d
  | n + 1 => if d * 2 ≥ cap then cap else doubleUpTo cap (d * 2) n

/-- Exponential from the base, capped; at most one attempt gives the base. -/
def dispatchBackoff (attempts : Int) : Duration :=
  doubleUpTo dispatchBackoffCap dispatchBackoffBase (attempts - 1).toNat

theorem doubleUpTo_pos {cap d : Duration} (hcap : 0 < cap) (hd : 0 < d) (n : Nat) : 0 < doubleUpTo cap d n := by
  induction n generalizing d with
  | zero => exact hd
  | succ n ih =>
    rw [doubleUpTo]
    split
    · exact hcap
    · exact ih (Int.mul_pos hd (by decide))

theorem dispatchBackoff_pos (attempts : Int) : 0 < dispatchBackoff attempts :=
  doubleUpTo_pos (by decide) (by decide) _

/-- A further doubling never shortens the delay. -/
theorem doubleUpTo_le_succ {cap d : Duration} (hd : 0 ≤ d) (hcap : d ≤ cap) (n : Nat) :
    doubleUpTo cap d n ≤ doubleUpTo cap d (n + 1) := by
  induction n generalizing d with
  | zero =>
    simp only [doubleUpTo]
    split
    · exact hcap
    · exact le_mul_of_one_le_right hd (by decide)
  | succ n ih =>
    rw [doubleUpTo, doubleUpTo]
    split
    · exact Int.le_refl cap
    next hlt =>
      exact ih (Int.mul_nonneg hd (by decide)) (Int.le_of_lt (Int.not_le.mp hlt))

theorem dispatchBackoff_mono {m n : Int} (h : m ≤ n) : dispatchBackoff m ≤ dispatchBackoff n :=
  monotone_nat_of_le_succ (doubleUpTo_le_succ (by decide) (by decide)) (Int.toNat_le_toNat (Int.sub_le_sub_right h 1))

/-- FNV-1a over the UTF-8 bytes, on 64-bit words. -/
def fnv64a (bytes : List UInt8) : Nat :=
  bytes.foldl (fun h b => (h ^^^ b.toNat) * 1099511628211 % 2 ^ 64) 14695981039346656037

/-- A fixed offset of the pair in `[0, infraReplaceJitterWindow)`. -/
def infraReplaceJitter (runID taskID : String) : Duration :=
  (fnv64a (runID ++ "\x00" ++ taskID).toUTF8.toList : Int) % infraReplaceJitterWindow

theorem infraReplaceJitter_nonneg (runID taskID : String) : 0 ≤ infraReplaceJitter runID taskID :=
  Int.emod_nonneg _ (by decide)

/-- The longest a re-place waits. -/
def infraReplaceMaxDelay : Duration := dispatchBackoff infraMaxAttempts + infraReplaceJitterWindow

/-- The delay before a permitted re-placement is below the longest one. -/
theorem infraReplaceDelay_lt {attempts : Int} (h : attempts < infraMaxAttempts) (run task : String) :
    dispatchBackoff (attempts + 1) + infraReplaceJitter run task < infraReplaceMaxDelay := by
  have hback : dispatchBackoff (attempts + 1) ≤ dispatchBackoff infraMaxAttempts := by
    unfold dispatchBackoff
    rw [Int.add_sub_cancel]
    have hk : attempts.toNat < 6 := by
      have : attempts < 6 := h
      omega
    generalize attempts.toNat = k at hk
    interval_cases k <;> decide
  have hjitter : infraReplaceJitter run task < infraReplaceJitterWindow :=
    Int.emod_lt_of_pos _ (by decide)
  exact Int.add_lt_add_of_le_of_lt hback hjitter

end Leoflow
