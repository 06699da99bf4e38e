import Mathlib.Data.Int.Interval
import Leoflow.Domain.State
import Leoflow.Lib.Enumeration

/-!
# Cron slots

`internal/scheduler/cron.go` and `internal/scheduler/catchup.go`. The cron library is a parameter: `Schedule` is a
parsed schedule whose `Next` looks for an activation up to a horizon and returns the zero time where it finds none.
The loop of `dueScheduledSlots` then need not end, so it runs on fuel and `none` is a loop that is still running.
A `Cron` is a schedule that never gives up.
-/

namespace Leoflow

open Lib (pointsIn mem_pointsIn pointsIn_eq_empty pointsIn_skip inOrder inOrder_pointsIn_least)
open List

/-- `cron.Schedule`. `Next` returns the least activation after its argument if one lies within the horizon of its
search, and the zero time otherwise. -/
structure Schedule where
  isActivation : Time → Bool
  horizon : Time → Time
  next : Time → Time
  next_found {t s : Time} (hs : isActivation s) (hlt : t < s) (hle : s ≤ horizon t) :
    isActivation (next t) ∧ t < next t ∧ next t ≤ s
  next_lost {t : Time} (h : ∀ s, isActivation s → t < s → horizon t < s) : next t = 0

namespace Schedule

variable (schedule : Schedule)

/-- The time between the next two activations. -/
def schedulePeriod (now : Time) : Duration :=
  let a := schedule.next now
  let b := schedule.next a
  timeSub b a

/-- The activation one period back, where it is not ahead. -/
def mostRecentSlot (now : Time) : Option Time :=
  let n1 := schedule.next now
  let period := timeSub (schedule.next n1) n1
  if period ≤ 0 then none
  else
    let prev := schedule.next (now - period)
    if now < prev then none else some prev

/-- `nextScheduledRun` on a parsed schedule. -/
def nextScheduledRun (last : Option Time) (now : Time) : Option Time :=
  match last with
  | none => schedule.mostRecentSlot now
  | some last =>
    let next := schedule.next last
    if now < next then none else some next

/-- Where a backfill begins: after the last run, or a period before the start date. -/
def catchupSeed (lastLogical startDate : Option Time) (now : Time) : Option Time :=
  match lastLogical, startDate with
  | some last, _ => some last
  | none, some start =>
    let period := schedule.schedulePeriod now
    if period ≤ 0 then none else some (start - period)
  | none, none => none

/-- The loop of `dueScheduledSlots` with `room` slots left to collect. -/
def slotsAfter (startDate : Option Time) (now : Time) : (fuel room : Nat) → (cursor : Time) → Option (List Time)
  | 0, _, _ => none
  | fuel + 1, room, cursor =>
    let cursor := schedule.next cursor
    if now < cursor then some []
    else if startDate.any (cursor < ·) then slotsAfter startDate now fuel room cursor
    else if room ≤ 1 then some [cursor]
    else (slotsAfter startDate now fuel (room - 1) cursor).map (cursor :: ·)

/-- `dueScheduledSlots` on a parsed schedule. -/
def dueScheduledSlots (fuel : Nat) (lastLogical startDate : Option Time) (now : Time) (catchup : Bool)
    (maxSlots : Nat) : Option (List Time) :=
  match schedule.catchupSeed lastLogical startDate now with
  | none => some []
  | some seed =>
    (schedule.slotsAfter startDate now fuel maxSlots seed).map fun slots =>
      if catchup then slots else slots.getLast?.toList

/-- An activation that is not before the start date. -/
def Slot (startDate : Option Time) (s : Time) : Prop :=
  schedule.isActivation s ∧ ∀ start ∈ startDate, start ≤ s

instance (startDate : Option Time) : DecidablePred (schedule.Slot startDate) := fun s => by
  unfold Slot
  infer_instance

/-! ## Searches -/

/-- The search from `t` finds an activation. -/
def Finds (t : Time) : Prop := ∃ s, schedule.isActivation s ∧ t < s ∧ s ≤ schedule.horizon t

variable {schedule} {t : Time}

theorem Finds.next (h : schedule.Finds t) : schedule.isActivation (schedule.next t) ∧
    t < schedule.next t ∧ ∀ s, schedule.isActivation s → t < s → schedule.next t ≤ s := by
  obtain ⟨s0, hs0, hlt0, hle0⟩ := h
  obtain ⟨hact, hlt, hnext⟩ := schedule.next_found hs0 hlt0 hle0
  refine ⟨hact, hlt, fun s hs hts => ?_⟩
  by_cases hle : s ≤ schedule.horizon t
  · exact (schedule.next_found hs hts hle).2.2
  · exact hnext.trans (hle0.trans (Int.not_le.mp hle).le)

theorem any_before_iff {startDate : Option Time} {c : Time} :
    startDate.any (fun start => decide (c < start)) ↔ ¬ ∀ start ∈ startDate, start ≤ c := by
  cases startDate with
  | none => simp
  | some start => simp

theorem next_of_not_finds (h : ¬ schedule.Finds t) : schedule.next t = 0 :=
  schedule.next_lost fun s hs hlt => Int.not_le.mp fun hle => h ⟨s, hs, hlt, hle⟩

end Schedule

/-! ## Schedules that never give up -/

/-- A schedule without end: its activations are whole seconds, and `Next` is the first one after its argument. -/
structure Cron where
  isActivation : Time → Bool
  next : Time → Time
  lt_next (t : Time) : t < next t
  isActivation_next (t : Time) : isActivation (next t)
  next_le {t s : Time} (hs : isActivation s) (h : t < s) : next t ≤ s
  wholeSecond {s : Time} (hs : isActivation s) : s % second = 0

/-- The first multiple of a period after an instant. -/
theorem next_multiple_le {p t s : Int} (hp : 0 < p) (hs : s % p = 0) (h : t < s) : (t / p + 1) * p ≤ s := by
  have hmul : s / p * p = s := Int.ediv_mul_cancel (Int.dvd_of_emod_eq_zero hs)
  have hlt : t / p < s / p := Int.ediv_lt_of_lt_mul hp (by rwa [hmul])
  calc (t / p + 1) * p ≤ s / p * p := Int.mul_le_mul_of_nonneg_right hlt (Int.le_of_lt hp)
    _ = s := hmul

/-- `0 * * * *`: every full hour. -/
def Cron.hourly : Cron where
  isActivation t := t % (3600 * second) == 0
  next t := (t / (3600 * second) + 1) * (3600 * second)
  lt_next t := Int.lt_ediv_add_one_mul_self t (by decide)
  isActivation_next t := beq_iff_eq.mpr (Int.mul_emod_left _ _)
  next_le hs h := next_multiple_le (by decide) (beq_iff_eq.mp hs) h
  wholeSecond {s} hs := by
    have hdvd : (3600 * second) ∣ s := Int.dvd_of_emod_eq_zero (beq_iff_eq.mp hs)
    exact Int.emod_eq_zero_of_dvd (Int.dvd_trans (Int.dvd_mul_left _ _) hdvd)

/-- Nine, ten or eleven o'clock, in nanoseconds. -/
def isMorning (t : Int) : Bool :=
  t % 86400000000000 == 32400000000000 || t % 86400000000000 == 36000000000000 || t % 86400000000000 == 39600000000000

/-- The next 9:00, 10:00 or 11:00. -/
def nextMorning (t : Int) : Int :=
  let day := t - t % 86400000000000
  if t % 86400000000000 < 32400000000000 then day + 32400000000000
  else if t % 86400000000000 < 36000000000000 then day + 36000000000000
  else if t % 86400000000000 < 39600000000000 then day + 39600000000000
  else day + 118800000000000

theorem isMorning_iff {t : Int} : isMorning t ↔ t % 86400000000000 = 32400000000000 ∨
    t % 86400000000000 = 36000000000000 ∨ t % 86400000000000 = 39600000000000 := by
  simp [isMorning, or_assoc]

theorem lt_nextMorning (t : Int) : t < nextMorning t := by
  simp only [nextMorning]
  omega

theorem isMorning_nextMorning (t : Int) : isMorning (nextMorning t) := by
  simp only [nextMorning]
  rw [isMorning_iff]
  omega

theorem nextMorning_le {t s : Int} (hs : isMorning s) (h : t < s) : nextMorning t ≤ s := by
  rw [isMorning_iff] at hs
  simp only [nextMorning]
  omega

theorem isMorning_wholeSecond {s : Int} (hs : isMorning s) : s % 1000000000 = 0 := by
  rw [isMorning_iff] at hs
  omega

/-- `0 9,10,11 * * *`: three times each morning. -/
def Cron.mornings : Cron where
  isActivation := isMorning
  next := nextMorning
  lt_next := lt_nextMorning
  isActivation_next := isMorning_nextMorning
  next_le := nextMorning_le
  wholeSecond := isMorning_wholeSecond

/-- A schedule whose every search finds an activation. -/
def Cron.toSchedule (c : Cron) : Schedule where
  isActivation := c.isActivation
  horizon := c.next
  next := c.next
  next_found {t _} hs hlt _ := ⟨c.isActivation_next t, c.lt_next t, c.next_le hs hlt⟩
  next_lost {t} h := absurd (h _ (c.isActivation_next t) (c.lt_next t)) (Int.lt_irrefl _)

theorem Cron.isGreatest_of_next (c : Cron) {latest now : Time} (hact : c.isActivation latest)
    (hle : latest ≤ now) (hnext : now < c.next latest) :
    IsGreatest { s | c.isActivation s ∧ s ≤ now } latest := by
  refine ⟨⟨hact, hle⟩, fun s hs => Int.not_lt.mp fun hlt => ?_⟩
  exact absurd ((c.next_le hs.1 hlt).trans hs.2) (Int.not_le.mpr hnext)

/-! ## The loop over such a schedule -/

namespace Cron

variable {schedule : Cron} {lastLogical startDate : Option Time} {now seed cursor : Time} {fuel room maxSlots : Nat}

/-- What `dueScheduledSlots` returns: `Next` moves the cursor by at least a nanosecond, which bounds the turns. -/
def dueScheduledSlots (schedule : Cron) (lastLogical startDate : Option Time) (now : Time) (catchup : Bool)
    (maxSlots : Nat) : List Time :=
  let seed := (schedule.toSchedule.catchupSeed lastLogical startDate now).getD now
  (schedule.toSchedule.dueScheduledSlots ((now - seed).toNat + 1) lastLogical startDate now catchup maxSlots).getD []

/-- The slots after the seed up to now. -/
def dueSlots (schedule : Cron) (startDate : Option Time) (seed now : Time) : Finset Time :=
  pointsIn (schedule.toSchedule.Slot startDate) seed now

theorem mem_dueSlots {s : Time} : s ∈ schedule.dueSlots startDate seed now ↔
    (seed < s ∧ s ≤ now) ∧ schedule.toSchedule.Slot startDate s :=
  mem_pointsIn

theorem toNat_sub_le {now cursor next : Int} {fuel : Nat} (h : (now - cursor).toNat ≤ fuel + 1)
    (hlt : cursor < next) : (now - next).toNat ≤ fuel := by
  omega

theorem next_le_slot {s : Time} (hs : schedule.toSchedule.Slot startDate s) (h : cursor < s) :
    schedule.next cursor ≤ s :=
  schedule.next_le hs.1 h

theorem dueSlots_past (hpast : now < schedule.next cursor) : schedule.dueSlots startDate cursor now = ∅ :=
  pointsIn_eq_empty fun _ hs h => lt_of_lt_of_le hpast (next_le_slot hs h)

/-- The loop ends with the first slots. -/
theorem slotsAfter_eq (hroom : 1 ≤ room) (hfuel : (now - cursor).toNat ≤ fuel) :
    schedule.toSchedule.slotsAfter startDate now (fuel + 1) room cursor =
      some ((inOrder (schedule.dueSlots startDate cursor now)).take room) := by
  have hnext : schedule.toSchedule.next = schedule.next := rfl
  induction fuel generalizing room cursor with
  | zero =>
    have hend : now ≤ cursor := Int.le_of_sub_nonpos (Int.toNat_eq_zero.mp (Nat.le_zero.mp hfuel))
    have hpast : now < schedule.next cursor := lt_of_le_of_lt hend (schedule.lt_next cursor)
    simp [Schedule.slotsAfter, hnext, hpast, dueSlots_past hpast]
  | succ fuel ih =>
    have hlt := schedule.lt_next cursor
    have hrest : (now - schedule.next cursor).toNat ≤ fuel := toNat_sub_le hfuel hlt
    rw [Schedule.slotsAfter, hnext]
    split
    next hpast => simp [dueSlots_past hpast]
    next hnow =>
      rw [Int.not_lt] at hnow
      split
      next hbefore =>
        obtain ⟨start, hstart, hbefore⟩ := Option.any_eq_true _ _ |>.mp hbefore
        have hskip : ∀ s, schedule.toSchedule.Slot startDate s → cursor < s → schedule.next cursor < s :=
          fun s hs _ => lt_of_lt_of_le (of_decide_eq_true hbefore) (hs.2 start hstart)
        rw [ih hroom hrest, dueSlots, dueSlots, pointsIn_skip hlt.le hskip]
      next hfrom =>
        have hslot : schedule.toSchedule.Slot startDate (schedule.next cursor) :=
          ⟨schedule.isActivation_next cursor, not_not.mp fun h => hfrom (Schedule.any_before_iff.mpr h)⟩
        have hsort : inOrder (schedule.dueSlots startDate cursor now) =
            schedule.next cursor :: inOrder (schedule.dueSlots startDate (schedule.next cursor) now) :=
          inOrder_pointsIn_least hslot hlt (fun s hs h => next_le_slot hs h) hnow
        obtain ⟨room, rfl⟩ : ∃ room', room = room' + 1 := ⟨room - 1, by omega⟩
        rw [hsort, take_succ_cons]
        split
        next hlast =>
          rw [show room = 0 by omega, take_zero]
        next hmore =>
          rw [Nat.add_sub_cancel, ih (by omega) hrest, Option.map_some]

theorem dueScheduledSlots_eq {catchup : Bool}
    (hseed : schedule.toSchedule.catchupSeed lastLogical startDate now = some seed) (hmax : 1 ≤ maxSlots) :
    schedule.dueScheduledSlots lastLogical startDate now catchup maxSlots =
      if catchup then (inOrder (schedule.dueSlots startDate seed now)).take maxSlots
      else ((inOrder (schedule.dueSlots startDate seed now)).take maxSlots).getLast?.toList := by
  rw [dueScheduledSlots, hseed]
  simp [Schedule.dueScheduledSlots, hseed, slotsAfter_eq hmax le_rfl]

theorem exists_catchupSeed (hset : lastLogical.isSome ∨ startDate.isSome) :
    ∃ seed, schedule.toSchedule.catchupSeed lastLogical startDate now = some seed ∧
      ∀ s, schedule.toSchedule.Slot startDate s → (seed < s ↔ ∀ last ∈ lastLogical, last < s) := by
  cases lastLogical with
  | some last =>
    refine ⟨last, rfl, fun s _ => ?_⟩
    simp
  | none =>
    obtain ⟨start, rfl⟩ := Option.isSome_iff_exists.mp (hset.resolve_left Bool.false_ne_true)
    have hperiod : 0 < schedule.toSchedule.schedulePeriod now :=
      timeSub_pos (schedule.lt_next (schedule.next now))
    refine ⟨start - schedule.toSchedule.schedulePeriod now, if_neg (Int.not_le.mpr hperiod), fun s hs => ?_⟩
    have hseed : start - schedule.toSchedule.schedulePeriod now < s :=
      lt_of_lt_of_le (Int.sub_lt_self start hperiod) (hs.2 start rfl)
    simp [hseed]

theorem of_mem_dueScheduledSlots {s : Time} {catchup : Bool}
    (hset : lastLogical.isSome ∨ startDate.isSome) (hmax : 1 ≤ maxSlots)
    (h : s ∈ schedule.dueScheduledSlots lastLogical startDate now catchup maxSlots) :
    schedule.toSchedule.Slot startDate s := by
  obtain ⟨seed, hseed, -⟩ : ∃ seed, schedule.toSchedule.catchupSeed lastLogical startDate now = some seed ∧ _ :=
    exists_catchupSeed hset
  rw [dueScheduledSlots_eq hseed hmax] at h
  have hmem : s ∈ (inOrder (schedule.dueSlots startDate seed now)).take maxSlots := by
    split at h
    · exact h
    · exact mem_of_getLast? (Option.mem_toList.mp h)
  exact (mem_dueSlots.mp (Finset.mem_sort _ |>.mp (mem_of_mem_take hmem))).2

end Cron

end Leoflow
