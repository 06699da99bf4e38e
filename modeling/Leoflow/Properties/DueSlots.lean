import Leoflow.Scheduler.Catchup

/-!
# Which slots are due

The loop of `dueScheduledSlots` enumerates the activations after its seed, from the start date to now, and
stops at `maxSlots`. Skip-ahead takes the last of what it collected.
-/

namespace Leoflow

open List

variable {schedule : Cron} {lastLogical startDate : Option Time} {now seed : Time} {maxSlots : Nat}

/-! ## Backfill -/

/-- All due slots, in order. -/
structure DueInOrder (schedule : Cron) (lastLogical startDate : Option Time) (now : Time) (slots : List Time) :
    Prop where
  increasing : slots.Pairwise (· < ·)
  mem (s : Time) : s ∈ slots ↔ schedule.isActivation s ∧ s ≤ now ∧ (∀ last ∈ lastLogical, last < s) ∧
    ∀ start ∈ startDate, start ≤ s

/-- **A backfill returns the earliest slots.** -/
theorem backfill_returns_earliest (schedule : Cron) (lastLogical startDate : Option Time) (now : Time)
    (maxSlots : Nat) (hset : lastLogical.isSome ∨ startDate.isSome) (hmax : 1 ≤ maxSlots) :
    ∃ slots, DueInOrder schedule lastLogical startDate now slots ∧
      schedule.dueScheduledSlots lastLogical startDate now true maxSlots = slots.take maxSlots := by
  obtain ⟨seed, hseed, hlast⟩ : ∃ seed, schedule.toSchedule.catchupSeed lastLogical startDate now = some seed ∧
      ∀ s, schedule.toSchedule.Slot startDate s → (seed < s ↔ ∀ last ∈ lastLogical, last < s) :=
    Cron.exists_catchupSeed hset
  refine ⟨Lib.inOrder (schedule.dueSlots startDate seed now), ⟨Finset.sortedLT_sort _ |>.pairwise, fun s => ?_⟩,
    Cron.dueScheduledSlots_eq hseed hmax⟩
  rw [Finset.mem_sort, Cron.mem_dueSlots]
  constructor
  · rintro ⟨⟨hafter, hnow⟩, hslot⟩
    exact ⟨hslot.1, hnow, (hlast s hslot).mp hafter, hslot.2⟩
  · rintro ⟨hact, hnow, hafter, hstart⟩
    exact ⟨⟨(hlast s ⟨hact, hstart⟩).mpr hafter, hnow⟩, hact, hstart⟩

theorem backfill_returns_earliest_mornings : ∃ slots,
    DueInOrder .mornings none (some (9 * 3600 * second)) (34 * 3600 * second) slots ∧
      Cron.mornings.dueScheduledSlots none (some (9 * 3600 * second)) (34 * 3600 * second) true 2 = slots.take 2 :=
  backfill_returns_earliest .mornings none (some (9 * 3600 * second)) (34 * 3600 * second) 2 (.inr rfl) (by decide)

/-! ## Skip-ahead -/

/-- The latest slot after the seed up to now, or nothing where there is none. -/
def LatestSlot (schedule : Cron) (startDate : Option Time) (seed now : Time) : List Time → Prop
  | [] => ∀ s, seed < s → s ≤ now → ¬ schedule.toSchedule.Slot startDate s
  | [latest] => IsGreatest { s | seed < s ∧ s ≤ now ∧ schedule.toSchedule.Slot startDate s } latest
  | _ => False

/-- The last of the first elements of an increasing list is the greatest exactly when they are all. -/
theorem isGreatest_getLast_take_iff {slots : List Time} (hsorted : slots.Pairwise (· < ·)) {latest : Time}
    {front : List Time} (htake : slots.take maxSlots = front ++ [latest]) :
    IsGreatest { s | s ∈ slots } latest ↔ slots.length ≤ maxSlots := by
  have hsplit : slots = front ++ [latest] ++ slots.drop maxSlots := by
    rw [← htake, take_append_drop]
  rw [hsplit, pairwise_append, pairwise_append] at hsorted
  obtain ⟨⟨-, -, hfront⟩, -, hdrop⟩ := hsorted
  constructor
  · intro hgreatest
    by_contra hlong
    obtain ⟨s, hs⟩ := exists_mem_of_ne_nil (slots.drop maxSlots) (by rw [ne_eq, drop_eq_nil_iff]; exact hlong)
    have hlt : latest < s := hdrop latest (by simp) s hs
    exact absurd (hgreatest.2 (mem_of_mem_drop hs)) (Int.not_le.mpr hlt)
  · intro hshort
    rw [drop_eq_nil_of_le hshort, append_nil] at hsplit
    rw [hsplit]
    refine ⟨by simp, fun s hs => ?_⟩
    rcases mem_append.mp hs with hs | hs
    · exact (hfront s hs latest mem_cons_self).le
    · rw [mem_singleton.mp hs]

/-- **Skip-ahead returns the latest slot exactly when the loop is not cut off.** -/
theorem skipAhead_latest_iff (hmax : 1 ≤ maxSlots)
    (hseed : schedule.toSchedule.catchupSeed lastLogical startDate now = some seed) :
    LatestSlot schedule startDate seed now (schedule.dueScheduledSlots lastLogical startDate now false maxSlots) ↔
      (schedule.dueSlots startDate seed now).card ≤ maxSlots := by
  rw [Cron.dueScheduledSlots_eq hseed hmax, if_neg Bool.false_ne_true]
  have hset : { s | seed < s ∧ s ≤ now ∧ schedule.toSchedule.Slot startDate s } =
      { s | s ∈ Lib.inOrder (schedule.dueSlots startDate seed now) } := by
    ext s
    simp [Cron.mem_dueSlots, and_assoc]
  rcases eq_nil_or_concat ((Lib.inOrder (schedule.dueSlots startDate seed now)).take maxSlots) with
    hnil | ⟨front, latest, htake⟩
  · -- Nothing collected is nothing due.
    have hempty : Lib.inOrder (schedule.dueSlots startDate seed now) = [] := by
      rcases take_eq_nil_iff.mp hnil with hzero | hempty
      · omega
      · exact hempty
    have hcard : (schedule.dueSlots startDate seed now).card = 0 :=
      (Finset.length_sort (· ≤ ·)).symm.trans (congrArg length hempty)
    rw [hnil, hcard]
    refine iff_of_true (fun s hafter hnow hslot => ?_) (Nat.zero_le _)
    have hmem : s ∈ schedule.dueSlots startDate seed now := Cron.mem_dueSlots.mpr ⟨⟨hafter, hnow⟩, hslot⟩
    rw [Finset.card_eq_zero.mp hcard] at hmem
    cases hmem
  · rw [htake, concat_eq_append, List.getLast?_concat, Option.toList_some, LatestSlot, hset,
      ← Finset.length_sort (· ≤ ·)]
    rw [concat_eq_append] at htake
    exact isGreatest_getLast_take_iff (Finset.sortedLT_sort _).pairwise htake

theorem skipAhead_latest_iff_hourly : LatestSlot .hourly none 0 (3 * (3600 * second))
        (Cron.hourly.dueScheduledSlots (some 0) none (3 * (3600 * second)) false 100) ↔
      (Cron.hourly.dueSlots none 0 (3 * (3600 * second))).card ≤ 100 :=
  skipAhead_latest_iff (by decide) rfl

/-- An hourly DAG that missed 101 slots is given the hundredth. -/
theorem skipAhead_cut_off : ¬ LatestSlot .hourly none 0 (101 * (3600 * second))
    (Cron.hourly.dueScheduledSlots (some 0) none (101 * (3600 * second)) false 100) := by
  have hslots : Cron.hourly.dueScheduledSlots (some 0) none (101 * (3600 * second)) false 100 =
      [100 * (3600 * second)] := by decide +kernel
  rw [hslots]
  intro hgreatest
  have hle : (101 * (3600 * second) : Time) ≤ 100 * (3600 * second) :=
    hgreatest.2 ⟨by decide, le_rfl, by decide, fun _ h => by cases h⟩
  exact absurd hle (by decide)

end Leoflow
