import Leoflow.Scheduler.Catchup

/-!
# The cron helpers at the horizon

Where the library finds no activation the loop of `dueScheduledSlots` goes on from the zero time.
-/

namespace Leoflow.Schedule

open Lib (pointsIn pointsIn_eq_empty pointsIn_skip card_pointsIn_least climb_induction)
open Option

variable (schedule : Schedule) (lastLogical startDate : Option Time) (now : Time)

/-- A slot that may be returned. -/
structure Genuine (s : Time) : Prop where
  activation : schedule.isActivation s
  unseen : ∀ last ∈ lastLogical, last < s
  started : ∀ start ∈ startDate, start ≤ s
  past : s ≤ now

/-- The loop ends and has collected genuine slots. -/
def Collects (room : Nat) (cursor : Time) : Prop :=
  ∃ fuel slots, schedule.slotsAfter startDate now fuel room cursor = some slots ∧
    ∀ s ∈ slots, schedule.Genuine lastLogical startDate now s

/-- What the loop does from the cursor `c`, be it found or the zero time. -/
def Continues (room : Nat) (c : Time) : Prop :=
  now < c ∨ c ≤ now ∧ ((¬ ∀ start ∈ startDate, start ≤ c) ∧ schedule.Collects lastLogical startDate now room c ∨
      schedule.Genuine lastLogical startDate now c ∧
        (room ≤ 1 ∨ schedule.Collects lastLogical startDate now (room - 1) c))

/-- Every search up to now finds an activation, until `room` slots are found. -/
def Searches (room : Nat) (cursor : Time) : Prop :=
  ∀ c, (c = cursor ∨ schedule.isActivation c ∧ cursor < c ∧ c ≤ now) →
    (pointsIn (schedule.Slot startDate) cursor c).card < room → schedule.Finds c

/-- A walk from the zero time does no harm: it finds its way to the start date, and what it meets from there up to
now may be returned. -/
def Harmless : Prop :=
  ∀ c, (c = 0 ∨ schedule.isActivation c) → 0 ≤ c → c ≤ now →
    (¬ ∀ start ∈ startDate, start ≤ c) ∧ schedule.Finds c ∨ schedule.Genuine lastLogical startDate now c

variable {schedule lastLogical startDate now} {room : Nat} {cursor c : Time}

/-! ## One turn of the loop -/

theorem collects_iff : schedule.Collects lastLogical startDate now room cursor ↔
    schedule.Continues lastLogical startDate now room (schedule.next cursor) := by
  constructor
  · rintro ⟨fuel, slots, hslots, hgenuine⟩
    cases fuel with
    | zero => cases hslots
    | succ fuel =>
      rw [slotsAfter] at hslots
      split at hslots
      next hpast =>
        exact .inl hpast
      rename_i hnow
      refine .inr ⟨Int.not_lt.mp hnow, ?_⟩
      split at hslots
      next hbefore =>
        exact .inl ⟨any_before_iff.mp hbefore, fuel, slots, hslots, hgenuine⟩
      split at hslots
      next hlast =>
        obtain rfl := some_inj.mp hslots
        exact .inr ⟨hgenuine _ List.mem_cons_self, .inl hlast⟩
      · obtain ⟨rest, hrest, rfl⟩ := map_eq_some_iff.mp hslots
        exact .inr ⟨hgenuine _ List.mem_cons_self,
          .inr ⟨fuel, rest, hrest, fun s hs => hgenuine s (List.mem_cons_of_mem _ hs)⟩⟩
  · rintro (hpast | ⟨hnow, ⟨hbefore, fuel, slots, hslots, hgenuine⟩ | ⟨hnext, hmore⟩⟩)
    · refine ⟨1, [], ?_, fun s hs => by cases hs⟩
      rw [slotsAfter, if_pos hpast]
    · refine ⟨fuel + 1, slots, ?_, hgenuine⟩
      rw [slotsAfter, if_neg (Int.not_lt.mpr hnow), if_pos (any_before_iff.mpr hbefore), hslots]
    have hfrom := fun h => any_before_iff.mp h hnext.started
    by_cases hlast : room ≤ 1
    · refine ⟨1, [schedule.next cursor], ?_, fun s hs => List.mem_singleton.mp hs ▸ hnext⟩
      rw [slotsAfter, if_neg (Int.not_lt.mpr hnow), if_neg hfrom, if_pos hlast]
    · obtain ⟨fuel, rest, hrest, hgenuine⟩ := hmore.resolve_left hlast
      refine ⟨fuel + 1, schedule.next cursor :: rest, ?_, List.forall_mem_cons.mpr ⟨hnext, hgenuine⟩⟩
      rw [slotsAfter, if_neg (Int.not_lt.mpr hnow), if_neg hfrom, if_neg hlast, hrest, map_some]

theorem continues_skip (hnow : c ≤ now) (hbefore : ¬ ∀ start ∈ startDate, start ≤ c) :
    schedule.Continues lastLogical startDate now room c ↔ schedule.Collects lastLogical startDate now room c := by
  constructor
  · rintro (hpast | ⟨-, ⟨-, hcollects⟩ | ⟨hgenuine, -⟩⟩)
    · exact absurd hnow (Int.not_le.mpr hpast)
    · exact hcollects
    · exact absurd hgenuine.started hbefore
  · exact fun hcollects => .inr ⟨hnow, .inl ⟨hbefore, hcollects⟩⟩

theorem continues_slot (h : schedule.Genuine lastLogical startDate now c) :
    schedule.Continues lastLogical startDate now room c ↔
      room ≤ 1 ∨ schedule.Collects lastLogical startDate now (room - 1) c := by
  constructor
  · rintro (hpast | ⟨-, ⟨hbefore, -⟩ | ⟨-, hmore⟩⟩)
    · exact absurd h.past (Int.not_le.mpr hpast)
    · exact absurd h.started hbefore
    · exact hmore
  · exact fun hmore => .inr ⟨h.past, .inr ⟨h, hmore⟩⟩

section Found

variable (hfinds : schedule.Finds cursor)
include hfinds

theorem searches_next : schedule.Searches startDate now room cursor ↔
    ∀ c, schedule.isActivation c → schedule.next cursor ≤ c → c ≤ now →
      (pointsIn (schedule.Slot startDate) cursor c).card < room → schedule.Finds c := by
  obtain ⟨hact, hlt, hleast⟩ := hfinds.next
  constructor
  · intro h c hc hle hnow
    exact h c (.inr ⟨hc, lt_of_lt_of_le hlt hle, hnow⟩)
  · rintro h c (rfl | ⟨hc, hafter, hnow⟩) hcard
    · exact hfinds
    · exact h c hc (hleast c hc hafter) hnow hcard

theorem searches_past (hpast : now < schedule.next cursor) : schedule.Searches startDate now room cursor :=
  (searches_next hfinds).mpr fun _ _ hle hnow => absurd (hpast.trans_le (hle.trans hnow)) (Int.lt_irrefl _)

variable (hnow : schedule.next cursor ≤ now)
include hnow

theorem searches_of_card {rest : Nat}
    (hcard : ∀ c, schedule.next cursor ≤ c → ((pointsIn (schedule.Slot startDate) cursor c).card < room ↔
      (pointsIn (schedule.Slot startDate) (schedule.next cursor) c).card < rest)) :
    schedule.Searches startDate now room cursor ↔ schedule.Searches startDate now rest (schedule.next cursor) := by
  rw [searches_next hfinds]
  constructor
  · rintro h c (rfl | ⟨hc, hafter, hpast⟩) hrest
    · exact h _ hfinds.next.1 le_rfl hnow ((hcard _ le_rfl).mpr hrest)
    · exact h c hc hafter.le hpast ((hcard c hafter.le).mpr hrest)
  · intro h c hc hle hpast hroom
    refine h c ?_ ((hcard c hle).mp hroom)
    rcases hle.eq_or_lt with heq | hlt
    · exact .inl heq.symm
    · exact .inr ⟨hc, hlt, hpast⟩

theorem searches_skip (hbefore : ¬ ∀ start ∈ startDate, start ≤ schedule.next cursor) :
    schedule.Searches startDate now room cursor ↔ schedule.Searches startDate now room (schedule.next cursor) := by
  refine searches_of_card hfinds hnow fun c _ => ?_
  rw [pointsIn_skip hfinds.next.2.1.le fun s hs hafter => ?_]
  refine lt_of_le_of_ne (hfinds.next.2.2 s hs.1 hafter) fun heq => hbefore ?_
  rw [heq]
  exact hs.2

theorem searches_slot (hstarted : ∀ start ∈ startDate, start ≤ schedule.next cursor) :
    schedule.Searches startDate now room cursor ↔
      schedule.Searches startDate now (room - 1) (schedule.next cursor) := by
  obtain ⟨hact, hlt, hleast⟩ := hfinds.next
  refine searches_of_card hfinds hnow fun c hle => ?_
  rw [card_pointsIn_least ⟨hact, hstarted⟩ hlt (fun s hs => hleast s hs.1) hle]
  omega

end Found

theorem not_searches (hroom : 1 ≤ room) (hlost : ¬ schedule.Finds cursor) :
    ¬ schedule.Searches startDate now room cursor := by
  intro h
  refine hlost (h cursor (.inl rfl) ?_)
  rw [pointsIn_eq_empty fun s _ h => h, Finset.card_empty]
  exact hroom

theorem searches_zero : schedule.Searches startDate now 0 cursor :=
  fun _ _ h => absurd h (Nat.not_lt_zero _)

/-! ## A walk from the zero time -/

section Walk

/-- An instant such a walk may be at. -/
def Met (schedule : Schedule) (c : Time) : Prop := (c = 0 ∨ schedule.isActivation c) ∧ 0 ≤ c

theorem met_zero : schedule.Met 0 := ⟨.inl rfl, le_rfl⟩

theorem Met.next (hc : schedule.Met c) : schedule.Met (schedule.next c) := by
  by_cases hfinds : schedule.Finds c
  · exact ⟨.inr hfinds.next.1, hc.2.trans hfinds.next.2.1.le⟩
  · rw [next_of_not_finds hfinds]
    exact met_zero

section

variable (h : schedule.Harmless lastLogical startDate now)
include h

/-- What a harmless walk does at `c`, if it may go on from there. -/
theorem continues_of_harmless (hc : schedule.Met c)
    (hbelow : c ≤ now → (¬ ∀ start ∈ startDate, start ≤ c) → schedule.Collects lastLogical startDate now room c)
    (hmore : c ≤ now → room ≤ 1 ∨ schedule.Collects lastLogical startDate now (room - 1) c) :
    schedule.Continues lastLogical startDate now room c := by
  by_cases hpast : now < c
  · exact .inl hpast
  have hnow : c ≤ now := Int.not_lt.mp hpast
  refine .inr ⟨hnow, ?_⟩
  rcases h c hc.1 hc.2 hnow with ⟨hbefore, -⟩ | hgenuine
  · exact .inl ⟨hbefore, hbelow hnow hbefore⟩
  · exact .inr ⟨hgenuine, hmore hnow⟩

theorem collects_below
    (hmore : ∀ c, schedule.Met c → c ≤ now → room ≤ 1 ∨ schedule.Collects lastLogical startDate now (room - 1) c)
    (c : Time) : schedule.Met c → c ≤ now → (¬ ∀ start ∈ startDate, start ≤ c) →
      schedule.Collects lastLogical startDate now room c := by
  induction c using climb_induction now with | step c ih =>
  intro hc hnow hbefore
  have hfinds : schedule.Finds c := by
    rcases h c hc.1 hc.2 hnow with ⟨-, hfinds⟩ | hgenuine
    · exact hfinds
    · exact absurd hgenuine.started hbefore
  rw [collects_iff]
  exact continues_of_harmless h hc.next (fun hle => ih _ hfinds.next.2.1 hle hc.next hle) (hmore _ hc.next)

/-- A harmless walk ends with genuine slots. -/
theorem collects_of_harmless (hroom : 1 ≤ room)
    (hc : schedule.Met c) : schedule.Collects lastLogical startDate now room c := by
  induction room generalizing c with
  | zero => exact absurd hroom (by decide)
  | succ room ih =>
    have hmore : ∀ c, schedule.Met c → c ≤ now →
        room + 1 ≤ 1 ∨ schedule.Collects lastLogical startDate now (room + 1 - 1) c := by
      intro c hc _
      rcases Nat.eq_zero_or_pos room with rfl | hpos
      · exact .inl le_rfl
      · exact .inr (ih hpos hc)
    rw [collects_iff]
    exact continues_of_harmless h hc.next (collects_below h hmore _ hc.next) (hmore _ hc.next)

end

/-- A search in vain below the start date leads back to the zero time, again and again. -/
theorem slotsAfter_eq_none (hc : schedule.Met c) (hnow : c ≤ now) (hbefore : ¬ ∀ start ∈ startDate, start ≤ c)
    (hlost : ¬ schedule.Finds c) (fuel : Nat) {x : Time} (hx : schedule.Met x) (hxc : x ≤ c) :
    schedule.slotsAfter startDate now fuel room x = none := by
  induction fuel generalizing x with
  | zero => rfl
  | succ fuel ih =>
    have hnext : schedule.next x ≤ c := by
      by_cases hfinds : schedule.Finds x
      · have hlt : x < c := lt_of_le_of_ne hxc fun heq => hlost (heq ▸ hfinds)
        have hne : c ≠ 0 := fun heq => absurd (hlt.trans_le (heq.le.trans hx.2)) (Int.lt_irrefl _)
        exact hfinds.next.2.2 c (hc.1.resolve_left hne) hlt
      · rw [next_of_not_finds hfinds]
        exact hc.2
    have hskip : ¬ ∀ start ∈ startDate, start ≤ schedule.next x :=
      fun h => hbefore fun start hstart => (h start hstart).trans hnext
    rw [slotsAfter, if_neg (Int.not_lt.mpr (hnext.trans hnow)), if_pos (any_before_iff.mpr hskip)]
    exact ih hx.next hnext

theorem finds_of_collects (h : schedule.Collects lastLogical startDate now room 0) (hc : schedule.Met c)
    (hnow : c ≤ now) (hbefore : ¬ ∀ start ∈ startDate, start ≤ c) : schedule.Finds c := by
  by_contra hlost
  obtain ⟨fuel, slots, hslots, -⟩ := h
  rw [slotsAfter_eq_none hc hnow hbefore hlost fuel met_zero hc.2] at hslots
  cases hslots

/-- The walk returns the first slot it meets, and so no slot is as old as the last run. -/
theorem unseen_of_collects (hfinds : ∀ x, schedule.Met x → x ≤ now → (¬ ∀ start ∈ startDate, start ≤ x) →
      schedule.Finds x) (hc : schedule.Met c) (hnow : c ≤ now) (hstarted : ∀ start ∈ startDate, start ≤ c)
    {last : Time} (hlast : last ∈ lastLogical) (x : Time) : schedule.Met x →
      (¬ ∀ start ∈ startDate, start ≤ x) → schedule.Collects lastLogical startDate now room x → last < c := by
  induction x using climb_induction now with | step x ih =>
  intro hx hbefore hcollects
  have hxc : x < c := Int.not_le.mp fun hle => hbefore fun start hstart => (hstarted start hstart).trans hle
  have hne : c ≠ 0 := fun heq => absurd (hxc.trans_le (heq.le.trans hx.2)) (Int.lt_irrefl _)
  have hx' := (hfinds x hx (hxc.le.trans hnow) hbefore).next
  have hle : schedule.next x ≤ c := hx'.2.2 c (hc.1.resolve_left hne) hxc
  rcases collects_iff.mp hcollects with hpast | ⟨hle', ⟨hbefore', hcollects'⟩ | ⟨hgenuine, -⟩⟩
  · exact absurd (hpast.trans_le (hle.trans hnow)) (Int.lt_irrefl _)
  · exact ih _ hx'.2.1 hle' hx.next hbefore' hcollects'
  · exact (hgenuine.unseen last hlast).trans_le hle

/-- **What the loop does from the zero time.** -/
theorem continues_zero_iff (hroom : 1 ≤ room) :
    schedule.Continues lastLogical startDate now room 0 ↔ schedule.Harmless lastLogical startDate now := by
  constructor
  · rintro (hpast | ⟨hnow, ⟨hzero, hcollects⟩ | ⟨hgenuine, -⟩⟩) c hc hnonneg hle
    · exact absurd (hpast.trans_le (hnonneg.trans hle)) (Int.lt_irrefl _)
    · have hfinds := fun x hx hxnow => finds_of_collects hcollects (c := x) hx hxnow
      by_cases hstarted : ∀ start ∈ startDate, start ≤ c
      · refine .inr ⟨?_, fun last hlast => ?_, hstarted, hle⟩
        · refine hc.resolve_left fun heq => hzero ?_
          rw [← heq]
          exact hstarted
        · exact unseen_of_collects hfinds ⟨hc, hnonneg⟩ hle hstarted hlast 0 met_zero hzero hcollects
      · exact .inl ⟨hstarted, hfinds c ⟨hc, hnonneg⟩ hle hstarted⟩
    · refine .inr ⟨?_, fun last hlast => (hgenuine.unseen last hlast).trans_le hnonneg,
        fun start hstart => (hgenuine.started start hstart).trans hnonneg, hle⟩
      rcases hc with rfl | hact
      · exact hgenuine.activation
      · exact hact
  · intro h
    refine continues_of_harmless h met_zero (fun _ _ => collects_of_harmless h hroom met_zero) fun _ => ?_
    rcases Nat.lt_or_ge 1 room with hmore | hlast
    · exact .inr (collects_of_harmless h (by omega) met_zero)
    · exact .inl hlast

end Walk

/-! ## The loop from its seed -/

/-- The loop ends with genuine slots exactly when no search is in vain or a walk from the zero time does no harm. -/
theorem collects_iff_searches (hroom : 1 ≤ room) (hseen : ∀ last ∈ lastLogical, last ≤ cursor) :
    schedule.Collects lastLogical startDate now room cursor ↔
      schedule.Searches startDate now room cursor ∨ schedule.Harmless lastLogical startDate now := by
  induction cursor using climb_induction now generalizing room with | step cursor ih =>
  rw [collects_iff]
  by_cases hfinds : schedule.Finds cursor
  · obtain ⟨hact, hlt, -⟩ := hfinds.next
    have hseen' : ∀ last ∈ lastLogical, last < schedule.next cursor :=
      fun last hlast => (hseen last hlast).trans_lt hlt
    by_cases hpast : now < schedule.next cursor
    · exact iff_of_true (.inl hpast) (.inl (searches_past hfinds hpast))
    have hnow : schedule.next cursor ≤ now := Int.not_lt.mp hpast
    have ih := fun room hroom => @ih _ hlt hnow room hroom fun last hlast => (hseen' last hlast).le
    by_cases hstarted : ∀ start ∈ startDate, start ≤ schedule.next cursor
    · rw [continues_slot ⟨hact, hseen', hstarted, hnow⟩, searches_slot hfinds hnow hstarted]
      rcases Nat.lt_or_ge 1 room with hmore | hlast
      · rw [← ih (room - 1) (by omega), or_iff_right (Nat.not_le.mpr hmore)]
      · rw [Nat.sub_eq_zero_of_le hlast]
        exact iff_of_true (.inl hlast) (.inl searches_zero)
    · rw [continues_skip hnow hstarted, searches_skip hfinds hnow hstarted, ih room hroom]
  · rw [next_of_not_finds hfinds, continues_zero_iff hroom]
    exact ⟨.inr, fun h => h.resolve_left (not_searches hroom hfinds)⟩

/-- Where the loop starts: at the last run, or before the start date by the distance of the two activations that
follow now. -/
def StartsAt (schedule : Schedule) (lastLogical startDate : Option Time) (now seed : Time) : Prop :=
  match lastLogical with
  | some last => seed = last
  | none => ∃ start ∈ startDate, 0 < schedule.schedulePeriod now ∧ seed = start - schedule.schedulePeriod now

theorem catchupSeed_eq_some {seed : Time} : schedule.catchupSeed lastLogical startDate now = some seed ↔
    schedule.StartsAt lastLogical startDate now seed := by
  cases lastLogical with
  | some last => simp [catchupSeed, StartsAt, eq_comm]
  | none =>
    cases startDate with
    | none => simp [catchupSeed, StartsAt]
    | some start =>
      by_cases hperiod : schedule.schedulePeriod now ≤ 0
      · simp [catchupSeed, StartsAt, hperiod, Int.not_lt.mpr hperiod]
      · simp [catchupSeed, StartsAt, hperiod, Int.not_le.mp hperiod, eq_comm]

/-- Both flags return genuine slots exactly when the loop collects only such. -/
theorem dueScheduledSlots_genuine_iff {seed : Time} {maxSlots : Nat}
    (hseed : schedule.catchupSeed lastLogical startDate now = some seed) :
    (∀ catchup, ∃ fuel slots, schedule.dueScheduledSlots fuel lastLogical startDate now catchup maxSlots = some slots ∧
        ∀ s ∈ slots, schedule.Genuine lastLogical startDate now s) ↔
      schedule.Collects lastLogical startDate now maxSlots seed := by
  simp only [dueScheduledSlots, hseed]
  constructor
  · intro h
    obtain ⟨fuel, slots, hslots, hgenuine⟩ := h true
    obtain ⟨collected, hcollected, rfl⟩ := map_eq_some_iff.mp hslots
    exact ⟨fuel, collected, hcollected, hgenuine⟩
  · rintro ⟨fuel, slots, hslots, hgenuine⟩ catchup
    refine ⟨fuel, _, by rw [hslots, map_some], fun s hs => hgenuine s ?_⟩
    cases catchup with
    | true => exact hs
    | false =>
      exact List.mem_of_getLast? (mem_toList.mp hs)

/-- **`dueScheduledSlots` ends and returns genuine slots** exactly when none of its searches is in vain or a walk
from the zero time does no harm. -/
theorem dueScheduledSlots_ends_iff (schedule : Schedule) (lastLogical startDate : Option Time) (now : Time)
    (maxSlots : Nat) (hmax : 1 ≤ maxSlots) :
    (∀ catchup, ∃ fuel slots, schedule.dueScheduledSlots fuel lastLogical startDate now catchup maxSlots = some slots ∧
        ∀ s ∈ slots, schedule.Genuine lastLogical startDate now s) ↔
      ∀ seed, schedule.StartsAt lastLogical startDate now seed →
        schedule.Searches startDate now maxSlots seed ∨ schedule.Harmless lastLogical startDate now := by
  cases hseed : schedule.catchupSeed lastLogical startDate now with
  | none =>
    refine iff_of_true (fun catchup => ⟨0, [], ?_, fun _ h => by cases h⟩) fun seed hstarts => ?_
    · simp only [dueScheduledSlots, hseed]
    · rw [catchupSeed_eq_some.mpr hstarts] at hseed
      cases hseed
  | some seed =>
    have hstarts := catchupSeed_eq_some.mp hseed
    have hseen : ∀ last ∈ lastLogical, last ≤ seed := by
      rintro last rfl
      exact le_of_eq hstarts.symm
    rw [dueScheduledSlots_genuine_iff hseed, collects_iff_searches hmax hseen]
    refine ⟨fun h seed' hstarts' => ?_, fun h => h seed hstarts⟩
    rw [← catchupSeed_eq_some, hseed] at hstarts'
    rwa [← some_inj.mp hstarts']

theorem dueScheduledSlots_ends_iff_hourly : (∀ catchup, ∃ fuel slots,
      Cron.hourly.toSchedule.dueScheduledSlots fuel (some 0) none (2 * (3600 * second)) catchup 100 = some slots ∧
        ∀ s ∈ slots, Cron.hourly.toSchedule.Genuine (some 0) none (2 * (3600 * second)) s) ↔
      ∀ seed, Cron.hourly.toSchedule.StartsAt (some 0) none (2 * (3600 * second)) seed →
        Cron.hourly.toSchedule.Searches none (2 * (3600 * second)) 100 seed ∨
          Cron.hourly.toSchedule.Harmless (some 0) none (2 * (3600 * second)) :=
  dueScheduledSlots_ends_iff _ _ _ _ _ (by decide)

/-- `0 0 30 2 *`: never. -/
def never : Schedule where
  isActivation _ := false
  horizon t := t + 5 * 365 * 86400 * second
  next _ := 0
  next_found hs := nomatch hs
  next_lost _ := rfl

/-- A DAG with a run and a start date whose schedule is changed to one that never fires. -/
theorem never_does_not_end : ¬ ∃ fuel slots,
    never.dueScheduledSlots fuel (some (2 * second)) (some second) (3 * second) true 100 = some slots ∧
      ∀ s ∈ slots, never.Genuine (some (2 * second)) (some second) (3 * second) s := by
  have hnone : ∀ fuel cursor, never.slotsAfter (some second) (3 * second) fuel 100 cursor = none := by
    intro fuel
    induction fuel with
    | zero => exact fun _ => rfl
    | succ fuel ih => exact fun _ => ih 0
  rintro ⟨fuel, slots, hslots, -⟩
  simp only [dueScheduledSlots, catchupSeed, hnone] at hslots
  cases hslots

/-! ## The first run -/

/-- One period before now the library finds the slot: it is the first activation after that instant and within its
horizon, or it is the zero time and there is none. -/
def LooksBackTo (schedule : Schedule) (now latest : Time) : Prop :=
  let back := now - schedule.schedulePeriod now
  0 < schedule.schedulePeriod now ∧ ((back < latest ∧ latest ≤ schedule.horizon back ∧
        ∀ s, schedule.isActivation s → back < s → latest ≤ s) ∨
      latest = 0 ∧ ∀ s, schedule.isActivation s → back < s → schedule.horizon back < s)

theorem next_eq_iff {t latest : Time} (hlatest : schedule.isActivation latest) :
    schedule.next t = latest ↔ (t < latest ∧ latest ≤ schedule.horizon t ∧
        ∀ s, schedule.isActivation s → t < s → latest ≤ s) ∨
      latest = 0 ∧ ∀ s, schedule.isActivation s → t < s → schedule.horizon t < s := by
  constructor
  · rintro rfl
    by_cases hfinds : schedule.Finds t
    · obtain ⟨-, hlt, hleast⟩ := hfinds.next
      obtain ⟨s, hs, hafter, hwithin⟩ := hfinds
      exact .inl ⟨hlt, (hleast s hs hafter).trans hwithin, hleast⟩
    · exact .inr ⟨next_of_not_finds hfinds,
        fun s hs hafter => Int.not_le.mp fun hwithin => hfinds ⟨s, hs, hafter, hwithin⟩⟩
  · rintro (⟨hafter, hwithin, hleast⟩ | ⟨rfl, hlost⟩)
    · obtain ⟨hact, hlt, hle⟩ := schedule.next_found hlatest hafter hwithin
      exact Int.le_antisymm hle (hleast _ hact hlt)
    · exact schedule.next_lost hlost

/-- **`mostRecentSlot` returns the latest activation** exactly when one period back the library finds it. -/
theorem mostRecentSlot_iff (schedule : Schedule) (now latest : Time)
    (hlatest : IsGreatest { s | schedule.isActivation s ∧ s ≤ now } latest) :
    schedule.mostRecentSlot now = some latest ↔ schedule.LooksBackTo now latest := by
  obtain ⟨⟨hact, hnow⟩, -⟩ := hlatest
  rw [LooksBackTo, ← next_eq_iff hact]
  change (if schedule.schedulePeriod now ≤ 0 then none
    else if now < schedule.next (now - schedule.schedulePeriod now) then none
    else some (schedule.next (now - schedule.schedulePeriod now))) = some latest ↔ _
  by_cases hperiod : schedule.schedulePeriod now ≤ 0
  · rw [if_pos hperiod]
    exact iff_of_false (fun h => by cases h) fun h => hperiod.not_gt h.1
  rw [if_neg hperiod, and_iff_right (Int.not_le.mp hperiod)]
  split
  next hpast =>
    refine iff_of_false (fun h => by cases h) fun h => ?_
    rw [h] at hpast
    exact hnow.not_gt hpast
  · exact some_inj

theorem mostRecentSlot_iff_hourly : Cron.hourly.toSchedule.mostRecentSlot (5400 * second) = some (3600 * second) := by
  refine (mostRecentSlot_iff _ _ _ (Cron.hourly.isGreatest_of_next (by decide) (by decide) (by decide))).mpr ?_
  refine ⟨by decide, .inl ⟨by decide, by decide, fun s hs hafter => ?_⟩⟩
  exact Cron.hourly.next_le hs hafter

/-- At noon a schedule that fires at nine, ten and eleven has no slot. -/
theorem mornings_has_no_slot_at_noon :
    IsGreatest { s | Cron.mornings.toSchedule.isActivation s ∧ s ≤ 12 * 3600 * second } (11 * 3600 * second) ∧
      Cron.mornings.toSchedule.mostRecentSlot (12 * 3600 * second) = none :=
  ⟨Cron.mornings.isGreatest_of_next (by decide) (by decide) (by decide), by decide⟩

end Leoflow.Schedule
