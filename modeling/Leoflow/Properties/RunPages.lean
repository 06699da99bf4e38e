import Leoflow.Api.Runs

/-!
# Following the pages of a DAG's runs

One page of the runs that match a filter, and what a client sees that follows the links from page to page.
-/

namespace Leoflow.Api

open List

variable {ρ : Type} (state : ρ → String) (runs : List ρ)

/-- What a client gets which follows the links to the end: the runs, and the total of each page. -/
def follow : Nat → RunsQuery → Option (List ρ × List Nat)
  | 0, _ => none
  | n + 1, q =>
    (listDagRunsHandler state runs q).bind fun page =>
      match page.next with
      | none => some (page.dagRuns, [page.totalEntries])
      | some q' => (follow n q').map fun rest => (page.dagRuns ++ rest.1, page.totalEntries :: rest.2)

/-- A client gets these runs, in this order, and each page has their number. -/
def Visits (answer : Option (List ρ × List Nat)) (runs : List ρ) : Prop :=
  ∃ totals, answer = some (runs, totals) ∧ ∀ total ∈ totals, total = runs.length

/-- The runs that `listRunsFiltered` looks at and that match. -/
def scanned (state : ρ → String) (runs : List ρ) (states : List String) : List ρ :=
  (runs.take maxRunScan).filter fun r => state r ∈ states

variable {state runs} {limit offset total n : Nat} {states : List String} {q : RunsQuery} {rows : List ρ}

/-! ## One page -/

theorem listDagRuns_eq (hlen : runs.length ≤ 2 ^ 31 - 1) (limit offset : Nat) :
    listDagRuns runs limit offset = ((runs.drop offset).take limit, runs.length) := by
  have hmin : ∀ n : Nat, (toInt32 n).toNat = min n (2 ^ 31 - 1) := by
    intro n
    unfold toInt32
    split <;> omega
  have hdrop : runs.drop (min offset (2 ^ 31 - 1)) = runs.drop offset := by
    rw [drop_eq_drop_iff]
    omega
  rw [listDagRuns, hmin, hmin, hdrop, Prod.mk.injEq, take_eq_take_iff, length_drop]
  exact ⟨by omega, rfl⟩

theorem listRunsFiltered_nil (hlen : runs.length ≤ 2 ^ 31 - 1) (limit offset : Nat) :
    listRunsFiltered state runs ⟨limit, offset, []⟩ = some ((runs.drop offset).take limit, runs.length) :=
  congrArg some (listDagRuns_eq hlen limit offset)

/-- The page begins past the last match, or its end overflows, or it is the one asked for. -/
theorem listRunsFiltered_eq (hlimit : limit < 2 ^ 63) (hoffset : offset < 2 ^ 63) (hstates : states ≠ []) :
    listRunsFiltered state runs ⟨limit, offset, states⟩ =
      if (scanned state runs states).length ≤ offset ∨ offset + limit < 2 ^ 63 then
        some (((scanned state runs states).drop offset).take limit, (scanned state runs states).length) else none := by
  have hscan : (listDagRuns runs maxRunScan 0).1 = runs.take maxRunScan := rfl
  simp only [listRunsFiltered, if_neg hstates, hscan, ← scanned.eq_def]
  generalize scanned state runs states = filtered
  by_cases hpast : filtered.length ≤ offset
  · rw [if_pos hpast, if_pos (.inl hpast), drop_eq_nil_of_le hpast, take_nil]
  rw [if_neg hpast]
  by_cases hsum : offset + limit < 2 ^ 63
  · have hstop : min (wrap64 (offset + limit)) filtered.length = (min (offset + limit) filtered.length : Nat) := by
      unfold wrap64
      omega
    have htake : min (min (offset + limit) filtered.length - offset) (filtered.length - offset) =
        min limit (filtered.length - offset) := by omega
    rw [hstop, if_neg (by omega), if_pos (.inr hsum), Int.toNat_natCast, drop_take]
    simp only [Option.some.injEq, Prod.mk.injEq, and_true, take_eq_take_iff, length_drop]
    exact htake
  · have hstop : min (wrap64 (offset + limit)) filtered.length < offset := by
      unfold wrap64
      omega
    rw [if_pos hstop, if_neg (not_or.mpr ⟨hpast, hsum⟩)]

/-- One page has all the matches exactly where none is past the runs scanned. -/
theorem scanned_eq_filter : scanned state runs states = runs.filter (state · ∈ states) ↔
    ∀ r ∈ runs.drop maxRunScan, state r ∉ states := by
  conv_lhs => rw [← take_append_drop maxRunScan runs, filter_append, scanned, take_append_drop]
  rw [self_eq_append_right, filter_eq_nil_iff]
  simp

/-- **A page of the matches is right exactly where none is past the runs scanned, and the page begins past the last
one or its end does not overflow.** -/
theorem filtered_page_iff (hlimit : limit < 2 ^ 63) (hoffset : offset < 2 ^ 63) (hstates : states ≠ []) :
    listRunsFiltered state runs ⟨limit, offset, states⟩ =
        some (((runs.filter (state · ∈ states)).drop offset).take limit, (runs.filter (state · ∈ states)).length) ↔
      (∀ r ∈ runs.drop maxRunScan, state r ∉ states) ∧
        ((runs.filter (state · ∈ states)).length ≤ offset ∨ offset + limit < 2 ^ 63) := by
  rw [listRunsFiltered_eq hlimit hoffset hstates, ← scanned_eq_filter]
  constructor
  · intro h
    split at h
    next hfits =>
      have hlen := (Prod.mk.inj (Option.some.inj h)).2
      have hall : scanned state runs states = runs.filter (state · ∈ states) :=
        ((take_sublist maxRunScan runs).filter _).eq_of_length hlen
      exact ⟨hall, hlen ▸ hfits⟩
    · cases h
  · rintro ⟨hall, hfits⟩
    rw [hall, if_pos hfits]

/-- The second of three failed runs. -/
theorem filtered_page_second : listRunsFiltered id ["failed", "success", "failed"] ⟨1, 1, ["failed"]⟩ =
    some (["failed"], 2) :=
  (filtered_page_iff (by decide) (by decide) (by decide)).mpr (by decide)

/-- The largest limit with a second page. -/
theorem filtered_page_panics :
    listRunsFiltered id ["failed", "failed"] ⟨2 ^ 63 - 1, 1, ["failed"]⟩ = none := by
  decide

/-! ## The links -/

/-- One request of a client. A sum that does not overflow comes back from the link as it is. -/
theorem follow_succ (hlimit : 1 ≤ q.limit) (hsum : q.offset + q.limit < 2 ^ 63)
    (h : listRunsFiltered state runs q = some (rows, total)) :
    follow state runs (n + 1) q =
      if q.offset + q.limit < total then (follow state runs n ⟨q.limit, q.offset + q.limit, []⟩).map
        fun rest => (rows ++ rest.1, total :: rest.2)
      else some (rows, [total]) := by
  have hwrap : wrap64 (q.offset + q.limit) = (q.offset + q.limit : Nat) := wrap64_of_lt (by omega) (by omega)
  have hnext : pagination q.limit (q.offset + q.limit : Nat) = ⟨q.limit, q.offset + q.limit, []⟩ := by
    rw [pagination, if_pos (by omega), if_pos (by omega), Int.toNat_natCast, Int.toNat_natCast]
  simp only [follow, listDagRunsHandler, h, Option.map_some, Option.bind_some, hwrap, hnext, Nat.cast_lt]
  by_cases hlt : q.offset + q.limit < total <;> simp only [hlt, if_true, if_false]

/-- Without states the links lead through all the runs that are left. -/
theorem follow_nil (hlen : runs.length ≤ 2 ^ 31 - 1) (hlimit : 1 ≤ limit) (offset : Nat)
    (hsum : offset + limit < 2 ^ 63) (hn : runs.length ≤ offset + n) :
    ∃ k, follow state runs (n + 1) ⟨limit, offset, []⟩ =
      some (runs.drop offset, List.replicate (k + 1) runs.length) := by
  induction n generalizing offset with
  | zero =>
    refine ⟨0, ?_⟩
    rw [follow_succ hlimit hsum (listRunsFiltered_nil hlen limit offset), if_neg (by dsimp; omega),
      drop_eq_nil_of_le (show _ ≤ offset from hn), take_nil]
    rfl
  | succ n ih =>
    rw [follow_succ hlimit hsum (listRunsFiltered_nil hlen limit offset)]
    by_cases hnext : offset + limit < runs.length
    · obtain ⟨k, hrest⟩ := ih (offset + limit) (by omega) (by omega)
      refine ⟨k + 1, ?_⟩
      rw [if_pos hnext, hrest, Option.map_some, ← drop_drop, take_append_drop]
      rfl
    · refine ⟨0, ?_⟩
      rw [if_neg hnext, take_of_length_le (by rw [length_drop]; omega)]
      rfl

theorem listRunsFiltered_first (hlimit : limit < 2 ^ 63) (hstates : states ≠ []) :
    listRunsFiltered state runs ⟨limit, 0, states⟩ =
      some ((scanned state runs states).take limit, (scanned state runs states).length) := by
  rw [listRunsFiltered_eq hlimit (by decide) hstates, if_pos (.inr (by omega)), drop_zero]

/-- A second page counts all the runs. -/
theorem length_scanned_eq : (scanned state runs states).length = runs.length ↔
    runs.length ≤ maxRunScan ∧ ∀ r ∈ runs, state r ∈ states := by
  constructor
  · intro h
    have hle : (scanned state runs states).length ≤ (runs.take maxRunScan).length := length_filter_le _ _
    rw [length_take] at hle
    have hfits : runs.length ≤ maxRunScan := by omega
    rw [scanned, take_of_length_le hfits, length_filter_eq_length_iff] at h
    exact ⟨hfits, by simpa using h⟩
  · rintro ⟨hfits, hall⟩
    rw [scanned, take_of_length_le hfits, length_filter_eq_length_iff]
    simpa using hall

/-- **The pages visit the matching runs exactly where no states are asked for, where the matches are all among the runs
scanned and fit on one page, or where all the runs are scanned and match.** -/
theorem pages_visit_iff (state : ρ → String) (hlen : runs.length ≤ 2 ^ 31 - 1) (hlimit : 1 ≤ limit)
    (hint : limit < 2 ^ 63) (states : List String) (hn : runs.length < n) :
    Visits (follow state runs n ⟨limit, 0, states⟩) (runs.filter fun r => states = [] ∨ state r ∈ states) ↔
      states = [] ∨
      ((scanned state runs states).length ≤ limit ∧ ∀ r ∈ runs.drop maxRunScan, state r ∉ states) ∨
      (runs.length ≤ maxRunScan ∧ ∀ r ∈ runs, state r ∈ states) := by
  obtain ⟨m, rfl⟩ := Nat.exists_eq_add_of_le' (Nat.one_le_of_lt hn)
  by_cases hstates : states = []
  · obtain ⟨k, hall⟩ := @follow_nil ρ state runs limit m hlen hlimit 0 (by omega) (by omega)
    subst hstates
    exact iff_of_true ⟨_, by simpa using hall, by simp⟩ (.inl rfl)
  have hpage := @listRunsFiltered_first ρ state runs limit states hint hstates
  simp only [hstates, false_or]
  by_cases hnext : 0 + limit < (scanned state runs states).length
  · have hle : (scanned state runs states).length ≤ runs.length :=
      (filter_sublist.trans (take_sublist _ _)).length_le
    obtain ⟨m, rfl⟩ := Nat.exists_eq_add_of_le' (show 1 ≤ m by omega)
    obtain ⟨k, hrest⟩ := @follow_nil ρ state runs limit m hlen hlimit (0 + limit) (by omega) (by omega)
    rw [follow_succ hlimit (by dsimp; omega) hpage, if_pos hnext, hrest, ← length_scanned_eq]
    constructor
    · rintro ⟨totals, heq, htotals⟩
      obtain ⟨-, rfl⟩ := Prod.mk.inj (Option.some.inj heq)
      rw [forall_mem_cons] at htotals
      exact .inr (htotals.1.trans (htotals.2 runs.length (by simp)).symm)
    · rintro (⟨hfits, -⟩ | hall)
      · omega
      · have hsame : scanned state runs states = runs :=
          (filter_sublist.trans (take_sublist _ _)).eq_of_length hall
        have hfilter : runs.filter (state · ∈ states) = runs :=
          filter_eq_self.mpr (by simpa using (length_scanned_eq.mp hall).2)
        exact ⟨_, by rw [hfilter, hsame, Option.map_some, Nat.zero_add, take_append_drop], by simp [hfilter]⟩
  · rw [follow_succ hlimit (by dsimp; omega) hpage, if_neg hnext, ← scanned_eq_filter, take_of_length_le (by omega)]
    constructor
    · rintro ⟨totals, heq, -⟩
      exact .inl ⟨by omega, (Prod.mk.inj (Option.some.inj heq)).1⟩
    · intro h
      have hall : scanned state runs states = runs.filter (state · ∈ states) := by
        rcases h with ⟨-, hall⟩ | ⟨hfits, -⟩
        · exact hall
        · rw [scanned_eq_filter, drop_eq_nil_of_le hfits]
          simp
      exact ⟨_, by rw [hall], by simp⟩

/-- Two pages of one run each, and none is missing. -/
theorem pages_visit_failed : Visits (follow id ["failed", "failed"] 3 ⟨1, 0, ["failed"]⟩) ["failed", "failed"] :=
  (pages_visit_iff id (by decide) (by decide) (by decide) ["failed"] (by decide)).mpr (.inr (.inr (by decide)))

/-- The second page has a run of another state, and counts it. -/
theorem next_drops_states : follow id ["failed", "success", "failed"] 4 ⟨1, 0, ["failed"]⟩ =
    some (["failed", "success", "failed"], [2, 3, 3]) := by
  decide +kernel

end Leoflow.Api
