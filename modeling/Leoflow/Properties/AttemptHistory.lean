import Leoflow.System.WellFormed

/-!
# Attempt history

Every reset that starts a new try archives the row first, and `ON CONFLICT DO NOTHING` keeps the first
archive of a try. The infra re-place archives the row and keeps the try number, so it is the only
reset after which a try is listed twice, or as an earlier placement left it.
-/

namespace Leoflow

open HistoryRow World List

/-! ## The last end of each try -/

/-- The rows as their tries ended, by row id and try number. -/
abbrev EndedTries := String → Nat → Option HistoryRow

/-- The last state of every try that has ended, after an action. -/
def noteEnds (w : World) (_ : Action) (w' : World) (ended : EndedTries) : EndedTries := fun id n =>
  match w.db.tis.find? (·.id == id), w'.db.tis.find? (·.id == id) with
  | some r, some r' => if r.tryNumber = n ∧ r'.tryNumber ≠ n then some r.toHistory else ended id n
  | _, _ => ended id n

/-- The system with that record. -/
abbrev endedSystem (cfg : Config) : Lib.System (World × EndedTries) Action :=
  (World.system cfg).withGhost (fun _ _ => none) noteEnds

/-- The step re-places no row: no `ResetTaskInstanceInfraReplace` of it matches one. -/
def World.replacesNone (w : World) (a : Action) : Bool :=
  match (w.write a).statement w.db with
  | some (.resetTaskInstanceInfraReplace run task) =>
    !w.db.tis.any (resetTaskInstanceInfraReplace run task).guard
  | _ => true

/-- The condition on the steps of a run. -/
abbrev ReplacesNone (w : World) (a : Action) : Prop := w.replacesNone a

/-- One entry for each try up to the current one, in order; a past try as it was when it ended for
the last time, and the current one as it is. -/
structure AttemptsExact (db : Database) (ended : EndedTries) (r : TaskInstance) : Prop where
  tries : (listTaskInstanceAttempts db r.dagRunId r.taskId).map tryNumber = List.range' 1 r.tryNumber
  past : ∀ h ∈ listTaskInstanceAttempts db r.dagRunId r.taskId, h.tryNumber ≠ r.tryNumber →
    ended r.id h.tryNumber = some h
  current : ∀ h ∈ listTaskInstanceAttempts db r.dagRunId r.taskId, h.tryNumber = r.tryNumber → h = r.toHistory

/-! ## The history table -/

/-- The history holds each past try of each row once, as it ended. -/
structure HistoryExact (db : Database) (ended : EndedTries) : Prop where
  first : ∀ r ∈ db.tis, 1 ≤ r.tryNumber
  sound : ∀ h ∈ db.history, ∃ r ∈ db.tis, r.id = h.taskInstanceId ∧ 1 ≤ h.tryNumber ∧
    h.tryNumber < r.tryNumber ∧ ended r.id h.tryNumber = some h
  complete : ∀ r ∈ db.tis, ∀ n, 1 ≤ n → n < r.tryNumber → ∃ h ∈ db.history, h.taskInstanceId = r.id ∧ h.tryNumber = n
  distinct : (db.history.map fun h => (h.taskInstanceId, h.tryNumber)).Nodup

section Listing

variable {db : Database} {ended : EndedTries} {r : TaskInstance}

/-- The archived tries of a row. -/
def Database.archivedTries (db : Database) (r : TaskInstance) : List HistoryRow :=
  db.history.filter fun h => r.id == h.taskInstanceId

theorem attempts_perm (hk : db.Keyed) (hr : r ∈ db.tis) :
    (listTaskInstanceAttempts db r.dagRunId r.taskId).Perm (db.archivedTries r ++ [r.toHistory]) := by
  have hself : r.isFor r.dagRunId r.taskId := by simp [TaskInstance.isFor]
  have hone : db.tis.filter (TaskInstance.isFor r.dagRunId r.taskId) = [r] := by
    rw [← perm_singleton, perm_ext_iff_of_nodup (hk.ids.of_map.filter _) (nodup_singleton _)]
    intro s
    rw [mem_filter, mem_singleton]
    constructor
    · rintro ⟨hs, hfor⟩
      exact hk.eq_of_isFor hs hr hfor hself
    · rintro rfl
      exact ⟨hr, hself⟩
  refine (perm_insertionSort _ _).trans ?_
  rw [hone]
  simp [Database.archivedTries]

section

variable (h : HistoryExact db ended) (hk : db.Keyed) (hr : r ∈ db.tis)
include h hk hr

theorem mem_archivedTries {x : HistoryRow} (hx : x ∈ db.archivedTries r) :
    1 ≤ x.tryNumber ∧ x.tryNumber < r.tryNumber ∧ ended r.id x.tryNumber = some x := by
  obtain ⟨hx, hid⟩ := mem_filter.mp hx
  obtain ⟨s, hs, hsid, hx⟩ := h.sound x hx
  rwa [hk.eq_of_id hs hr (hsid.trans (beq_iff_eq.mp hid).symm)] at hx

theorem archivedTries_perm : ((db.archivedTries r).map tryNumber).Perm (List.range' 1 (r.tryNumber - 1)) := by
  have hnd : ((db.archivedTries r).map tryNumber).Nodup := by
    refine List.Nodup.of_map (fun n => (r.id, n)) ?_
    rw [map_map]
    refine (map_congr_left fun x hx => ?_) ▸ h.distinct.sublist (filter_sublist.map _)
    have hid : r.id = x.taskInstanceId := by simpa using (mem_filter.mp hx).2
    rw [Function.comp, hid]
  rw [perm_ext_iff_of_nodup hnd nodup_range']
  intro n
  rw [mem_map, mem_range'_1]
  constructor
  · rintro ⟨x, hx, rfl⟩
    obtain ⟨h1, hlt, -⟩ := mem_archivedTries h hk hr hx
    omega
  · rintro ⟨h1, hlt⟩
    obtain ⟨x, hx, hid, rfl⟩ := h.complete r hr n h1 (by omega)
    exact ⟨x, mem_filter.mpr ⟨hx, by simpa using hid.symm⟩, rfl⟩

/-- Exact rows of the history give the attempts that ended. -/
theorem attemptsExact_of_history : AttemptsExact db ended r := by
  have hperm := attempts_perm hk hr
  have hmem : ∀ x ∈ listTaskInstanceAttempts db r.dagRunId r.taskId,
      (x.tryNumber < r.tryNumber ∧ ended r.id x.tryNumber = some x) ∨ x = r.toHistory := by
    intro x hx
    rcases mem_append.mp (hperm.mem_iff.mp hx) with hx | hx
    · exact .inl (mem_archivedTries h hk hr hx).2
    · exact .inr (mem_singleton.mp hx)
  refine ⟨?_, ?_, ?_⟩
  · -- Sorted and a permutation of `1, …, try_number`, so equal to it.
    have hrange : ((db.archivedTries r ++ [r.toHistory]).map tryNumber).Perm (List.range' 1 r.tryNumber) := by
      obtain ⟨n, hn⟩ := Nat.exists_eq_add_of_le (h.first r hr)
      have hlast : (r.toHistory).tryNumber = r.tryNumber := rfl
      have hp := (archivedTries_perm h hk hr).append_right [r.tryNumber]
      rw [map_append, map_cons, map_nil, hlast]
      rw [hn, Nat.add_sub_cancel_left] at hp
      rw [hn, Nat.add_comm 1 n, List.range'_concat]
      simpa [Nat.add_comm] using hp
    have hsorted : ((listTaskInstanceAttempts db r.dagRunId r.taskId).map tryNumber).Pairwise (· ≤ ·) :=
      pairwise_map.mpr (pairwise_insertionSort _ _)
    exact ((hperm.map _).trans hrange).eq_of_pairwise (fun _ _ _ _ => Nat.le_antisymm) hsorted pairwise_le_range'
  · intro x hx hne
    rcases hmem x hx with ⟨-, hend⟩ | rfl
    · exact hend
    · exact absurd rfl hne
  · intro x hx heq
    rcases hmem x hx with ⟨hlt, -⟩ | rfl
    · omega
    · rfl

end

end Listing

/-! ## One step -/

section Step

variable {cfg : Config} {w w' : World} {a : Action} {ended : EndedTries}

theorem archive_of_fresh {history : List HistoryRow} {rows : List TaskInstance}
    (h : ∀ r ∈ rows, ∀ o ∈ history, o.taskInstanceId = r.id → o.tryNumber ≠ r.tryNumber) :
    archive history rows = history ++ rows.map TaskInstance.toHistory := by
  rw [archive, filter_eq_self.mpr]
  intro x hx
  obtain ⟨r, hr, rfl⟩ := mem_map.mp hx
  simp only [Bool.not_eq_true', any_eq_false, Bool.and_eq_true, beq_iff_eq, not_and]
  exact fun o ho hid => h r hr o ho hid

theorem World.step_history (h : w.step cfg a = some w') :
    w'.db.history = archive w.db.history ((w.write a).archived w.db) := by
  rw [step_db h]
  cases a with
  | clock n => simp [World.after, World.write, Write.archived, Write.statement, archive]
  | _ => exact w.db.write_history _

/-- Without a re-place, a row that is archived moves on to its next try, and no other does. -/
theorem tryNumber_of_archived (hc : w.replacesNone a) {r : TaskInstance} (hr : r ∈ w.db.tis) :
    ((w.write a).row w.db r).tryNumber = if r ∈ (w.write a).archived w.db then r.tryNumber + 1 else r.tryNumber := by
  cases hs : (w.write a).statement w.db with
  | none => simp [Write.row, Write.archived, hs]
  | some s =>
    have hstarts : s.archives → (s.update w.db.now).guard r → s.startsTry := by
      intro harch hg
      cases s with
      | resetTaskInstanceInfraReplace run task =>
        rw [replacesNone, hs, Bool.not_eq_true', any_eq_false] at hc
        exact absurd hg (hc r hr)
      | _ => first | rfl | cases harch
    have harch : s.startsTry → s.archives := by
      cases s <;> first | (intro _; rfl) | (intro h; cases h)
    rw [Write.row_of_statement hs, s.row_tryNumber]
    congr 1
    simp only [Write.archived, hs, Bool.and_eq_true, eq_iff_iff]
    split
    next ha =>
      rw [mem_filter]
      exact ⟨fun h => ⟨hr, h.2⟩, fun h => ⟨hstarts ha h.2, h.2⟩⟩
    next ha =>
      exact ⟨fun h => absurd (harch h.1) ha, fun h => by cases h⟩

theorem noteEnds_of_mem (hw : w.WellFormed) (h : w.step cfg a = some w') {r : TaskInstance}
    (hr : r ∈ w.db.tis) (n : Nat) : noteEnds w a w' ended r.id n =
      if r.tryNumber = n ∧ ((w.write a).row w.db r).tryNumber ≠ n then some r.toHistory else ended r.id n := by
  have hr' : (w.write a).row w.db r ∈ w'.db.tis := (mem_step_tis h).mpr (.inl ⟨r, hr, rfl⟩)
  have hfind := (keyed_step hw h).find?_id hr'
  rw [Write.row_id] at hfind
  rw [noteEnds, hw.keyed.find?_id hr, hfind]

/-- The history after a step: the rows that move on to their next try are archived as they were. -/
theorem step_history_eq (hw : w.WellFormed) (he : HistoryExact w.db ended) (h : w.step cfg a = some w') :
    w'.db.history = w.db.history ++ ((w.write a).archived w.db).map TaskInstance.toHistory := by
  rw [step_history h]
  refine archive_of_fresh fun r hr o ho hid => ?_
  obtain ⟨s, hs, hsid, -, hlt, -⟩ := he.sound o ho
  have hr : r ∈ w.db.tis := Write.mem_tis_of_archived hr
  rw [hw.keyed.eq_of_id hs hr (hsid.trans hid)] at hlt
  omega

/-- A step that re-places no row keeps the history exact. -/
theorem historyExact_step (hw : w.WellFormed) (hc : w.replacesNone a)
    (h : w.step cfg a = some w') (he : HistoryExact w.db ended) : HistoryExact w'.db (noteEnds w a w' ended) := by
  have hhist := step_history_eq hw he h
  have hmem : ∀ r ∈ w.db.tis, (w.write a).row w.db r ∈ w'.db.tis := fun r hr =>
    (mem_step_tis h).mpr (.inl ⟨r, hr, rfl⟩)
  refine ⟨?_, ?_, ?_, ?_⟩
  · intro r' hr'
    rcases (mem_step_tis h).mp hr' with ⟨r, hr, rfl⟩ | hins
    · have h1 := he.first r hr
      rw [tryNumber_of_archived hc hr]
      split <;> omega
    · obtain ⟨_, _, _, _, _, _, _, -, -, -, rfl⟩ := mem_inserted hins
      exact Nat.le_refl 1
  · intro x hx
    rw [hhist, mem_append] at hx
    rcases hx with hx | hx
    · -- A try that had ended before the step.
      obtain ⟨r, hr, hid, h1, hlt, hend⟩ := he.sound x hx
      refine ⟨_, hmem r hr, by simpa using hid, h1, ?_, ?_⟩
      · rw [tryNumber_of_archived hc hr]
        split <;> omega
      · rw [Write.row_id, noteEnds_of_mem hw h hr, if_neg (by omega)]
        exact hend
    · -- The try the step ends.
      obtain ⟨r, harch, rfl⟩ := mem_map.mp hx
      have hr := Write.mem_tis_of_archived harch
      have htry := tryNumber_of_archived hc hr
      rw [if_pos harch] at htry
      refine ⟨_, hmem r hr, by simp [TaskInstance.toHistory], he.first r hr, ?_, ?_⟩
      · exact htry ▸ Nat.lt_succ_self _
      · rw [Write.row_id, noteEnds_of_mem hw h hr, if_pos ⟨rfl, htry ▸ Nat.succ_ne_self _⟩]
  · intro r' hr' n h1 hlt
    rcases (mem_step_tis h).mp hr' with ⟨r, hr, rfl⟩ | hins
    · rw [tryNumber_of_archived hc hr] at hlt
      by_cases hn : n < r.tryNumber
      · obtain ⟨x, hx, hid, hxn⟩ := he.complete r hr n h1 hn
        exact ⟨x, hhist ▸ mem_append_left _ hx, by simpa using hid, hxn⟩
      · split at hlt
        next harch =>
          refine ⟨r.toHistory, ?_, by simp [TaskInstance.toHistory], ?_⟩
          · exact hhist ▸ mem_append_right _ (mem_map_of_mem harch)
          · change r.tryNumber = n
            omega
        · exact absurd hlt hn
    · obtain ⟨_, _, _, _, _, _, _, -, -, -, rfl⟩ := mem_inserted hins
      exact absurd hlt (Nat.not_lt.mpr h1)
  · rw [hhist, map_append, map_map]
    refine he.distinct.append ?_ ?_
    · refine List.Nodup.of_map Prod.fst ?_
      rw [map_map]
      exact hw.keyed.ids.sublist (Write.archived_sublist.map _)
    · intro k hk hk'
      obtain ⟨o, ho, rfl⟩ := mem_map.mp hk
      obtain ⟨r, harch, hkr⟩ := mem_map.mp hk'
      obtain ⟨s, hs, hsid, -, hlt, -⟩ := he.sound o ho
      obtain ⟨hid, htry⟩ := Prod.mk.injEq .. ▸ hkr
      have hr := Write.mem_tis_of_archived harch
      rw [hw.keyed.eq_of_id hs hr (hsid.trans hid.symm)] at hlt
      exact absurd htry (Nat.ne_of_gt hlt)

end Step

/-- **Attempt history.** In every run that re-places no row, the listing of every row has one entry
for each try, the past ones as they were when they ended. -/
theorem attempts_are_exact {cfg : Config} {w : World} {ended : EndedTries}
    (h : (endedSystem cfg).Reaches (fun p a => ReplacesNone p.1 a) (w, ended))
    {r : TaskInstance} (hr : r ∈ w.db.tis) : AttemptsExact w.db ended r := by
  have hw := wellFormed_reaches h.fst
  refine attemptsExact_of_history ?_ hw.keyed hr
  refine Lib.System.Reaches.ghost_invariant (I := fun (w : World) ended => HistoryExact w.db ended) ?_ ?_ h
  · rintro _ ⟨now, rfl⟩
    exact ⟨forall_mem_nil _, forall_mem_nil _, forall_mem_nil _, nodup_nil⟩
  · intro w a w' ended hreach hx hc hs
    exact historyExact_step (wellFormed_reaches hreach) hc hs hx

/-- A task with one retry that has failed once. -/
theorem attempts_are_exact_second :
    ∃ p, (endedSystem oneRetry).runIf (fun p a => p.1.replacesNone a) (.empty 1, fun _ _ => none)
        (firstRunning ++ failsThenRetries) = some p ∧
      p.1.db.tis.map (fun r => (r.tryNumber, (p.2 r.id 1).map errorMessage)) = [(2, some (some "boom"))] ∧
      ∀ r ∈ p.1.db.tis, AttemptsExact p.1.db p.2 r := by
  refine Lib.exists_eq_some (by decide +kernel) fun hrun => ?_
  exact ⟨by decide +kernel, fun r hr => attempts_are_exact
    (Lib.System.Reaches.runIf (.init ⟨⟨1, rfl⟩, rfl⟩) (fun _ _ hc => hc) hrun) hr⟩

/-- The first placement is never picked up, is failed as lost, and the task is re-placed. -/
def lostAndReplaced : List Action :=
  staleQueued ++ [.mark ⟨.dispatchLost staleCandidate, 180000000001, none⟩, .clock 60000000000] ++ quietTick [.call []]

/-- The try of a re-placed task is listed twice. -/
theorem attempts_listed_twice : ¬ ∀ (cfg : Config) (w : World) (ended : EndedTries),
    (endedSystem cfg).Reachable (w, ended) → ∀ r ∈ w.db.tis, AttemptsExact w.db ended r := by
  intro h
  have hrun := (Option.some_get (x := (endedSystem oneTask).run (.empty 1, fun _ _ => none)
    lostAndReplaced) (by decide +kernel)).symm
  have hinit : (endedSystem oneTask).Reachable (.empty 1, fun _ _ => none) := .init ⟨⟨1, rfl⟩, rfl⟩
  have hexact := h oneTask _ _ (hinit.run hrun)
  exact absurd (fun r hr => (hexact r hr).tries) (by decide +kernel)

end Leoflow
