import Leoflow.AgentRPC.XCom

/-!
# XCom isolation

The text of a key joins tenant, DAG, run, task and name with colons, and only the name may have colons
of its own. So distinct keys have distinct texts.
-/

namespace Leoflow.AgentRPC

open Lib (GoMap)
open XComServer
open KubeExchange (AgentIdentity)
open Executor (isIdentifier isUUID isIdentChar)
open XCom List

/-! ## Keys -/

/-- A text before its first separator. -/
theorem append_separator_inj {c : Char} {a a' rest rest' : List Char} (ha : c ∉ a) (ha' : c ∉ a')
    (h : a ++ c :: rest = a' ++ c :: rest') : a = a' ∧ rest = rest' := by
  induction a generalizing a' with
  | nil =>
    cases a' with
    | nil => exact ⟨rfl, (List.cons.inj h).2⟩
    | cons d a' => exact absurd ((List.cons.inj h).1 ▸ mem_cons_self) ha'
  | cons d a ih =>
    cases a' with
    | nil => exact absurd ((List.cons.inj h).1 ▸ mem_cons_self) ha
    | cons d' a' =>
      obtain ⟨rfl, htail⟩ := List.cons.inj h
      have hrest := ih (fun hc => ha (mem_cons_of_mem _ hc)) (fun hc => ha' (mem_cons_of_mem _ hc)) htail
      exact ⟨congrArg _ hrest.1, hrest.2⟩

theorem colon_not_mem_identifier {s : String} (h : isIdentifier s) : ':' ∉ s.toList := by
  intro hmem
  exact absurd (Executor.isIdentChar_of_mem h hmem) (by decide)

theorem colon_not_mem_uuid {s : String} (h : isUUID s) : ':' ∉ s.toList := by
  intro hmem
  simp only [isUUID, Bool.and_eq_true, all_eq_true] at h
  obtain ⟨n, hn, hget⟩ := getElem_of_mem hmem
  have hchar := h.2 (':', n) (mk_mem_zipIdx_iff_getElem?.mpr (by rw [List.getElem?_eq_getElem hn, hget]))
  simp only at hchar
  split at hchar
  · exact absurd hchar (by decide)
  · exact absurd hchar (by simp)

/-- A key of an attempt: tenant and run are UUIDs, DAG and task match the pattern of the schema. -/
structure Key.WellFormed (k : Key) : Prop where
  tenant : isUUID k.tenantID
  dag : isIdentifier k.dagID
  run : isUUID k.runID
  task : isIdentifier k.taskID

theorem toList_text (k : Key) : k.text.toList = "xcom:".toList ++ (k.tenantID.toList ++ ':' ::
    (k.dagID.toList ++ ':' :: (k.runID.toList ++ ':' :: (k.taskID.toList ++ ':' :: k.name.toList)))) := by
  unfold Key.text
  simp only [String.toList_append, append_assoc]
  rfl

theorem text_injective {k k' : Key} (h : Key.WellFormed k) (h' : Key.WellFormed k')
    (ht : k.text = k'.text) : k = k' := by
  have hlist := congrArg String.toList ht
  rw [toList_text, toList_text] at hlist
  have hlist := append_cancel_left hlist
  obtain ⟨htenant, hlist⟩ :=
    append_separator_inj (colon_not_mem_uuid h.tenant) (colon_not_mem_uuid h'.tenant) hlist
  obtain ⟨hdag, hlist⟩ :=
    append_separator_inj (colon_not_mem_identifier h.dag) (colon_not_mem_identifier h'.dag) hlist
  obtain ⟨hrun, hlist⟩ :=
    append_separator_inj (colon_not_mem_uuid h.run) (colon_not_mem_uuid h'.run) hlist
  obtain ⟨htask, hname⟩ :=
    append_separator_inj (colon_not_mem_identifier h.task) (colon_not_mem_identifier h'.task) hlist
  cases k
  cases k'
  simp only [Key.mk.injEq]
  exact ⟨String.toList_injective htenant, String.toList_injective hdag, String.toList_injective hrun,
    String.toList_injective htask, String.toList_injective hname⟩

/-- The identities of attempts. -/
structure Attempt (id : AgentIdentity) : Prop where
  tenant : isUUID id.tenantID
  dag : isIdentifier id.dagID
  run : isUUID id.runID
  task : isIdentifier id.taskID

theorem wellFormed_xcomKey {id : AgentIdentity} (h : Attempt id) {task : String}
    (htask : isIdentifier task) (name : String) : Key.WellFormed (xcomKey id task name) :=
  ⟨h.tenant, h.dag, h.run, htask⟩

/-! ## The backend over a history -/

section History

variable {s : XComServer}

/-- The tokens of the server are those of attempts. -/
def XComServer.IssuesAttempts (s : XComServer) : Prop :=
  ∀ ctx id, attemptOf s.auth ctx = .ok id → Attempt id

theorem wellFormed_reached (hs : s.IssuesAttempts) {p : Push} {k : Key} {e : Entry}
    (h : s.reached p = some (k, e)) : Key.WellFormed k := by
  unfold XComServer.reached at h
  cases hid : attemptOf s.auth p.ctx with
  | error _ => simp only [hid] at h; cases h
  | ok id =>
    cases hspec : s.store.taskSpec id with
    | error _ => simp only [hid, hspec] at h; cases h
    | ok spec =>
      simp only [hid, hspec] at h
      have hattempt := hs _ _ hid
      split at h
      · cases h
      · split at h
        · cases h
        · split at h
          · obtain ⟨rfl, -⟩ := Prod.mk.inj (Option.some.inj h)
            exact wellFormed_xcomKey hattempt hattempt.task _
          · cases h

/-- The last entry pushed under a key. -/
def XComServer.lastPush (s : XComServer) (history : List XComServer.Event) (k : Key) : Option Entry :=
  (((s.pushes history).filter fun q => q.1 = k).getLast?).map Prod.snd

theorem pushes_snoc (history : List XComServer.Event) (ev : XComServer.Event) :
    s.pushes (history ++ [ev]) = s.pushes history ++ s.pushes [ev] :=
  filterMap_append

/-- What the backend has under a key is the last push to it. -/
theorem lookup_backendAfter (hs : s.IssuesAttempts) (history : List XComServer.Event) {k : Key}
    (hk : Key.WellFormed k) {e : Entry} {expiresAt : Time}
    (h : (s.backendAfter history).lookup k.text = some (e, expiresAt)) : s.lastPush history k = some e := by
  induction history using List.reverseRecOn generalizing e expiresAt with
  | nil =>
    rw [backendAfter, foldl_nil, AList.lookup_empty] at h
    cases h
  | append_singleton history ev ih =>
    unfold backendAfter at h ih
    rw [foldl_append, foldl_cons, foldl_nil] at h
    unfold lastPush at ih ⊢
    rw [pushes_snoc, filter_append]
    cases ev with
    | evict key =>
      change ((history.foldl s.apply ∅).erase key).lookup k.text = _ at h
      rw [show s.pushes [.evict key] = [] from rfl, filter_nil, append_nil]
      exact ih (GoMap.lookup_erase_some.mp h).2
    | push p =>
      change (s.pushXCom (history.foldl s.apply ∅) p).1.lookup k.text = _ at h
      rw [pushXCom_backend] at h
      have hlast : s.pushes [.push p] = (s.reached p).toList := by
        unfold pushes
        cases hr : s.reached p with
        | none => simp [hr]
        | some q => simp [hr]
      rw [hlast]
      cases hr : s.reached p with
      | none =>
        rw [hr] at h
        rw [Option.toList_none, filter_nil, append_nil]
        exact ih h
      | some q =>
        obtain ⟨k', e'⟩ := q
        simp only [hr] at h
        by_cases hkey : k' = k
        · subst hkey
          rw [AList.lookup_insert] at h
          rw [Option.toList_some, filter_cons_of_pos (by simp), filter_nil, List.getLast?_concat]
          exact congrArg (Option.map Prod.fst) h
        · have hne : k.text ≠ k'.text := fun ht =>
            hkey (text_injective (wellFormed_reached hs hr) hk ht.symm)
          rw [AList.lookup_insert_ne hne] at h
          rw [Option.toList_some, filter_cons_of_neg (by simp [hkey]), filter_nil, append_nil]
          exact ih h

/-- **XCom isolation**: after any history of pushes and losses, what a fetch returns was pushed under the
caller's own tenant, DAG and run by the upstream it named, which its task declared as an input or a
dependency, under the name it asked for, and it is the last such push that reached the backend. -/
theorem xcom_isolated (hs : s.IssuesAttempts) {history : List XComServer.Event} {ctx : Call}
    {req : XComServer.FetchRequest} (hup : isIdentifier req.upstreamTaskID) {now : Time}
    {backendOk : Bool} {resp : XComServer.FetchResponse}
    (h : s.fetchXCom (s.backendAfter history) ctx req now backendOk = .ok resp) :
    ∃ id spec t, attemptOf s.auth ctx = .ok id ∧ s.store.Serves id.runID spec ∧ t ∈ spec.tasks ∧ t.taskID = id.taskID ∧
      (declaresUpstream t.xcomInput req.upstreamTaskID ∨ req.upstreamTaskID ∈ t.dependsOn) ∧
      ∃ e, s.lastPush history (xcomKey id req.upstreamTaskID req.key) = some e ∧
        resp.value = e.value ∧ resp.contentType = e.contentType ∧ resp.createdAt = e.createdAt := by
  unfold fetchXCom at h
  cases hid : attemptOf s.auth ctx with
  | error _ => simp only [hid] at h; cases h
  | ok id =>
    cases hspec : s.store.resolve id.runID id.taskID with
    | error e =>
      have htold : s.store.taskSpec id = .error e := by
        unfold ExecutionStore.taskSpec
        rw [hspec]
        rfl
      simp only [hid, htold] at h
      cases h
    | ok r =>
      obtain ⟨t, spec⟩ := r
      have htold : s.store.taskSpec id = .ok (agentTaskSpec t spec) := by
        unfold ExecutionStore.taskSpec
        rw [hspec]
        rfl
      obtain ⟨hserves, ht, htask⟩ := ExecutionStore.resolve_ok hspec
      simp only [hid, htold] at h
      split at h
      · cases h
      next hallowed =>
        split at h
        · cases h
        · cases hfetch : (s.backendAfter history).fetch (xcomKey id req.upstreamTaskID req.key).text now with
          | none => simp only [hfetch] at h; cases h
          | some e =>
            simp only [hfetch] at h
            obtain rfl := Except.ok.inj h
            refine ⟨id, spec, t, rfl, hserves, ht, htask, ?_, e, ?_, rfl, rfl, rfl⟩
            · -- the check refused neither way
              rw [Bool.and_eq_true, not_and_or, Bool.not_eq_true', Bool.not_eq_true',
                Bool.not_eq_false, Bool.not_eq_false, contains_iff_mem] at hallowed
              exact hallowed
            · unfold Backend.fetch at hfetch
              split at hfetch
              next e' expiresAt hlook =>
                split at hfetch
                · obtain rfl := Option.some.inj hfetch
                  exact lookup_backendAfter hs history (wellFormed_xcomKey (hs _ _ hid) hup _) hlook
                · cases hfetch
              · cases hfetch

end History

/-! ## A name with a colon -/

/-- The id of a tenant. -/
def tenantUUID : String := "0d5f1c3e-7a42-4b7e-9a55-2f1f5c0a9b11"

/-- The id of a run. -/
def runUUID : String := "5b8e2f60-1d3c-4e9a-8c77-6a0d4f3b2e90"

/-- The attempt of a task in that run. -/
def attemptOfTask (task : String) : AgentIdentity :=
  { tenantID := tenantUUID, dagID := "etl", runID := runUUID, taskID := task, tryNumber := 1 }

/-- `load` depends on `extract`. -/
def pairSpec : VersionSpec where
  dagID := "etl"
  tasks := [{ taskID := "extract" }, { taskID := "load", dependsOn := ["extract"] }]
  distinct := by decide
  inSchema := by decide

/-- A server with a token for each of the two tasks. -/
def pairServer : XComServer where
  auth := fun token =>
    if token = "extract" then some (attemptOfTask "extract")
    else if token = "load" then some (attemptOfTask "load") else none
  store := {
    run := fun id => if id = runUUID then some { id := runUUID, dagVersionId := "v1", queuedAt := 0 } else none
    version := fun id => if id = "v1" then some pairSpec else none }
  ttl := 60 * second
  validSchema := fun _ _ => true

theorem pairServer_issuesAttempts : pairServer.IssuesAttempts := by
  intro ctx id hid
  obtain ⟨token, -, hauth⟩ := identify_ok.mp (attemptOf_ok.mp hid).1
  change (if token = "extract" then some (attemptOfTask "extract")
    else if token = "load" then some (attemptOfTask "load") else none) = some id at hauth
  split at hauth
  · obtain rfl := Option.some.inj hauth
    exact ⟨by decide +kernel, by decide +kernel, by decide +kernel, by decide +kernel⟩
  · split at hauth
    · obtain rfl := Option.some.inj hauth
      exact ⟨by decide +kernel, by decide +kernel, by decide +kernel, by decide +kernel⟩
    · cases hauth

/-- `extract` pushes under `part:1` twice, and once more without reaching the backend. -/
def partHistory : List XComServer.Event :=
  [.push ⟨⟨some "extract", true⟩, "part:1", [1], "", second, true, true⟩,
    .push ⟨⟨some "extract", true⟩, "part:1", [2], "", 2 * second, true, false⟩,
    .push ⟨⟨some "extract", true⟩, "part:1", [3], "", 3 * second, false, true⟩]

/-- A key with a colon in it. -/
theorem xcom_isolated_part : pairServer.fetchXCom (pairServer.backendAfter partHistory) ⟨some "load", true⟩
        ⟨"extract", "part:1"⟩ (4 * second) true =
      .ok ⟨[2], "application/json", 1, 2 * second⟩ ∧
    ∃ id e, attemptOf pairServer.auth ⟨some "load", true⟩ = .ok id ∧
      pairServer.lastPush partHistory (xcomKey id "extract" "part:1") = some e ∧ [2] = e.value := by
  have hfetch : pairServer.fetchXCom (pairServer.backendAfter partHistory) ⟨some "load", true⟩
        ⟨"extract", "part:1"⟩ (4 * second) true =
      .ok ⟨[2], "application/json", 1, 2 * second⟩ := by
    decide +kernel
  obtain ⟨id, _, _, hid, -, -, -, -, e, hlast, hvalue, -, -⟩ :=
    xcom_isolated pairServer_issuesAttempts (by decide +kernel) hfetch
  exact ⟨hfetch, id, e, hid, hlast, hvalue⟩

end Leoflow.AgentRPC
