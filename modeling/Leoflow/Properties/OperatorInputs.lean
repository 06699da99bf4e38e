import Leoflow.Agent.Runner

/-!
# XCom inputs of a captured operator

Each input is passed as a variable `LEOFLOW_XCOM_<NAME>` with an upper-cased name, and what follows the prefix is
lower-cased to find the keyword argument.
-/

namespace Leoflow.Agent

open Lib (GoMap)
open List

variable {α : Type}

section Merge

variable (lower : String → String)

/-- The last variable that sets a keyword argument. -/
def setter (param : String) (env : List (String × String)) : Option (String × String) :=
  (env.filter fun e => kwarg lower e = some param).getLast?

end Merge

variable {upper lower : String → String} {loads : String → Option α} {param : String}

theorem kwarg_xcomEnvVar (name value : String) :
    kwarg lower (xcomEnvVar upper name value) = some (lower (upper name)) := by
  simp [kwarg, xcomEnvVar]

theorem setter_cons (e : String × String) (env : List (String × String)) : setter lower param (e :: env) =
      (setter lower param env).or (if kwarg lower e = some param then some e else none) := by
  unfold setter
  by_cases he : kwarg lower e = some param
  · rw [filter_cons_of_pos (by simpa using he), if_pos he, List.getLast?_cons]
    cases (env.filter fun e => kwarg lower e = some param).getLast? <;> rfl
  · rw [filter_cons_of_neg (by simpa using he), if_neg he, Option.or_none]

/-- A variable that is dropped is set again later, so the last setter stays. -/
theorem setter_keepLast (env : List (String × String)) :
    setter lower param (keepLast env) = setter lower param env := by
  induction env with
  | nil => rfl
  | cons e env ih =>
    rw [keepLast]
    split
    next hagain =>
      obtain ⟨e', hmem, hname⟩ := any_eq_true.mp hagain
      rw [ih, setter_cons]
      split
      next hsets =>
        have hsets' : kwarg lower e' = some param := by
          rw [← hsets, kwarg, kwarg, beq_iff_eq.mp hname]
        have hsome : (setter lower param env).isSome := by
          rw [setter, List.getLast?_isSome]
          exact ne_nil_of_mem (mem_filter.mpr ⟨hmem, by simpa using hsets'⟩)
        rw [Option.or_of_isSome hsome]
      · rw [Option.or_none]
    · rw [setter_cons, setter_cons, ih]

/-- What the runtime binds: the value of the last setter, or what the arguments had. -/
theorem lookup_mergeOperatorXcom {env : List (String × String)} {args kwargs : GoMap α}
    (h : mergeOperatorXcom lower loads env args = some kwargs) : kwargs.lookup param = match setter lower param env with
      | none => args.lookup param
      | some e => loads e.2 := by
  induction env generalizing args with
  | nil =>
    cases h
    rfl
  | cons e env ih =>
    rw [mergeOperatorXcom, foldlM_cons] at h
    obtain ⟨args', hstep, hrest⟩ := Option.bind_eq_some_iff.mp h
    rw [ih hrest, setter_cons]
    cases setter lower param env with
    | some e' => rfl
    | none =>
      rw [Option.none_or]
      split at hstep
      next hother =>
        rw [hother, if_neg (by simp)]
        cases hstep
        rfl
      next name hname =>
        obtain ⟨v, hv, rfl⟩ := Option.map_eq_some_iff.mp hstep
        by_cases hparam : name = param
        · subst hparam
          rw [hname, if_pos rfl]
          exact (AList.lookup_insert _).trans hv.symm
        · rw [hname, if_neg (by simpa using hparam)]
          exact AList.lookup_insert_ne (Ne.symm hparam)

/-- The merge succeeds when every input decodes. -/
theorem mergeOperatorXcom_isSome {env : List (String × String)} (args : GoMap α)
    (h : ∀ e ∈ env, (kwarg lower e).isSome → (loads e.2).isSome) :
    ∃ kwargs, mergeOperatorXcom lower loads env args = some kwargs := by
  induction env generalizing args with
  | nil => exact ⟨args, rfl⟩
  | cons e env ih =>
    rw [forall_mem_cons] at h
    rw [mergeOperatorXcom, foldlM_cons]
    cases hname : kwarg lower e with
    | none => exact ih args h.2
    | some name =>
      obtain ⟨v, hv⟩ := Option.isSome_iff_exists.mp (h.1 (by rw [hname]; rfl))
      rw [hv]
      exact ih _ h.2

theorem mem_of_mem_keepLast {env : List (String × String)} {e : String × String} (h : e ∈ keepLast env) : e ∈ env := by
  induction env with
  | nil => exact h
  | cons e' env ih =>
    rw [keepLast] at h
    split at h
    · exact mem_cons_of_mem _ (ih h)
    · exact mem_cons.mpr ((mem_cons.mp h).imp_right ih)

/-- Every mapped parameter is bound to its upstream's value, whatever the values are, in whatever order the map is
visited and whatever arguments the operator has. -/
def InputsArrive (upper lower : String → String) (loads : String → Option α)
    (before after inputs : List (String × String)) : Prop :=
  ∀ stored : String → String, (∀ p ∈ inputs, (loads (stored p.2)).isSome) → ∀ order, order.Perm inputs → ∀ args,
    ∃ kwargs, mergeOperatorXcom lower loads (keepLast (buildEnv upper stored before after order)) args = some kwargs ∧
      ∀ p ∈ inputs, kwargs.lookup p.1 = loads (stored p.2)

/-- Some parameter's name is turned into this one, and all those that are have its upstream. -/
def NamesArrive (upper lower : String → String) (inputs : List (String × String)) : Prop :=
  ∀ p ∈ inputs, (∃ q ∈ inputs, lower (upper q.1) = p.1) ∧ ∀ q ∈ inputs, lower (upper q.1) = p.1 → q.2 = p.2

variable {before after inputs : List (String × String)} {stored : String → String}

theorem setter_buildEnv (hafter : ∀ e ∈ after, kwarg lower e = none) :
    setter lower param (buildEnv upper stored before after inputs) =
      (((inputs.filter fun q => lower (upper q.1) = param).getLast?).map
        fun q => xcomEnvVar upper q.1 (stored q.2)).or (setter lower param before) := by
  have hnone : (after.filter fun e => kwarg lower e = some param) = [] := by
    rw [filter_eq_nil_iff]
    intro e he
    simp [hafter e he]
  rw [setter, buildEnv, filter_append, filter_append, hnone, append_nil, List.getLast?_append,
    filter_map, List.getLast?_map]
  simp only [Function.comp_def, kwarg_xcomEnvVar, Option.some.injEq]
  rfl

/-- **The inputs arrive exactly when their names survive the two case mappings.** -/
theorem inputsArrive_iff (hbefore : ∀ e ∈ before, (kwarg lower e).isSome → (loads e.2).isSome)
    (hafter : ∀ e ∈ after, kwarg lower e = none) {r0 r1 : String} (h0 : (loads r0).isSome) (h1 : (loads r1).isSome)
    (hne : loads r0 ≠ loads r1) :
    InputsArrive upper lower loads before after inputs ↔ NamesArrive upper lower inputs := by
  constructor
  · intro h p hp
    -- `p`'s upstream stores one value and every other upstream another one
    have hgot : ∀ order, order.Perm inputs → ∀ r r' : String, (loads r).isSome → (loads r').isSome →
        (match setter lower p.1 (buildEnv upper (fun u => if u = p.2 then r else r') before after order) with
          | none => none
          | some e => loads e.2) = loads r := by
      intro order hperm r r' hr hr'
      obtain ⟨kwargs, hmerge, hall⟩ := h (fun u => if u = p.2 then r else r')
        (fun q _ => by split <;> assumption) order hperm ∅
      have hlookup := hall p hp
      rw [lookup_mergeOperatorXcom hmerge, setter_keepLast, if_pos rfl] at hlookup
      exact hlookup
    constructor
    · by_contra hnone
      have hnil : (inputs.filter fun q => lower (upper q.1) = p.1) = [] := by
        rw [filter_eq_nil_iff]
        intro q hq hname
        exact hnone ⟨q, hq, by simpa using hname⟩
      have hsetter : ∀ stored, setter lower p.1 (buildEnv upper stored before after inputs) =
          setter lower p.1 before := by
        intro stored
        rw [setter_buildEnv hafter, hnil]
        rfl
      have hget0 := hgot inputs (.refl _) r0 r0 h0 h0
      have hget1 := hgot inputs (.refl _) r1 r1 h1 h1
      rw [hsetter] at hget0 hget1
      exact hne (hget0.symm.trans hget1)
    · intro q hq hname
      by_contra hother
      -- visited last, `q` overwrites
      have hlast := hgot (inputs.erase q ++ [q]) (perm_append_comm.trans (perm_cons_erase hq).symm) r0 r1 h0 h1
      rw [setter_buildEnv hafter, filter_append, filter_cons_of_pos (by simpa using hname),
        filter_nil, List.getLast?_concat] at hlast
      have hget : loads (if q.2 = p.2 then r0 else r1) = loads r0 := hlast
      rw [if_neg hother] at hget
      exact hne hget.symm
  · intro h stored hstored order hperm args
    obtain ⟨kwargs, hmerge⟩ := @mergeOperatorXcom_isSome α lower loads
      (keepLast (buildEnv upper stored before after order)) args (by
        intro e he hset
        rcases mem_append.mp (mem_of_mem_keepLast he) with he | he
        · rcases mem_append.mp he with he | he
          · exact hbefore e he hset
          · obtain ⟨q, hq, rfl⟩ := mem_map.mp he
            exact hstored q (hperm.mem_iff.mp hq)
        · rw [hafter e he] at hset
          exact absurd hset (by simp))
    refine ⟨kwargs, hmerge, fun p hp => ?_⟩
    obtain ⟨⟨q, hq, hname⟩, hsame⟩ := h p hp
    rw [lookup_mergeOperatorXcom hmerge, setter_keepLast, setter_buildEnv hafter]
    have hlast : ((order.filter fun q => lower (upper q.1) = p.1).getLast?).isSome := by
      rw [List.getLast?_isSome]
      exact ne_nil_of_mem (mem_filter.mpr ⟨hperm.mem_iff.mpr hq, by simpa using hname⟩)
    obtain ⟨q', hq'⟩ := Option.isSome_iff_exists.mp hlast
    obtain ⟨hmem, hname'⟩ := mem_filter.mp (mem_of_getLast? hq')
    rw [hq', ← hsame q' (hperm.mem_iff.mp hmem) (by simpa using hname')]
    rfl

/-- The case mappings on ASCII text. -/
def asciiUpper (s : String) : String := String.ofList (s.toList.map Char.toUpper)

/-- The text with its ASCII letters in lower case. -/
def asciiLower (s : String) : String := String.ofList (s.toList.map Char.toLower)

theorem inputsArrive_sql : InputsArrive asciiUpper asciiLower some [] [] [("sql", "extract")] :=
  (inputsArrive_iff (by simp) (by simp) (rfl : (some "0").isSome) (rfl : (some "1").isSome) (by decide)).mpr
    (by unfold NamesArrive; decide +kernel)

/-- A parameter with a capital is bound under another name. -/
theorem capital_does_not_arrive : (mergeOperatorXcom asciiLower some
      (keepLast (buildEnv asciiUpper (fun _ => "7") [] [] [("emailTo", "extract")])) ∅).map
        (fun kwargs => (kwargs.lookup "emailto", kwargs.lookup "emailTo")) = some (some "7", none) ∧
    ¬InputsArrive asciiUpper asciiLower some [] [] [("emailTo", "extract")] := by
  refine ⟨by decide +kernel, fun h => ?_⟩
  obtain ⟨kwargs, hmerge, hall⟩ := h (fun _ => "7") (fun _ _ => rfl) [("emailTo", "extract")] (.refl _) ∅
  have hbound := hall ("emailTo", "extract") (mem_singleton_self _)
  rw [lookup_mergeOperatorXcom hmerge] at hbound
  exact absurd hbound (by decide +kernel)

end Leoflow.Agent
