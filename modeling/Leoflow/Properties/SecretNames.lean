import Leoflow.Agent.Runner

/-!
# Delivered secrets in the environment of a task

The maps are visited in any order, and the last assignment of a name counts.
-/

namespace Leoflow.Agent

open Lib (GoMap)

/-- In every order of the maps each secret is read with its own value, and every variable is the same. -/
def SecretsReadable (upper : String → String) (d : GoMap String × GoMap String) : Prop :=
  ∀ vars conns, vars.Perm (pairs d.1) → conns.Perm (pairs d.2) →
    (∀ x ∈ secretVars upper vars conns, getenv (secretsEnv upper vars conns) x.1 = some x.2.toList) ∧
    ∀ name, getenv (secretsEnv upper vars conns) name = getenv (secretsEnv upper (pairs d.1) (pairs d.2)) name

/-- No name has an `=`, and names that are equal have one value. -/
def NamesApart (l : List (List Char × String)) : Prop :=
  ∀ x ∈ l, '=' ∉ x.1 ∧ ∀ y ∈ l, x.1 = y.1 → x.2 = y.2

variable {l l' : List (List Char × String)} {x : List Char × String} {name v : List Char}

theorem nameOf_assignment (h : '=' ∉ x.1) : nameOf (assignment x) = x.1 ∧ valueOf (assignment x) = x.2.toList := by
  have hall : ∀ c ∈ x.1, (c != '=') := by
    intro c hc
    rw [bne_iff_ne]
    rintro rfl
    exact h hc
  rw [nameOf, valueOf, assignment, List.takeWhile_append_of_pos hall, List.dropWhile_append_of_pos hall]
  simp

theorem exists_of_getenv (h : getenv (l.map assignment) name = some v) :
    ∃ x ∈ l, nameOf (assignment x) = name ∧ valueOf (assignment x) = v := by
  obtain ⟨e, hfind, hv⟩ := Option.map_eq_some_iff.mp h
  obtain ⟨x, hx, rfl⟩ := List.mem_map.mp (List.mem_reverse.mp (List.mem_of_find?_eq_some hfind))
  exact ⟨x, hx, by simpa using List.find?_some hfind, hv⟩

theorem NamesApart.getenv_eq (h : NamesApart l) (hx : x ∈ l) : getenv (l.map assignment) x.1 = some x.2.toList := by
  have hsome : (getenv (l.map assignment) x.1).isSome := by
    rw [getenv, Option.isSome_map, List.find?_isSome]
    refine ⟨assignment x, List.mem_reverse.mpr (List.mem_map_of_mem hx), ?_⟩
    rw [(nameOf_assignment (h x hx).1).1, beq_self_eq_true]
  obtain ⟨v, hv⟩ := Option.isSome_iff_exists.mp hsome
  obtain ⟨y, hy, hname, rfl⟩ := exists_of_getenv hv
  obtain ⟨hyname, hyvalue⟩ := nameOf_assignment (h y hy).1
  rw [hv, hyvalue, (h y hy).2 x hx (hyname.symm.trans hname)]

theorem namesApart_of_getenv (h : ∀ x ∈ l, getenv (l.map assignment) x.1 = some x.2.toList) : NamesApart l := by
  intro x hx
  constructor
  · intro heq
    obtain ⟨y, -, hname, -⟩ := exists_of_getenv (h x hx)
    rw [← hname] at heq
    exact absurd (List.all_eq_true.mp List.all_takeWhile _ heq) (by decide)
  · intro y hy hxy
    have hsame := h y hy
    rw [← hxy, h x hx] at hsame
    exact String.toList_inj.mp (Option.some.inj hsame)

/-- Names that are apart are read in one way, whatever the order. -/
theorem NamesApart.getenv_perm (h : NamesApart l) (hp : l'.Perm l) (name : List Char) :
    getenv (l'.map assignment) name = getenv (l.map assignment) name := by
  have h' : NamesApart l' := fun x hx =>
    ⟨(h x (hp.mem_iff.mp hx)).1, fun y hy => (h x (hp.mem_iff.mp hx)).2 y (hp.mem_iff.mp hy)⟩
  ext v
  constructor
  · intro hv
    obtain ⟨x, hx, rfl, rfl⟩ := exists_of_getenv hv
    obtain ⟨hname, hvalue⟩ := nameOf_assignment (h' x hx).1
    rw [hname, hvalue, h.getenv_eq (hp.mem_iff.mp hx)]
  · intro hv
    obtain ⟨x, hx, rfl, rfl⟩ := exists_of_getenv hv
    obtain ⟨hname, hvalue⟩ := nameOf_assignment (h x hx).1
    rw [hname, hvalue, h'.getenv_eq (hp.mem_iff.mpr hx)]

/-- **Every secret is read with its own value, in every order, exactly where the upper-cased names are apart.** -/
theorem secrets_readable_iff (upper : String → String) (vars conns : VaultAnswer)
    (resolver : Option (Option (GoMap String × GoMap String))) :
    (∀ d ∈ delivered vars conns resolver, SecretsReadable upper d) ↔
      ∀ d ∈ delivered vars conns resolver, NamesApart (secretVars upper (pairs d.1) (pairs d.2)) := by
  refine forall_congr' fun d => imp_congr_right fun _ => ⟨fun h => ?_, fun h vs cs hv hc => ?_⟩
  · exact namesApart_of_getenv (h _ _ (.refl _) (.refl _)).1
  · have hp : (secretVars upper vs cs).Perm (secretVars upper (pairs d.1) (pairs d.2)) :=
      (hv.map _).append (hc.map _)
    refine ⟨fun x hx => ?_, h.getenv_perm hp⟩
    rw [secretsEnv, h.getenv_perm hp, h.getenv_eq (hp.mem_iff.mp hx)]

/-- Two variables that differ in the case of a letter are one in the environment. -/
theorem case_is_merged : let upper : String → String := fun s => String.ofList (s.toList.map Char.toUpper)
    getenv (secretsEnv upper [("key", "a"), ("Key", "b")] []) "AIRFLOW_VAR_KEY".toList = some "b".toList ∧
      getenv (secretsEnv upper [("Key", "b"), ("key", "a")] []) "AIRFLOW_VAR_KEY".toList = some "a".toList := by
  decide +kernel

end Leoflow.Agent
