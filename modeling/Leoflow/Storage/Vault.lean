import Leoflow.Domain.VersionSpec

/-!
# The secret vault

Variables and Connections of the tenants, as `internal/storage/repository.go` reads them for delivery
and checks them at registration.
-/

namespace Leoflow

open Lib (GoMap)

/-- A row of `variables` or `connections`. The value of a connection is its URI, and none where its
password or its extra does not decrypt. -/
structure SecretRow where
  tenantID : String
  name : String
  value : Option String
deriving DecidableEq

/-- The two tables, each with its rows or the error of a query on it. -/
structure Vault where
  rows : SecretKind → Except Unit (List SecretRow)

namespace Vault

variable (v : Vault) (kind : SecretKind) (tenant : String)

/-- `SecretVariables` and `SecretConnectionURIs`: a connection that does not decrypt is skipped. -/
def secrets : Except Unit (GoMap String) :=
  (v.rows kind).map fun rows =>
    .collect SecretRow.name SecretRow.value (rows.filter fun r => r.tenantID == tenant)

/-- `SecretVariablesScoped` and `SecretConnectionURIsScoped`. -/
def secretsScoped (names : List String) : Except Unit (GoMap String) :=
  if names.length = 0 then .ok ∅
  else (v.rows kind).map fun rows =>
    .collect SecretRow.name SecretRow.value (rows.filter fun r => r.tenantID == tenant && names.contains r.name)

/-- The tenant has a secret of that name, and it decrypts. -/
def Holds (name : String) : Prop :=
  ∃ rows, v.rows kind = .ok rows ∧ ∃ r ∈ rows, r.tenantID = tenant ∧ r.name = name ∧ r.value.isSome

variable {v kind tenant}

/-- What is delivered are the names asked for that the tenant's vault holds. -/
theorem mem_secretsScoped {names : List String} {delivered : GoMap String}
    (h : v.secretsScoped kind tenant names = .ok delivered) {n : String} :
    n ∈ delivered ↔ n ∈ names ∧ v.Holds kind tenant n := by
  unfold secretsScoped at h
  split at h
  next hnil =>
    obtain rfl := Except.ok.inj h
    obtain rfl := List.length_eq_zero_iff.mp hnil
    exact ⟨fun hn => absurd hn (AList.notMem_empty n), fun hn => (by cases hn.1)⟩
  · cases hrows : v.rows kind with
    | error e => rw [hrows] at h; cases h
    | ok rows =>
      rw [hrows] at h
      obtain rfl := Except.ok.inj h
      rw [GoMap.mem_collect]
      constructor
      · rintro ⟨r, hr, rfl, hval⟩
        simp only [List.mem_filter, Bool.and_eq_true, beq_iff_eq, List.contains_iff_mem] at hr
        exact ⟨hr.2.2, rows, hrows, r, hr.1, hr.2.1, rfl, hval⟩
      · rintro ⟨hn, rows', hrows', r, hr, htenant, rfl, hval⟩
        obtain rfl := Except.ok.inj (hrows.symm.trans hrows')
        refine ⟨r, ?_, rfl, hval⟩
        simp only [List.mem_filter, Bool.and_eq_true, beq_iff_eq, List.contains_iff_mem]
        exact ⟨hr, htenant, hn⟩

/-! ## Registration -/

/-- The names a DAG and its tasks declare, each once. -/
def declaredSecretNames (spec : VersionSpec) (kind : SecretKind) : List String :=
  (spec.secrets kind ++ spec.tasks.flatMap fun t => t.secrets kind).foldl
    (fun seen n => if seen.contains n then seen else seen ++ [n]) []

/-- `unknownDeclaredNames` over what `ExistingVariableKeys` or `ExistingConnectionIDs` returns. A name
an external backend covers is accepted. -/
def unknownDeclaredNames (existing declared : List String) (covered : String → Bool) : List String :=
  declared.filter fun n => !existing.contains n && !covered n

/-- `validateDeclaredSecrets`: the names of a kind that registration refuses. -/
def unknownSecrets (v : Vault) (kind : SecretKind) (tenant : String) (covered : String → Bool)
    (spec : VersionSpec) : Except Unit (List String) :=
  match declaredSecretNames spec kind with
  | [] => .ok []
  | names => (v.rows kind).map fun rows =>
      unknownDeclaredNames ((rows.filter fun r => r.tenantID == tenant).map SecretRow.name) names covered

end Vault

end Leoflow
