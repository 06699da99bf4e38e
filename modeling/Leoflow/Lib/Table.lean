import Mathlib.Data.List.Nodup

/-!
# Guarded updates of a table

An `UPDATE … SET … WHERE …` statement over a table held as a list of rows: each row that meets the
guard is replaced, the others stay. Everything a statement does is local to a row, so what it does to
a table follows from what it does to one row.
-/

namespace Leoflow.Lib

variable {ρ : Type}

theorem find?_of_nodup {κ : Type} [BEq κ] [LawfulBEq κ] {key : ρ → κ} {rows : List ρ}
    (h : (rows.map key).Nodup) {r : ρ} (hr : r ∈ rows) : rows.find? (key · == key r) = some r := by
  cases hf : rows.find? (key · == key r) with
  | none => exact absurd (List.find?_eq_none.mp hf r hr) (by simp)
  | some s =>
    have hkey : key s = key r := by simpa using List.find?_some hf
    rw [List.inj_on_of_nodup_map h (List.mem_of_find?_eq_some hf) hr hkey]

/-- One guarded update: the `WHERE` clause and the `SET` list. -/
structure Update (ρ : Type) where
  guard : ρ → Bool
  set : ρ → ρ

namespace Update

variable (u : Update ρ)

/-- What the update makes of a row. -/
def row (r : ρ) : ρ := if u.guard r then u.set r else r

/-- What it makes of the table. -/
def exec (rows : List ρ) : List ρ := rows.map u.row

/-- The number of rows the update touches, the driver's row count. -/
def rowsAffected (rows : List ρ) : Nat := rows.countP u.guard

@[simp] theorem row_of_guard {r : ρ} (h : u.guard r) : u.row r = u.set r := by
  simp [row, h]

@[simp] theorem row_of_not_guard {r : ρ} (h : u.guard r = false) : u.row r = r := by
  simp [row, h]

theorem guard_of_row_ne {r : ρ} (h : u.row r ≠ r) : u.guard r := by
  by_contra hg
  exact h (u.row_of_not_guard (by simpa using hg))

theorem row_congr {β : Type} (f : ρ → β) (hset : ∀ r, u.guard r → f (u.set r) = f r) (r : ρ) :
    f (u.row r) = f r := by
  cases hg : u.guard r with
  | true => rw [u.row_of_guard hg, hset r hg]
  | false => rw [u.row_of_not_guard hg]

theorem map_exec {β : Type} (f : ρ → β) (hrow : ∀ r, f (u.row r) = f r) (rows : List ρ) :
    (u.exec rows).map f = rows.map f := by
  simp only [exec, List.map_map]
  exact List.map_congr_left fun r _ => hrow r

/-- What holds of the rows an update sets and of those it keeps holds of the table after it. -/
theorem forall_exec {P : ρ → Prop} {rows : List ρ} (hset : ∀ r ∈ rows, u.guard r → P (u.set r))
    (hkeep : ∀ r ∈ rows, u.guard r = false → P r) : ∀ r ∈ u.exec rows, P r := by
  intro r' hr'
  obtain ⟨r, hr, rfl⟩ := List.mem_map.mp hr'
  cases hg : u.guard r with
  | true => exact u.row_of_guard hg ▸ hset r hr hg
  | false => exact (u.row_of_not_guard hg).symm ▸ hkeep r hr hg

/-- An update that changes each row it matches changes the table where it matches one. -/
theorem exec_ne_iff (hset : ∀ r, u.guard r → u.set r ≠ r) {rows : List ρ} :
    u.exec rows ≠ rows ↔ rows.any u.guard := by
  have hrow : ∀ r, u.row r = r ↔ u.guard r = false := by
    intro r
    cases hg : u.guard r with
    | true => simp [u.row_of_guard hg, hset r hg]
    | false => simp [u.row_of_not_guard hg]
  induction rows with
  | nil => simp [exec]
  | cons r rows ih =>
    simp only [exec, List.map_cons, ne_eq, List.cons.injEq, hrow, List.any_cons, Bool.or_eq_true] at ih ⊢
    cases hg : u.guard r with
    | true => simp
    | false => simpa using ih

end Update

end Leoflow.Lib
