import Mathlib.Algebra.Ring.Int.Defs
import Mathlib.Data.List.AList

/-!
# String-keyed maps

A Go `map[string]T` is Mathlib's association list with distinct keys. Reading an absent key gives
the zero value, which each use supplies. `collect` is the loop that fills a map from a list of rows,
the last row of a key winning.
-/

namespace Leoflow.Lib

open List AList

/-- A Go map with string keys. -/
abbrev GoMap (α : Type) := AList fun _ : String => α

namespace GoMap

variable {α ρ : Type}

/-- `m[k]`, with the zero value for an absent key. -/
def getD (m : GoMap α) (k : String) (zero : α) : α := (m.lookup k).getD zero

/-- `m[k] += n`. -/
def addTo (m : GoMap Int) (k : String) (n : Int) : GoMap Int := m.insert k (m.getD k 0 + n)

/-- `m[k] = append(m[k], v)`. -/
def push (m : GoMap (List α)) (k : String) (v : α) : GoMap (List α) :=
  m.insert k (m.getD k [] ++ [v])

/-- `for _, r := range rows { m[key(r)] = append(m[key(r)], r) }`, from an empty map. -/
def group (key : ρ → String) (rows : List ρ) : GoMap (List ρ) :=
  rows.foldl (fun m r => push m (key r) r) ∅

/-- `for _, r := range rows { m[key(r)] += weight(r) }`, from an empty map. -/
def total (key : ρ → String) (weight : ρ → Int) (rows : List ρ) : GoMap Int :=
  rows.foldl (fun m r => addTo m (key r) (weight r)) ∅

/-- `for _, r := range rows { if v, ok := value(r); ok { m[key(r)] = v } }`, from an empty map. -/
def collect (key : ρ → String) (value : ρ → Option α) (rows : List ρ) : GoMap α :=
  rows.foldl (fun m r => (value r).elim m (m.insert (key r) ·)) ∅

/-- A map literal. -/
def literal (entries : List (String × α)) : GoMap α := collect Prod.fst (fun e => some e.2) entries

/-- `for k, v := range declared { if _, taken := own[k]; !taken { own[k] = v } }`. -/
def fill (own declared : GoMap α) : GoMap α :=
  declared.entries.foldl (fun m e => if (m.lookup e.1).isSome then m else m.insert e.1 e.2) own

/-- `for k, v := range m { if drop(v) { delete(m, k) } }`. -/
def dropWhere (m : GoMap α) (drop : α → Bool) : GoMap α where
  entries := m.entries.filter fun e => !drop e.2
  nodupKeys := m.nodupKeys.sublist filter_sublist

variable {key : ρ → String} {value : ρ → Option α}

theorem lookup_foldl_of_not_mem {rows : List ρ} {k : String} (h : ∀ r ∈ rows, key r ≠ k) (m : GoMap α) :
    (rows.foldl (fun m r => (value r).elim m (m.insert (key r) ·)) m).lookup k = m.lookup k := by
  induction rows generalizing m with
  | nil => rfl
  | cons r rows ih =>
    rw [foldl_cons, ih fun r' hr' => h r' (mem_cons_of_mem _ hr')]
    have hne : k ≠ key r := fun e => h r mem_cons_self e.symm
    cases value r with
    | none => rfl
    | some v => exact lookup_insert_ne hne

theorem mem_of_lookup_foldl {rows : List ρ} {k : String} {v : α} {m : GoMap α}
    (h : (rows.foldl (fun m r => (value r).elim m (m.insert (key r) ·)) m).lookup k = some v) :
    (∃ r ∈ rows, key r = k ∧ value r = some v) ∨ m.lookup k = some v := by
  induction rows generalizing m with
  | nil => exact .inr h
  | cons r rows ih =>
    rcases ih h with ⟨r', hr', hv⟩ | h
    · exact .inl ⟨r', mem_cons_of_mem _ hr', hv⟩
    · cases hval : value r with
      | none => simp only [hval, Option.elim] at h; exact .inr h
      | some v' =>
        simp only [hval, Option.elim] at h
        by_cases hk : k = key r
        · subst hk
          have he : some v' = some v := (lookup_insert m).symm.trans h
          exact .inl ⟨r, mem_cons_self, rfl, hval.trans he⟩
        · exact .inr ((lookup_insert_ne hk).symm.trans h)

theorem mem_of_lookup_collect {rows : List ρ} {k : String} {v : α} (h : (collect key value rows).lookup k = some v) :
    ∃ r ∈ rows, key r = k ∧ value r = some v := by
  rcases mem_of_lookup_foldl h with h | h
  · exact h
  · rw [lookup_empty] at h
    cases h

theorem lookup_foldl_insert (f : String → Option α) (rows : List ρ) (m : GoMap α) (k : String) :
    (rows.foldl (fun m r => (f (key r)).elim m (m.insert (key r) ·)) m).lookup k =
      if ∃ r ∈ rows, key r = k then (f k).or (m.lookup k) else m.lookup k := by
  induction rows generalizing m with
  | nil => simp
  | cons r rows ih =>
    rw [foldl_cons, ih]
    by_cases hk : key r = k
    · subst hk
      cases hf : f (key r) <;> simp
    · have hne : k ≠ key r := fun e => hk e.symm
      have hrest : ((f (key r)).elim m (m.insert (key r) ·)).lookup k = m.lookup k := by
        cases f (key r) with
        | none => rfl
        | some v => exact lookup_insert_ne hne
      simp [hrest, hk]

theorem lookup_collect {rows : List ρ} (hnd : (rows.map key).Nodup) {r : ρ} (hr : r ∈ rows) :
    (collect key value rows).lookup (key r) = value r := by
  obtain ⟨before, after, rfl⟩ := append_of_mem hr
  rw [map_append, map_cons, nodup_append] at hnd
  obtain ⟨_, hafter, hdisj⟩ := hnd
  have hbefore : ∀ r' ∈ before, key r' ≠ key r := fun r' hr' e =>
    hdisj _ (mem_map_of_mem hr') _ mem_cons_self e
  have hrest : ∀ r' ∈ after, key r' ≠ key r := fun r' hr' e =>
    (nodup_cons.mp hafter).1 (e ▸ mem_map_of_mem hr')
  rw [collect, foldl_append, foldl_cons, lookup_foldl_of_not_mem hrest]
  cases value r with
  | none =>
    refine (lookup_foldl_of_not_mem hbefore _).trans ?_
    exact lookup_empty _
  | some v => exact lookup_insert _

theorem mem_keys_foldl_collect (rows : List ρ) (m : GoMap α) (k : String) :
    k ∈ rows.foldl (fun m r => (value r).elim m (m.insert (key r) ·)) m ↔
      k ∈ m ∨ ∃ r ∈ rows, key r = k ∧ (value r).isSome := by
  induction rows generalizing m with
  | nil => simp
  | cons r rows ih =>
    rw [foldl_cons, ih, exists_mem_cons_iff, ← or_assoc]
    refine or_congr_left ?_
    cases value r with
    | none => simp
    | some v =>
      simp only [Option.elim, mem_insert, Option.isSome_some, and_true]
      rw [or_comm, eq_comm]

theorem mem_collect {rows : List ρ} {k : String} :
    k ∈ collect key value rows ↔ ∃ r ∈ rows, key r = k ∧ (value r).isSome := by
  unfold collect
  rw [mem_keys_foldl_collect]
  refine or_iff_right ?_
  exact notMem_empty k

theorem isSome_lookup_collect {rows : List ρ} (hnd : (rows.map key).Nodup) (f : ρ → α) (k : String) :
    ((collect key (fun r => some (f r)) rows).lookup k).isSome ↔ k ∈ rows.map key := by
  rw [mem_map]
  constructor
  · intro h
    obtain ⟨v, hv⟩ := Option.isSome_iff_exists.mp h
    obtain ⟨r, hr, rfl, -⟩ := mem_of_lookup_collect hv
    exact ⟨r, hr, rfl⟩
  · rintro ⟨r, hr, rfl⟩
    rw [lookup_collect hnd hr]
    rfl

/-- The keys already there win. -/
theorem lookup_fill (own declared : GoMap α) (k : String) :
    (own.fill declared).lookup k = (own.lookup k).or (declared.lookup k) := by
  change _ = (own.lookup k).or (List.dlookup k declared.entries)
  unfold fill
  induction declared.entries generalizing own with
  | nil => exact (Option.or_none).symm
  | cons e es ih =>
    obtain ⟨k', v⟩ := e
    rw [foldl_cons, ih]
    by_cases hk : k = k'
    · subst hk
      rw [dlookup_cons_eq]
      cases hown : own.lookup k with
      | none => simp
      | some v' => simp [hown]
    · rw [dlookup_cons_ne _ _ hk]
      cases hown : own.lookup k' with
      | none => simp [lookup_insert_ne hk]
      | some v' => simp

theorem lookup_dropWhere (m : GoMap α) (drop : α → Bool) (k : String) (v : α) :
    (m.dropWhere drop).lookup k = some v ↔ m.lookup k = some v ∧ drop v = false := by
  rw [← Option.mem_def, ← Option.mem_def, mem_lookup_iff, mem_lookup_iff]
  simp [dropWhere]

theorem lookup_erase_some {m : GoMap α} {k k' : String} {v : α} :
    (m.erase k').lookup k = some v ↔ k ≠ k' ∧ m.lookup k = some v := by
  by_cases hk : k = k'
  · subst hk
    simp
  · simp [hk, lookup_erase_ne hk]

theorem lookup_insert_some {m : GoMap α} {k k' : String} {v v' : α} :
    (m.insert k' v').lookup k = some v ↔ (k = k' ∧ v' = v) ∨ (k ≠ k' ∧ m.lookup k = some v) := by
  by_cases hk : k = k'
  · subst hk
    simp
  · simp [hk, lookup_insert_ne hk]

/-! ## Counters -/

theorem getD_insert (m : GoMap α) (k k' : String) (v zero : α) :
    GoMap.getD (m.insert k' v) k zero = if k = k' then v else m.getD k zero := by
  by_cases hk : k = k'
  · subst hk
    simp [getD]
  · simp [hk, getD, lookup_insert_ne hk]

theorem getD_addTo (m : GoMap Int) (k k' : String) (n : Int) :
    GoMap.getD (m.addTo k' n) k 0 = m.getD k 0 + if k = k' then n else 0 := by
  rw [addTo, getD_insert]
  split
  next hk =>
    rw [hk]
  · rw [Int.add_zero]

theorem getD_foldl_addTo_weight (key : ρ → String) (weight : ρ → Int) (rows : List ρ) (m : GoMap Int)
    (k : String) : GoMap.getD (rows.foldl (fun m r => m.addTo (key r) (weight r)) m) k 0 =
      m.getD k 0 + ((rows.filter fun r => key r == k).map weight).sum := by
  induction rows generalizing m with
  | nil => simp
  | cons r rows ih =>
    rw [foldl_cons, ih, getD_addTo]
    by_cases hk : key r = k
    · rw [filter_cons, if_pos (beq_iff_eq.mpr hk), map_cons, sum_cons, if_pos hk.symm]
      omega
    · rw [if_neg (Ne.symm hk), filter_cons, if_neg (by simpa using hk), Int.add_zero]

theorem getD_total (key : ρ → String) (weight : ρ → Int) (rows : List ρ) (k : String) :
    (total key weight rows).getD k 0 = ((rows.filter fun r => key r == k).map weight).sum := by
  rw [total, getD_foldl_addTo_weight]
  exact Int.zero_add _

theorem getD_foldl_addTo (key : ρ → String) (rows : List ρ) (m : GoMap Int) (k : String) :
    GoMap.getD (rows.foldl (fun m r => m.addTo (key r) 1) m) k 0 = m.getD k 0 + rows.countP fun r => key r == k := by
  induction rows generalizing m with
  | nil => simp
  | cons r rows ih =>
    rw [foldl_cons, ih, getD_addTo, countP_cons]
    by_cases hk : k = key r
    · simp [hk]
      omega
    · simp [hk, Ne.symm hk]

/-! ## Groups -/

theorem getD_foldl_push (key : ρ → String) (rows : List ρ) (m : GoMap (List ρ)) (k : String) :
    GoMap.getD (rows.foldl (fun m r => m.push (key r) r) m) k [] = m.getD k [] ++ rows.filter fun r => key r == k := by
  induction rows generalizing m with
  | nil => simp
  | cons r rows ih =>
    rw [foldl_cons, ih, push, getD_insert]
    by_cases hk : key r = k
    · rw [if_pos hk.symm, filter_cons, if_pos (beq_iff_eq.mpr hk), hk, append_assoc, singleton_append]
    · rw [if_neg (Ne.symm hk), filter_cons, if_neg (by simpa using hk)]

theorem mem_keys_foldl_push (key : ρ → String) (rows : List ρ) (m : GoMap (List ρ)) (k : String) :
    k ∈ (rows.foldl (fun m r => m.push (key r) r) m).keys ↔ k ∈ m.keys ∨ ∃ r ∈ rows, key r = k := by
  induction rows generalizing m with
  | nil => simp
  | cons r rows ih =>
    rw [foldl_cons, ih]
    have hpush : k ∈ (m.push (key r) r).keys ↔ k = key r ∨ k ∈ m.keys := mem_insert _
    rw [hpush]
    constructor
    · rintro ((rfl | h) | ⟨r', hr', h⟩)
      · exact .inr ⟨r, mem_cons_self, rfl⟩
      · exact .inl h
      · exact .inr ⟨r', mem_cons_of_mem _ hr', h⟩
    · rintro (h | ⟨r', hr', h⟩)
      · exact .inl (.inr h)
      · rcases mem_cons.mp hr' with rfl | hr'
        · exact .inl (.inl h.symm)
        · exact .inr ⟨r', hr', h⟩

theorem getD_group (key : ρ → String) (rows : List ρ) (k : String) :
    (group key rows).getD k [] = rows.filter fun r => key r == k := by
  rw [group, getD_foldl_push]
  rfl

theorem mem_keys_group (key : ρ → String) (rows : List ρ) (k : String) :
    k ∈ (group key rows).keys ↔ ∃ r ∈ rows, key r = k := by
  rw [group, mem_keys_foldl_push]
  simp

end GoMap

end Leoflow.Lib
