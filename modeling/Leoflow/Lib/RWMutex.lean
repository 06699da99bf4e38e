import Mathlib.Data.List.Nodup

/-!
# Readers and one writer

A readers-writer lock with the names of its holders. Any number of readers may hold it together, a
writer only alone. A waiting writer does not keep readers out, which allows more runs than a fair lock
has.
-/

namespace Leoflow.Lib

/-- The holders of the lock. -/
structure RWMutex (ι κ : Type) where
  readers : List ι := []
  writer : Option κ := none

namespace RWMutex

variable {ι κ : Type} [DecidableEq ι] (m : RWMutex ι κ)

/-- A reader comes in while there is no writer. -/
def rLock (i : ι) : Option (RWMutex ι κ) :=
  if m.writer.isNone then some { m with readers := i :: m.readers } else none

/-- A reader leaves. -/
def rUnlock (i : ι) : RWMutex ι κ := { m with readers := m.readers.erase i }

/-- The writer comes in when it is alone. -/
def lock (c : κ) : Option (RWMutex ι κ) :=
  if m.readers.isEmpty && m.writer.isNone then some { m with writer := some c } else none

/-- The writer leaves. -/
def unlock : RWMutex ι κ := { m with writer := none }

/-- No reader holds the lock twice, and none beside a writer. -/
structure Valid : Prop where
  nodup : m.readers.Nodup
  exclusive : ∀ {c}, m.writer = some c → m.readers = []

variable {m} {m' : RWMutex ι κ} {i : ι} {c : κ}

omit [DecidableEq ι] in
theorem rLock_eq_some : m.rLock i = some m' ↔ m.writer = none ∧ { m with readers := i :: m.readers } = m' := by
  simp [rLock]

omit [DecidableEq ι] in
theorem lock_eq_some : m.lock c = some m' ↔ (m.readers = [] ∧ m.writer = none) ∧ { m with writer := some c } = m' := by
  simp [lock]

omit [DecidableEq ι] in
theorem Valid.rLock (h : m.Valid) (hw : m.writer = none) (hi : i ∉ m.readers) :
    Valid { m with readers := i :: m.readers } where
  nodup := List.nodup_cons.mpr ⟨hi, h.nodup⟩
  exclusive {c} hc := by
    rw [hw] at hc
    cases hc

theorem Valid.rUnlock (h : m.Valid) (i : ι) : (m.rUnlock i).Valid where
  nodup := h.nodup.erase i
  exclusive {c} hc := by
    have hnil := h.exclusive hc
    simp [RWMutex.rUnlock, hnil]

omit [DecidableEq ι] in
theorem Valid.lock (h : m.Valid) (hr : m.readers = []) (c : κ) : Valid { m with writer := some c } where
  nodup := h.nodup
  exclusive _ := hr

omit [DecidableEq ι] in
theorem Valid.unlock (h : m.Valid) : m.unlock.Valid where
  nodup := h.nodup
  exclusive hc := by cases hc

theorem mem_rUnlock (h : m.Valid) {j : ι} : j ∈ (m.rUnlock i).readers ↔ j ≠ i ∧ j ∈ m.readers :=
  h.nodup.mem_erase_iff

end RWMutex

end Leoflow.Lib
