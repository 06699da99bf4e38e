import Mathlib.Data.List.Basic

/-!
# Channels that may be cut

A FIFO channel from a sender to a receiver. It may be cut at any moment: what the receiver has not
taken is lost from some point on, and so is everything sent later. The sender sees neither.
-/

namespace Leoflow.Lib

variable {α : Type}

/-- What is under way, the oldest message first, and whether the channel was cut. -/
structure Channel (α : Type) where
  queue : List α := []
  cut : Bool := false
deriving DecidableEq

namespace Channel

/-- A send that returns without an error. -/
def send (c : Channel α) (m : α) : Channel α :=
  if c.cut then c else { c with queue := c.queue ++ [m] }

/-- The oldest message, where there is one. -/
def recv (c : Channel α) : Option (α × Channel α) :=
  match c.queue with
  | [] => none
  | m :: rest => some (m, { c with queue := rest })

/-- The cut after which the receiver still gets the next `n` messages. -/
def cutAfter (c : Channel α) (n : Nat) : Channel α := { queue := c.queue.take n, cut := true }

/-- What is lost when only the first `n` messages get through. -/
def lost (c : Channel α) (n : Nat) : List α := c.queue.drop n

variable {c c' : Channel α} {m x : α}

theorem mem_send : x ∈ (c.send m).queue ↔ x ∈ c.queue ∨ (c.cut = false ∧ x = m) := by
  cases h : c.cut <;> simp [send, h]

theorem recv_eq_some : c.recv = some (m, c') ↔ c.queue = m :: c'.queue ∧ c'.cut = c.cut := by
  obtain ⟨queue, cut⟩ := c
  obtain ⟨queue', cut'⟩ := c'
  cases queue with
  | nil => simp [recv]
  | cons m' rest =>
    simp only [recv, Option.some.injEq, Prod.mk.injEq, Channel.mk.injEq, List.cons.injEq]
    constructor
    · rintro ⟨rfl, rfl, rfl⟩
      exact ⟨⟨rfl, rfl⟩, rfl⟩
    · rintro ⟨⟨rfl, rfl⟩, rfl⟩
      exact ⟨rfl, rfl, rfl⟩

theorem mem_queue_of_recv (h : c.recv = some (m, c')) : x ∈ c.queue ↔ x = m ∨ x ∈ c'.queue := by
  rw [(recv_eq_some.mp h).1, List.mem_cons]

theorem mem_queue_of_cut (n : Nat) : x ∈ c.queue ↔ x ∈ (c.cutAfter n).queue ∨ x ∈ c.lost n := by
  rw [cutAfter, lost, ← List.mem_append, List.take_append_drop]

end Channel

end Leoflow.Lib
