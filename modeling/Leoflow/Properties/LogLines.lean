import Leoflow.Agent.Runner

/-!
# The lines of a task's output

However the output is cut into writes, the sink gets its lines.
-/

namespace Leoflow.Agent

open List

namespace LogWriter

/-- The segments that a newline ends, and the last one if it is not empty. -/
def segments (out : List UInt8) : List (List UInt8) :=
  (out.splitOn newline).dropLast ++ [(out.splitOn newline).getLastD []].filter (· ≠ [])

/-- What a single byte does to a writer without a complete line. -/
def put (w : LogWriter) (b : UInt8) : LogWriter :=
  if b = newline then { w.emit w.buf with buf := [] } else { w with buf := w.buf ++ [b] }

variable {w : LogWriter}

section

variable (h : newline ∉ w.buf)
include h

theorem not_mem_buf_put (b : UInt8) : newline ∉ (w.put b).buf := by
  unfold put
  split
  · exact not_mem_nil
  next hb =>
    simp [h, Ne.symm hb]

theorem not_mem_buf_foldl (p : List UInt8) : newline ∉ (p.foldl put w).buf := by
  induction p generalizing w with
  | nil => exact h
  | cons b p ih => exact ih (not_mem_buf_put h b)

/-- The loop takes the bytes that were appended one by one. -/
theorem write_eq (p : List UInt8) : w.write p = p.foldl put w := by
  unfold write
  induction p generalizing w with
  | nil =>
    rw [emitLines, if_neg (by simpa using h), append_nil]
    rfl
  | cons b p ih =>
    rw [foldl_cons, ← ih (not_mem_buf_put h b), put]
    split
    next hb =>
      subst hb
      have hidx : (w.buf ++ newline :: p).idxOf newline = w.buf.length := by
        rw [idxOf_append_of_notMem h, idxOf_cons_self, Nat.add_zero]
      rw [emitLines, if_pos (by simp)]
      simp [hidx, emit]
    · simp

theorem foldl_write (chunks : List (List UInt8)) : chunks.foldl write w = chunks.flatten.foldl put w := by
  induction chunks generalizing w with
  | nil => rfl
  | cons p chunks ih =>
    rw [foldl_cons, write_eq h, ih (not_mem_buf_foldl h p), flatten_cons, foldl_append]

end

/-- The bytes written complete the line in the buffer and are split after it. -/
theorem foldl_put (w : LogWriter) (out : List UInt8) :
    let parts := (out.splitOn newline).modifyHead (w.buf ++ ·)
    out.foldl put w = { w with
      buf := parts.getLastD []
      line := w.line + parts.dropLast.length
      sent := w.sent ++ parts.dropLast.mapIdx fun i m => ⟨w.level, m, w.stream, w.line + i + 1⟩ } := by
  induction out generalizing w with
  | nil => simp
  | cons b out ih =>
    rw [foldl_cons, ih, splitOn_cons_eq_if_modifyHead, put]
    obtain ⟨seg, segs, hsegs⟩ := exists_cons_of_ne_nil (splitOn_ne_nil newline out)
    by_cases hb : b = newline
    · simp [hb, hsegs, emit, mapIdx_cons, Nat.add_right_comm _ 1, ← Nat.add_assoc]
    · simp [hb, hsegs]

end LogWriter

/-- **A task's lines are the segments of its output, however it was cut into writes.** -/
theorem lines_are_segments (level : LogLevel) (stream : String) (chunks : List (List UInt8)) :
    ((chunks.foldl LogWriter.write { level, stream }).flush).sent =
      (LogWriter.segments chunks.flatten).mapIdx fun i m => ⟨level, m, stream, i + 1⟩ := by
  rw [LogWriter.foldl_write not_mem_nil, LogWriter.foldl_put, LogWriter.segments]
  generalize chunks.flatten.splitOn LogWriter.newline = parts
  have hparts : parts.modifyHead ([] ++ ·) = parts := by cases parts <;> rfl
  simp only [hparts, LogWriter.flush]
  generalize parts.getLastD [] = rest
  cases rest with
  | nil => simp
  | cons b rest => simp [LogWriter.emit, mapIdx_append]

end Leoflow.Agent
