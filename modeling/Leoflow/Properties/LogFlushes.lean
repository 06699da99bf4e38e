import Leoflow.Logs.Sinks

/-!
# What a killed control plane has stored of a log

The object writer puts the whole of an attempt under its key. Here its puts can fail, and the calls on one writer come
in any order.
-/

namespace Leoflow.Logs

open List

/-- The line of an event that fits under the cap beside `n` bytes. -/
def WriterCall.accepted (cap n : Nat) : WriterCall → List Bytes
  | .writeEvent ev now _ _ =>
    let line := lineBytes (encodeLine now ev)
    if n + line.length > cap then [] else [line]
  | _ => []

/-- The lines of the accepted events, in order; `n` bytes are accepted already. -/
def acceptedLines (cap : Nat) : Nat → List WriterCall → List Bytes
  | _, [] => []
  | n, c :: calls => c.accepted cap n ++ acceptedLines cap (n + (c.accepted cap n).flatten.length) calls

theorem acceptedLines_append (cap n : Nat) (calls more : List WriterCall) :
    acceptedLines cap n (calls ++ more) = acceptedLines cap n calls ++
      acceptedLines cap (n + (acceptedLines cap n calls).flatten.length) more := by
  induction calls generalizing n with
  | nil => rfl
  | cons c calls ih =>
    rw [cons_append, acceptedLines, acceptedLines, ih, append_assoc, flatten_append, length_append, Nat.add_assoc]

/-! ## The stored object -/

/-- The writer holds the lines. Where `k` is a number the object is the first `k` of them, else there is none. -/
structure Kept (w : ObjectWriter) (there : Option Bytes) (lines : List Bytes) (k : Option Nat) : Prop where
  buf : w.buf = lines.flatten
  le : ∀ n ∈ k, n ≤ lines.length
  object : there = k.map fun n => (lines.take n).flatten
  stored : w.stored → ∃ o, there = some o ∧ w.flushed ≤ o.length

/-- What is stored stays stored, and does not shrink. -/
def Grows (k k' : Option Nat) : Prop := ∀ n ∈ k, ∃ n' ∈ k', n ≤ n'

variable {cfg : FlushConfig} {s : LiveWriter} {w : ObjectWriter} {there : Option Bytes} {lines : List Bytes}
  {k : Option Nat}

theorem Grows.refl (k : Option Nat) : Grows k k := fun n hn => ⟨n, hn, le_rfl⟩

theorem Kept.object_begins (h : Kept w there lines k) {o : Bytes} (ho : there = some o) : o <+: w.buf := by
  obtain ⟨n, -, rfl⟩ := Option.map_eq_some_iff.mp (h.object.symm.trans ho)
  refine ⟨(lines.drop n).flatten, ?_⟩
  rw [h.buf, ← flatten_append, take_append_drop]

theorem Kept.buffer (h : Kept w there lines k) (line : Bytes) : Kept (w.buffer line) there (lines ++ [line]) k where
  buf := by simp [ObjectWriter.buffer, h.buf]
  le n hn := by
    rw [length_append]
    exact (h.le n hn).trans (Nat.le_add_right _ _)
  object := by
    refine h.object.trans (Option.map_congr fun n hn => ?_)
    rw [take_append_of_le_length (h.le n hn)]
  stored := h.stored

/-- The writer and the object after a call still hold the lines. -/
def KeptAfter (f : Flush) (there : Option Bytes) (lines : List Bytes) (k : Option Nat) : Prop :=
  ∃ k', Grows k k' ∧ Kept f.writer (f.object <|> there) lines k'

theorem Kept.flushLocked (h : Kept w there lines k) (put : PutAnswer) :
    KeptAfter (w.flushLocked put) there lines k := by
  have hgrows : Grows k (some lines.length) := fun n hn => ⟨_, rfl, h.le n hn⟩
  have hle : ∀ n ∈ some lines.length, n ≤ lines.length := fun n hn => (Option.mem_some_iff.mp hn).ge
  have hall : some w.buf = (some lines.length).map fun n => (lines.take n).flatten := by
    rw [Option.map_some, take_length, h.buf]
  rcases put with _ | _ | _
  · exact ⟨_, hgrows, h.buf, hle, hall, fun _ => ⟨_, rfl, le_rfl⟩⟩
  · exact ⟨k, .refl k, h⟩
  · refine ⟨_, hgrows, h.buf, hle, hall, fun hs => ?_⟩
    -- what is counted as flushed is stored, and the buffer has all of it
    obtain ⟨o, ho, hflushed⟩ := h.stored hs
    exact ⟨_, rfl, hflushed.trans (h.object_begins ho).length_le⟩

theorem Kept.maybeFlushLocked (h : Kept w there lines k) (sinceLast : Duration) (put : PutAnswer) :
    KeptAfter (w.maybeFlushLocked cfg sinceLast put) there lines k := by
  unfold ObjectWriter.maybeFlushLocked
  split
  · exact h.flushLocked put
  · exact ⟨k, .refl k, h⟩

theorem Kept.step (h : Kept s.writer s.object lines k) (c : WriterCall) : ∃ k', Grows k k' ∧
      Kept (s.step cfg c).writer (s.step cfg c).object
        (lines ++ c.accepted cfg.maxBufferedAttemptBytes s.writer.buf.length) k' := by
  cases c with
  | writeEvent ev now sinceLast put =>
    simp only [LiveWriter.step, ObjectWriter.writeEvent, WriterCall.accepted]
    split
    · rw [append_nil]
      exact ⟨k, .refl k, h⟩
    · exact (h.buffer _).maybeFlushLocked sinceLast put
  | tick sinceLast put =>
    simp only [LiveWriter.step, WriterCall.accepted, append_nil]
    split
    · exact ⟨k, .refl k, h⟩
    · exact h.maybeFlushLocked sinceLast put
  | close put =>
    simp only [LiveWriter.step, LiveWriter.close, ObjectWriter.close, WriterCall.accepted, append_nil]
    split
    · exact ⟨k, .refl k, h⟩
    · exact h.flushLocked put

theorem Kept.run (h : Kept s.writer s.object lines k) (calls : List WriterCall) : ∃ k', Grows k k' ∧
      Kept (s.run cfg calls).writer (s.run cfg calls).object
        (lines ++ acceptedLines cfg.maxBufferedAttemptBytes s.writer.buf.length calls) k' := by
  induction calls generalizing s lines k with
  | nil => exact ⟨k, .refl k, by rwa [acceptedLines, append_nil]⟩
  | cons c calls ih =>
    obtain ⟨k1, hk1, h1⟩ := @Kept.step cfg s lines k h c
    obtain ⟨k2, hk2, h2⟩ := ih h1
    rw [h1.buf, flatten_append, length_append, ← h.buf, append_assoc] at h2
    refine ⟨k2, fun n hn => ?_, h2⟩
    obtain ⟨n1, hn1, hle1⟩ := hk1 n hn
    obtain ⟨n2, hn2, hle2⟩ := hk2 n1 hn1
    exact ⟨n2, hn2, hle1.trans hle2⟩

theorem Kept.close (h : Kept s.writer s.object lines k) {put : PutAnswer} (hclose : (s.close put).2) :
    (s.close put).1.object = some lines.flatten := by
  simp only [LiveWriter.close, ObjectWriter.close, LiveWriter.after] at hclose ⊢
  split
  next hdone =>
    obtain ⟨o, ho, hle⟩ := h.stored hdone.1
    rw [← h.buf, ← (h.object_begins ho).eq_of_length_le (hdone.2 ▸ hle)]
    exact ho
  next hopen =>
    rw [if_neg hopen] at hclose
    cases put with
    | stored => exact congrArg some h.buf
    | failed landed => cases landed <;> cases hclose

/-- **A kill loses only a suffix.** After any calls the stored object, if there is one, is made of the first accepted
lines. Further calls keep it and do not shorten it. A `Close` that returns nil stores all of them. -/
theorem stored_is_first_accepted (cfg : FlushConfig) (calls more : List WriterCall) :
    let lines := acceptedLines cfg.maxBufferedAttemptBytes 0
    let s := ({} : LiveWriter).run cfg calls
    let s' := ({} : LiveWriter).run cfg (calls ++ more)
    ∃ k k', Grows k k' ∧ lines calls <+: lines (calls ++ more) ∧
      s.object = k.map (fun n => ((lines calls).take n).flatten) ∧
      s'.object = k'.map (fun n => ((lines (calls ++ more)).take n).flatten) ∧
      ∀ put, (s.close put).2 → (s.close put).1.object = some (lines calls).flatten := by
  intro lines s s'
  have hfresh : Kept {} none [] none := ⟨rfl, fun n hn => (by cases hn), rfl, fun h => (by cases h)⟩
  obtain ⟨k, -, h⟩ := @Kept.run cfg {} _ _ hfresh calls
  obtain ⟨k', hk', h'⟩ := @Kept.run cfg s _ _ h more
  have hlines : lines (calls ++ more) =
      lines calls ++ acceptedLines cfg.maxBufferedAttemptBytes s.writer.buf.length more := by
    rw [h.buf]
    exact (acceptedLines_append _ 0 calls more).trans (by rw [Nat.zero_add]; rfl)
  have hrun : s' = s.run cfg more := foldl_append ..
  refine ⟨k, k', hk', ⟨_, hlines.symm⟩, h.object, ?_, fun put hput => h.close hput⟩
  rw [hlines, hrun]
  exact h'.object

/-! ## The bytes uploaded -/

/-- Whether a call makes an incremental flush. -/
def WriterCall.flushes (cfg : FlushConfig) (s : LiveWriter) : WriterCall → Bool
  | .writeEvent ev now sinceLast _ =>
    let line := lineBytes (encodeLine now ev)
    decide (s.writer.buf.length + line.length ≤ cfg.maxBufferedAttemptBytes) && (s.writer.buffer line).due cfg sinceLast
  | .tick sinceLast _ => !s.stopped && s.writer.due cfg sinceLast
  | .close _ => false

/-- A flush that succeeds and that the staleness cap does not trigger. -/
def WriterCall.damped (cfg : FlushConfig) : WriterCall → Bool
  | .writeEvent _ _ sinceLast put | .tick sinceLast put =>
    put == .stored && decide (sinceLast < cfg.objectFlushMaxStaleness)
  | .close _ => true

/-- The sizes of the uploads of the incremental flushes, in order. -/
def uploads (cfg : FlushConfig) : LiveWriter → List WriterCall → List Nat
  | _, [] => []
  | s, c :: calls =>
    (if c.flushes cfg s then [(s.step cfg c).writer.buf.length] else []) ++ uploads cfg (s.step cfg c) calls

/-- Every incremental flush succeeds, and none is triggered by the staleness cap. -/
def Damped (cfg : FlushConfig) : LiveWriter → List WriterCall → Prop
  | _, [] => True
  | s, c :: calls => (c.flushes cfg s → c.damped cfg) ∧ Damped cfg (s.step cfg c) calls

theorem flushLocked_due (hd : 1 ≤ cfg.objectFlushDamping) (hle : w.flushed ≤ w.buf.length)
    {sinceLast : Duration} (hdue : w.due cfg sinceLast) (hstale : sinceLast < cfg.objectFlushMaxStaleness) :
    w.buf.length + (cfg.objectFlushDamping + 1) * w.flushed ≤
      (cfg.objectFlushDamping + 1) * w.buf.length + (cfg.objectFlushDamping - 1) := by
  obtain ⟨unflushed, hbuf⟩ := Nat.exists_eq_add_of_le hle
  have hshare : ¬unflushed < w.flushed / cfg.objectFlushDamping := by
    intro hlt
    simp [ObjectWriter.due, FlushConfig.shouldFlush, hbuf, not_le.mpr hstale, hlt,
      Nat.pos_of_ne_zero (Nat.ne_of_gt hd)] at hdue
  have hlt := (Nat.div_lt_iff_lt_mul hd).mp (Nat.lt_succ_of_le (not_lt.mp hshare))
  rw [Nat.succ_mul, Nat.mul_comm] at hlt
  simp only [hbuf, Nat.add_mul, Nat.mul_add, Nat.one_mul]
  omega

/-- What counts as flushed is in the buffer, and does not shrink. -/
def Advances (w w' : ObjectWriter) : Prop := w.flushed ≤ w'.flushed ∧ w'.flushed ≤ w'.buf.length

theorem advances_flushLocked (hle : w.flushed ≤ w.buf.length) (put : PutAnswer) :
    Advances w (w.flushLocked put).writer := by
  rcases put with _ | _ | _
  · exact ⟨hle, le_rfl⟩
  · exact ⟨le_rfl, hle⟩
  · exact ⟨le_rfl, hle⟩

theorem advances_maybeFlushLocked (hle : w.flushed ≤ w.buf.length) (sinceLast : Duration) (put : PutAnswer) :
    Advances w (w.maybeFlushLocked cfg sinceLast put).writer := by
  unfold ObjectWriter.maybeFlushLocked
  split
  · exact advances_flushLocked hle put
  · exact ⟨le_rfl, hle⟩

theorem buffer_flushed_le (hle : w.flushed ≤ w.buf.length) (line : Bytes) :
    (w.buffer line).flushed ≤ (w.buffer line).buf.length :=
  hle.trans (prefix_append _ line).length_le

theorem advances_step (hle : s.writer.flushed ≤ s.writer.buf.length) (c : WriterCall) :
    Advances s.writer (s.step cfg c).writer := by
  cases c with
  | writeEvent ev now sinceLast put =>
    simp only [LiveWriter.step, ObjectWriter.writeEvent]
    split
    · exact ⟨le_rfl, hle⟩
    · exact advances_maybeFlushLocked (buffer_flushed_le hle _) sinceLast put
  | tick sinceLast put =>
    simp only [LiveWriter.step]
    split
    · exact ⟨le_rfl, hle⟩
    · exact advances_maybeFlushLocked hle sinceLast put
  | close put =>
    simp only [LiveWriter.step, LiveWriter.close, ObjectWriter.close]
    split
    · exact ⟨le_rfl, hle⟩
    · exact advances_flushLocked hle put

/-- The step of an incremental flush stores the whole buffer, and pays. -/
theorem step_flushes (hd : 1 ≤ cfg.objectFlushDamping) (hle : s.writer.flushed ≤ s.writer.buf.length) {c : WriterCall}
    (hc : c.flushes cfg s) (hdamped : c.damped cfg) :
    (s.step cfg c).writer.flushed = (s.step cfg c).writer.buf.length ∧
      (s.step cfg c).writer.buf.length + (cfg.objectFlushDamping + 1) * s.writer.flushed ≤
        (cfg.objectFlushDamping + 1) * (s.step cfg c).writer.buf.length + (cfg.objectFlushDamping - 1) := by
  cases c with
  | writeEvent ev now sinceLast put =>
    simp only [WriterCall.flushes, WriterCall.damped, Bool.and_eq_true, decide_eq_true_eq, beq_iff_eq] at hc hdamped
    obtain ⟨rfl, hstale⟩ := hdamped
    rw [LiveWriter.step, ObjectWriter.writeEvent, if_neg (not_lt.mpr hc.1), ObjectWriter.maybeFlushLocked, if_pos hc.2]
    exact ⟨rfl, flushLocked_due hd (buffer_flushed_le hle _) hc.2 hstale⟩
  | tick sinceLast put =>
    simp only [WriterCall.flushes, WriterCall.damped, Bool.and_eq_true, Bool.not_eq_true', decide_eq_true_eq,
      beq_iff_eq] at hc hdamped
    obtain ⟨rfl, hstale⟩ := hdamped
    rw [LiveWriter.step, if_neg (by rw [hc.1]; decide), ObjectWriter.maybeFlushLocked, if_pos hc.2]
    exact ⟨rfl, flushLocked_due hd hle hc.2 hstale⟩
  | close put => cases hc

theorem uploads_sum_le (hd : 1 ≤ cfg.objectFlushDamping) (calls : List WriterCall)
    (hle : s.writer.flushed ≤ s.writer.buf.length) (h : Damped cfg s calls) :
    (uploads cfg s calls).sum + (cfg.objectFlushDamping + 1) * s.writer.flushed ≤
      (cfg.objectFlushDamping + 1) * (uploads cfg s calls).getLastD s.writer.flushed +
        (cfg.objectFlushDamping - 1) * (uploads cfg s calls).length := by
  induction calls generalizing s with
  | nil => simp [uploads]
  | cons c calls ih =>
    obtain ⟨hc, hrest⟩ := h
    obtain ⟨hmono, hle'⟩ := @advances_step cfg s hle c
    have ih' := ih hle' hrest
    rw [uploads]
    by_cases hf : c.flushes cfg s
    · obtain ⟨hall, hpays⟩ := step_flushes hd hle hf (hc hf)
      rw [hall] at ih'
      rw [if_pos hf, singleton_append, sum_cons, length_cons, getLastD_cons, Nat.mul_succ]
      omega
    · rw [if_neg hf, nil_append]
      -- a flush that `Close` makes counts as stored and not as uploaded
      have hscale := Nat.mul_le_mul_left (cfg.objectFlushDamping + 1) hmono
      cases hups : uploads cfg (s.step cfg c) calls with
      | nil => simp
      | cons n ups =>
        rw [hups, getLastD_cons] at ih'
        rw [getLastD_cons]
        omega

/-- **Upload amplification is linear.** -/
theorem uploads_linear (cfg : FlushConfig) (hd : 1 ≤ cfg.objectFlushDamping) (calls : List WriterCall)
    (h : Damped cfg {} calls) :
    (uploads cfg {} calls).sum ≤ (cfg.objectFlushDamping + 1) * (uploads cfg {} calls).getLastD 0 +
      (cfg.objectFlushDamping - 1) * (uploads cfg {} calls).length :=
  (Nat.le_add_right _ _).trans (uploads_sum_le hd calls le_rfl h)

/-- Two events under a damping of one, each flushed when it comes. -/
theorem uploads_linear_two : let ev : Event := { time := 1, level := "info", stream := "stdout", message := "m" }
    let cfg : FlushConfig := { objectFlushBytes := 1, objectFlushDamping := 1 }
    let calls : List WriterCall := [.writeEvent ev 1 0 .stored, .writeEvent ev 1 0 .stored]
    uploads cfg {} calls = [83, 166] ∧ (uploads cfg {} calls).sum ≤ (1 + 1) * 166 + (1 - 1) * 2 := by
  intro ev cfg calls
  have hups : uploads cfg {} calls = [83, 166] := by decide +kernel
  have hdamped : Damped cfg {} calls := ⟨fun _ => by decide +kernel, fun _ => by decide +kernel, trivial⟩
  refine ⟨hups, ?_⟩
  have := uploads_linear cfg (by decide) calls hdamped
  rwa [hups] at this ⊢

end Leoflow.Logs
