import Leoflow.AgentRPC.AwaitAssignment

/-!
# One worker's slot

What the control plane and the worker together hold of one registered worker: whether it is filed as free, its
busy flag and leases, the assignment on its channel, and its stream. A slot is sound when at most one assignment
is on its way through it, its slot-free signal is the last thing it says about that assignment, and nothing of it
is left when it is filed as free.
-/

namespace Leoflow

open Lib (Channel)
open List

variable {x : WorkAssignment} {t : Slot}

namespace WorkerPhase

/-- The worker has nothing to do. -/
def idle : WorkerPhase → Bool
  | awaiting | exited => true
  | _ => false

/-- A worker that has not acked what it holds, if it holds something. -/
def unacked : WorkerPhase → Bool
  | awaiting | received _ | scratchReset _ | exited => true
  | _ => false

end WorkerPhase

/-- A worker as the registry and the worker itself see it. -/
structure Slot where
  free : Prop
  busy : Bool
  leases : Set String
  send : Option WorkAssignment
  stream : Stream

namespace Slot

/-- The assignments on the channel, on the stream and with the worker. -/
def pipeline (s : Slot) : List WorkAssignment := s.send.toList ++ s.stream.held

/-- The worker has said that its slot is free. -/
def Releasing (s : Slot) : Prop := .slotFree ∈ s.stream.up.queue

/-- Nothing of an assignment is left. -/
structure Empty (s : Slot) : Prop where
  pipeline : s.pipeline = []
  idle : s.stream.worker.idle
  quiet : ¬ s.Releasing

/-- At most one assignment is in a slot, and a free slot has none. -/
structure Sound (s : Slot) : Prop where
  free : s.free → s.busy = false ∧ s.leases = ∅ ∧ s.Empty
  single : s.pipeline.length ≤ 1
  releasing : s.Releasing → s.pipeline = [] ∧ s.stream.worker.idle
  finished : s.stream.worker = .finished → s.pipeline = []
  last : .slotFree ∉ s.stream.up.queue.dropLast
  unique : ∀ id ∈ s.leases, ∀ id' ∈ s.leases, id = id'
  same : ∀ id ∈ s.leases, ∀ x ∈ s.pipeline, id = x.assignmentID
  unacked : ∀ id ∈ s.leases, .ack id true ∈ s.stream.up.queue ∨
    (¬ s.Releasing ∧ (s.stream.up.cut ∨ s.stream.worker.unacked))

variable {s : Slot}

/-- A slot with an assignment in it says nothing about being free. -/
theorem Sound.not_releasing (h : s.Sound) (hx : x ∈ s.pipeline) : ¬ s.Releasing := by
  intro hr
  rw [(h.releasing hr).1] at hx
  cases hx

/-! ## The registry's transitions -/

/-- Leases end, or the worker is no longer filed as free. -/
theorem Sound.narrow (h : s.Sound) {free : Prop} {busy : Bool} {leases : Set String}
    (hfree : free → s.free ∧ busy = s.busy) (hleases : leases ⊆ s.leases) : Sound { s with free, busy, leases } where
  free hf := by
    obtain ⟨hfree, hbusy⟩ := hfree hf
    obtain ⟨hnot, hnone, hempty⟩ := h.free hfree
    exact ⟨hbusy.trans hnot, Set.subset_empty_iff.mp (hnone ▸ hleases), ⟨hempty.1, hempty.2, hempty.3⟩⟩
  single := h.single
  releasing := h.releasing
  finished := h.finished
  last := h.last
  unique id hid id' hid' := h.unique id (hleases hid) id' (hleases hid')
  same id hid := h.same id (hleases hid)
  unacked id hid := h.unacked id (hleases hid)

/-- The same for a slot whose channel and stream are as they were. -/
theorem Sound.of_narrow (h : s.Sound) (hstream : t.stream = s.stream) (hsend : t.send = s.send)
    (hfree : t.free → s.free ∧ t.busy = s.busy) (hleases : t.leases ⊆ s.leases) : t.Sound := by
  obtain ⟨free, busy, leases, send, stream⟩ := t
  cases hstream
  cases hsend
  exact h.narrow hfree hleases

/-- An assignment enters the pipeline of a free slot. -/
theorem Sound.assign (h : s.Sound) (hf : s.free) (hstream : t.stream = s.stream)
    (hsend : t.send = some x) (htaken : ¬ t.free) (hleases : t.leases ⊆ insert x.assignmentID s.leases) : t.Sound := by
  obtain ⟨-, hnone, hempty⟩ := h.free hf
  have honly : ∀ id ∈ t.leases, id = x.assignmentID := by
    intro id hid
    rcases hleases hid with rfl | hid
    · rfl
    · rw [hnone] at hid
      cases hid
  have hheld : s.stream.held = [] := (append_eq_nil_iff.mp hempty.pipeline).2
  have hpipe : t.pipeline = [x] := by simp [pipeline, hstream, hsend, hheld]
  have hidle : t.stream.worker.idle := hstream ▸ hempty.idle
  have hquiet : ¬ t.Releasing := by
    unfold Releasing
    rw [hstream]
    exact hempty.quiet
  refine ⟨fun hf => absurd hf htaken, by rw [hpipe]; rfl, fun hr => absurd hr hquiet, fun hfin => ?_,
    hstream ▸ h.last, fun id hid id' hid' => (honly id hid).trans (honly id' hid').symm,
    fun id hid y hy => ?_, fun id hid => .inr ⟨hquiet, .inr ?_⟩⟩
  · rw [hfin] at hidle
    cases hidle
  · rw [hpipe, mem_singleton] at hy
    rw [hy]
    exact honly id hid
  · cases hw : t.stream.worker <;> rw [hw] at hidle <;> first | rfl | cases hidle

theorem Sound.expire (h : s.Sound) (he : s.Empty) (hbusy : s.busy = false) {id : String}
    (hid : id ∈ s.leases) (hstream : t.stream = s.stream) (hsend : t.send = s.send)
    (hkept : t.busy = s.busy) (hleases : t.leases ⊆ s.leases \ {id}) : t.Sound := by
  obtain ⟨free, busy, leases, send, stream⟩ := t
  cases hstream
  cases hsend
  have hnone : leases = ∅ := by
    refine Set.eq_empty_iff_forall_notMem.mpr fun id' hid' => ?_
    obtain ⟨hmem, hne⟩ := hleases hid'
    exact hne (h.unique id' hmem id hid)
  refine ⟨fun _ => ⟨hkept.trans hbusy, hnone, ⟨he.1, he.2, he.3⟩⟩, h.single, h.releasing, h.finished,
    h.last, ?_, ?_, ?_⟩
  all_goals
    intro id' hid'
    rw [hnone] at hid'
    cases hid'

/-! ## The stream's transitions -/

/-- The slot with another stream. -/
def withStream (s : Slot) (send : Option WorkAssignment) (t : Stream) : Slot :=
  { s with send, stream := t }

/-- An assignment moves along the pipeline. -/
theorem Sound.move (h : s.Sound) {send : Option WorkAssignment} {t : Stream}
    (hup : t.up = s.stream.up) (hsub : (s.withStream send t).pipeline ⊆ s.pipeline)
    (hlen : (s.withStream send t).pipeline.length ≤ s.pipeline.length)
    (hidle : s.pipeline = [] → s.stream.worker.idle → t.worker.idle)
    (hfin : t.worker = .finished → (s.withStream send t).pipeline = [])
    (hun : s.stream.worker.unacked → t.worker.unacked) : (s.withStream send t).Sound := by
  have hnil : s.pipeline = [] → (s.withStream send t).pipeline = [] := by
    intro he
    rw [he] at hsub
    exact subset_nil.mp hsub
  have hquiet : (s.withStream send t).Releasing ↔ s.Releasing := by
    unfold Releasing
    rw [← hup]
    rfl
  refine ⟨fun hf => ?_, hlen.trans h.single, fun hr => ?_, hfin, ?_, h.unique,
    fun id hid x hx => h.same id hid x (hsub hx), fun id hid => ?_⟩
  · obtain ⟨hbusy, hnone, hempty⟩ := h.free hf
    exact ⟨hbusy, hnone, ⟨hnil hempty.pipeline, hidle hempty.pipeline hempty.idle,
      hquiet.not.mpr hempty.quiet⟩⟩
  · obtain ⟨hpipe, hi⟩ := h.releasing (hquiet.mp hr)
    exact ⟨hnil hpipe, hidle hpipe hi⟩
  · change _ ∉ t.up.queue.dropLast
    rw [hup]
    exact h.last
  · rcases h.unacked id hid with hack | ⟨hno, hcut⟩
    · refine .inl ?_
      change _ ∈ t.up.queue
      rwa [hup]
    · refine .inr ⟨hquiet.not.mpr hno, hcut.imp (fun hcut => ?_) hun⟩
      change t.up.cut
      rwa [hup]

section

variable (h : s.Sound)
include h

theorem Sound.forward (hx : s.send = some x) :
    (s.withStream none { s.stream with down := s.stream.down.send x }).Sound := by
  have hpipe : s.pipeline = x :: s.stream.held := by simp [pipeline, hx]
  have hnew : (s.withStream none { s.stream with down := s.stream.down.send x }).pipeline =
      (s.stream.down.send x).queue ++ s.stream.worker.current.toList := rfl
  refine h.move rfl ?_ ?_ (fun _ hi => hi) (fun hfin => ?_) fun hu => hu
  · rw [hnew, hpipe, Stream.held]
    unfold Channel.send
    intro y hy
    split at hy
    · simp_all
    · simp_all
      tauto
  · rw [hnew, hpipe, Stream.held]
    unfold Channel.send
    split
    · simp
    · simp
      omega
  · have he := h.finished hfin
    rw [hpipe] at he
    cases he

/-- So does the acknowledgement. -/
theorem Sound.sendAck (hw : s.stream.worker = .scratchReset x) : (s.withStream s.send { s.stream with
      up := s.stream.up.send (.ack x.assignmentID true), worker := .acked x }).Sound := by
  have hx : x ∈ s.pipeline := by simp [pipeline, Stream.held, hw, WorkerPhase.current]
  have hno := h.not_releasing hx
  have hpipe : (s.withStream s.send { s.stream with
      up := s.stream.up.send (.ack x.assignmentID true), worker := .acked x }).pipeline =
      s.pipeline := by
    simp [pipeline, withStream, Stream.held, hw, WorkerPhase.current]
  have hno' : WorkerMessage.slotFree ∉ (s.stream.up.send (.ack x.assignmentID true)).queue := by
    intro hm
    rcases Channel.mem_send.mp hm with hm | ⟨-, hm⟩
    · exact hno hm
    · cases hm
  refine ⟨fun hf => ?_, hpipe ▸ h.single, fun hr => absurd hr hno', (fun hfin => by cases hfin),
    fun hm => hno' (dropLast_subset _ hm), h.unique, fun id hid y hy => ?_, fun id hid => ?_⟩
  · have hidle := (h.free hf).2.2.idle
    rw [hw] at hidle
    cases hidle
  · rw [hpipe] at hy
    exact h.same id hid y hy
  · change _ ∈ (s.stream.up.send _).queue ∨ _
    rcases h.unacked id hid with hack | ⟨-, hcut | -⟩
    · exact .inl (Channel.mem_send.mpr (.inl hack))
    · refine .inr ⟨hno', .inl ?_⟩
      change (s.stream.up.send _).cut
      simp [Channel.send, hcut]
    · cases hc : s.stream.up.cut with
      | false => exact .inl (Channel.mem_send.mpr (.inr ⟨hc, by rw [h.same id hid x hx]⟩))
      | true =>
        refine .inr ⟨hno', .inl ?_⟩
        change (s.stream.up.send _).cut
        simp [Channel.send, hc]

/-- So does the signal that the slot is free. -/
theorem Sound.sendSlotFree (hw : s.stream.worker = .finished) : (s.withStream s.send { s.stream with
      up := s.stream.up.send .slotFree, worker := .awaiting }).Sound := by
  have hnil := h.finished hw
  have hidle : s.stream.worker.idle = false := by rw [hw]; rfl
  have hno : ¬ s.Releasing := by
    intro hr
    cases hidle.symm.trans (h.releasing hr).2
  have hpipe : (s.withStream s.send { s.stream with
      up := s.stream.up.send .slotFree, worker := .awaiting }).pipeline = [] := by
    rw [← hnil]
    simp [pipeline, withStream, Stream.held, hw, WorkerPhase.current]
  refine ⟨fun hf => ?_, by rw [hpipe]; exact Nat.zero_le _, fun _ => ⟨hpipe, rfl⟩,
    fun _ => hpipe, ?_, h.unique, fun id hid y hy => ?_, fun id hid => ?_⟩
  · cases hidle.symm.trans (h.free hf).2.2.idle
  · change _ ∉ (s.stream.up.send _).queue.dropLast
    unfold Channel.send
    split
    · exact h.last
    · rw [dropLast_concat]
      exact hno
  · rw [hpipe] at hy
    cases hy
  · rcases h.unacked id hid with hack | ⟨-, hcut | hun⟩
    · exact .inl (Channel.mem_send.mpr (.inl hack))
    · have hsame : s.stream.up.send .slotFree = s.stream.up := by simp [Channel.send, hcut]
      refine .inr ⟨?_, .inl ?_⟩
      · change _ ∉ (s.stream.up.send _).queue
        rw [hsame]
        exact hno
      · change (s.stream.up.send _).cut
        rw [hsame]
        exact hcut
    · rw [hw] at hun
      cases hun

/-- The stream to the control plane is cut. The slot-free signal is the last message, so where it
survives every ack does. -/
theorem Sound.cutUp (n : Nat) : (s.withStream s.send { s.stream with up := s.stream.up.cutAfter n }).Sound := by
  have hkept : WorkerMessage.slotFree ∈ (s.stream.up.cutAfter n).queue →
      (s.stream.up.cutAfter n).queue = s.stream.up.queue := by
    intro hm
    by_contra hne
    have hlt : n < s.stream.up.queue.length := by
      by_contra hge
      exact hne (take_of_length_le (Nat.le_of_not_lt hge))
    refine h.last ?_
    rw [dropLast_eq_take]
    refine take_subset_take_left _ ?_ hm
    omega
  have hquiet : (s.withStream s.send { s.stream with up := s.stream.up.cutAfter n }).Releasing →
      s.Releasing := fun hm => take_subset _ _ hm
  refine ⟨fun hf => ?_, h.single, fun hr => h.releasing (hquiet hr), h.finished, fun hm => ?_,
    h.unique, h.same, fun id hid => ?_⟩
  · obtain ⟨hbusy, hnone, hempty⟩ := h.free hf
    exact ⟨hbusy, hnone, ⟨hempty.1, hempty.2, fun hr => hempty.quiet (hquiet hr)⟩⟩
  · have hm' : WorkerMessage.slotFree ∈ (s.stream.up.cutAfter n).queue.dropLast := hm
    rw [hkept (dropLast_subset _ hm')] at hm'
    exact h.last hm'
  · by_cases hr : WorkerMessage.slotFree ∈ (s.stream.up.cutAfter n).queue
    · rcases h.unacked id hid with hack | ⟨hno, -⟩
      · refine .inl ?_
        change _ ∈ (s.stream.up.cutAfter n).queue
        rwa [hkept hr]
      · exact absurd (hquiet hr) hno
    · exact .inr ⟨hr, .inl rfl⟩

theorem Sound.receive {down : Channel WorkAssignment}
    (hw : s.stream.worker = .awaiting) (hrecv : s.stream.down.recv = some (x, down)) :
    (s.withStream s.send { s.stream with down, worker := .received x }).Sound := by
  have hqueue := (Channel.recv_eq_some.mp hrecv).1
  have hold : s.pipeline = s.send.toList ++ x :: down.queue := by
    simp [pipeline, Stream.held, hw, WorkerPhase.current, hqueue]
  have hnew : (s.withStream s.send { s.stream with down, worker := .received x }).pipeline =
      s.send.toList ++ (down.queue ++ [x]) := rfl
  refine h.move rfl ?_ ?_ (fun hnil => ?_) (fun hfin => by cases hfin) fun _ => rfl
  · intro y hy
    rw [hnew] at hy
    rw [hold]
    simp only [mem_append, mem_cons, not_mem_nil, or_false] at hy ⊢
    tauto
  · rw [hnew, hold]
    simp
  · rw [hold] at hnil
    simp at hnil

theorem Sound.goesOn {w : WorkerPhase} (hx : s.stream.worker.current = some x)
    (hw : w.current = some x) (hun : s.stream.worker.unacked → w.unacked) :
    (s.withStream s.send { s.stream with worker := w }).Sound := by
  have hsame : (s.withStream s.send { s.stream with worker := w }).pipeline = s.pipeline := by
    simp [pipeline, withStream, Stream.held, hx, hw]
  have hmem : x ∈ s.pipeline := by simp [pipeline, Stream.held, hx]
  refine h.move rfl (by rw [hsame]; exact List.Subset.refl _) (by rw [hsame]) (fun hnil => ?_)
    (fun hfin => ?_) hun
  · rw [hnil] at hmem
    cases hmem
  · change w = .finished at hfin
    rw [hfin] at hw
    cases hw

/-- The attempt ends. The slot held its assignment and no other one. -/
theorem Sound.attemptEnds (hw : s.stream.worker = .executing x) :
    (s.withStream s.send { s.stream with worker := .finished }).Sound := by
  have hsingle := h.single
  simp only [pipeline, Stream.held, hw, WorkerPhase.current, Option.toList_some,
    length_append, length_singleton] at hsingle
  have hsend : s.send.toList = [] := eq_nil_of_length_eq_zero (by omega)
  have hdown : s.stream.down.queue = [] := eq_nil_of_length_eq_zero (by omega)
  have hnew : (s.withStream s.send { s.stream with worker := .finished }).pipeline = [] := by
    simp [pipeline, withStream, Stream.held, WorkerPhase.current, hsend, hdown]
  refine h.move rfl (by rw [hnew]; exact nil_subset _) (by rw [hnew]; exact Nat.zero_le _)
    (fun _ hi => ?_) (fun _ => hnew) fun hu => ?_
  · rw [hw] at hi
    cases hi
  · rw [hw] at hu
    cases hu

theorem Sound.exits : (s.withStream s.send { s.stream with worker := .exited }).Sound := by
  refine h.move rfl ?_ ?_ (fun _ _ => rfl) (fun hfin => by cases hfin) fun _ => rfl
  · intro y hy
    simp only [pipeline, withStream, Stream.held, WorkerPhase.current, Option.toList_none,
      append_nil, mem_append] at hy ⊢
    tauto
  · simp [pipeline, withStream, Stream.held, WorkerPhase.current]

theorem Sound.cutDown (n : Nat) : (s.withStream s.send { s.stream with down := s.stream.down.cutAfter n }).Sound := by
  refine h.move rfl ?_ ?_ (fun _ hi => hi) (fun hfin => ?_) fun hu => hu
  · intro y hy
    simp only [pipeline, withStream, Stream.held, Channel.cutAfter, mem_append] at hy ⊢
    exact hy.imp_right (Or.imp_left fun hy => take_subset _ _ hy)
  · simp only [pipeline, withStream, Stream.held, Channel.cutAfter, length_append,
      length_take]
    omega
  · have hnil := h.finished hfin
    simp only [pipeline, withStream, Stream.held, Channel.cutAfter, append_eq_nil_iff,
      take_eq_nil_iff] at hnil ⊢
    tauto

/-- What happens at the worker or to a channel keeps its slot sound. -/
theorem Sound.act {b : StreamAction} {t : Stream} (hb : s.stream.act b = some t) : (s.withStream s.send t).Sound := by
  cases b with
  | receive =>
    simp only [Stream.act] at hb
    split at hb
    · rename_i x down hw hrecv
      cases hb
      exact h.receive hw hrecv
    · cases hb
  | resetScratch ok =>
    simp only [Stream.act] at hb
    split at hb
    · rename_i x hw
      cases hb
      cases ok with
      | false => exact h.exits
      | true => exact h.goesOn (by rw [hw]; rfl) rfl fun _ => rfl
    · cases hb
  | sendAck ok =>
    simp only [Stream.act] at hb
    split at hb
    · rename_i x hw
      split at hb <;> cases hb
      · exact h.sendAck hw
      · exact h.exits
    · cases hb
  | runOneAttempt =>
    simp only [Stream.act] at hb
    split at hb
    · rename_i x hw
      cases hb
      refine h.goesOn (by rw [hw]; rfl) rfl fun hu => ?_
      rw [hw] at hu
      cases hu
    · cases hb
  | attemptEnds =>
    simp only [Stream.act] at hb
    split at hb
    · rename_i x hw
      cases hb
      exact h.attemptEnds hw
    · cases hb
  | sendSlotFree ok =>
    simp only [Stream.act] at hb
    split at hb
    · rename_i hw
      split at hb <;> cases hb
      · exact h.sendSlotFree hw
      · exact h.exits
    · cases hb
  | exits =>
    cases hb
    exact h.exits
  | cutDown n =>
    cases hb
    exact h.cutDown n
  | cutUp n =>
    cases hb
    exact h.cutUp n

/-- A message other than `slotFree` leaves the stream. -/
theorem Sound.pop {m : WorkerMessage} {up : Channel WorkerMessage}
    (hm : s.stream.up.recv = some (m, up)) (hne : m ≠ .slotFree)
    (hstream : t.stream = { s.stream with up }) (hsend : t.send = s.send)
    (hfree : t.free → s.free ∧ t.busy = s.busy) (hleases : t.leases ⊆ s.leases)
    (hack : ∀ id started, m = .ack id started → id ∉ t.leases) : t.Sound := by
  obtain ⟨free, busy, leases, send, stream⟩ := t
  cases hstream
  cases hsend
  replace h := h.narrow hfree hleases
  obtain ⟨hqueue, hcut⟩ := Channel.recv_eq_some.mp hm
  have hquiet : Releasing ⟨free, busy, leases, s.send, { s.stream with up }⟩ ↔ s.Releasing := by
    change _ ∈ up.queue ↔ _ ∈ s.stream.up.queue
    rw [hqueue, mem_cons]
    exact (or_iff_right hne.symm).symm
  refine ⟨fun hf => ?_, h.single, fun hr => h.releasing (hquiet.mp hr), h.finished, fun hl => ?_,
    h.unique, h.same, fun id hid => ?_⟩
  · obtain ⟨hbusy, hnone, hempty⟩ := h.free hf
    exact ⟨hbusy, hnone, ⟨hempty.1, hempty.2, hquiet.not.mpr hempty.quiet⟩⟩
  · refine h.last ?_
    have hl : WorkerMessage.slotFree ∈ up.queue.dropLast := hl
    rw [hqueue]
    cases hq : up.queue with
    | nil =>
      rw [hq] at hl
      cases hl
    | cons m' rest =>
      rw [hq] at hl
      rw [dropLast_cons_cons]
      exact mem_cons_of_mem _ hl
  · rcases h.unacked id hid with hmem | ⟨hno, hrest⟩
    · rw [hqueue, mem_cons] at hmem
      rcases hmem with rfl | hmem
      · exact absurd hid (hack id true rfl)
      · exact .inl hmem
    · refine .inr ⟨hquiet.not.mpr hno, hrest.imp_left fun hc => ?_⟩
      exact hcut.trans hc

/-- The slot-free signal is handled. Every ack was handled before it, so no lease is left. -/
theorem Sound.release {up : Channel WorkerMessage}
    (hm : s.stream.up.recv = some (.slotFree, up)) (hstream : t.stream = { s.stream with up })
    (hsend : t.send = s.send) (hbusy : t.busy = false) (hleases : t.leases ⊆ s.leases) : t.Sound := by
  obtain ⟨free, busy, leases, send, stream⟩ := t
  cases hstream
  cases hsend
  cases hbusy
  obtain ⟨hqueue, hcut⟩ := Channel.recv_eq_some.mp hm
  have hr : s.Releasing := by
    unfold Releasing
    rw [hqueue]
    exact mem_cons_self
  obtain ⟨hnil, hidle⟩ := h.releasing hr
  have hlast : up.queue = [] := by
    cases hq : up.queue with
    | nil => rfl
    | cons m rest =>
      refine absurd ?_ h.last
      rw [hqueue, hq, dropLast_cons_cons]
      exact mem_cons_self
  have hno : WorkerMessage.slotFree ∉ up.queue := by
    rw [hlast]
    exact not_mem_nil
  have hnone : leases = ∅ := by
    refine Set.eq_empty_iff_forall_notMem.mpr fun id hid => ?_
    rcases h.unacked id (hleases hid) with hack | ⟨hn, -⟩
    · rw [hqueue, hlast] at hack
      cases mem_singleton.mp hack
    · exact hn hr
  refine ⟨fun _ => ⟨rfl, hnone, ⟨hnil, hidle, hno⟩⟩, h.single, fun hr' => absurd hr' hno,
    h.finished, fun hl => hno (dropLast_subset _ hl), ?_, ?_, ?_⟩
  all_goals
    intro id hid
    rw [hnone] at hid
    cases hid

end

theorem sound_opened (identity : String) : Sound ⟨True, false, ∅, none, { identity }⟩ := by
  refine ⟨fun _ => ⟨rfl, rfl, ⟨rfl, rfl, not_mem_nil⟩⟩, Nat.zero_le _,
    fun hr => absurd hr not_mem_nil, fun _ => rfl, not_mem_nil, ?_, ?_, ?_⟩
  all_goals
    intro id hid
    cases hid

end Slot

end Leoflow
