import Leoflow.Lib.History
import Leoflow.Logs.Sinks

/-!
# What the two sinks keep

Over a sequence of calls on one reference the file holds every line that was written, and the object
holds the lines since the last `Open`: a writer of the object store starts from nothing and puts what it
has over what was there.
-/

namespace Leoflow.Logs

open Lib (GoMap)
open DiskSink List Option

variable {op : Op} {d d' : DiskSink} {o o' : ObjectSink}

/-! ## The lines of a sequence -/

/-- The line of an event. -/
def eventBytes (ev : Event) : Bytes := lineBytes ((marshal ev).getD ev.message.toList)

/-- The lines of all events that were written. -/
def written (ops : List Op) : Bytes := ops.flatMap fun op => op.events.flatMap eventBytes

/-- The calls up to the last `Open`, and those after it. -/
def headOps (ops : List Op) : List Op := (ops.reverse.dropWhile (· ≠ .openWriter)).reverse

/-- The operations since the writer was last opened. -/
def tailOps (ops : List Op) : List Op := (ops.reverse.takeWhile (· ≠ .openWriter)).reverse

theorem headOps_append_tailOps (ops : List Op) : headOps ops ++ tailOps ops = ops := by
  unfold headOps tailOps
  rw [← reverse_append, takeWhile_append_dropWhile, reverse_reverse]

theorem tailOps_openWriter (ops : List Op) : tailOps (ops ++ [.openWriter]) = [] := by
  simp [tailOps]

theorem tailOps_snoc (h : op ≠ .openWriter) (ops : List Op) : tailOps (ops ++ [op]) = tailOps ops ++ [op] := by
  simp [tailOps, h]

theorem written_append (ops ops' : List Op) : written (ops ++ ops') = written ops ++ written ops' :=
  flatMap_append

theorem written_singleton (op : Op) : written [op] = op.events.flatMap eventBytes := by
  unfold written
  rw [flatMap_cons, flatMap_nil, append_nil]

theorem written_eq_nil {ops : List Op} : written ops = [] ↔ ∀ op ∈ ops, op.events = [] := by
  unfold written
  rw [flatMap_eq_nil_iff]
  refine forall₂_congr fun op _ => ?_
  rw [flatMap_eq_nil_iff]
  constructor
  · intro h
    cases hev : op.events with
    | nil => rfl
    | cons ev evs => exact absurd (h ev (hev ▸ mem_cons_self)) (lineBytes_ne_nil _)
  · intro h ev hev
    rw [h] at hev
    cases hev

/-- A call that leaves a file or an object behind. -/
def Op.creates : Op → Bool
  | .openWriter => true
  | .appendEvent _ _ => true
  | _ => false

/-- Every event has a time. -/
def Timed (ops : List Op) : Prop := ∀ op ∈ ops, ∀ ev ∈ op.events, ev.time ≠ 0

theorem lineBytes_encodeLine {now : Time} {ev : Event} (h : ev.time ≠ 0) :
    lineBytes (encodeLine now ev) = eventBytes ev := by
  unfold encodeLine eventBytes
  rw [stamped_of_ne h]

/-! ## The disk -/

section Disk

variable {ref : Ref} {ops : List Op}

/-- The file and the buffer hold all lines, and there is a file once a call made one. -/
structure DiskSink.Holds (d : DiskSink) (ref : Ref) (ops : List Op) : Prop where
  content : d.content ref ++ d.writer.getD [] = written ops
  exists_iff : (d.files.lookup ref.path).isSome ↔ ∃ op ∈ ops, op.creates
  opened : d.writer.isSome → (d.files.lookup ref.path).isSome

theorem DiskSink.content_insert (d : DiskSink) (bytes : Bytes) (w : Option Bytes) :
    DiskSink.content { files := d.files.insert ref.path bytes, writer := w } ref = bytes := by
  unfold DiskSink.content
  rw [AList.lookup_insert]
  rfl

theorem exists_snoc : (∃ op' ∈ ops ++ [op], op'.creates) ↔
    (∃ op' ∈ ops, op'.creates) ∨ op.creates := by
  simp [or_and_right, exists_or]

theorem DiskSink.openWriter_eq (h : d.openWriter ref = some d') :
    d.writer = none ∧ d' = { files := d.files.insert ref.path (d.content ref), writer := some [] } := by
  unfold DiskSink.openWriter at h
  split at h
  next hc =>
    exact ⟨hc.2, (Option.some.inj h).symm⟩
  · cases h

theorem DiskSink.writeEvent_eq {ev : Event} {now : Time} (ht : ev.time ≠ 0) (h : d.writeEvent ref ev now = some d') :
    ∃ buf, d.writer = some buf ∧ ∃ file buf',
      file ++ buf' = d.content ref ++ buf ++ eventBytes ev ∧
        d' = { files := d.files.insert ref.path file, writer := some buf' } := by
  unfold DiskSink.writeEvent at h
  rw [stamped_of_ne ht] at h
  cases hw : d.writer with
  | none => rw [hw] at h; cases h
  | some buf =>
    cases hm : marshal ev with
    | none => rw [hw, hm] at h; cases h
    | some line =>
      rw [hw, hm] at h
      refine ⟨buf, rfl, _, _, ?_, (Option.some.inj h).symm⟩
      unfold eventBytes
      rw [hm]
      exact bufWrite_append _ _ _

theorem DiskSink.close_eq (h : d.close ref = some d') : ∃ buf, d.writer = some buf ∧
      d' = { files := d.files.insert ref.path (d.content ref ++ buf), writer := none } := by
  unfold DiskSink.close at h
  cases hw : d.writer with
  | none => rw [hw] at h; cases h
  | some buf =>
    rw [hw] at h
    exact ⟨buf, rfl, (Option.some.inj h).symm⟩

/-- The calls that may be made on an open or a closed writer leave a file with the lines written. -/
theorem DiskSink.Holds.of_insert {file : Bytes} {w : Option Bytes} (hcontent : file ++ w.getD [] = written ops)
    (hcreates : ∃ op ∈ ops, op.creates) :
    DiskSink.Holds { files := d.files.insert ref.path file, writer := w } ref ops := by
  have hlook : (d.files.insert ref.path file).lookup ref.path = some file := AList.lookup_insert _
  refine ⟨?_, ?_, fun _ => ?_⟩
  · rw [content_insert]
    exact hcontent
  · rw [hlook]
    exact iff_of_true rfl hcreates
  · rw [hlook]
    rfl

/-- One call keeps what the disk sink holds in step with the calls. -/
theorem DiskSink.Holds.step (h : d.Holds ref ops) (ht : ∀ ev ∈ op.events, ev.time ≠ 0) (hs : d.step ref op = some d') :
    d'.Holds ref (ops ++ [op]) := by
  have hwritten : written (ops ++ [op]) = written ops ++ op.events.flatMap eventBytes := by
    rw [written_append, written_singleton]
  cases op with
  | openWriter =>
    obtain ⟨hw, rfl⟩ := openWriter_eq hs
    refine .of_insert ?_ (exists_snoc.mpr (.inr rfl))
    have hc := h.content
    rw [hw] at hc
    rw [hwritten]
    exact hc.trans (append_nil _).symm
  | writeEvent ev now since =>
    obtain ⟨buf, hw, file, buf', heq, rfl⟩ := writeEvent_eq (ht ev mem_cons_self) hs
    refine .of_insert ?_ (exists_snoc.mpr (.inl ?_))
    · have hc := h.content
      rw [hw] at hc
      rw [hwritten, ← hc]
      exact heq.trans (by simp [Op.events])
    · exact h.exists_iff.mp (h.opened (by rw [hw]; rfl))
  | tick since =>
    obtain rfl := Option.some.inj hs
    refine ⟨?_, ?_, h.opened⟩
    · rw [hwritten]
      exact h.content.trans (append_nil _).symm
    · rw [exists_snoc]
      exact h.exists_iff.trans ⟨.inl, fun hc => hc.resolve_right Bool.false_ne_true⟩
  | close =>
    obtain ⟨buf, hw, rfl⟩ := close_eq hs
    refine .of_insert ?_ (exists_snoc.mpr (.inl ?_))
    · have hc := h.content
      rw [hw] at hc
      rw [hwritten, ← hc]
      rfl
    · exact h.exists_iff.mp (h.opened (by rw [hw]; rfl))
  | appendEvent ev now =>
    obtain ⟨opened, hopen, hs⟩ := bind_eq_some_iff.mp hs
    obtain ⟨mid, hwrite, hclose⟩ := bind_eq_some_iff.mp hs
    obtain ⟨hw, rfl⟩ := openWriter_eq hopen
    obtain ⟨buf, hbuf, file, buf', heq, rfl⟩ :=
      writeEvent_eq (ht ev mem_cons_self) hwrite
    obtain ⟨buf'', hbuf'', rfl⟩ := close_eq hclose
    obtain rfl := Option.some.inj hbuf
    obtain rfl := Option.some.inj hbuf''
    rw [content_insert] at heq
    refine .of_insert ?_ (exists_snoc.mpr (.inr rfl))
    have hc := h.content
    rw [hw] at hc
    rw [hwritten, ← hc, content_insert]
    calc file ++ buf' ++ [] = d.content ref ++ [] ++ eventBytes ev := by rw [append_nil, heq]
      _ = d.content ref ++ [] ++ [ev].flatMap eventBytes := by
        rw [flatMap_singleton]

theorem DiskSink.Holds.run (hnew : d.files.lookup ref.path = none) (hclosed : d.writer = none) (ops : List Op)
    (ht : Timed ops) (hr : d.run ref ops = some d') : d'.Holds ref ops := by
  refine Lib.foldlM_history (I := fun ops (d : DiskSink) => d.Holds ref ops)
    (P := fun op : Op => ∀ ev ∈ op.events, ev.time ≠ 0) ?_ (fun _ _ _ _ h ht hs => h.step ht hs) ht hr
  refine ⟨?_, ?_, fun h => ?_⟩
  · unfold DiskSink.content
    rw [hnew, hclosed]
    rfl
  · rw [hnew]
    exact ⟨fun h => (by cases h), fun ⟨_, h, _⟩ => (by cases h)⟩
  · rw [hclosed] at h
    cases h

end Disk

/-! ## The object store -/

section Object

variable {ref : Ref} {ops : List Op}

/-- An open writer holds the lines since it was opened, and what it stored is the part it flushed. With
no writer open the object holds those lines, if a call made one. -/
structure ObjectSink.Holds (o : ObjectSink) (ref : Ref) (ops : List Op) : Prop where
  opened : ∀ w, o.writer = some w → w.buf = written (tailOps ops) ∧ w.flushed ≤ w.buf.length ∧
    (∃ op ∈ ops, op.creates) ∧
    (w.stored → o.objects.lookup (o.key ref) = some (w.buf.take w.flushed))
  closed : o.writer = none → ((∃ op ∈ ops, op.creates) →
      o.objects.lookup (o.key ref) = some (written (tailOps ops))) ∧
    ((∀ op ∈ ops, op.creates = false) → o.objects.lookup (o.key ref) = none ∧ written (tailOps ops) = [])

theorem ObjectSink.lookup_put (o : ObjectSink) (content : Bytes) :
    (o.put ref content).objects.lookup (o.key ref) = some content :=
  AList.lookup_insert _

/-- A flush, made or not, keeps what is known of the open writer. -/
theorem ObjectSink.Holds.of_maybeFlush {w : ObjectWriter} {since : Duration} (hbuf : w.buf = written (tailOps ops))
    (hflushed : w.flushed ≤ w.buf.length) (hcreates : ∃ op ∈ ops, op.creates)
    (hstored : w.stored → o.objects.lookup (o.key ref) = some (w.buf.take w.flushed)) :
    (o.after ref (w.maybeFlushLocked o.toFlushConfig since .stored)).Holds ref ops := by
  refine ⟨fun w' hw' => ?_, fun hnone => (by cases hnone)⟩
  obtain rfl := Option.some.inj hw'
  unfold ObjectWriter.maybeFlushLocked
  split
  · exact ⟨hbuf, le_refl _, hcreates, fun _ => (o.lookup_put _).trans (congrArg some take_length.symm)⟩
  · exact ⟨hbuf, hflushed, hcreates, hstored⟩

/-- An object that holds the lines since the last `Open`. -/
theorem ObjectSink.Holds.of_closed (hclosed : o.writer = none)
    (hlook : o.objects.lookup (o.key ref) = some (written (tailOps ops))) (hcreates : ∃ op ∈ ops, op.creates) :
    o.Holds ref ops := by
  refine ⟨fun w hw => ?_, fun _ => ⟨fun _ => hlook, fun hnone => ?_⟩⟩
  · rw [hclosed] at hw
    cases hw
  · obtain ⟨op, hop, hc⟩ := hcreates
    rw [hnone op hop] at hc
    cases hc

/-- One call keeps what the object sink holds in step with the calls. -/
theorem ObjectSink.Holds.step (h : o.Holds ref ops) (ht : ∀ ev ∈ op.events, ev.time ≠ 0)
    (hs : o.step ref op = some o') : o'.Holds ref (ops ++ [op]) := by
  have hwritten : op ≠ .openWriter →
      written (tailOps (ops ++ [op])) = written (tailOps ops) ++ op.events.flatMap eventBytes := by
    intro hne
    rw [tailOps_snoc hne, written_append, written_singleton]
  cases op with
  | openWriter =>
    change o.openWriter ref = some o' at hs
    unfold ObjectSink.openWriter at hs
    split at hs
    · obtain rfl := Option.some.inj hs
      refine ⟨fun w hw => ?_, fun hnone => (by cases hnone)⟩
      obtain rfl := Option.some.inj hw
      refine ⟨?_, le_refl _, exists_snoc.mpr (.inr rfl), fun hst => (by cases hst)⟩
      rw [tailOps_openWriter]
      rfl
    · cases hs
  | writeEvent ev now since =>
    obtain ⟨w, hw, hs⟩ := bind_eq_some_iff.mp hs
    obtain ⟨hbuf, hflushed, hcreates, hstored⟩ := h.opened w hw
    simp only [ObjectWriter.writeEvent, lineBytes_encodeLine (ht ev mem_cons_self)] at hs
    split at hs
    · cases hs
    · obtain rfl := Option.some.inj hs
      refine .of_maybeFlush ?_ ?_ (exists_snoc.mpr (.inl hcreates)) fun hst => ?_
      · rw [hwritten (fun he => (by cases he)), ObjectWriter.buffer, hbuf]
        rw [show (Op.writeEvent ev now since).events = [ev] from rfl, flatMap_singleton]
      · exact hflushed.trans (prefix_append _ _).length_le
      · rw [ObjectWriter.buffer, take_append_of_le_length hflushed]
        exact hstored hst
  | tick since =>
    obtain ⟨w, hw, hs⟩ := bind_eq_some_iff.mp hs
    obtain ⟨hbuf, hflushed, hcreates, hstored⟩ := h.opened w hw
    obtain rfl := Option.some.inj hs
    refine .of_maybeFlush ?_ hflushed (exists_snoc.mpr (.inl hcreates)) hstored
    rw [hwritten (fun he => (by cases he))]
    exact hbuf.trans (append_nil _).symm
  | close =>
    obtain ⟨w, hw, hs⟩ := bind_eq_some_iff.mp hs
    obtain ⟨hbuf, hflushed, hcreates, hstored⟩ := h.opened w hw
    have hsame : w.buf = written (tailOps (ops ++ [.close])) := by
      rw [hwritten (fun he => (by cases he))]
      exact hbuf.trans (append_nil _).symm
    obtain rfl := Option.some.inj hs
    refine .of_closed rfl ?_ (exists_snoc.mpr (.inl hcreates))
    unfold ObjectWriter.close
    split
    next hskip =>
      have hlook := hstored hskip.1
      rw [hskip.2, take_length, hsame] at hlook
      exact hlook
    · rw [← hsame]
      exact o.lookup_put _
  | appendEvent ev now =>
    change o.appendEvent ref ev now = some o' at hs
    unfold ObjectSink.appendEvent at hs
    rw [lineBytes_encodeLine (ht ev mem_cons_self)] at hs
    split at hs
    next hc =>
      obtain rfl := Option.some.inj hs
      have hnone : o.writer = none := isNone_iff_eq_none.mp hc.2
      have hbefore : (o.objects.lookup (o.key ref)).getD [] = written (tailOps ops) := by
        by_cases hcreates : ∃ op ∈ ops, op.creates
        · rw [(h.closed hnone).1 hcreates]
          rfl
        · have hfalse : ∀ op ∈ ops, op.creates = false := fun op hop =>
            Bool.eq_false_iff.mpr fun hop' => hcreates ⟨op, hop, hop'⟩
          obtain ⟨hlook, hnil⟩ := (h.closed hnone).2 hfalse
          rw [hlook, hnil]
          rfl
      refine .of_closed hnone ?_ (exists_snoc.mpr (.inr rfl))
      rw [hwritten (fun he => (by cases he)), ← hbefore,
        show (Op.appendEvent ev now).events = [ev] from rfl, flatMap_singleton]
      exact o.lookup_put _
    · cases hs

theorem ObjectSink.Holds.run (hnew : o.objects.lookup (o.key ref) = none) (hclosed : o.writer = none) (ops : List Op)
    (ht : Timed ops) (hr : o.run ref ops = some o') : o'.Holds ref ops := by
  refine Lib.foldlM_history (I := fun ops (o : ObjectSink) => o.Holds ref ops)
    (P := fun op : Op => ∀ ev ∈ op.events, ev.time ≠ 0) ?_ (fun _ _ _ _ h ht hs => h.step ht hs) ht hr
  refine ⟨fun w hw => ?_, fun _ => ⟨fun hc => ?_, fun _ => ⟨hnew, rfl⟩⟩⟩
  · rw [hclosed] at hw
    cases hw
  · obtain ⟨_, hop, _⟩ := hc
    cases hop

end Object

/-! ## The comparison -/

/-- **The sinks agree** after a sequence of calls in which one writer is open at a time, exactly when no
event was written or appended before the last `Open`. -/
theorem sinks_agree_iff {ref : Ref} (hvalid : ref.validate) {ops : List Op} (ht : Timed ops)
    (hd : d.files.lookup ref.path = none ∧ d.writer = none) (hdisk : d.run ref ops = some d')
    (hdisk' : d'.writer = none) (ho : o.objects.lookup (o.key ref) = none ∧ o.writer = none)
    (hobject : o.run ref ops = some o') (hobject' : o'.writer = none) :
    d'.read ref = o'.read ref ↔ ∀ op ∈ headOps ops, op.events = [] := by
  have hfile := DiskSink.Holds.run hd.1 hd.2 ops ht hdisk
  have hstore := (ObjectSink.Holds.run ho.1 ho.2 ops ht hobject).closed hobject'
  have hsplit : written ops = written (headOps ops) ++ written (tailOps ops) := by
    rw [← written_append, headOps_append_tailOps]
  unfold DiskSink.read ObjectSink.read
  rw [if_pos hvalid, if_pos hvalid]
  by_cases hcreates : ∃ op ∈ ops, op.creates
  · -- both have something to read, and it is compared line by line
    obtain ⟨content, hcontent⟩ := isSome_iff_exists.mp (hfile.exists_iff.mpr hcreates)
    have hall := hfile.content
    unfold DiskSink.content at hall
    rw [hdisk', hcontent] at hall
    rw [hcontent, hstore.1 hcreates, Option.some.injEq, ← written_eq_nil]
    have hbytes : content = written (headOps ops) ++ written (tailOps ops) := by
      rw [← hsplit, ← hall]
      exact (append_nil _).symm
    rw [hbytes]
    exact append_left_eq_self
  · have hfalse : ∀ op ∈ ops, op.creates = false := fun op hop =>
      Bool.eq_false_iff.mpr fun hop' => hcreates ⟨op, hop, hop'⟩
    have hnofile : d'.files.lookup ref.path = none := by
      rw [← not_isSome_iff_eq_none, hfile.exists_iff]
      exact hcreates
    rw [hnofile, (hstore.2 hfalse).1]
    refine iff_of_true rfl ?_
    have hnone : headOps ops = [] := by
      unfold headOps
      rw [reverse_eq_nil_iff, dropWhile_eq_nil_iff]
      intro op hop
      refine decide_eq_true fun hopen => ?_
      have hc := hfalse op (mem_reverse.mp hop)
      rw [hopen] at hc
      cases hc
    rw [hnone]
    exact fun op hop => (by cases hop)

/-! ## A stream that is opened again -/

/-- An attempt. -/
def attemptRef : Ref := ⟨"tenant", "etl", "run", "load", 1⟩

/-- An event of 1 January 2026. -/
def eventOf (message : String) : Event :=
  ⟨(unixEpoch + 1767225600) * second, "info", "stdout", message⟩

/-- An object store with its default buffer. -/
def objectStore : ObjectSink := { maxBufferedAttemptBytes := 2 ^ 27, root := "" }

/-- One stream, and the marker of the reaper after it. -/
def markedOps : List Op :=
  [.openWriter, .writeEvent (eventOf "one") 0 0, .tick (5 * second), .writeEvent (eventOf "two") 0 0,
    .close, .appendEvent (eventOf "agent lost") 0]

theorem timed_markedOps : Timed markedOps := by
  unfold Timed
  decide +kernel

/-- The disk after that stream. -/
def markedDisk : DiskSink := (DiskSink.run {} attemptRef markedOps).get (by decide +kernel)

/-- The object store after that stream. -/
def markedObject : ObjectSink := (objectStore.run attemptRef markedOps).get (by decide +kernel)

theorem sinks_agree_marked : markedDisk.read attemptRef = markedObject.read attemptRef :=
  (sinks_agree_iff (by decide +kernel) timed_markedOps ⟨rfl, rfl⟩ (some_get _).symm
    (by decide +kernel) (o := objectStore) ⟨rfl, rfl⟩ (some_get _).symm
    (isNone_iff_eq_none.mp (by decide +kernel))).mpr (by decide +kernel)

/-- A stream of one line that reconnects for a second line. -/
def reconnectedOps : List Op :=
  [.openWriter, .writeEvent (eventOf "one") 0 0, .close, .openWriter, .writeEvent (eventOf "two") 0 0, .close]

/-- The file has both lines, the object only the second. -/
theorem reconnect_loses_lines : attemptRef.validate ∧ (∀ op ∈ reconnectedOps, ∀ ev ∈ op.events, ev.time ≠ 0) ∧
    (do (← DiskSink.run {} attemptRef reconnectedOps).read attemptRef) =
      some (eventBytes (eventOf "one") ++ eventBytes (eventOf "two")) ∧
    (do (← objectStore.run attemptRef reconnectedOps).read attemptRef) = some (eventBytes (eventOf "two")) ∧
    eventBytes (eventOf "one") ++ eventBytes (eventOf "two") ≠ eventBytes (eventOf "two") := by
  refine ⟨by decide +kernel, by decide +kernel, by decide +kernel, by decide +kernel, ?_⟩
  rw [ne_eq, append_left_eq_self]
  exact lineBytes_ne_nil _

end Leoflow.Logs
