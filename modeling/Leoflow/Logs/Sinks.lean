import Leoflow.Lib.GoMap
import Leoflow.Logs.Event

/-!
# The two log sinks

`DiskSink` of `internal/logs/logs.go` appends through a buffered file. `ObjectSink` of
`internal/logs/object.go` has no append to use: its writer keeps all it was given and puts the whole of
it under the key. Both are state machines over the calls one user of a reference makes in sequence, one
writer at a time; a call that fails ends the sequence.
-/

namespace Leoflow.Logs

open Lib (GoMap)

/-- A call on a reference with its clock readings: `now` stamps an event without a time, `sinceLast` is the time
since the writer's last flush. `tick` is a turn of the object writer's flusher. -/
inductive Op where
  | openWriter
  | writeEvent (ev : Event) (now : Time) (sinceLast : Duration)
  | tick (sinceLast : Duration)
  | close
  | appendEvent (ev : Event) (now : Time)
deriving DecidableEq

/-- The events an operation writes. -/
def Op.events : Op → List Event
  | writeEvent ev _ _ => [ev]
  | appendEvent ev _ => [ev]
  | _ => []

/-! ## The disk -/

/-- The size of the `bufio.Writer`. -/
def flushThreshold : Nat := 2 ^ 20

/-- `bufio.Writer.Write`: the file and the buffer after it. What does not fit fills the buffer up and
flushes it; a rest that is larger than a whole buffer goes to the file directly. -/
def bufWrite (file buf p : Bytes) : Bytes × Bytes :=
  if p.length ≤ flushThreshold - buf.length then (file, buf ++ p)
  else if buf = [] then (file ++ p, [])
  else
    let room := flushThreshold - buf.length
    let rest := p.drop room
    if rest.length ≤ flushThreshold then (file ++ buf ++ p.take room, rest)
    else (file ++ buf ++ p.take room ++ rest, [])

/-- Nothing is lost or moved in a buffered write. -/
theorem bufWrite_append (file buf p : Bytes) :
    (bufWrite file buf p).1 ++ (bufWrite file buf p).2 = file ++ buf ++ p := by
  unfold bufWrite
  by_cases hfits : p.length ≤ flushThreshold - buf.length
  · rw [if_pos hfits, List.append_assoc]
  · rw [if_neg hfits]
    by_cases hempty : buf = []
    · rw [if_pos hempty, hempty, List.append_nil, List.append_nil]
    · rw [if_neg hempty]
      simp only
      split
      · rw [List.append_assoc, List.take_append_drop]
      · rw [List.append_nil, List.append_assoc, List.take_append_drop]

/-- `DiskSink` and the buffer of the open writer. -/
structure DiskSink where
  files : GoMap Bytes := ∅
  writer : Option Bytes := none

namespace DiskSink

variable (d : DiskSink) (ref : Ref)

/-- The bytes of the file, if there is one. -/
def read : Option Bytes := if ref.validate then d.files.lookup ref.path else none

/-- What the file holds. -/
def content : Bytes := (d.files.lookup ref.path).getD []

/-- `OpenWriter`: the file is opened for appending. -/
def openWriter : Option DiskSink :=
  if ref.validate ∧ d.writer = none then
    some { files := d.files.insert ref.path (d.content ref), writer := some [] }
  else none

/-- `WriteEvent`: a line goes to the buffer of the file. -/
def writeEvent (ev : Event) (now : Time) : Option DiskSink := do
  let buf ← d.writer
  let line ← marshal (stamped now ev)
  let w := bufWrite (d.content ref) buf (lineBytes line)
  return { files := d.files.insert ref.path w.1, writer := some w.2 }

/-- `Close`: the buffer goes to the file. -/
def close : Option DiskSink := do
  let buf ← d.writer
  return { files := d.files.insert ref.path (d.content ref ++ buf), writer := none }

/-- A call. `AppendEvent` opens a writer of its own. -/
def step : Op → Option DiskSink
  | .openWriter => d.openWriter ref
  | .writeEvent ev now _ => d.writeEvent ref ev now
  | .tick _ => some d
  | .close => d.close ref
  | .appendEvent ev now => do
    let opened ← d.openWriter ref
    let written ← opened.writeEvent ref ev now
    written.close ref

/-- The sink after some operations, where all are allowed. -/
def run (ops : List Op) : Option DiskSink := ops.foldlM (fun d op => d.step ref op) d

end DiskSink

/-! ## The object writer -/

/-- The variables that set the flush cadence, and the cap on an attempt. -/
structure FlushConfig where
  maxBufferedAttemptBytes : Nat := 128 * 2 ^ 20
  objectFlushBytes : Nat := 2 ^ 20
  objectFlushInterval : Duration := 5 * second
  objectFlushDamping : Nat := 8
  objectFlushMaxStaleness : Duration := 60 * second

/-- The staleness cap overrides the damping, and the damping the size and the interval. -/
def FlushConfig.shouldFlush (c : FlushConfig) (unflushed flushed : Nat) (sinceLast : Duration) : Bool :=
  if unflushed = 0 then false
  else if sinceLast ≥ c.objectFlushMaxStaleness then true
  else if c.objectFlushDamping > 0 ∧ unflushed < flushed / c.objectFlushDamping then false
  else decide (unflushed ≥ c.objectFlushBytes) || decide (sinceLast ≥ c.objectFlushInterval)

/-- The answer to a put. One that fails took effect or did not. -/
inductive PutAnswer where
  | stored
  | failed (landed : Bool)
deriving DecidableEq

/-- `objectWriter`: the bytes of the attempt, how many of them are stored, and whether a put has succeeded. -/
structure ObjectWriter where
  buf : Bytes := []
  flushed : Nat := 0
  stored : Bool := false

/-- What a call leaves behind: the writer, the object where a put has replaced it, and whether there was no error. -/
structure Flush where
  writer : ObjectWriter
  object : Option Bytes := none
  ok : Bool := true

namespace ObjectWriter

variable (cfg : FlushConfig) (w : ObjectWriter)

/-- A line goes to the writer's buffer. -/
def buffer (line : Bytes) : ObjectWriter := { w with buf := w.buf ++ line }

/-- The test of `maybeFlushLocked`. -/
def due (sinceLast : Duration) : Bool := cfg.shouldFlush (w.buf.length - w.flushed) w.flushed sinceLast

/-- A put of the whole buffer. One that fails leaves the counts as they are. -/
def flushLocked : PutAnswer → Flush
  | .stored => { writer := { w with flushed := w.buf.length, stored := true }, object := some w.buf }
  | .failed true => { writer := w, object := some w.buf, ok := false }
  | .failed false => { writer := w, ok := false }

/-- The error of an incremental flush is only logged. -/
def maybeFlushLocked (sinceLast : Duration) (put : PutAnswer) : Flush :=
  if w.due cfg sinceLast then { w.flushLocked put with ok := true } else { writer := w }

/-- A line that would exceed the cap is refused. -/
def writeEvent (ev : Event) (now : Time) (sinceLast : Duration) (put : PutAnswer) : Option Flush :=
  let line := lineBytes (encodeLine now ev)
  if w.buf.length + line.length > cfg.maxBufferedAttemptBytes then none
  else some ((w.buffer line).maybeFlushLocked cfg sinceLast put)

/-- The last flush, unless nothing came since the one before. -/
def close (put : PutAnswer) : Flush :=
  if w.stored ∧ w.flushed = w.buf.length then { writer := w } else w.flushLocked put

end ObjectWriter

/-- A call on the writer, with the answer to the put it makes if it makes one. -/
inductive WriterCall where
  | writeEvent (ev : Event) (now : Time) (sinceLast : Duration) (put : PutAnswer)
  | tick (sinceLast : Duration) (put : PutAnswer)
  | close (put : PutAnswer)

/-- The writer, the object under its key and whether the flusher has stopped. -/
structure LiveWriter where
  writer : ObjectWriter := {}
  object : Option Bytes := none
  stopped : Bool := false

namespace LiveWriter

variable (cfg : FlushConfig) (s : LiveWriter)

/-- The writer and the object after a flush. -/
def after (f : Flush) : LiveWriter := { s with writer := f.writer, object := f.object <|> s.object }

/-- `Close` stops the flusher first. -/
def close (put : PutAnswer) : LiveWriter × Bool :=
  (({ s with stopped := true } : LiveWriter).after (s.writer.close put), (s.writer.close put).ok)

/-- A call. A flusher that has stopped does nothing more. -/
def step : WriterCall → LiveWriter
  | .writeEvent ev now sinceLast put => (s.writer.writeEvent cfg ev now sinceLast put).elim s s.after
  | .tick sinceLast put => if s.stopped then s else s.after (s.writer.maybeFlushLocked cfg sinceLast put)
  | .close put => (s.close put).1

/-- The writer after some calls. -/
def run (calls : List WriterCall) : LiveWriter := calls.foldl (fun s c => s.step cfg c) s

end LiveWriter

/-! ## The object store -/

/-- `ObjectSink` and the open writer. No put fails here. -/
structure ObjectSink extends FlushConfig where
  root : String
  objects : GoMap Bytes := ∅
  writer : Option ObjectWriter := none

namespace ObjectSink

variable (o : ObjectSink) (ref : Ref)

/-- `key`, under the cleaned prefix of the sink. -/
def key : String := if o.root = "" then ref.path else o.root ++ "/" ++ ref.path

/-- The object, if there is one. -/
def read : Option Bytes := if ref.validate then o.objects.lookup (o.key ref) else none

/-- The object of the log is stored. -/
def put (content : Bytes) : ObjectSink := { o with objects := o.objects.insert (o.key ref) content }

/-- The store and the open writer after a call on it. -/
def after (f : Flush) : ObjectSink :=
  { o with objects := f.object.elim o.objects (o.objects.insert (o.key ref)), writer := some f.writer }

/-- `OpenWriter`: nothing is read or stored yet. -/
def openWriter : Option ObjectSink :=
  if ref.validate ∧ o.writer.isNone then some { o with writer := some {} } else none

/-- The stored object with one more line. -/
def appendEvent (ev : Event) (now : Time) : Option ObjectSink :=
  if ref.validate ∧ o.writer.isNone then
    some (o.put ref ((o.objects.lookup (o.key ref)).getD [] ++ lineBytes (encodeLine now ev)))
  else none

/-- A call. -/
def step : Op → Option ObjectSink
  | .openWriter => o.openWriter ref
  | .writeEvent ev now sinceLast => do
    let w ← o.writer
    let f ← w.writeEvent o.toFlushConfig ev now sinceLast .stored
    return o.after ref f
  | .tick sinceLast => do
    let w ← o.writer
    return o.after ref (w.maybeFlushLocked o.toFlushConfig sinceLast .stored)
  | .close => do
    let w ← o.writer
    return { o.after ref (w.close .stored) with writer := none }
  | .appendEvent ev now => o.appendEvent ref ev now

/-- The sink after some operations, where all are allowed. -/
def run (ops : List Op) : Option ObjectSink := ops.foldlM (fun o op => o.step ref op) o

end ObjectSink

end Leoflow.Logs
