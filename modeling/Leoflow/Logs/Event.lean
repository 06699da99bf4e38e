import Leoflow.Domain.State
import Leoflow.Lib.Calendar
import Leoflow.Lib.Json

/-!
# Log events

`logs.Event`, its JSON line and the references of `internal/logs/logs.go`.
-/

namespace Leoflow.Logs

open Lib (Json)

/-- The bytes of a file. -/
abbrev Bytes := List UInt8

/-- A line of a task's log. -/
structure Event where
  time : Time
  level : String
  stream : String
  message : String
deriving DecidableEq

/-- Seconds from Go's zero time to 1970-01-01. -/
def unixEpoch : Int := 62135596800

/-- The fraction of a second in `time.RFC3339Nano`, without trailing zeros. -/
def fractionText (nanos : Int) : List Char :=
  if nanos = 0 then []
  else '.' :: ((Lib.appendInt nanos 9).reverse.dropWhile (· == '0')).reverse

/-- The day of a time, in UTC. -/
def dateOf (t : Time) : Lib.Date := .ofDays ((t / second - unixEpoch) / 86400)

/-- `Format(time.RFC3339Nano)` in UTC. -/
def rfc3339Nano (t : Time) : List Char :=
  Lib.appendInt (dateOf t).year 4 ++ (Lib.dayAndTime (dateOf t) ((t / second - unixEpoch) % 86400)).dropLast ++
    fractionText (t % second) ++ ['Z']

example : rfc3339Nano ((unixEpoch + 1767225600) * second + 120000000) = "2026-01-01T00:00:00.12Z".toList := by
  decide +kernel

/-- `json.Marshal` of an event. A time outside the years 0 to 9999 is refused; the text of one within
them needs no escapes. -/
def marshal (ev : Event) : Option (List Char) :=
  if 0 ≤ (dateOf ev.time).year ∧ (dateOf ev.time).year ≤ 9999 then
    some ('{' :: Json.quote "ts" ++ ':' :: '"' :: rfc3339Nano ev.time ++ '"' :: ',' ::
      Json.membersText [("level", .string ev.level), ("stream", .string ev.stream),
        ("msg", .string ev.message)] ++ ['}'])
  else none

/-- An event without a time gets the current one. -/
def stamped (now : Time) (ev : Event) : Event := if ev.time = 0 then { ev with time := now } else ev

theorem stamped_of_ne {now : Time} {ev : Event} (h : ev.time ≠ 0) : stamped now ev = ev := if_neg h

/-- A text in UTF-8. -/
def utf8 (s : List Char) : Bytes := s.flatMap String.utf8EncodeChar

/-- A line with its line feed. -/
def lineBytes (line : List Char) : Bytes := utf8 line ++ [10]

theorem lineBytes_ne_nil (line : List Char) : lineBytes line ≠ [] :=
  List.append_ne_nil_of_right_ne_nil _ (List.cons_ne_nil _ _)

/-- What cannot be marshalled is its bare message. -/
def encodeLine (now : Time) (ev : Event) : List Char := (marshal (stamped now ev)).getD ev.message.toList

/-- The attempt a log is of. -/
structure Ref where
  tenantID : String
  dagID : String
  runID : String
  taskID : String
  tryNumber : Int
deriving DecidableEq

/-- The text is one segment of a path, and no way out of it. -/
def safeSegment (v : String) : Bool :=
  v != "" && v != "." && v != ".." && v.toList.all (fun c => c != '/' && c != '\\' && c != '\x00') &&
    decide ((utf8 v.toList).length ≤ 255)

/-- `Validate`: every part of the reference is such a segment. -/
def Ref.validate (r : Ref) : Bool :=
  safeSegment r.tenantID && safeSegment r.dagID && safeSegment r.runID && safeSegment r.taskID

/-- The path of a valid reference below the root of a sink: no segment of it is cleaned away. -/
def Ref.path (r : Ref) : String :=
  r.tenantID ++ "/" ++ r.dagID ++ "/" ++ r.runID ++ "/" ++ r.taskID ++ "/" ++ toString r.tryNumber ++ ".log"

end Leoflow.Logs
