import Leoflow.Lib.Json
import Leoflow.Lib.Strip

/-!
# Outcome records

The record of `internal/taskoutcome` that the agent leaves in the termination message: truncating its reason, encoding
it under a size cap and decoding it. `time.Parse` of a reschedule time is a parameter.
-/

namespace Leoflow.TaskOutcome

open Lib (Json)

/-- The version of the record. -/
def version : Int64 := 1

/-- The most a termination message is to hold. -/
def maxRecordBytes : Nat := 1024

/-- The most a reason is to hold. -/
def maxReasonLen : Nat := 240

/-- The outcome of a task as its pod leaves it. -/
structure Record where
  v : Int64 := 0
  outcome : String := ""
  exitCode : Option Int32 := none
  rescheduleAt : String := ""
  reason : String := ""
deriving DecidableEq

/-- The characters of `cs` that end within `limit` bytes: a character that is cut off at `limit` is dropped as a
whole. -/
def within (limit : Nat) : List Char → List Char
  | [] => []
  | c :: cs => if c.utf8Size ≤ limit then c :: within (limit - c.utf8Size) cs else []

/-- `TruncateReason`, of a reason that is valid UTF-8. -/
def truncateReason (reason : String) (limit : Nat) : String :=
  if reason.utf8ByteSize ≤ limit then reason else String.ofList (within limit reason.toList)

/-- A failure without an exit code. -/
def failedBecause (reason : String) : Record :=
  { v := version, outcome := "failed", reason := truncateReason reason maxReasonLen }

/-- A failure with its exit code. -/
def failedBecauseWith (exitCode : Int32) (reason : String) : Record :=
  { v := version, outcome := "failed", exitCode := some exitCode, reason := truncateReason reason maxReasonLen }

namespace Record

/-- The JSON fields in order, those with `omitempty` only when they are set. -/
def fields (r : Record) : List (String × Json.Field) :=
  [("v", .int r.v.toInt), ("outcome", .string r.outcome)] ++
    (r.exitCode.map fun code => ("exit_code", .int code.toInt)).toList ++
    (if r.rescheduleAt = "" then [] else [("reschedule_at", .string r.rescheduleAt)]) ++
    if r.reason = "" then [] else [("reason", .string r.reason)]

/-- `Encode`: the record as JSON, within the cap. -/
def encode (r : Record) : Except String String :=
  if maxRecordBytes < (Json.write r.fields).utf8ByteSize then .error "taskoutcome: encoded record exceeds size cap"
  else .ok (Json.write r.fields)

/-- What a value stores in an `*int32`. -/
def storeInt32 : Json → Option (Option Int32)
  | .number literal => (Json.parseInt64 literal).bind fun n =>
      if n.toInt32.toInt64 = n then some (some n.toInt32) else none
  | .null => some none
  | _ => none

/-- Store one member of the document. -/
def set (r : Record) (key : String) (v : Json) : Option Record :=
  match Json.foldName key with
  | "v" => (Json.storeInt r.v v).map fun n => { r with v := n }
  | "outcome" => (Json.storeString r.outcome v).map fun s => { r with outcome := s }
  | "exit_code" => (storeInt32 v).map fun code => { r with exitCode := code }
  | "reschedule_at" => (Json.storeString r.rescheduleAt v).map fun s => { r with rescheduleAt := s }
  | "reason" => (Json.storeString r.reason v).map fun s => { r with reason := s }
  | _ => some r

end Record

/-- `Decode`: the record of a termination message, if it is one. -/
def decode (parseTime : String → Bool) (msg : String) : Option Record :=
  if (Lib.trimSpace msg).toList.head? = some '{' then
    ((Json.parse (Lib.trimSpace msg)).bind (Json.decode Record.set {})).filter fun r =>
      r.v == version && (r.outcome == "success" || r.outcome == "failed" ||
        r.outcome == "reschedule" && r.rescheduleAt != "" && parseTime r.rescheduleAt)
  else none

/-! ## The bytes of a reason -/

/-- `utf8.ValidString`. -/
def validString (s : List UInt8) : Bool := s.toByteArray.validateUTF8

/-- The loop of `TruncateReason`. -/
def dropInvalid (cut : List UInt8) : List UInt8 :=
  if cut ≠ [] ∧ validString cut = false then dropInvalid cut.dropLast else cut
termination_by cut.length
decreasing_by
  rw [List.length_dropLast]
  exact Nat.sub_one_lt (List.length_pos_iff.mpr (And.left ‹_›)).ne'

/-- `TruncateReason`, of any string. -/
def truncateBytes (reason : List UInt8) (limit : Nat) : List UInt8 :=
  if reason.length ≤ limit then reason else dropInvalid (reason.take limit)

end Leoflow.TaskOutcome
