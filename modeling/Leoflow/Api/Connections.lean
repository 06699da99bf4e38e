import Leoflow.Executor.Pods
import Leoflow.Lib.Float64
import Leoflow.Lib.JsonValue

/-!
# Connections

How `internal/api/ui_connections.go` returns the free-form `extra` of a connection with its secrets masked.
`encoding/json` decodes an `extra` into a map of values whose numbers are `float64`.
-/

namespace Leoflow.Api

open Lib (Json JsonValue Float64)

/-! ## Decoded values -/

/-- What `encoding/json` decodes into an `any`. -/
abbrev GoValue := JsonValue Float64

/-- The members of a `map[string]any`; the nil map has none. -/
abbrev Members := List (String × GoValue)

/-- A number literal as a `float64`; one beyond its range is an error. -/
def goNumber (literal : String) : Option Float64 := Float64.ofDecimal (Float64.ofLiteral literal.toList)

/-- `json.Unmarshal` into a `map[string]any`: an error, the nil map of `null`, or a map. -/
def unmarshal (text : String) : Option (Option Members) :=
  match Json.parse text with
  | some .null => some none
  | some (.object members) => (JsonValue.readMembers goNumber members).map fun ms => some (JsonValue.fillMap [] ms)
  | _ => none

/-- `json.Marshal` of a decoded object. -/
def marshalMap : Option Members → String
  | none => "null"
  | some members => String.ofList (JsonValue.write Float64.text (.object members))

/-! ## Reading -/

/-- What stands for a secret. -/
def secretMask : String := "***"

/-- A key with one of these in it is sensitive. -/
def sensitiveKeyParts : List String :=
  ["secret", "password", "passwd", "passphrase", "token", "apikey", "api_key", "access_key", "private_key",
    "authorization", "credential", "keyfile"]

/-- The parts are ASCII, so of `strings.ToLower` only what becomes ASCII counts. -/
def isSensitiveKey (key : String) : Bool :=
  sensitiveKeyParts.any fun part => (key.toList.map Executor.lowerRune).tails.any part.toList.isPrefixOf

mutual

/-- Mask the secrets in a value. -/
def redactAny : GoValue → GoValue
  | .object members => .object (redactMap members)
  | .array items => .array (redactItems items)
  | .null => .null
  | .bool b => .bool b
  | .number f => .number f
  | .string s => .string s

/-- Mask the members with a sensitive key, and the secrets in the others. -/
def redactMap : Members → Members
  | [] => []
  | (k, v) :: ms => (k, if isSensitiveKey k then .string secretMask else redactAny v) :: redactMap ms

/-- Mask the secrets in the items. -/
def redactItems : List GoValue → List GoValue
  | [] => []
  | v :: vs => redactAny v :: redactItems vs

end

/-- An extra that does not decode as an object is masked as a whole. -/
def redactExtra (extra : String) : String :=
  if extra = "" then extra
  else
    match unmarshal extra with
    | none => secretMask
    | some m => marshalMap (m.map redactMap)

end Leoflow.Api
