import Leoflow.Lib.Strip

/-!
# Alert templates

`validateAlertTemplates` of `internal/domain/alert_template.go` recognises placeholders by a regular expression that
tolerates inner spaces; `Render` of `internal/alerts/alerts.go` replaces the exact texts `{{name}}`. Both read a
template from the left, without overlaps.
-/

namespace Leoflow.Template

open Lib (trimSpace)

/-! ## Scanning -/

section Segments

variable {β : Type}

/-- The leftmost matches that do not overlap, and the characters between them. A match is given with the number of
characters it takes beyond the first; the counter says how many are still to be passed over. -/
def segments (matchAt : List Char → Option (β × Nat)) : Nat → List Char → List (Char ⊕ β)
  | _, [] => []
  | skip + 1, _ :: cs => segments matchAt skip cs
  | 0, c :: cs =>
    match matchAt (c :: cs) with
    | none => .inl c :: segments matchAt 0 cs
    | some (b, more) => .inr b :: segments matchAt more cs

end Segments

/-! ## The code -/

/-- The text of a placeholder with the given body. -/
def braced (body : List Char) : List Char := '{' :: '{' :: body ++ ['}', '}']

/-- The character opens or closes a placeholder. -/
def isBrace (c : Char) : Bool := c == '{' || c == '}'

/-- A match of `placeholderRe` at the start: no brace stands between the braces. -/
def placeholderAt : List Char → Option (List Char × Nat)
  | '{' :: '{' :: rest =>
    if ['}', '}'].isPrefixOf (rest.dropWhile (!isBrace ·)) then
      some (rest.takeWhile (!isBrace ·), (rest.takeWhile (!isBrace ·)).length + 3)
    else none
  | _ => none

/-- The class `\s` of Go's regular expressions. -/
def isBlank (c : Char) : Bool := ['\t', '\n', '\x0c', '\r', ' '].contains c

/-- The captured name: the body without the blanks around it. -/
def captured (body : List Char) : List Char := Lib.strip isBlank body

/-- The names a template may use. -/
def placeholders : List String := ["dag", "run_id", "logical_date", "task", "tasks"]

/-- What an alert is about. -/
structure Event where
  dagID : String
  runID : String
  logicalDate : String
  failedTasks : List String

/-- What stands for an empty value. -/
def absent : String := "(none)"

/-- A value, or what stands for it. -/
def orAbsent (v : String) : String := if v = "" then absent else v

/-- `Event.value` -/
def Event.value (ev : Event) (name : String) : String :=
  if name = "dag" then orAbsent ev.dagID
  else if name = "run_id" then orAbsent ev.runID
  else if name = "logical_date" then orAbsent ev.logicalDate
  else if name = "task" then ev.failedTasks.head?.getD absent
  else if name = "tasks" then if ev.failedTasks = [] then absent else ", ".intercalate ev.failedTasks
  else ""

/-- The first of the pairs whose old text stands at the start, as `strings.NewReplacer` looks them up. -/
def pairAt (pairs : List (List Char × List Char)) (cs : List Char) : Option (List Char × Nat) :=
  (pairs.find? fun p => p.1.isPrefixOf cs).map fun p => (p.2, p.1.length - 1)

/-- `Replacer.Replace` -/
def replace (pairs : List (List Char × List Char)) (cs : List Char) : List Char :=
  (segments (pairAt pairs) 0 cs).flatMap fun | .inl c => [c] | .inr new => new

/-- Each placeholder with what it becomes. -/
def Event.pairs (ev : Event) : List (List Char × List Char) :=
  placeholders.map fun name => (braced name.toList, (ev.value name).toList)

/-- The template that is filled: the given one, or the default summary in place of a blank one. -/
def effective (tmpl : String) (ev : Event) : List Char :=
  if trimSpace tmpl = "" then
    "DAG \x7b\x7bdag\x7d\x7d run \x7b\x7brun_id\x7d\x7d failed".toList ++
      if ev.failedTasks = [] then [] else ": \x7b\x7btasks\x7d\x7d".toList
  else tmpl.toList

/-- `Render`: the message of an alert. -/
def render (tmpl : String) (ev : Event) : List Char := replace ev.pairs (effective tmpl ev)

/-- The texts in braces. -/
def bodies (cs : List Char) : List (List Char) := (segments placeholderAt 0 cs).filterMap Sum.getRight?

/-- The names in a message that `Render` does not know. -/
def unknownNames (message : String) : List String :=
  ((bodies message.toList).map fun body => String.ofList (captured body)).filter (· ∉ placeholders)

/-- The placeholders as an error lists them. -/
def supportedList : String := " ".intercalate (placeholders.map fun name => String.ofList (braced name.toList))

/-- `validateAlertTemplates`, over the messages of the rules from the `i`th on. -/
def validateAlertTemplates : Nat → List String → Except String Unit
  | _, [] => .ok ()
  | i, message :: messages =>
    if unknownNames message = [] then validateAlertTemplates (i + 1) messages
    else .error ("unknown alert placeholder in alerts.on_failure[" ++ toString i ++ "].message: " ++
      ", ".intercalate (unknownNames message) ++ "; supported: " ++ supportedList)

end Leoflow.Template
