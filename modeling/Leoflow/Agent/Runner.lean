import Leoflow.Lib.GoMap

/-!
# The runner of a task

`internal/agent/runner.go`: `logWriter`, which sends a task's output to the sink line by line; `secretsEnv`, which
delivers variables and connections under upper-cased names; and `buildEnv`, which passes the XCom inputs in the same
way, with `_merge_operator_xcom` of the Python runtime, which reads them. The case mappings of the two languages and
`json.loads` are parameters.
-/

namespace Leoflow.Agent

open Lib (GoMap)
open List

/-! ## The lines of the output -/

/-- The levels of the protocol. -/
inductive LogLevel where
  | unspecified | debug | info | warn | error

/-- `LogLine`, without the time it is sent at. -/
structure LogLine where
  level : LogLevel
  message : List UInt8
  stream : String
  lineNumber : Nat

/-- `logWriter`, with the lines its sink was sent. -/
structure LogWriter where
  level : LogLevel
  stream : String
  buf : List UInt8 := []
  line : Nat := 0
  sent : List LogLine := []

namespace LogWriter

/-- The line feed. -/
def newline : UInt8 := 10

/-- `emit`. An error of the sink is only logged. -/
def emit (w : LogWriter) (b : List UInt8) : LogWriter :=
  { w with line := w.line + 1, sent := w.sent ++ [⟨w.level, b, w.stream, w.line + 1⟩] }

/-- The loop of `Write`, as long as `IndexByte` finds a newline. -/
def emitLines (w : LogWriter) : LogWriter :=
  if newline ∈ w.buf then
    emitLines { w.emit (w.buf.take (w.buf.idxOf newline)) with buf := w.buf.drop (w.buf.idxOf newline + 1) }
  else w
termination_by w.buf.length
decreasing_by
  have hlt := idxOf_lt_length_of_mem (a := newline) ‹_›
  simp only [length_drop]
  omega

/-- `Write`: the bytes join the buffer, and whole lines are sent. -/
def write (w : LogWriter) (p : List UInt8) : LogWriter := emitLines { w with buf := w.buf ++ p }

/-- `Flush`: what is left is sent as a line. -/
def flush (w : LogWriter) : LogWriter :=
  if w.buf.length > 0 then { w.emit w.buf with buf := [] } else w

end LogWriter

/-! ## Delivered secrets -/

/-- The answer of a vault RPC. -/
inductive VaultAnswer where
  | values (m : GoMap String)
  | denied
  | failed

namespace VaultAnswer

/-- The values of an answer, none where it failed. -/
def get : VaultAnswer → GoMap String
  | values m => m
  | _ => ∅

/-- The control plane refused. -/
def isDenied : VaultAnswer → Bool
  | denied => true
  | _ => false

end VaultAnswer

/-- A map with the values of another over its own. -/
def override (m resolved : GoMap String) : GoMap String := resolved.entries.foldl (fun m e => m.insert e.1 e.2) m

/-- The variables and connections that are delivered. A resolver, if there is one, fails or returns values of both
kinds; it is not asked after a denial. -/
def delivered (vars conns : VaultAnswer) (resolver : Option (Option (GoMap String × GoMap String))) :
    Option (GoMap String × GoMap String) :=
  match resolver with
  | none => some (vars.get, conns.get)
  | some answer =>
    if vars.isDenied || conns.isDenied then some (vars.get, conns.get)
    else answer.map fun r => (override vars.get r.1, override conns.get r.2)

/-- The names of the variables begin so. -/
def varPrefix : List Char := "AIRFLOW_VAR_".toList

/-- The names of the connections begin so. -/
def connPrefix : List Char := "AIRFLOW_CONN_".toList

/-- The variables that the secrets are read from, of maps visited in these orders. -/
def secretVars (upper : String → String) (vars conns : List (String × String)) : List (List Char × String) :=
  vars.map (fun s => (varPrefix ++ (upper s.1).toList, s.2)) ++
    conns.map fun s => (connPrefix ++ (upper s.1).toList, s.2)

/-- `NAME=value`. -/
def assignment (x : List Char × String) : List Char := x.1 ++ '=' :: x.2.toList

/-- The secrets as the environment gets them. -/
def secretsEnv (upper : String → String) (vars conns : List (String × String)) : List (List Char) :=
  (secretVars upper vars conns).map assignment

/-- The name of an assignment ends at its first `=`. -/
def nameOf (e : List Char) : List Char := e.takeWhile (· != '=')

/-- The value of an assignment. -/
def valueOf (e : List Char) : List Char := (e.dropWhile (· != '=')).drop 1

/-- What a name is set to: the last assignment counts. -/
def getenv (env : List (List Char)) (name : List Char) : Option (List Char) :=
  (env.reverse.find? fun e => nameOf e == name).map valueOf

/-- The entries of a map. -/
def pairs (m : GoMap String) : List (String × String) := m.entries.map fun e => (e.1, e.2)

/-! ## XCom inputs -/

variable {α : Type}

/-- The names of the inputs begin so. -/
def xcomEnvPrefix : List Char := "LEOFLOW_XCOM_".toList

/-- The variable of an input. -/
def xcomEnvVar (upper : String → String) (name value : String) : String × String :=
  (String.ofList (xcomEnvPrefix ++ (upper name).toList), value)

/-- The environment of `buildEnv` for inputs with one upstream each: the base and the variables of the spec, the
inputs in the order the map is visited, and the agent's own variables. -/
def buildEnv (upper : String → String) (stored : String → String) (before after : List (String × String))
    (inputs : List (String × String)) : List (String × String) :=
  before ++ inputs.map (fun p => xcomEnvVar upper p.1 (stored p.2)) ++ after

/-- The environment of the process: `os/exec` keeps the last value of each variable. -/
def keepLast : List (String × String) → List (String × String)
  | [] => []
  | e :: env => if env.any (fun e' => e'.1 == e.1) then keepLast env else e :: keepLast env

section Merge

variable (lower : String → String) (loads : String → Option α)

/-- The keyword argument that a variable sets. -/
def kwarg (e : String × String) : Option String :=
  if xcomEnvPrefix.isPrefixOf e.1.toList then
    some (lower (String.ofList (e.1.toList.drop xcomEnvPrefix.length)))
  else none

/-- `_merge_operator_xcom`; `none` when a value does not decode. -/
def mergeOperatorXcom (environ : List (String × String)) (args : GoMap α) : Option (GoMap α) :=
  environ.foldlM (fun args e => match kwarg lower e with
    | none => some args
    | some param => (loads e.2).map (args.insert param)) args

end Merge

end Leoflow.Agent
