import Leoflow.Lib.Json

/-!
# JSON documents

A JSON text as a decoder without a target type sees it: objects are maps, in which the last of equal keys counts.
Numbers are of a type of the user's choice. A document is written with the members of its objects in the order of
their keys.
-/

namespace Leoflow.Lib

open Json (quote)

/-- A document. The members of an object stand in the order of their keys. -/
inductive JsonValue (ν : Type) where
  | null
  | bool (b : Bool)
  | number (n : ν)
  | string (s : String)
  | array (items : List (JsonValue ν))
  | object (members : List (String × JsonValue ν))

namespace JsonValue

variable {ν : Type}

/-! ## Writing -/

section Write

variable (lit : ν → List Char)

mutual

/-- The text of a value; `lit` writes a number. -/
def write : JsonValue ν → List Char
  | .null => ['n', 'u', 'l', 'l']
  | .bool true => ['t', 'r', 'u', 'e']
  | .bool false => ['f', 'a', 'l', 's', 'e']
  | .number n => lit n
  | .string s => quote s
  | .array [] => ['[', ']']
  | .array (v :: vs) => '[' :: (write v ++ (writeItems vs ++ [']']))
  | .object [] => ['{', '}']
  | .object ((k, v) :: ms) => '{' :: (quote k ++ ':' :: (write v ++ (writeMembers ms ++ ['}'])))

/-- The items after the first. -/
def writeItems : List (JsonValue ν) → List Char
  | [] => []
  | v :: vs => ',' :: (write v ++ writeItems vs)

/-- The members after the first. -/
def writeMembers : List (String × JsonValue ν) → List Char
  | [] => []
  | (k, v) :: ms => ',' :: (quote k ++ ':' :: (write v ++ writeMembers ms))

end

end Write

/-! ## Reading -/

/-- `m[k] = v`. -/
def setMember (k : String) (v : JsonValue ν) : List (String × JsonValue ν) → List (String × JsonValue ν)
  | [] => [(k, v)]
  | (k', v') :: ms =>
    if k = k' then (k, v) :: ms
    else if k < k' then (k, v) :: (k', v') :: ms
    else (k', v') :: setMember k v ms

/-- A map filled member by member after `acc`; a repeated key keeps its last value. -/
def fillMap (acc : List (String × JsonValue ν)) (ms : List (String × JsonValue ν)) : List (String × JsonValue ν) :=
  ms.foldl (fun m e => setMember e.1 e.2 m) acc

section Read

variable (num : String → Option ν)

mutual

/-- The document of a JSON value; `num` reads a number literal or fails. -/
def read : Json → Option (JsonValue ν)
  | .null => some .null
  | .bool b => some (.bool b)
  | .number literal => (num literal).map .number
  | .string s => some (.string s)
  | .array items => (readItems items).map .array
  | .object members => (readMembers members).map fun ms => .object (fillMap [] ms)

/-- The items of an array. -/
def readItems : List Json → Option (List (JsonValue ν))
  | [] => some []
  | j :: js =>
    match read j, readItems js with
    | some v, some vs => some (v :: vs)
    | _, _ => none

/-- The members of an object, in the order of the text. -/
def readMembers : List (String × Json) → Option (List (String × JsonValue ν))
  | [] => some []
  | (k, j) :: js =>
    match read j, readMembers js with
    | some v, some vs => some ((k, v) :: vs)
    | _, _ => none

end

end Read

end JsonValue

end Leoflow.Lib
