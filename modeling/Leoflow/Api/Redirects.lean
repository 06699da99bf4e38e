import Mathlib.Data.List.Basic

/-!
# Redirects after a login

`sanitizeNext` of `internal/api/auth_login.go` keeps a value that starts with one slash. A browser resolves it after it
has dropped tabs and line breaks, and reads a backslash as a slash where an authority can begin.
-/

namespace Leoflow.Api

/-- `sanitizeNext`: a path of this origin, or `/`. -/
def sanitizeNext (next : List Char) : List Char :=
  if next = [] ∨ ¬['/'].isPrefixOf next ∨ ['/', '/'].isPrefixOf next then ['/'] else next

/-! ## The browser -/

/-- Where a browser ends up. -/
structure Origin where
  scheme : List Char
  host : List Char
  port : List Char
deriving DecidableEq

/-- A browser drops tabs and line breaks from a URL. -/
def dropBreaks (ref : List Char) : List Char := ref.filter fun c => c != '\t' && c != '\n' && c != '\r'

/-- The scheme of a reference and what follows its colon. -/
def scheme? (ref : List Char) : Option (List Char × List Char) :=
  let name := ref.takeWhile fun c => c.isAlphanum || c == '+' || c == '-' || c == '.'
  match ref.drop name.length with
  | ':' :: rest => if name.head?.any Char.isAlpha then some (name, rest) else none
  | _ => none

/-- The authority of a reference without its scheme, if it has one. -/
def authority? : List Char → Option (List Char)
  | a :: b :: rest =>
    if (a == '/' || a == '\\') && (b == '/' || b == '\\') then
      some (rest.takeWhile fun c => c != '/' && c != '\\' && c != '?' && c != '#')
    else none
  | _ => none

/-- The origin of an authority, which can begin with a user and end with a port. -/
def originOf (scheme authority : List Char) : Origin :=
  let site := (authority.reverse.takeWhile (· != '@')).reverse
  { scheme, host := site.takeWhile (· != ':'), port := (site.dropWhile (· != ':')).drop 1 }

/-- The origin of a reference resolved against a page. -/
def resolve (page : Origin) (ref : List Char) : Origin :=
  match scheme? (dropBreaks ref) with
  | some (scheme, rest) => originOf scheme ((authority? rest).getD [])
  | none =>
    match authority? (dropBreaks ref) with
    | some authority => originOf page.scheme authority
    | none => page

end Leoflow.Api
