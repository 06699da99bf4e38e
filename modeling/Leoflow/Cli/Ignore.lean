import Leoflow.Lib.Strip

/-!
# The generated block of a .dockerignore

`mergeDockerignore` of `internal/cli/compile_build.go` appends the forms of `exclude_paths` that are no line of the
author's file yet, and `stripLeoflowBlock` cuts the file at the header. The builder lets the last matching line decide;
which paths a pattern matches is a parameter.
-/

namespace Leoflow.Cli.Ignore

/-- What `range` reads in a Go string: a rune, or a byte that is part of none. -/
inductive Rune where
  | char (c : Char)
  | raw (b : UInt8)
deriving DecidableEq

/-- The text of an ignore file. -/
abbrev Text := List Rune

/-- A text that is valid UTF-8. -/
def lit (s : String) : Text := s.toList.map .char

/-- The line feed. -/
def nl : Rune := .char '\n'

/-- White space as Unicode has it. -/
def isSpace : Rune → Bool
  | .char c => Lib.isSpace c
  | .raw _ => false

/-- `strings.TrimSpace`. -/
def trimSpace (t : Text) : Text := Lib.strip isSpace t

/-- The line before what the build adds. -/
def dockerignoreHeader : Text :=
  lit "# added by dexaflow compile --build from exclude_paths (dexaflow.yaml); removed after the build"

/-- The Dockerfile that a build generates and must not ship. -/
def generatedDockerfileName : Text := lit ".leoflow.generated.Dockerfile"

/-- `filepath.Base`, of a path that is not all slashes. -/
def base (pat : Text) : Text :=
  ((pat.reverse.dropWhile (· == .char '/')).takeWhile (· != .char '/')).reverse

/-- `strings.TrimSuffix(pat, "/")`. -/
def trimSlash (pat : Text) : Text := if pat.getLast? = some (.char '/') then pat.dropLast else pat

/-- The ignore patterns of an `exclude_paths` entry: itself, itself at any depth unless it is rooted, and what is
below it unless its last part is a glob. -/
def expandPattern (entry : Text) : List Text :=
  let pat := trimSpace entry
  if pat = [] ∨ pat.head? = some (.char '!') ∨ pat.head? = some (.char '#') then []
  else
    let rooted := pat.contains (.char '/')
    [pat] ++ (if rooted then [] else [lit "**/" ++ pat]) ++
      -- a glob in the last segment names files
      if (base pat).any (lit "*?[").contains then []
      else [trimSlash pat ++ lit "/**"] ++ if rooted then [] else [lit "**/" ++ pat ++ lit "/**"]

/-- The lines that are there. -/
def existing (original : Text) : List Text := (original.splitOn nl).map trimSpace

/-- The loop over the forms; a form that is added counts as existing. -/
def newForms : List Text → List Text → List Text
  | _, [] => []
  | ex, f :: fs => if f ∈ ex then newForms ex fs else f :: newForms (f :: ex) fs

/-- The patterns that have to be added. -/
def wanted (original : Text) (excludes : List Text) : List Text :=
  let want := newForms (existing original) (excludes.flatMap expandPattern)
  want ++ if generatedDockerfileName ∈ want ++ existing original then [] else [generatedDockerfileName]

/-- The text before the first occurrence of another (`bytes.Index`). -/
def before (h : Text) : Text → Option Text
  | [] => if h.isPrefixOf [] then some [] else none
  | c :: t => if h.isPrefixOf (c :: t) then some [] else (before h t).map (c :: ·)

/-- The author's text with its last line ended. -/
def endLine (t : Text) : Text := if t = [] ∨ t.getLast? = some nl then t else t ++ [nl]

/-- The header, unless it is there. -/
def header (original : Text) : Text :=
  if (before dockerignoreHeader original).isSome then [] else dockerignoreHeader ++ [nl]

/-- The ignore file with the patterns added, and whether anything was. -/
def mergeDockerignore (original : Text) (excludes : List Text) : Text × Bool :=
  let want := wanted original excludes
  if want = [] then (original, false)
  else (endLine original ++ (header original ++ want.flatMap (· ++ [nl])), true)

/-- The ignore file as it was before, and whether anything was added. -/
def stripLeoflowBlock (content : Text) : Text × Bool :=
  match before dockerignoreHeader content with
  | some rest => (rest, true)
  | none => (content, false)

/-! ## The builder -/

variable {P : Type} (m : Text → P → Bool)

/-- What a line makes of the verdict so far: the builder skips comments and blank lines, and a line with `!` takes a
path back in. -/
def verdict (p : P) (acc : Bool) (line : Text) : Bool :=
  let pat := trimSpace line
  if line.head? = some (.char '#') ∨ pat = [] then acc
  else if pat.head? = some (.char '!') then acc && !m (trimSpace pat.tail) p
  else acc || m pat p

/-- Whether the builder leaves a path out: the last line that matches decides. -/
def excluded (t : Text) (p : P) : Bool := (t.splitOn nl).foldl (verdict m p) false

end Leoflow.Cli.Ignore
