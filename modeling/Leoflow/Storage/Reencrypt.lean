import Mathlib.Data.List.Sort
import Leoflow.Lib.Runs
import Leoflow.Secrets.Fallback

/-!
# Key rotation

`ReencryptSecrets` of `internal/storage/reencrypt.go` beside `SetConnectionPatch` of
`internal/storage/repository.go`. The rotation lists the rows once and then rewrites them one statement at a
time; a statement names the ciphertexts that were listed and changes nothing where they have changed.
-/

namespace Leoflow.Rotation

open Secrets (FallbackCipher)

/-- The two encrypted columns of `connections`. -/
inductive Column where
  | password
  | extra
deriving DecidableEq

/-- A row of `connections`. Two ghosts say what users did: the value they last wrote to a column, where it is
known, and the column's text after that. -/
structure Row where
  id : String
  tenantID : String
  connID : String
  cols : Column → Option String
  written : Column → Option String
  original : Column → Option String

/-- The secrets of `ConnectionPatch`: absent preserves, empty clears. -/
structure Patch where
  tenantID : String
  connID : String
  secret : Column → Option String

/-- A row as `ListEncryptedConnectionSecrets` returned it. -/
structure Listed where
  id : String
  connID : String
  cols : Column → Option String

variable {Key : Type} (c : FallbackCipher Key)

/-! ## Statements -/

/-- The parameter for a column, or an error of the cipher. -/
def encPatch (nonce : Option Nat) : Option String → Option (Option String)
  | none => some none
  | some plain => if plain = "" then some (some "") else (c.encrypt nonce plain).map some

/-- The update of `UpsertConnection`: `COALESCE(EXCLUDED.col, connections.col)`. -/
def Row.patched (r : Row) (p : Patch) (enc : Column → Option String) : Row :=
  { r with
    cols := fun col => (enc col).or (r.cols col)
    written := fun col => (p.secret col).or (r.written col)
    original := fun col => (enc col).or (r.original col) }

/-- The insert of `UpsertConnection`. -/
def Patch.row (p : Patch) (id : String) (enc : Column → Option String) : Row :=
  ⟨id, p.tenantID, p.connID, enc, p.secret, enc⟩

/-- The row the patch is for. -/
def Patch.selects (p : Patch) (r : Row) : Bool := r.tenantID == p.tenantID && r.connID == p.connID

/-- `UpsertConnection`, with the id a new row gets. -/
def upsertConnection (rows : List Row) (p : Patch) (id : String) (enc : Column → Option String) : List Row :=
  if rows.any p.selects then rows.map fun r => if p.selects r then r.patched p enc else r
  else rows ++ [p.row id enc]

/-- Nothing is written where a secret cannot be sealed. -/
def setConnectionPatch (rows : List Row) (p : Patch) (id : String) (nonces : Column → Option Nat) :
    List Row :=
  match encPatch c (nonces .password) (p.secret .password), encPatch c (nonces .extra) (p.secret .extra) with
  | some password, some extra =>
    upsertConnection rows p id fun
      | .password => password
      | .extra => extra
  | _, _ => rows

/-- The rows with a sealed column, in the order of their ids. -/
def listEncrypted (rows : List Row) : List Listed :=
  ((rows.filter fun r => (r.cols .password).isSome || (r.cols .extra).isSome).insertionSort
    fun r r' => r.id ≤ r'.id).map fun r => ⟨r.id, r.connID, r.cols⟩

/-- The row still holds the texts that were listed. -/
def Listed.guards (l : Listed) (r : Row) : Bool :=
  r.id == l.id && r.cols .password == l.cols .password && r.cols .extra == l.cols .extra

/-- `UpdateConnectionCiphertext`, with the number of rows it changed. -/
def updateCiphertext (rows : List Row) (l : Listed) (cols : Column → Option String) : List Row × Nat :=
  (rows.map fun r => if l.guards r then { r with cols := cols } else r, rows.countP l.guards)

/-! ## The rotation -/

/-- The column and whether it was rewritten, or an error. -/
def reencryptOne (nonce : Option Nat) (col : Option String) : Option (Option String × Bool) :=
  if col.getD "" = "" then some (col, false)
  else
    match c.decryptStale (col.getD "") with
    | none => none
    | some (_, false) => some (col, false)
    | some (plain, true) => (c.encrypt nonce plain).map fun text => (some text, true)

/-- What a listed column becomes, and whether it changed. -/
def resealed (l : Listed) (nonces : Column → Option Nat) (col : Column) : Option String × Bool :=
  (reencryptOne c (nonces col) (l.cols col)).getD (l.cols col, false)

/-- The columns of a listed row that no key opens. -/
def unreadable (l : Listed) (nonces : Column → Option Nat) : List (String × Column) :=
  ([.password, .extra].filter fun col => (reencryptOne c (nonces col) (l.cols col)).isNone).map (l.connID, ·)

/-- The loop of `ReencryptSecrets`: rows left, and what it has counted. -/
structure Sweep where
  left : List Listed
  migrated : Nat
  skipped : Nat
  unreadable : List (String × Column)

/-- Where the rotation stands, with the ids of the rows present when it started. -/
inductive Progress where
  | idle
  | sweeping (started : List String) (sweep : Sweep)
  | returned (started : List String) (migrated : Nat) (ok : Bool)

/-- The table and how far the rotation is. -/
structure State where
  rows : List Row
  progress : Progress

/-- A patch of a connection, or a step of the rotation. -/
inductive Action where
  | patch (p : Patch) (id : String) (nonces : Column → Option Nat)
  | start
  | rewrite (nonces : Column → Option Nat) (dbFails : Bool)
  | finish

/-- One round of the loop. -/
def rewrite (rows : List Row) (started : List String) (sweep : Sweep) (l : Listed) (rest : List Listed)
    (nonces : Column → Option Nat) (dbFails : Bool) : State :=
  let sweep := { sweep with left := rest, unreadable := sweep.unreadable ++ unreadable c l nonces }
  if (resealed c l nonces .password).2 || (resealed c l nonces .extra).2 then
    if dbFails then ⟨rows, .returned started sweep.migrated false⟩
    else
      match updateCiphertext rows l fun col => (resealed c l nonces col).1 with
      | (rows', 0) => ⟨rows', .sweeping started { sweep with skipped := sweep.skipped + 1 }⟩
      | (rows', _) => ⟨rows', .sweeping started { sweep with migrated := sweep.migrated + 1 }⟩
  else ⟨rows, .sweeping started sweep⟩

/-- One statement of a user or of the rotation. The id of a new row is fresh. -/
def step (s : State) : Action → Option State
  | .patch p id nonces =>
    if s.rows.any (·.id == id) then none
    else some { s with rows := setConnectionPatch c s.rows p id nonces }
  | .start =>
    match s.progress with
    | .idle => some { s with progress := .sweeping (s.rows.map Row.id) ⟨listEncrypted s.rows, 0, 0, []⟩ }
    | _ => none
  | .rewrite nonces dbFails =>
    match s.progress with
    | .sweeping started sweep =>
      match sweep.left with
      | l :: rest => some (rewrite c s.rows started sweep l rest nonces dbFails)
      | [] => none
    | _ => none
  | .finish =>
    match s.progress with
    | .sweeping started sweep =>
      match sweep.left with
      | [] => some { s with progress := .returned started sweep.migrated sweep.unreadable.isEmpty }
      | _ :: _ => none
    | _ => none

/-- A table before the rotation: what users wrote is what its columns hold. -/
structure Initial (s : State) : Prop where
  idle : s.progress = .idle
  ids : (s.rows.map Row.id).Nodup
  original : ∀ r ∈ s.rows, r.original = r.cols
  written : ∀ r ∈ s.rows, ∀ col value, r.written col = some value → c.Reads (r.cols col) value

/-- Patches and rotations in any order. -/
def system : Lib.System State Action where
  init := Initial c
  step := step c

end Leoflow.Rotation
