import Leoflow.Storage.Reencrypt

/-!
# Rotation beside writers

A rotation rewrites a column only from the text it listed, so no value is lost. It is complete for a row as
long as no writer changes one column of it and leaves the other under an old key: the guard covers both
columns, and a row that changed is left to its writer.
-/

namespace Leoflow.Rotation

open Secrets (FallbackCipher)
open Secrets.FallbackCipher (Blank encrypt_opens fresh_of_decrypt decryptStale_fresh decryptStale_stale)
open List

variable {Key : Type} {c : FallbackCipher Key}

variable {nonce : Option Nat} {enc : Column → Option String} {col : Option String} {p : Patch}
    {id : String} {rows : List Row} {s s' : State}

/-! ## Columns -/

/-- What a patch seals: the columns it has a secret for, and no others. -/
def Sealed (c : FallbackCipher Key) (p : Patch) (enc : Column → Option String) : Prop :=
  ∀ col, p.secret col = none ∧ enc col = none ∨
    ∃ value text, p.secret col = some value ∧ enc col = some text ∧ c.Reads (some text) value ∧ c.Fresh (some text)

theorem encPatch_sealed {secret enc : Option String} (h : encPatch c nonce secret = some enc) :
    secret = none ∧ enc = none ∨ ∃ value text, secret = some value ∧ enc = some text ∧
      c.Reads (some text) value ∧ c.Fresh (some text) := by
  cases secret with
  | none => exact .inl ⟨rfl, (Option.some.inj h).symm⟩
  | some value =>
    refine .inr ⟨value, ?_⟩
    simp only [encPatch] at h
    split at h
    next hempty =>
      exact ⟨"", rfl, (Option.some.inj h).symm, .inl ⟨rfl, hempty⟩, .inl rfl⟩
    · obtain ⟨text, hseal, rfl⟩ := Option.map_eq_some_iff.mp h
      have hopen := encrypt_opens hseal
      exact ⟨text, rfl, rfl, .inr ⟨c.primary, hopen⟩, fresh_of_decrypt hopen⟩

section

variable {col' : Option String} {rewritten : Bool} (h : reencryptOne c nonce col = some (col', rewritten))
include h

/-- A rewritten column was fresh and stayed, or was stale and opens to the same text under the primary key. -/
theorem reencryptOne_some : (col' = col ∧ c.Fresh col ∧ rewritten = false) ∨
      ∃ plain, c.decryptStale (col.getD "") = some (plain, true) ∧ rewritten ∧
        c.sealing.decrypt c.primary (col'.getD "") = some plain := by
  unfold reencryptOne at h
  split at h
  next hblank =>
    obtain ⟨rfl, rfl⟩ := Prod.mk.inj (Option.some.inj h)
    exact .inl ⟨rfl, .inl hblank, rfl⟩
  · cases hstale : c.decryptStale (col.getD "") with
    | none => rw [hstale] at h; cases h
    | some found =>
      obtain ⟨plain, stale⟩ := found
      rw [hstale] at h
      cases stale with
      | false =>
        obtain ⟨rfl, rfl⟩ := Prod.mk.inj (Option.some.inj h)
        have hopen := decryptStale_fresh hstale
        exact .inl ⟨rfl, .inr (by rw [hopen]; rfl), rfl⟩
      | true =>
        obtain ⟨text, hseal, heq⟩ := Option.map_eq_some_iff.mp h
        obtain ⟨rfl, rfl⟩ := Prod.mk.inj heq
        exact .inr ⟨plain, rfl, rfl, encrypt_opens hseal⟩

theorem fresh_of_reencryptOne : c.Fresh col' := by
  rcases reencryptOne_some h with ⟨rfl, hfresh, -⟩ | ⟨plain, -, -, hopen⟩
  · exact hfresh
  · exact .inr (by rw [hopen]; rfl)

end

/-- A column that is not rewritten, and not stale, is fresh where it could be handled. -/
theorem fresh_of_not_stale (h : (reencryptOne c nonce col).isSome) (hstale : ¬c.Stale col) : c.Fresh col := by
  obtain ⟨⟨col', rewritten⟩, hsome⟩ := Option.isSome_iff_exists.mp h
  rcases reencryptOne_some hsome with ⟨-, hfresh, -⟩ | ⟨plain, hopen, -⟩
  · exact hfresh
  · exact absurd ⟨plain, hopen⟩ hstale

/-! ## Values -/

/-- The column a user last stored, or the same plaintext moved from a fallback to the primary key. -/
def Kept (c : FallbackCipher Key) (original col : Option String) : Prop :=
  col = original ∨ ∃ plain, (∃ key ∈ c.fallbacks, c.sealing.decrypt key (original.getD "") = some plain) ∧
      c.sealing.decrypt c.primary (col.getD "") = some plain

theorem Kept.reencrypt {original : Option String} (h : Kept c original col) (nonce : Option Nat) :
    Kept c original ((reencryptOne c nonce col).getD (col, false)).1 := by
  cases hone : reencryptOne c nonce col with
  | none => exact h
  | some found =>
    obtain ⟨col', rewritten⟩ := found
    rcases reencryptOne_some hone with ⟨rfl, -, -⟩ | ⟨plain, hstale, -, hopen⟩
    · exact h
    · obtain ⟨hnone, key, hkey, hold⟩ := decryptStale_stale hstale
      rcases h with rfl | ⟨plain', -, hprimary⟩
      · exact .inr ⟨plain, ⟨key, hkey, hold⟩, hopen⟩
      · -- a column moved before is not stale
        rw [hnone] at hprimary
        cases hprimary

/-- A row holds what users wrote. -/
structure Row.Sound (c : FallbackCipher Key) (r : Row) : Prop where
  kept : ∀ col, Kept c (r.original col) (r.cols col)
  written : ∀ col value, r.written col = some value → c.Reads (r.original col) value

theorem Row.Sound.reads {r : Row} (h : r.Sound c) {col : Column} {value : String}
    (hw : r.written col = some value) : c.Reads (r.cols col) value := by
  have hread := h.written col value hw
  rcases h.kept col with heq | ⟨plain, ⟨key, -, hold⟩, hopen⟩
  · rw [heq]
    exact hread
  · rw [hread.eq_of_decrypt hold]
    exact .inr ⟨c.primary, hopen⟩

theorem Row.Sound.patched {r : Row} (h : r.Sound c) (hseal : Sealed c p enc) : (r.patched p enc).Sound c := by
  refine ⟨fun col => ?_, fun col value hw => ?_⟩
  · rcases hseal col with ⟨-, henc⟩ | ⟨_, text, -, henc, -⟩
    · simp only [Row.patched, henc, Option.none_or]
      exact h.kept col
    · simp only [Row.patched, henc, Option.some_or]
      exact .inl rfl
  · rcases hseal col with ⟨hsecret, henc⟩ | ⟨_, text, hsecret, henc, hread, -⟩
    · simp only [Row.patched, hsecret, henc, Option.none_or] at hw ⊢
      exact h.written col value hw
    · simp only [Row.patched, hsecret, henc, Option.some_or, Option.some.injEq] at hw ⊢
      exact hw ▸ hread

theorem Patch.sound_row (hseal : Sealed c p enc) : (p.row id enc).Sound c := by
  refine ⟨fun _ => .inl rfl, fun col value hw => ?_⟩
  change p.secret col = some value at hw
  change c.Reads (enc col) value
  rcases hseal col with ⟨hsecret, -⟩ | ⟨_, text, hsecret, henc, hread, -⟩
  · rw [hsecret] at hw
    cases hw
  · rw [hsecret] at hw
    rw [henc, ← Option.some.inj hw]
    exact hread

/-! ## Statements -/

/-- A row of the table after a patch. -/
inductive Patched (c : FallbackCipher Key) (rows : List Row) (p : Patch) (id : String) (r' : Row) : Prop where
  | same (mem : r' ∈ rows)
  | patched (enc : Column → Option String) (sealed : Sealed c p enc) (r : Row) (mem : r ∈ rows) (selected : p.selects r)
      (eq : r' = r.patched p enc)
  | inserted (enc : Column → Option String) (sealed : Sealed c p enc) (eq : r' = p.row id enc)

theorem mem_setConnectionPatch {nonces : Column → Option Nat} {r' : Row}
    (h : r' ∈ setConnectionPatch c rows p id nonces) : Patched c rows p id r' := by
  unfold setConnectionPatch at h
  split at h
  next password extra hpassword hextra =>
    have hseal : ∀ enc : Column → Option String, enc .password = password → enc .extra = extra → Sealed c p enc := by
      rintro enc rfl rfl col
      cases col with
      | password => exact encPatch_sealed hpassword
      | extra => exact encPatch_sealed hextra
    unfold upsertConnection at h
    split at h
    · obtain ⟨r, hr, rfl⟩ := mem_map.mp h
      split
      next hselects =>
        exact .patched _ (hseal _ rfl rfl) r hr hselects rfl
      · exact .same hr
    · rcases mem_append.mp h with hr | hnew
      · exact .same hr
      · exact .inserted _ (hseal _ rfl rfl) (mem_singleton.mp hnew)
  · exact .same h

theorem ids_setConnectionPatch (rows : List Row) (p : Patch) (id : String) (nonces : Column → Option Nat) :
    (setConnectionPatch c rows p id nonces).map Row.id = rows.map Row.id ∨
      (setConnectionPatch c rows p id nonces).map Row.id = rows.map Row.id ++ [id] := by
  unfold setConnectionPatch upsertConnection
  split
  · split
    · refine .inl ?_
      rw [map_map]
      apply map_congr_left
      intro r _
      simp only [Function.comp_apply]
      split <;> rfl
    · exact .inr (by rw [map_append]; rfl)
  · exact .inl rfl

theorem Listed.guards_iff {l : Listed} {r : Row} : l.guards r ↔ r.id = l.id ∧ r.cols = l.cols := by
  unfold Listed.guards
  simp only [Bool.and_eq_true, beq_iff_eq]
  constructor
  · rintro ⟨⟨hid, hpassword⟩, hextra⟩
    refine ⟨hid, funext fun col => ?_⟩
    cases col with
    | password => exact hpassword
    | extra => exact hextra
  · rintro ⟨hid, hcols⟩
    exact ⟨⟨hid, congrFun hcols _⟩, congrFun hcols _⟩

/-- The columns of a listed row after its round. -/
def Listed.after (c : FallbackCipher Key) (l : Listed) (nonces : Column → Option Nat) (col : Column) :
    Option String :=
  (resealed c l nonces col).1

/-- What a rewrite of a listed row makes of a row. -/
def Listed.applied (c : FallbackCipher Key) (l : Listed) (nonces : Column → Option Nat) (r : Row) : Row :=
  if l.guards r then { r with cols := l.after c nonces } else r

@[simp] theorem Listed.applied_id (l : Listed) (nonces : Column → Option Nat) (r : Row) :
    (l.applied c nonces r).id = r.id := by
  unfold Listed.applied
  split <;> rfl

theorem Row.Sound.applied {r : Row} (h : r.Sound c) (l : Listed) (nonces : Column → Option Nat) :
    (l.applied c nonces r).Sound c := by
  unfold Listed.applied
  split
  next hguards =>
    refine ⟨fun col => ?_, h.written⟩
    have hkept := (h.kept col).reencrypt (nonces col)
    rw [(Listed.guards_iff.mp hguards).2] at hkept
    exact hkept
  · exact h

/-! ## Rounds -/

/-- Nothing to rewrite in a listed row. -/
def Listed.untouched (c : FallbackCipher Key) (l : Listed) (nonces : Column → Option Nat) : Prop :=
  ∀ col, (resealed c l nonces col).2 = false

/-- What a step does: a patch of a user, or a statement of the rotation. A round of its loop ends with an error of the
database, or the next round is over the table with the statement applied, if a column was rewritten. -/
inductive Step (c : FallbackCipher Key) : State → Action → State → Prop where
  | patch {s : State} {p : Patch} {id : String} {nonces : Column → Option Nat} (fresh : id ∉ s.rows.map Row.id) :
      Step c s (.patch p id nonces) { s with rows := setConnectionPatch c s.rows p id nonces }
  | start {rows : List Row} :
      Step c ⟨rows, .idle⟩ .start ⟨rows, .sweeping (rows.map Row.id) ⟨listEncrypted rows, 0, 0, []⟩⟩
  | failed {rows : List Row} {started : List String} {sweep : Sweep} {nonces : Column → Option Nat} :
      Step c ⟨rows, .sweeping started sweep⟩ (.rewrite nonces true) ⟨rows, .returned started sweep.migrated false⟩
  | skipped {rows : List Row} {started : List String} {sweep next : Sweep} {l : Listed} {nonces : Column → Option Nat}
      {dbFails : Bool} (left : sweep.left = l :: next.left)
      (reported : next.unreadable = sweep.unreadable ++ unreadable c l nonces) (untouched : l.untouched c nonces) :
      Step c ⟨rows, .sweeping started sweep⟩ (.rewrite nonces dbFails) ⟨rows, .sweeping started next⟩
  | applied {rows : List Row} {started : List String} {sweep next : Sweep} {l : Listed} {nonces : Column → Option Nat}
      (left : sweep.left = l :: next.left) (reported : next.unreadable = sweep.unreadable ++ unreadable c l nonces) :
      Step c ⟨rows, .sweeping started sweep⟩ (.rewrite nonces false)
        ⟨rows.map (l.applied c nonces), .sweeping started next⟩
  | finish {rows : List Row} {started : List String} {sweep : Sweep} (left : sweep.left = []) :
      Step c ⟨rows, .sweeping started sweep⟩ .finish
        ⟨rows, .returned started sweep.migrated sweep.unreadable.isEmpty⟩

theorem step_rewrite {started : List String} {sweep : Sweep} {l : Listed} {rest : List Listed}
    (hleft : sweep.left = l :: rest) (nonces : Column → Option Nat) (dbFails : Bool) :
    Step c ⟨rows, .sweeping started sweep⟩ (.rewrite nonces dbFails)
      (rewrite c rows started sweep l rest nonces dbFails) := by
  unfold rewrite
  simp only
  split
  · cases dbFails with
    | true => exact .failed
    | false =>
      simp only [Bool.false_eq_true, if_false]
      split
      next hupdate =>
        cases congrArg Prod.fst hupdate
        exact .applied hleft rfl
      next hupdate =>
        cases congrArg Prod.fst hupdate
        exact .applied hleft rfl
  next hnone =>
    simp only [Bool.or_eq_true, not_or, Bool.not_eq_true] at hnone
    refine .skipped hleft rfl fun col => ?_
    cases col with
    | password => exact hnone.1
    | extra => exact hnone.2

/-- Every action of the rotation makes one of its steps. -/
theorem step_cases {a : Action} (h : step c s a = some s') : Step c s a s' := by
  obtain ⟨rows, progress⟩ := s
  cases a with
  | patch p id nonces =>
    simp only [step] at h
    split at h
    · cases h
    next hfresh =>
      obtain rfl := Option.some.inj h
      refine .patch fun hmem => hfresh ?_
      obtain ⟨r, hr, hid⟩ := mem_map.mp hmem
      exact any_eq_true.mpr ⟨r, hr, beq_iff_eq.mpr hid⟩
  | start =>
    cases progress with
    | idle => exact Option.some.inj h ▸ .start
    | _ => cases h
  | rewrite nonces dbFails =>
    cases progress with
    | sweeping started sweep =>
      simp only [step] at h
      split at h
      next hleft => exact Option.some.inj h ▸ step_rewrite hleft nonces dbFails
      · cases h
    | _ => cases h
  | finish =>
    cases progress with
    | sweeping started sweep =>
      simp only [step] at h
      split at h
      next hleft => exact Option.some.inj h ▸ .finish hleft
      · cases h
    | _ => cases h

/-! ## Nothing is lost -/

/-- Rows have distinct ids and hold what users wrote. -/
structure Intact (c : FallbackCipher Key) (rows : List Row) : Prop where
  ids : (rows.map Row.id).Nodup
  sound : ∀ r ∈ rows, r.Sound c

theorem Intact.patch (h : Intact c rows) (hfresh : id ∉ rows.map Row.id) (p : Patch)
    (nonces : Column → Option Nat) : Intact c (setConnectionPatch c rows p id nonces) := by
  constructor
  · rcases ids_setConnectionPatch (c := c) rows p id nonces with hids | hids
    · rw [hids]
      exact h.ids
    · rw [hids]
      exact nodup_append.mpr ⟨h.ids, nodup_singleton id, fun a ha b hb hab =>
        hfresh (mem_singleton.mp hb ▸ hab ▸ ha)⟩
  · intro r' hr'
    cases mem_setConnectionPatch hr' with
    | same mem => exact h.sound r' mem
    | patched _ sealed r mem _ eq => exact eq ▸ (h.sound r mem).patched sealed
    | inserted _ sealed eq => exact eq ▸ Patch.sound_row sealed

theorem Intact.applied (h : Intact c rows) (l : Listed) (nonces : Column → Option Nat) :
    Intact c (rows.map (l.applied c nonces)) := by
  constructor
  · rw [map_map, show Row.id ∘ l.applied c nonces = Row.id from funext (l.applied_id nonces)]
    exact h.ids
  · intro r' hr'
    obtain ⟨r, hr, rfl⟩ := mem_map.mp hr'
    exact (h.sound r hr).applied l nonces

theorem Intact.step {s s' : State} {a : Action} (h : Intact c s.rows) (hs : step c s a = some s') :
    Intact c s'.rows := by
  cases step_cases hs with
  | patch fresh => exact h.patch fresh _ _
  | applied => exact h.applied _ _
  | start | failed | skipped | finish => exact h

theorem Initial.intact (h : Initial c s) : Intact c s.rows := by
  refine ⟨h.ids, fun r hr => ⟨fun col => ?_, fun col value hw => ?_⟩⟩
  · rw [h.original r hr]
    exact .inl rfl
  · rw [h.original r hr]
    exact h.written r hr col value hw

theorem intact_of_reachable (h : (system c).Reachable s) : Intact c s.rows :=
  h.invariant (I := fun s => Intact c s.rows) (fun _ hi => Initial.intact hi)
    fun _ _ _ _ hintact _ hs => hintact.step hs

/-! ## Everything is moved -/

/-- A listed row that waits for its round. What differs from the list was sealed anew, and where anything
differs no column is stale. -/
structure Awaits (c : FallbackCipher Key) (l : Listed) (r : Row) : Prop where
  columns : ∀ col, r.cols col = l.cols col ∨ c.Fresh (r.cols col)
  whole : r.cols = l.cols ∨ ∀ col, ¬c.Stale (r.cols col)

/-- A row that waits for its round, or is done: fresh, unless something was reported. -/
def Tracked (c : FallbackCipher Key) (sweep : Sweep) (r : Row) : Prop :=
  (∃ l ∈ sweep.left, l.id = r.id ∧ Awaits c l r) ∨
    (∀ l ∈ sweep.left, l.id ≠ r.id) ∧ (sweep.unreadable ≠ [] ∨ ∀ col, c.Fresh (r.cols col))

/-- The rows that were there when the rotation began. -/
def Progress.started : Progress → List String
  | .idle => []
  | .sweeping started _ => started
  | .returned started _ _ => started

/-- The rows it has still to come to. -/
def Progress.awaiting : Progress → List String
  | .sweeping _ sweep => sweep.left.map Listed.id
  | _ => []

/-- What the rotation so far means for a row that was present when it started. -/
def Progress.Covers (c : FallbackCipher Key) (r : Row) : Progress → Prop
  | .idle => True
  | .sweeping _ sweep => Tracked c sweep r
  | .returned _ _ ok => ok → ∀ col, c.Fresh (r.cols col)

/-- A patch beside the rotation that writes no secret, or leaves no stale column in a row whose round is still
to come. -/
def Whole (c : FallbackCipher Key) (s : State) : Action → Prop
  | .patch p _ _ => ∀ r ∈ s.rows, p.selects r → r.id ∈ s.progress.awaiting →
      (∀ col, p.secret col = none) ∨ ∀ col, p.secret col = none → ¬c.Stale (r.cols col)
  | _ => True

theorem Row.cols_patched {r : Row} (hseal : Sealed c p enc) (col : Column) :
    p.secret col = none ∧ (r.patched p enc).cols col = r.cols col ∨ c.Fresh ((r.patched p enc).cols col) := by
  rcases hseal col with ⟨hsecret, henc⟩ | ⟨_, text, -, henc, -, hfresh⟩
  · refine .inl ⟨hsecret, ?_⟩
    simp [Row.patched, henc]
  · refine .inr ?_
    simp only [Row.patched, henc, Option.some_or]
    exact hfresh

theorem Row.fresh_patched {r : Row} (hseal : Sealed c p enc) (h : ∀ col, c.Fresh (r.cols col))
    (col : Column) : c.Fresh ((r.patched p enc).cols col) := by
  rcases Row.cols_patched (r := r) hseal col with ⟨-, heq⟩ | hfresh
  · rw [heq]
    exact h col
  · exact hfresh

theorem Awaits.patched {l : Listed} {r : Row} (h : Awaits c l r) (hseal : Sealed c p enc)
    (hwhole : (∀ col, p.secret col = none) ∨ ∀ col, p.secret col = none → ¬c.Stale (r.cols col)) :
    Awaits c l (r.patched p enc) := by
  constructor
  · intro col
    rcases Row.cols_patched (r := r) hseal col with ⟨-, heq⟩ | hfresh
    · rw [heq]
      exact h.columns col
    · exact .inr hfresh
  · rcases hwhole with hnone | hstale
    · have heq : (r.patched p enc).cols = r.cols := by
        funext col
        rcases hseal col with ⟨-, henc⟩ | ⟨_, _, hsecret, -⟩
        · simp [Row.patched, henc]
        · rw [hnone col] at hsecret
          cases hsecret
      rw [heq]
      exact h.whole
    · refine .inr fun col => ?_
      rcases Row.cols_patched (r := r) hseal col with ⟨hsecret, heq⟩ | hfresh
      · rw [heq]
        exact hstale col hsecret
      · exact hfresh.not_stale

theorem Progress.Covers.patched {r : Row} {progress : Progress} (h : progress.Covers c r)
    (hseal : Sealed c p enc) (hwhole : r.id ∈ progress.awaiting →
      (∀ col, p.secret col = none) ∨ ∀ col, p.secret col = none → ¬c.Stale (r.cols col)) :
    progress.Covers c (r.patched p enc) := by
  cases progress with
  | idle => trivial
  | sweeping started sweep =>
    rcases h with ⟨l, hl, hid, hawaits⟩ | ⟨hnone, hdone⟩
    · refine .inl ⟨l, hl, hid, hawaits.patched hseal (hwhole ?_)⟩
      exact mem_map.mpr ⟨l, hl, hid⟩
    · exact .inr ⟨hnone, hdone.imp_right (Row.fresh_patched hseal)⟩
  | returned started migrated ok => exact fun hok => Row.fresh_patched hseal (h hok)

theorem isSome_of_unreadable {l : Listed} {nonces : Column → Option Nat} (h : unreadable c l nonces = [])
    (col : Column) : (reencryptOne c (nonces col) (l.cols col)).isSome := by
  have hfilter := map_eq_nil_iff.mp h
  have hall := filter_eq_nil_iff.mp hfilter col (by cases col <;> simp)
  simpa [Option.isSome_iff_ne_none] using hall

theorem Awaits.fresh {l : Listed} {r : Row} (h : Awaits c l r) (hid : r.id = l.id) {nonces : Column → Option Nat}
    (hread : unreadable c l nonces = []) (col : Column) :
    (l.untouched c nonces → c.Fresh (r.cols col)) ∧ c.Fresh ((l.applied c nonces r).cols col) := by
  have hsome := isSome_of_unreadable hread col
  constructor
  · intro huntouched
    rcases h.columns col with heq | hfresh
    · rw [heq]
      obtain ⟨⟨col', rewritten⟩, hone⟩ := Option.isSome_iff_exists.mp hsome
      rcases reencryptOne_some hone with ⟨-, hfresh, -⟩ | ⟨_, -, rfl, -⟩
      · exact hfresh
      · have hfalse := huntouched col
        rw [resealed, hone] at hfalse
        cases hfalse
    · exact hfresh
  · unfold Listed.applied
    split
    · obtain ⟨⟨col', rewritten⟩, hone⟩ := Option.isSome_iff_exists.mp hsome
      simp only [Listed.after, resealed, hone, Option.getD_some]
      exact fresh_of_reencryptOne hone
    next hguards =>
      -- the row changed since it was listed, and its writer left nothing stale
      have hne : r.cols ≠ l.cols := fun heq => hguards (Listed.guards_iff.mpr ⟨hid, heq⟩)
      have hstale := h.whole.resolve_left hne col
      rcases h.columns col with heq | hfresh
      · rw [heq] at hstale ⊢
        exact fresh_of_not_stale hsome hstale
      · exact hfresh

theorem Listed.applied_of_ne {l : Listed} {r : Row} (h : r.id ≠ l.id) (nonces : Column → Option Nat) :
    l.applied c nonces r = r := by
  unfold Listed.applied
  rw [if_neg fun hguards => h (Listed.guards_iff.mp hguards).1]

section Rounds

variable {sweep next : Sweep} {l : Listed} {nonces : Column → Option Nat} {r : Row}

theorem Tracked.other (h : Tracked c sweep r) (hleft : sweep.left = l :: next.left)
    (hreported : next.unreadable = sweep.unreadable ++ unreadable c l nonces) (hne : r.id ≠ l.id) :
    Tracked c next r := by
  rcases h with ⟨l', hl', hid, hawaits⟩ | ⟨hnone, hdone⟩
  · rw [hleft] at hl'
    rcases mem_cons.mp hl' with rfl | hrest
    · exact absurd hid.symm hne
    · exact .inl ⟨l', hrest, hid, hawaits⟩
  · refine .inr ⟨fun l' hl' => hnone l' ?_, hdone.imp_left fun hsome => ?_⟩
    · rw [hleft]
      exact mem_cons_of_mem _ hl'
    · rw [hreported]
      exact append_ne_nil_of_left_ne_nil hsome _

section

variable (h : Tracked c sweep r) (hnodup : (sweep.left.map Listed.id).Nodup) (hleft : sweep.left = l :: next.left)
  (hreported : next.unreadable = sweep.unreadable ++ unreadable c l nonces)
include h hnodup hleft hreported

theorem Tracked.own (hid : r.id = l.id) :
    (l.untouched c nonces → Tracked c next r) ∧ Tracked c next (l.applied c nonces r) := by
  rw [hleft, map_cons, nodup_cons] at hnodup
  have hgone : ∀ l' ∈ next.left, l'.id ≠ r.id := by
    intro l' hl' heq
    exact hnodup.1 (mem_map.mpr ⟨l', hl', heq.trans hid⟩)
  have hawaits : Awaits c l r := by
    rcases h with ⟨l', hl', hid', hawaits⟩ | ⟨hnone, -⟩
    · rw [hleft] at hl'
      rcases mem_cons.mp hl' with rfl | hrest
      · exact hawaits
      · exact absurd hid' (hgone l' hrest)
    · exact absurd hid.symm (hnone l (hleft ▸ mem_cons_self))
  by_cases hread : unreadable c l nonces = []
  · exact ⟨fun huntouched => .inr ⟨hgone, .inr fun col => (hawaits.fresh hid hread col).1 huntouched⟩,
      .inr ⟨by simpa using hgone, .inr fun col => (hawaits.fresh hid hread col).2⟩⟩
  · have hsome : next.unreadable ≠ [] := by
      rw [hreported]
      exact append_ne_nil_of_right_ne_nil _ hread
    exact ⟨fun _ => .inr ⟨hgone, .inl hsome⟩, .inr ⟨by simpa using hgone, .inl hsome⟩⟩

theorem Tracked.round : (l.untouched c nonces → Tracked c next r) ∧ Tracked c next (l.applied c nonces r) := by
  by_cases hid : r.id = l.id
  · exact h.own hnodup hleft hreported hid
  · have hother := h.other hleft hreported hid
    rw [Listed.applied_of_ne hid]
    exact ⟨fun _ => hother, hother⟩

end

end Rounds

/-! ## Runs -/

/-- The rotation follows every row that was present when it started. -/
structure Followed (c : FallbackCipher Key) (s : State) : Prop where
  left : s.progress.awaiting.Nodup
  started : ∀ id ∈ s.progress.started, id ∈ s.rows.map Row.id
  covers : ∀ r ∈ s.rows, r.id ∈ s.progress.started → s.progress.Covers c r

theorem mem_listEncrypted {l : Listed} : l ∈ listEncrypted rows ↔ ∃ r ∈ rows,
      ((r.cols .password).isSome || (r.cols .extra).isSome) ∧ ⟨r.id, r.connID, r.cols⟩ = l := by
  simp [listEncrypted, and_assoc]

theorem ids_listEncrypted (h : (rows.map Row.id).Nodup) : ((listEncrypted rows).map Listed.id).Nodup := by
  unfold listEncrypted
  rw [map_map]
  refine ((perm_insertionSort _ _).map _).nodup_iff.mpr ?_
  exact h.sublist (filter_sublist.map Row.id)

theorem followed_start (hids : (rows.map Row.id).Nodup) :
    Followed c ⟨rows, .sweeping (rows.map Row.id) ⟨listEncrypted rows, 0, 0, []⟩⟩ where
  left := ids_listEncrypted hids
  started _ hid := hid
  covers r hr _ := by
    by_cases hsome : ((r.cols .password).isSome || (r.cols .extra).isSome)
    · exact .inl ⟨_, mem_listEncrypted.mpr ⟨r, hr, hsome, rfl⟩, rfl, fun _ => .inl rfl, .inl rfl⟩
    · refine .inr ⟨fun l hl hid => hsome ?_, .inr fun col => .inl ?_⟩
      · obtain ⟨r', hr', hsome', rfl⟩ := mem_listEncrypted.mp hl
        rwa [← inj_on_of_nodup_map hids hr' hr hid]
      · simp only [Bool.or_eq_true, not_or, Bool.not_eq_true, Option.isSome_eq_false_iff,
          Option.isNone_iff_eq_none] at hsome
        cases col with
        | password => rw [Blank, hsome.1]; rfl
        | extra => rw [Blank, hsome.2]; rfl

theorem Followed.patch (h : Followed c s) {nonces : Column → Option Nat} (hfresh : id ∉ s.rows.map Row.id)
    (hwhole : Whole c s (.patch p id nonces)) :
    Followed c { s with rows := setConnectionPatch c s.rows p id nonces } where
  left := h.left
  started id' hid' := by
    have hold := h.started id' hid'
    rcases ids_setConnectionPatch (c := c) s.rows p id nonces with hids | hids
    · rw [hids]
      exact hold
    · rw [hids]
      exact mem_append_left _ hold
  covers r' hr' hid' := by
    cases mem_setConnectionPatch hr' with
    | same mem => exact h.covers r' mem hid'
    | patched _ sealed r mem selected eq =>
      subst eq
      exact (h.covers r mem hid').patched sealed (hwhole r mem selected)
    | inserted _ _ eq =>
      -- a new row was not present at the start
      subst eq
      exact absurd (h.started id hid') hfresh

section

variable {started : List String} {sweep next : Sweep} {l : Listed} {nonces : Column → Option Nat}
  (h : Followed c ⟨rows, .sweeping started sweep⟩)
include h

theorem Followed.round {rows' : List Row} (hleft : sweep.left = l :: next.left)
    (hids : rows'.map Row.id = rows.map Row.id)
    (hcovers : ∀ r' ∈ rows', ∃ r ∈ rows, r.id = r'.id ∧ (Tracked c sweep r → Tracked c next r')) :
    Followed c ⟨rows', .sweeping started next⟩ where
  left := by
    have hnodup : (sweep.left.map Listed.id).Nodup := h.left
    rw [hleft, map_cons, nodup_cons] at hnodup
    exact hnodup.2
  started id hid := hids ▸ h.started id hid
  covers r' hr' hid := by
    obtain ⟨r, hr, heq, hnext⟩ := hcovers r' hr'
    exact hnext (h.covers r hr (heq ▸ hid))

theorem Followed.finish (hleft : sweep.left = []) (migrated : Nat) :
    Followed c ⟨rows, .returned started migrated sweep.unreadable.isEmpty⟩ where
  left := nodup_nil
  started := h.started
  covers r hr hid hok := by
    rcases h.covers r hr hid with ⟨l, hl, -⟩ | ⟨-, hdone⟩
    · rw [hleft] at hl
      exact absurd hl not_mem_nil
    · exact hdone.resolve_left fun hne => hne (List.isEmpty_iff.mp hok)

end

theorem Followed.step {s s' : State} {a : Action} (h : Followed c s) (hids : (s.rows.map Row.id).Nodup)
    (hwhole : Whole c s a) (hs : step c s a = some s') : Followed c s' := by
  cases step_cases hs with
  | patch fresh => exact h.patch fresh hwhole
  | start => exact followed_start hids
  | failed => exact ⟨nodup_nil, h.started, fun _ _ _ h => by cases h⟩
  | skipped left reported untouched =>
    refine h.round left rfl fun r hr => ⟨r, hr, rfl, fun ht => ?_⟩
    exact (ht.round h.left left reported).1 untouched
  | @applied rows started sweep next l nonces left reported =>
    refine h.round left ?_ fun r' hr' => ?_
    · rw [map_map, show Row.id ∘ l.applied c nonces = Row.id from funext (l.applied_id nonces)]
    · obtain ⟨r, hr, rfl⟩ := mem_map.mp hr'
      exact ⟨r, hr, (l.applied_id nonces r).symm, fun ht => (ht.round h.left left reported).2⟩
  | finish left => exact h.finish left _

theorem followed_of_reaches (h : (system c).Reaches (Whole c) s) : Followed c s := by
  refine h.invariant (I := Followed c) (fun s hi => ?_) fun s a s' hreach hfollowed hwhole hs => ?_
  · obtain ⟨rows, progress⟩ := s
    obtain rfl : progress = .idle := Initial.idle hi
    exact ⟨nodup_nil, fun _ hid => absurd hid not_mem_nil, fun _ _ _ => trivial⟩
  · exact hfollowed.step (intact_of_reachable hreach.reachable).ids hwhole hs

/-- **Rotation.** In every interleaving a column holds the value users last wrote, and one that no key opens
keeps its text. Where no patch changes a row ahead of the rotation and leaves it a stale column, a rotation
that returns no error has moved every secret of the rows it started with to the primary key. -/
theorem rotation_keeps_and_completes : (∀ s, (system c).Reachable s → ∀ r ∈ s.rows, ∀ col,
      (∀ value, r.written col = some value → c.Reads (r.cols col) value) ∧
      ((∀ key ∈ c.primary :: c.fallbacks, c.sealing.decrypt key ((r.original col).getD "") = none) →
        r.cols col = r.original col)) ∧
    ∀ s, (system c).Reaches (Whole c) s → ∀ started migrated, s.progress = .returned started migrated true →
      ∀ r ∈ s.rows, r.id ∈ started → ∀ col, ¬Blank (r.cols col) →
        (c.sealing.decrypt c.primary ((r.cols col).getD "")).isSome := by
  constructor
  · intro s hs r hr col
    have hsound := (intact_of_reachable hs).sound r hr
    refine ⟨fun value hw => hsound.reads hw, fun hclosed => ?_⟩
    rcases hsound.kept col with heq | ⟨plain, ⟨key, hkey, hopen⟩, -⟩
    · exact heq
    · rw [hclosed key (mem_cons_of_mem _ hkey)] at hopen
      cases hopen
  · intro s hs started migrated hreturned r hr hid col hfull
    have hcovers := (followed_of_reaches hs).covers r hr
    rw [hreturned] at hcovers
    exact (hcovers hid rfl col).resolve_left hfull

/-- A sealing that writes its key before the text. -/
def keyedSealing : Secrets.Sealing Char where
  encrypt key _ plain := String.ofList (key :: plain.toList)
  decrypt key text :=
    match text.toList with
    | [] => none
    | k :: rest => if k = key then some (String.ofList rest) else none
  decrypt_encrypt key _ plain := by simp
  decrypt_empty key := by simp
  opens_once {key key' text plain plain'} h h' := by
    cases htext : text.toList with
    | nil => simp [htext] at h
    | cons k rest =>
      simp only [htext, Option.ite_none_right_eq_some] at h h'
      exact h.1.symm.trans h'.1

/-- A rotation from the key `o` to the key `n`. -/
def oldToNew : FallbackCipher Char := ⟨keyedSealing, 'n', ['o']⟩

/-- A connection whose password and extra are under the old key. -/
def oldRow : Row where
  id := "1"
  tenantID := "tenant"
  connID := "warehouse"
  cols _ := some "osecret"
  written _ := some "secret"
  original _ := some "osecret"

/-- A table with one row under the old key. -/
def before : State := ⟨[oldRow], .idle⟩

theorem initial_before : Initial oldToNew before := by
  refine ⟨rfl, nodup_singleton _, fun r hr => ?_, fun r hr col value hw => ?_⟩
  · obtain rfl := mem_singleton.mp hr
    rfl
  · obtain rfl := mem_singleton.mp hr
    obtain rfl := Option.some.inj hw
    refine .inr ⟨'o', ?_⟩
    cases col <;> decide +kernel

/-- A user sets a new password and leaves the extra. -/
def newPassword : Patch where
  tenantID := "tenant"
  connID := "warehouse"
  secret
    | .password => some "fresh"
    | .extra => none

/-- One nonce for both columns. -/
def nonceOne : Column → Option Nat := fun _ => some 1

/-- The rotation has returned, and a connection is patched. -/
def rotatedFirst : State :=
  ((system oldToNew).runIf (fun s a => s.progress.awaiting.isEmpty || !a matches .patch ..) before
    [.start, .rewrite nonceOne false, .finish, .patch newPassword "2" nonceOne]).get (by decide +kernel)

theorem reaches_rotatedFirst : (system oldToNew).Reaches (Whole oldToNew) rotatedFirst := by
  refine Lib.System.Reaches.runIf (.init initial_before) (fun s a hcheck => ?_) (Option.some_get _).symm
  cases a with
  | patch p id nonces =>
    intro r _ _ hid
    simp only [Bool.or_eq_true, Bool.not_eq_true', reduceCtorEq, or_false, List.isEmpty_iff] at hcheck
    rw [hcheck] at hid
    exact absurd hid not_mem_nil
  | start => trivial
  | rewrite nonces dbFails => trivial
  | finish => trivial

theorem rotation_keeps_and_completes_rotatedFirst : ∀ r ∈ rotatedFirst.rows, r.id ∈ ["1"] → ∀ col,
    ¬Blank (r.cols col) → (keyedSealing.decrypt 'n' ((r.cols col).getD "")).isSome := by
  refine rotation_keeps_and_completes.2 rotatedFirst reaches_rotatedFirst ["1"] 1 ?_
  rfl

/-- The user comes between the listing and the rewrite. -/
def patchedBetween : State :=
  ((system oldToNew).run before
    [.start, .patch newPassword "2" nonceOne, .rewrite nonceOne false, .finish]).get (by decide +kernel)

/-- The row is left to its writer, who wrote only the password; the rotation reports success. -/
theorem stale_column_left : (system oldToNew).Reachable patchedBetween ∧
    (∃ started migrated, patchedBetween.progress = .returned started migrated true ∧ "1" ∈ started) ∧
    ∃ r ∈ patchedBetween.rows, r.id = "1" ∧ ¬Blank (r.cols .extra) ∧
      (keyedSealing.decrypt 'n' ((r.cols .extra).getD "")).isSome = false := by
  refine ⟨Lib.System.Reachable.run (.init initial_before) (Option.some_get _).symm, ⟨["1"], 0, ?_, ?_⟩, ?_⟩
  · rfl
  · exact mem_cons_self
  · exact ⟨_, mem_of_getElem? (i := 0) rfl, rfl, by decide +kernel, by decide +kernel⟩

end Leoflow.Rotation
