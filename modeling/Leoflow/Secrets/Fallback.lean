import Mathlib.Data.List.Basic

/-!
# Ciphers with fallback keys

`internal/secrets/fallback.go`: one key seals, several open. The encryption underneath is a parameter with
what authenticated encryption promises.
-/

namespace Leoflow.Secrets

/-- Authenticated encryption: a ciphertext opens, under the key that sealed it and under no other. -/
structure Sealing (Key : Type) where
  encrypt : (key : Key) → (nonce : Nat) → (plain : String) → String
  decrypt : (key : Key) → (text : String) → Option String
  decrypt_encrypt : ∀ key nonce plain, decrypt key (encrypt key nonce plain) = some plain
  decrypt_empty : ∀ key, decrypt key "" = none
  opens_once : ∀ {key key' text plain plain'}, decrypt key text = some plain →
    decrypt key' text = some plain' → key = key'

/-- A cipher that seals with its primary key and opens with any. -/
structure FallbackCipher (Key : Type) where
  sealing : Sealing Key
  primary : Key
  fallbacks : List Key

namespace FallbackCipher

variable {Key : Type} (c : FallbackCipher Key)

/-- `Encrypt`, under the primary key only. It fails where the random source gives no nonce. -/
def encrypt (nonce : Option Nat) (plain : String) : Option String :=
  nonce.map fun n => c.sealing.encrypt c.primary n plain

/-- The plaintext, and whether a fallback opened it. -/
def decryptStale (text : String) : Option (String × Bool) :=
  match c.sealing.decrypt c.primary text with
  | some plain => some (plain, false)
  | none => (c.fallbacks.findSome? fun key => c.sealing.decrypt key text).map fun plain => (plain, true)

/-- A column without a secret. -/
def Blank (col : Option String) : Prop := col.getD "" = ""

/-- A column that is blank or opens under the primary key alone. -/
def Fresh (col : Option String) : Prop :=
  Blank col ∨ (c.sealing.decrypt c.primary (col.getD "")).isSome

/-- A column that only a fallback opens. -/
def Stale (col : Option String) : Prop := ∃ plain, c.decryptStale (col.getD "") = some (plain, true)

/-- The value a column holds, under whatever key. -/
def Reads (col : Option String) (value : String) : Prop :=
  Blank col ∧ value = "" ∨ ∃ key, c.sealing.decrypt key (col.getD "") = some value

instance (col : Option String) : Decidable (Blank col) := inferInstanceAs (Decidable (_ = _))

instance (col : Option String) : Decidable (c.Fresh col) := inferInstanceAs (Decidable (_ ∨ _))

variable {c} {col : Option String} {text plain value : String}

theorem encrypt_opens {nonce : Option Nat} (h : c.encrypt nonce plain = some text) :
    c.sealing.decrypt c.primary text = some plain := by
  obtain ⟨n, -, rfl⟩ := Option.map_eq_some_iff.mp h
  exact c.sealing.decrypt_encrypt _ _ _

theorem decryptStale_fresh (h : c.decryptStale text = some (plain, false)) :
    c.sealing.decrypt c.primary text = some plain := by
  unfold decryptStale at h
  cases hopen : c.sealing.decrypt c.primary text with
  | some p =>
    rw [hopen] at h
    rw [(Prod.mk.inj (Option.some.inj h)).1]
  | none =>
    rw [hopen] at h
    obtain ⟨_, -, heq⟩ := Option.map_eq_some_iff.mp h
    cases (Prod.mk.inj heq).2

theorem decryptStale_stale (h : c.decryptStale text = some (plain, true)) : c.sealing.decrypt c.primary text = none ∧
      ∃ key ∈ c.fallbacks, c.sealing.decrypt key text = some plain := by
  unfold decryptStale at h
  cases hopen : c.sealing.decrypt c.primary text with
  | some p =>
    rw [hopen] at h
    cases (Prod.mk.inj (Option.some.inj h)).2
  | none =>
    rw [hopen] at h
    obtain ⟨p, hfind, heq⟩ := Option.map_eq_some_iff.mp h
    obtain ⟨rfl, -⟩ := Prod.mk.inj heq
    obtain ⟨key, hkey, hp⟩ := List.exists_of_findSome?_eq_some hfind
    exact ⟨rfl, key, hkey, hp⟩

theorem Fresh.not_stale (h : c.Fresh col) : ¬c.Stale col := by
  rintro ⟨plain, hstale⟩
  obtain ⟨hnone, key, -, hopen⟩ := decryptStale_stale hstale
  rcases h with hblank | hsome
  · rw [hblank, c.sealing.decrypt_empty] at hopen
    cases hopen
  · rw [hnone] at hsome
    cases hsome

theorem fresh_of_decrypt (h : c.sealing.decrypt c.primary text = some plain) : c.Fresh (some text) :=
  .inr (by rw [Option.getD_some, h]; rfl)

theorem Reads.eq_of_decrypt (h : c.Reads col value) {key : Key}
    (hopen : c.sealing.decrypt key (col.getD "") = some plain) : value = plain := by
  rcases h with ⟨hblank, -⟩ | ⟨key', hopen'⟩
  · rw [hblank, c.sealing.decrypt_empty] at hopen
    cases hopen
  · obtain rfl := c.sealing.opens_once hopen' hopen
    exact Option.some.inj (hopen'.symm.trans hopen)

end FallbackCipher

end Leoflow.Secrets
