import Mathlib
import Leoflow.Executor.Pods
import Leoflow.Lib.Strip

/-!
# Label values

`sanitizeLabel` takes an identifier to lower case, every character outside the label alphabet to a dash,
and cuts the dashes off at both ends. So what it returns is a Kubernetes label value unless it is too
long, and two identifiers of the DAG schema get the same label when they differ only in case, in dashes
for underscores, or in both at their ends.
-/

namespace Leoflow.Executor

open Lib (strip)
open List

variable {s : String} {c : Char}

/-! ## Identifiers -/

/-- A character of an identifier. -/
def isIdentChar (c : Char) : Bool := c.isAlphanum || c == '_' || c == '-'

/-- `^[a-zA-Z0-9_][a-zA-Z0-9_-]{0,199}$`, the pattern of `dag_id` and `task_id` in the DAG schema. -/
def isIdentifier (s : String) : Bool :=
  match s.toList with
  | [] => false
  | c :: cs => (c.isAlphanum || c == '_') && cs.all isIdentChar && decide (cs.length ≤ 199)

theorem isIdentChar_of_mem (h : isIdentifier s) (hc : c ∈ s.toList) : isIdentChar c := by
  unfold isIdentifier at h
  split at h
  · cases h
  next d cs hs =>
    simp only [Bool.and_eq_true, all_eq_true] at h
    rw [hs] at hc
    rcases mem_cons.mp hc with rfl | hc
    · unfold isIdentChar
      rw [h.1.1, Bool.true_or]
    · exact h.1.2 c hc

/-- The text has the shape of a UUID. -/
def isUUID (s : String) : Bool :=
  decide (s.toList.length = 36) && s.toList.zipIdx.all fun ci =>
    if ci.2 ∈ [8, 13, 18, 23] then ci.1 == '-'
    else ci.1.isDigit || decide ('a' ≤ ci.1 ∧ ci.1 ≤ 'f') || decide ('A' ≤ ci.1 ∧ ci.1 ≤ 'F')

/-! ## The grammar of label values -/

/-- A character a label value may hold. -/
def isLabelChar (c : Char) : Bool := c.isAlphanum || c == '.' || c == '_' || c == '-'

/-- A label value of Kubernetes: at most 63 characters from `[A-Za-z0-9._-]`, empty or with an
alphanumeric at both ends. -/
def isLabelValue (s : String) : Bool :=
  decide (s.toList.length ≤ 63) && s.toList.all isLabelChar && s.toList.head?.all Char.isAlphanum &&
    s.toList.getLast?.all Char.isAlphanum

theorem isLabelValue_iff : isLabelValue s ↔ s.toList.length ≤ 63 ∧
    (∀ c ∈ s.toList, isLabelChar c) ∧ (∀ c, s.toList.head? = some c → c.isAlphanum) ∧
    ∀ c, s.toList.getLast? = some c → c.isAlphanum := by
  simp [isLabelValue, Option.all_eq_true, and_assoc]

/-! ## The sanitiser -/

/-- What `sanitizeLabel` makes of one character. -/
def sanitizeRune (c : Char) : Char := labelRune (lowerRune c)

theorem toList_sanitizeLabel (s : String) :
    (sanitizeLabel s).toList = strip (· == '-') (s.toList.map sanitizeRune) := by
  rw [sanitizeLabel, String.toList_ofList]
  rfl

theorem labelRune_cases (c : Char) : (labelRune c).isAlphanum ∨ labelRune c = '-' := by
  unfold labelRune
  split
  next h =>
    rcases h with h | h | rfl
    · left
      simp [Char.isAlphanum, Char.isAlpha, Char.isLower, Char.le_def] at h ⊢
      exact .inl (.inr h)
    · left
      simp [Char.isAlphanum, Char.isDigit, Char.le_def] at h ⊢
      exact .inr h
    · exact .inr rfl
  · exact .inr rfl

/-- What the sanitiser returns is a label value unless it is too long. -/
theorem isLabelValue_sanitizeLabel (s : String) :
    isLabelValue (sanitizeLabel s) ↔ (sanitizeLabel s).toList.length ≤ 63 := by
  have hrunes : ∀ c ∈ (sanitizeLabel s).toList, c.isAlphanum ∨ c = '-' := by
    intro c hc
    rw [toList_sanitizeLabel] at hc
    obtain ⟨d, -, rfl⟩ := mem_map.mp ((Lib.strip_sublist _ _).subset hc)
    exact labelRune_cases (lowerRune d)
  rw [isLabelValue_iff]
  refine ⟨fun h => h.1, fun h => ⟨h, ?_, ?_, ?_⟩⟩
  · intro c hc
    unfold isLabelChar
    rcases hrunes c hc with halnum | rfl
    · rw [halnum]
      rfl
    · rfl
  · intro c hc
    have hmem : c ∈ (sanitizeLabel s).toList := mem_of_head? hc
    rw [toList_sanitizeLabel] at hc
    refine (hrunes c hmem).resolve_right fun hdash => ?_
    exact absurd (Lib.not_of_head?_strip hc) (by simp [hdash])
  · intro c hc
    have hmem : c ∈ (sanitizeLabel s).toList := mem_of_getLast? hc
    rw [toList_sanitizeLabel] at hc
    refine (hrunes c hmem).resolve_right fun hdash => ?_
    exact absurd (Lib.not_of_getLast?_strip hc) (by simp [hdash])

/-! ## Identifiers as labels -/

/-- The characters of an identifier that `sanitizeLabel` writes as a dash. -/
def isSeparator (c : Char) : Bool := c == '_' || c == '-'

/-- An identifier without the underscores and dashes at its ends. -/
def core (s : String) : List Char := strip isSeparator s.toList

theorem isIdentChar_lt (h : isIdentChar c) : c.toNat < 128 := by
  have hle : c.val ≤ 122 := by
    simp only [isIdentChar, Char.isAlphanum, Char.isAlpha, Char.isLower, Char.isUpper, Char.isDigit,
      Bool.or_eq_true, Bool.and_eq_true, decide_eq_true_eq, beq_iff_eq] at h
    rcases h with ((((h | h) | h) | rfl) | rfl)
    · exact UInt32.le_trans h.2 (by decide)
    · exact h.2
    · exact UInt32.le_trans h.2 (by decide)
    · decide
    · decide
  exact Nat.lt_of_le_of_lt (UInt32.le_iff_toNat_le.mp hle) (by decide)

/-- Facts about the characters of identifiers are facts about ASCII. -/
theorem forall_isIdentChar {P : Char → Prop} (h : ∀ n < 128, isIdentChar (Char.ofNat n) → P (Char.ofNat n))
    (hc : isIdentChar c) : P c := by
  have hn := h c.toNat (isIdentChar_lt hc)
  rw [Char.ofNat_toNat] at hn
  exact hn hc

theorem sanitizeRune_ident (h : isIdentChar c) : sanitizeRune c = if isSeparator c then '-' else c.toLower :=
  forall_isIdentChar (P := fun c => sanitizeRune c = if isSeparator c then '-' else c.toLower) (by decide +kernel) h

theorem isSeparator_toLower (h : isIdentChar c) : isSeparator c.toLower = isSeparator c :=
  forall_isIdentChar (P := fun c => isSeparator c.toLower = isSeparator c) (by decide +kernel) h

theorem isSeparator_iff (h : isIdentChar c) : (sanitizeRune c == '-') = isSeparator c := by
  rw [sanitizeRune_ident h]
  cases hs : isSeparator c with
  | true => rfl
  | false =>
    rw [if_neg Bool.false_ne_true, beq_eq_false_iff_ne]
    intro hdash
    rw [← isSeparator_toLower h, hdash] at hs
    cases hs

theorem toList_sanitizeLabel_core (h : isIdentifier s) :
    (sanitizeLabel s).toList = (core s).map sanitizeRune := by
  rw [toList_sanitizeLabel, Lib.strip_map, core]
  congr 1
  refine Lib.strip_congr fun c hc => ?_
  exact isSeparator_iff (isIdentChar_of_mem h hc)

theorem length_sanitizeLabel (h : isIdentifier s) : (sanitizeLabel s).toList.length = (core s).length := by
  rw [toList_sanitizeLabel_core h, length_map]

/-- Characters that differ at most in case, or as dash and underscore. -/
def SameLetter (c d : Char) : Prop := c.toLower = d.toLower ∨ isSeparator c ∧ isSeparator d

instance (c d : Char) : Decidable (SameLetter c d) := inferInstanceAs (Decidable (_ ∨ _))

/-- Identifiers that differ at most in case, in dashes for underscores, and in both at their ends. -/
def Alike (s s' : String) : Prop := List.Forall₂ SameLetter (core s) (core s')

instance (s s' : String) : Decidable (Alike s s') :=
  inferInstanceAs (Decidable (List.Forall₂ SameLetter (core s) (core s')))

theorem isIdentChar_of_mem_core (h : isIdentifier s) (hc : c ∈ core s) : isIdentChar c :=
  isIdentChar_of_mem h ((Lib.strip_sublist _ _).subset hc)

theorem sanitizeRune_eq_iff {d : Char} (hc : isIdentChar c) (hd : isIdentChar d) :
    sanitizeRune c = sanitizeRune d ↔ SameLetter c d := by
  have hlower : c.toLower = d.toLower → isSeparator c = isSeparator d := by
    intro h
    rw [← isSeparator_toLower hc, ← isSeparator_toLower hd, h]
  constructor
  · intro h
    have hsep : isSeparator c = isSeparator d := by
      rw [← isSeparator_iff hc, ← isSeparator_iff hd, h]
    cases hs : isSeparator d with
    | true => exact .inr ⟨hsep.trans hs, hs⟩
    | false =>
      rw [sanitizeRune_ident hc, sanitizeRune_ident hd, hsep, hs] at h
      exact .inl h
  · rintro (h | ⟨hs, hs'⟩)
    · rw [sanitizeRune_ident hc, sanitizeRune_ident hd, hlower h, h]
    · rw [sanitizeRune_ident hc, sanitizeRune_ident hd, hs, hs']
      rfl

theorem sanitizeLabel_eq_iff {s' : String} (h : isIdentifier s) (h' : isIdentifier s') :
    sanitizeLabel s = sanitizeLabel s' ↔ Alike s s' := by
  have hcore : ∀ {l l' : List Char}, (∀ c ∈ l, isIdentChar c) → (∀ c ∈ l', isIdentChar c) →
      (l.map sanitizeRune = l'.map sanitizeRune ↔ List.Forall₂ SameLetter l l') := by
    intro l
    induction l with
    | nil =>
      intro l' _ _
      cases l' <;> simp
    | cons c l ih =>
      intro l' hl hl'
      cases l' with
      | nil => simp
      | cons d l' =>
        rw [map_cons, map_cons, cons_eq_cons, forall₂_cons,
          sanitizeRune_eq_iff (hl c mem_cons_self) (hl' d mem_cons_self),
          ih (fun e he => hl e (mem_cons_of_mem _ he)) fun e he => hl' e (mem_cons_of_mem _ he)]
  rw [← String.toList_inj, toList_sanitizeLabel_core h, toList_sanitizeLabel_core h']
  exact hcore (fun c hc => isIdentChar_of_mem_core h hc) fun c hc => isIdentChar_of_mem_core h' hc

/-! ## The other own labels -/

theorem isLabelValue_uuid (h : isUUID s) : isLabelValue (sanitizeLabel s) := by
  rw [isLabelValue_sanitizeLabel, toList_sanitizeLabel]
  have hlen : s.toList.length = 36 := by
    unfold isUUID at h
    rw [Bool.and_eq_true] at h
    exact of_decide_eq_true h.1
  have hle := (Lib.strip_sublist (· == '-') (s.toList.map sanitizeRune)).length_le
  rw [length_map] at hle
  omega

theorem isLabelValue_tryNumber {n : Int64} (h : 0 ≤ n.toInt) : isLabelValue n.toInt.repr := by
  obtain ⟨k, hk⟩ := Int.eq_ofNat_of_zero_le h
  have hrepr : n.toInt.repr.toList = Nat.toDigits 10 k := by
    rw [hk]
    show (Nat.repr k).toList = _
    simp [Nat.repr]
  have hdigit : ∀ c ∈ n.toInt.repr.toList, c.isDigit := by
    intro c hc
    rw [hrepr] at hc
    exact Nat.isDigit_of_mem_toDigits (by decide) (by decide) hc
  have halnum : ∀ c ∈ n.toInt.repr.toList, c.isAlphanum := by
    intro c hc
    rw [Char.isAlphanum, hdigit c hc, Bool.or_true]
  rw [isLabelValue_iff]
  refine ⟨?_, ?_, ?_, ?_⟩
  · rw [hrepr, Nat.length_toDigits_le_iff (by decide) (by decide)]
    have hbound := n.toInt_lt
    omega
  · intro c hc
    unfold isLabelChar
    rw [halnum c hc]
    rfl
  · exact fun c hc => halnum c (mem_of_head? hc)
  · exact fun c hc => halnum c (mem_of_getLast? hc)

end Leoflow.Executor
