import Leoflow.Api.Connections

/-!
# What a redacted extra depends on

Two documents that differ only below sensitive keys have the same redaction, and so the same text: the
encoding is a function of the redacted value.
-/

namespace Leoflow.Api

mutual

/-- Equal, but for the values under sensitive keys. -/
def agree : GoValue → GoValue → Bool
  | .object ms, .object ms' => agreeMembers ms ms'
  | .array items, .array items' => agreeItems items items'
  | .null, .null => true
  | .bool b, .bool b' => b == b'
  | .number f, .number f' => f == f'
  | .string s, .string s' => s == s'
  | _, _ => false

/-- The same keys, and equal values under the ones that are not sensitive. -/
def agreeMembers : Members → Members → Bool
  | [], [] => true
  | (k, v) :: ms, (k', v') :: ms' => k == k' && (isSensitiveKey k || agree v v') && agreeMembers ms ms'
  | _, _ => false

/-- The items agree one by one. -/
def agreeItems : List GoValue → List GoValue → Bool
  | [], [] => true
  | v :: vs, v' :: vs' => agree v v' && agreeItems vs vs'
  | _, _ => false

end

mutual

theorem redactAny_eq_of_agree : (v v' : GoValue) → agree v v' → redactAny v = redactAny v'
  | .object ms, v', h => by
    cases v' with
    | object ms' =>
      rw [agree] at h
      rw [redactAny, redactAny, redactMap_eq_of_agree ms ms' h]
    | _ => simp [agree] at h
  | .array items, v', h => by
    cases v' with
    | array items' =>
      rw [agree] at h
      rw [redactAny, redactAny, redactItems_eq_of_agree items items' h]
    | _ => simp [agree] at h
  | .null, v', h => by cases v' <;> simp_all [agree]
  | .bool _, v', h => by cases v' <;> simp_all [agree]
  | .number _, v', h => by cases v' <;> simp_all [agree]
  | .string _, v', h => by cases v' <;> simp_all [agree]

theorem redactMap_eq_of_agree : (ms ms' : Members) → agreeMembers ms ms' → redactMap ms = redactMap ms'
  | [], ms', h => by
    cases ms' with
    | nil => rfl
    | cons _ _ => simp [agreeMembers] at h
  | (k, v) :: ms, ms', h => by
    cases ms' with
    | nil => simp [agreeMembers] at h
    | cons m' ms' =>
      simp only [agreeMembers, Bool.and_eq_true, beq_iff_eq, Bool.or_eq_true] at h
      obtain ⟨⟨hk, hv⟩, hms⟩ := h
      rw [redactMap, redactMap, redactMap_eq_of_agree ms ms' hms, ← hk]
      cases hsecret : isSensitiveKey k with
      | true => rfl
      | false =>
        rw [hsecret] at hv
        rw [redactAny_eq_of_agree v m'.2 (hv.resolve_left Bool.false_ne_true)]

theorem redactItems_eq_of_agree : (items items' : List GoValue) → agreeItems items items' →
    redactItems items = redactItems items'
  | [], items', h => by
    cases items' with
    | nil => rfl
    | cons _ _ => simp [agreeItems] at h
  | v :: vs, items', h => by
    cases items' with
    | nil => simp [agreeItems] at h
    | cons v' vs' =>
      simp only [agreeItems, Bool.and_eq_true] at h
      rw [redactItems, redactItems, redactAny_eq_of_agree v v' h.1, redactItems_eq_of_agree vs vs' h.2]

end

theorem unmarshal_empty : unmarshal "" = none := by decide +kernel

theorem redactExtra_of_unmarshal {extra : String} {m : Option Members} (h : unmarshal extra = some m) :
    redactExtra extra = marshalMap (m.map redactMap) := by
  have hne : extra ≠ "" := by
    rintro rfl
    rw [unmarshal_empty] at h
    cases h
  rw [redactExtra, if_neg hne, h]

/-- **Redaction hides secrets.** Two stored extras that decode to objects equal but for the values under
sensitive keys, at any depth, are returned as the same text; a stored extra that is no object and not `null`
is returned as the mask. -/
theorem redactExtra_hides :
    (∀ s s' m m', unmarshal s = some (some m) → unmarshal s' = some (some m') → agreeMembers m m' →
      redactExtra s = redactExtra s') ∧
    ∀ s, s ≠ "" → unmarshal s = none → redactExtra s = secretMask := by
  constructor
  · intro s s' m m' hs hs' hagree
    rw [redactExtra_of_unmarshal hs, redactExtra_of_unmarshal hs', Option.map_some, Option.map_some,
      redactMap_eq_of_agree m m' hagree]
  · intro s hne hs
    rw [redactExtra, if_neg hne, hs]

/-- An account with a token in a list. -/
def withToken (token : String) : String :=
  "\x7b\"account\":1,\"auth\":[\x7b\"token\":\"" ++ token ++ "\"\x7d]\x7d"

/-- An account with one token. -/
def accountX : Members := ((unmarshal (withToken "x")).get (by decide +kernel)).get (by decide +kernel)

/-- The same with another. -/
def accountY : Members := ((unmarshal (withToken "y")).get (by decide +kernel)).get (by decide +kernel)

theorem redactExtra_hides_token : redactExtra (withToken "x") = redactExtra (withToken "y") :=
  redactExtra_hides.1 (withToken "x") (withToken "y") accountX accountY (by simp [accountX]) (by simp [accountY])
    (by decide +kernel)

end Leoflow.Api
