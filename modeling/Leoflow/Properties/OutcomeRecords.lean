import Mathlib.Data.Nat.Digits.Defs
import Mathlib.Data.String.Basic
import Leoflow.TaskOutcome.Record

/-!
# The round trip of an outcome record

A failure's record, with its reason truncated, is within the size cap and reads back as itself.
-/

namespace Leoflow.TaskOutcome

open Lib (Json)
open String (utf8Len)
open Option

/-! ## Reading back -/

namespace Record

variable (r : Record)

theorem set_exit_code (code : Int32) :
    r.set "exit_code" (.number code.toInt.repr) = some { r with exitCode := some code } := by
  have hparse : Json.parseInt64 code.toInt.repr = some code.toInt64 := by
    rw [← Int32.toInt_toInt64]
    exact Json.parseInt64_repr code.toInt64
  have hset : r.set "exit_code" (.number code.toInt.repr) = ((Json.parseInt64 code.toInt.repr).bind fun n =>
        if n.toInt32.toInt64 = n then some (some n.toInt32) else none).map fun code =>
          { r with exitCode := code } := rfl
  rw [hset, hparse, bind_some, Int32.toInt32_toInt64, if_pos rfl, map_some]

theorem set_v (n : Int64) : r.set "v" (.number n.toInt.repr) = some { r with v := n } := by
  have hset : r.set "v" (.number n.toInt.repr) = (Json.parseInt64 n.toInt.repr).map fun n => { r with v := n } := rfl
  rw [hset, Json.parseInt64_repr, map_some]

theorem set_outcome (s : String) : r.set "outcome" (.string s) = some { r with outcome := s } := rfl

theorem set_reason (s : String) : r.set "reason" (.string s) = some { r with reason := s } := rfl

/-- A record without a reschedule time reads back as itself. -/
theorem decode_fields (h : r.rescheduleAt = "") :
    Json.decode set {} (.object (r.fields.map fun m => (m.1, m.2.json))) = some r := by
  obtain ⟨v, outcome, exitCode, rescheduleAt, reason⟩ := r
  subst h
  rw [fields, if_pos rfl, Json.decode]
  by_cases hreason : reason = "" <;> cases exitCode <;>
    simp [hreason, Json.Field.json, set_v, set_outcome, set_exit_code, set_reason]

end Record

theorem trimSpace_write (fields : List (String × Json.Field)) :
    Lib.trimSpace (Json.write fields) = Json.write fields := by
  rw [Lib.trimSpace, Json.write, String.toList_ofList, Lib.strip_eq_self]
  · rintro a ⟨⟩
    decide
  · intro a ha
    rw [List.getLast?_concat] at ha
    cases ha
    decide

/-- A failure that is within the cap reads back as itself. -/
theorem decode_write {parseTime : String → Bool} {r : Record} (hv : r.v = version) (houtcome : r.outcome = "failed")
    (hat : r.rescheduleAt = "") : decode parseTime (Json.write r.fields) = some r := by
  have hhead : (Json.write r.fields).toList.head? = some '{' := by simp [Json.write]
  rw [decode, trimSpace_write, if_pos hhead, Json.parse_write, bind_some, Record.decode_fields r hat,
    filter_some, hv, houtcome]
  simp

/-! ## The size of a record -/

/-- The bytes that a character takes inside a JSON string. -/
def escapedSize (c : Char) : Nat := utf8Len (Json.escape c)

/-- How long a text is in JSON. -/
def escapedLen (s : String) : Nat := (s.toList.map escapedSize).sum

theorem utf8Len_quote (s : String) : utf8Len (Json.quote s) = escapedLen s + 2 := by
  have hbody : ∀ cs : List Char, utf8Len (cs.flatMap Json.escape) = (cs.map escapedSize).sum := by
    intro cs
    induction cs with
    | nil => rfl
    | cons c cs ih => simp [escapedSize, ih]
  rw [Json.quote, List.cons_append, String.utf8Len_cons, String.utf8Len_append, hbody]
  rfl

theorem utf8Len_le (cs : List Char) : utf8Len cs ≤ 4 * cs.length := by
  induction cs with
  | nil => rfl
  | cons c cs ih =>
    have hc := c.utf8Size_le_four
    rw [String.utf8Len_cons, List.length_cons]
    omega

theorem utf8Len_repr_le (code : Int32) : utf8Len code.toInt.repr.toList ≤ 44 := by
  have hlow := code.le_toInt
  have hhigh := code.toInt_lt
  have hdigits : ∀ m : Nat, m ≤ 2 ^ 31 → (Nat.toDigits 10 m).length ≤ 10 := fun m hm =>
    Nat.toDigits_length _ _ _ (by decide) (by omega)
  refine (utf8Len_le _).trans (Nat.mul_le_mul_left 4 (?_ : _ ≤ 11))
  rcases Json.repr_toList code.toInt with ⟨m, hm, htext⟩ | ⟨m, hm, htext⟩
  · rw [htext]
    exact Nat.le_succ_of_le (hdigits m (by omega))
  · rw [htext]
    exact Nat.succ_le_succ (hdigits m (by omega))

/-- How long a record is in JSON. -/
def recordLen (exitCode : Option Int32) (reason : String) : Nat :=
  26 + (exitCode.map fun code => 13 + utf8Len code.toInt.repr.toList).getD 0 +
    if reason = "" then 0 else 12 + escapedLen reason

theorem utf8Len_memberText (key : String) (f : Json.Field) :
    utf8Len (Json.memberText (key, f)) = escapedLen key + 3 + utf8Len f.text := by
  have hcolon : ':'.utf8Size = 1 := rfl
  have htext : Json.memberText (key, f) = Json.quote key ++ ':' :: f.text := rfl
  rw [htext, String.utf8Len_append, utf8Len_quote, String.utf8Len_cons, hcolon]
  omega

theorem utf8ByteSize_write (exitCode : Option Int32) (reason : String) :
    (Json.write { v := version, outcome := "failed", exitCode, reason : Record }.fields).utf8ByteSize =
      recordLen exitCode reason := by
  have hv : utf8Len (Json.memberText ("v", .int version.toInt)) = 5 := by decide +kernel
  have houtcome : utf8Len (Json.memberText ("outcome", .string "failed")) = 18 := by decide +kernel
  have hcode : escapedLen "exit_code" = 9 := by decide +kernel
  have hreason : escapedLen "reason" = 6 := by decide +kernel
  have hchars : ','.utf8Size = 1 ∧ '{'.utf8Size = 1 ∧ '}'.utf8Size = 1 := by decide
  rw [Json.write, String.utf8ByteSize_ofList, List.cons_append, String.utf8Len_cons, String.utf8Len_append,
    Record.fields, if_pos rfl, List.append_nil, recordLen]
  split <;> cases exitCode <;> simp only [map_none, map_some, toList_none, toList_some, List.append_nil,
      List.cons_append, List.nil_append, Json.membersText, String.utf8Len_append, String.utf8Len_cons,
      String.utf8Len_nil, hv, houtcome, utf8Len_memberText, Json.Field.text, utf8Len_quote, hcode, hreason, hchars,
      getD_none, getD_some] <;> omega

/-- What became of a classified failure: written, and read back as it was. -/
def Survives (parseTime : String → Bool) (r : Record) : Prop :=
  ∃ msg, r.encode = .ok msg ∧ decode parseTime msg = some r

theorem survives_iff {parseTime : String → Bool} {exitCode : Option Int32} {reason : String} :
    Survives parseTime { v := version, outcome := "failed", exitCode, reason } ↔
      recordLen exitCode reason ≤ maxRecordBytes := by
  rw [Survives, Record.encode, utf8ByteSize_write]
  split
  next hover =>
    exact iff_of_false (by rintro ⟨_, ⟨⟩, -⟩) (by omega)
  next hfits =>
    exact iff_of_true ⟨_, rfl, decode_write rfl rfl rfl⟩ (by omega)

/-- **A classified failure survives exactly when its escaped reason leaves room for the rest of the record.** -/
theorem failure_survives_iff (parseTime : String → Bool) (reason : String) (code : Int32) :
    (Survives parseTime (failedBecause reason) ↔ escapedLen (truncateReason reason maxReasonLen) ≤ 986) ∧
    (Survives parseTime (failedBecauseWith code reason) ↔
      escapedLen (truncateReason reason maxReasonLen) + utf8Len code.toInt.repr.toList ≤ 973) := by
  have hcode := utf8Len_repr_le code
  have hempty : escapedLen "" = 0 := rfl
  have hcap : maxRecordBytes = 1024 := rfl
  rw [failedBecause, failedBecauseWith, survives_iff, survives_iff, recordLen, recordLen, hcap]
  simp only [map_none, map_some, getD_none, getD_some]
  split
  next hnone =>
    rw [hnone, hempty]
    omega
  · omega

/-- As many control characters as a reason may have, each of them escaped to six bytes. -/
def controls : String := String.ofList (List.replicate maxReasonLen '\x01')

theorem control_characters_are_lost :
    (failedBecause controls).encode = .error "taskoutcome: encoded record exceeds size cap" := by
  have hsize : controls.utf8ByteSize ≤ maxReasonLen := by decide +kernel
  have hover : maxRecordBytes < recordLen none controls := by
    rw [recordLen, escapedLen, controls, String.toList_ofList]
    decide +kernel
  rw [failedBecause, truncateReason, if_pos hsize, Record.encode, utf8ByteSize_write, if_pos hover]

/-! ## The bytes of a reason -/

open List

theorem validString_iff {s : List UInt8} :
    validString s ↔ ∃ cs : List Char, s = cs.flatMap String.utf8EncodeChar := by
  rw [validString, ByteArray.validateUTF8_eq_true_iff]
  constructor
  · rintro ⟨cs, hcs⟩
    exact ⟨cs, toByteArray_inj.mp hcs⟩
  · rintro ⟨cs, rfl⟩
    exact ⟨cs, rfl⟩

theorem dropInvalid_isPrefix (cut : List UInt8) : dropInvalid cut <+: cut := by
  fun_induction dropInvalid with
  | case1 cut _ ih => exact ih.trans <| dropLast_prefix cut
  | case2 cut _ => exact prefix_rfl

theorem validString_dropInvalid (cut : List UInt8) : validString (dropInvalid cut) := by
  fun_induction dropInvalid with
  | case1 cut _ ih => exact ih
  | case2 cut h =>
    by_cases hnil : cut = []
    · rw [hnil, validString_iff]
      exact ⟨[], rfl⟩
    · simpa [hnil] using h

/-- No valid string that is a part of the cut is dropped. -/
theorem prefix_dropInvalid {q cut : List UInt8} (hq : q <+: cut) (hvalid : validString q) :
    q <+: dropInvalid cut := by
  fun_induction dropInvalid cut with
  | case1 cut h ih =>
    have hlt : q.length < cut.length := by
      refine lt_of_le_of_ne hq.length_le fun heq => ?_
      simp [hq.eq_of_length heq, h.2] at hvalid
    have hshorter : q.length ≤ cut.dropLast.length := by
      rw [length_dropLast]
      exact Nat.le_sub_one_of_lt hlt
    have hcut : cut.dropLast <+: cut := dropLast_prefix cut
    exact ih (prefix_of_prefix_length_le hq hcut hshorter)
  | case2 cut _ => exact hq

/-- The characters within the limit end in its last four bytes, if there are more. -/
theorem within_spec (limit : Nat) (cs : List Char) : within limit cs <+: cs ∧
    ((within limit cs).flatMap String.utf8EncodeChar).length ≤ limit ∧
    (limit < (cs.flatMap String.utf8EncodeChar).length →
      limit < ((within limit cs).flatMap String.utf8EncodeChar).length + 4) := by
  fun_induction within limit cs with
  | case1 limit => simp
  | case2 limit c cs hfits ih =>
    obtain ⟨hpre, hle, hlt⟩ := ih
    simp only [flatMap_cons, length_append, String.length_utf8EncodeChar]
    exact ⟨(prefix_cons_inj c).mpr hpre, by omega, by omega⟩
  | case3 limit c cs hlong =>
    have hc := c.utf8Size_le_four
    refine ⟨⟨_, rfl⟩, Nat.zero_le _, fun _ => ?_⟩
    simp only [flatMap_nil, length_nil]
    omega

/-- **A truncated reason is the longest valid part that fits.** -/
theorem truncateBytes_keeps (reason : List UInt8) (limit : Nat) :
    truncateBytes reason limit <+: reason ∧ (truncateBytes reason limit).length ≤ limit ∧
    truncateBytes (truncateBytes reason limit) limit = truncateBytes reason limit ∧
    (reason.length ≤ limit → truncateBytes reason limit = reason) ∧
    (validString reason → limit < reason.length →
      validString (truncateBytes reason limit) ∧ limit < (truncateBytes reason limit).length + 4 ∧
      ∀ q, q <+: reason → q.length ≤ limit → validString q → q <+: truncateBytes reason limit) := by
  have hlen : (truncateBytes reason limit).length ≤ limit := by
    unfold truncateBytes
    split
    · assumption
    · exact (dropInvalid_isPrefix _).length_le.trans (length_take_le limit reason)
  refine ⟨?_, hlen, if_pos hlen, fun hfits => if_pos hfits, fun hvalid hlong => ?_⟩
  · unfold truncateBytes
    split
    · exact prefix_rfl
    · exact (dropInvalid_isPrefix _).trans <| take_prefix limit reason
  rw [truncateBytes, if_neg (Nat.not_le.mpr hlong)]
  have hlongest : ∀ q, q <+: reason → q.length ≤ limit → validString q →
      q <+: dropInvalid (reason.take limit) := fun q hq hle hv =>
    prefix_dropInvalid (prefix_take_iff.mpr ⟨hq, hle⟩) hv
  refine ⟨validString_dropInvalid _, ?_, hlongest⟩
  obtain ⟨cs, rfl⟩ := validString_iff.mp hvalid
  obtain ⟨⟨rest, hrest⟩, hle, hlt⟩ := within_spec limit cs
  have hkept : (within limit cs).flatMap String.utf8EncodeChar <+: cs.flatMap String.utf8EncodeChar :=
    ⟨rest.flatMap String.utf8EncodeChar, by rw [← flatMap_append, hrest]⟩
  have hwithin := hlongest _ hkept hle (validString_iff.mpr ⟨_, rfl⟩)
  exact (hlt hlong).trans_le (Nat.add_le_add_right hwithin.length_le 4)

end Leoflow.TaskOutcome
