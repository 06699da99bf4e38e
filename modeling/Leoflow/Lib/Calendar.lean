import Mathlib.Data.List.Basic

/-!
# Dates and timestamps

The proleptic Gregorian date of a day and the RFC 3339 rendering of a second in UTC, as Go's
`time.Format` prints it. Distinct seconds have distinct renderings.
-/

namespace Leoflow.Lib

open List

/-- A day of the proleptic Gregorian calendar. -/
structure Date where
  year : Int
  month : Int
  day : Int
deriving DecidableEq

namespace Date

/-- The date `n` days after 1970-01-01. Years are counted from March, so that the leap day comes last: 400 years
have 146097 days, the first three centuries of them 36524 each, four years 1461, the first three of these 365
each. -/
def ofDays (n : Int) : Date :=
  let z := n + 719468
  let century := min (z % 146097 / 36524) 3
  let dayOfCentury := z % 146097 - 36524 * century
  let yearOfFour := min (dayOfCentury % 1461 / 365) 3
  let dayOfYear := dayOfCentury % 1461 - 365 * yearOfFour
  let year := 400 * (z / 146097) + 100 * century + 4 * (dayOfCentury / 1461) + yearOfFour
  let m := (5 * dayOfYear + 2) / 153
  { year := if m < 10 then year else year + 1
    month := if m < 10 then m + 3 else m - 9
    day := dayOfYear - (153 * m + 2) / 5 + 1 }

/-- The day of a date, counted the same way. -/
def toDays (d : Date) : Int :=
  let y := if d.month ≤ 2 then d.year - 1 else d.year
  let m := if d.month ≤ 2 then d.month + 9 else d.month - 3
  146097 * (y / 400) + 36524 * (y % 400 / 100) + 1461 * (y % 100 / 4) + 365 * (y % 4) +
    ((153 * m + 2) / 5 + d.day - 1) - 719468

theorem cycles_of_year {y a c q r : Int} (hy : 400 * a + 100 * c + 4 * q + r = y)
    (hc : 0 ≤ c ∧ c ≤ 3) (hq : 0 ≤ q ∧ q ≤ 24) (hr : 0 ≤ r ∧ r ≤ 3) :
    y / 400 = a ∧ y % 400 / 100 = c ∧ y % 100 / 4 = q ∧ y % 4 = r := by
  have ha : y / 400 = a := by omega
  have hcentury : y % 400 = 100 * c + 4 * q + r := by omega
  have hyear : y % 100 = 4 * q + r := by omega
  rw [hcentury, hyear]
  refine ⟨ha, ?_, ?_, ?_⟩ <;> omega

theorem toDays_ofDays (n : Int) : (ofDays n).toDays = n := by
  unfold toDays ofDays
  generalize hz : n + 719468 = z
  simp only
  generalize hc : min (z % 146097 / 36524) 3 = c
  generalize hdc : z % 146097 - 36524 * c = dc
  generalize hyf : min (dc % 1461 / 365) 3 = yf
  generalize hd : dc % 1461 - 365 * yf = d
  generalize hm : (5 * d + 2) / 153 = m
  have hcentury : 0 ≤ c ∧ c ≤ 3 ∧ 0 ≤ dc ∧ dc ≤ 36524 := by omega
  have hyear : 0 ≤ yf ∧ yf ≤ 3 ∧ 0 ≤ d ∧ d ≤ 365 := by omega
  have hmonth : 0 ≤ m ∧ m ≤ 11 := by omega
  generalize hy : 400 * (z / 146097) + 100 * c + 4 * (dc / 1461) + yf = y
  have hcycles := cycles_of_year hy ⟨hcentury.1, hcentury.2.1⟩ (by omega) ⟨hyear.1, hyear.2.1⟩
  by_cases hlate : m < 10
  · have hlow : ¬ m + 3 ≤ 2 := by omega
    simp only [hlate, if_true, hlow, if_false, hcycles]
    omega
  · have hlow : m - 9 ≤ 2 := by omega
    have hprev : y + 1 - 1 = y := by omega
    simp only [hlate, if_false, hlow, if_true, hprev, hcycles]
    omega

theorem ofDays_injective {m n : Int} (h : ofDays m = ofDays n) : m = n := by
  rw [← toDays_ofDays m, ← toDays_ofDays n, h]

theorem ofDays_bounds (n : Int) : 0 ≤ (ofDays n).month ∧ (ofDays n).month < 100 ∧
    0 ≤ (ofDays n).day ∧ (ofDays n).day < 100 := by
  unfold ofDays
  generalize n + 719468 = z
  simp only
  generalize hc : min (z % 146097 / 36524) 3 = c
  generalize hdc : z % 146097 - 36524 * c = dc
  generalize hyf : min (dc % 1461 / 365) 3 = yf
  generalize hd : dc % 1461 - 365 * yf = d
  generalize hm : (5 * d + 2) / 153 = m
  have hdays : 0 ≤ dc ∧ dc ≤ 36524 := by omega
  have hday : 0 ≤ d ∧ d ≤ 365 := by omega
  have hmonth : 0 ≤ m ∧ m ≤ 11 := by omega
  split <;> omega

end Date

/-! ## Rendering -/

/-- `appendInt` of Go's `time`: a sign if negative, and at least `width` digits. -/
def appendInt (x : Int) (width : Nat) : List Char :=
  (if x < 0 then ['-'] else []) ++ (Nat.toDigits 10 x.natAbs).leftpad width '0'

theorem ofDigitChars_leftpad (n width : Nat) : Nat.ofDigitChars 10 ((Nat.toDigits 10 n).leftpad width '0') 0 = n := by
  rw [List.leftpad, Nat.ofDigitChars_append, Nat.ofDigitChars_replicate_zero, Nat.mul_zero,
    Nat.ofDigitChars_ten_toDigits]

theorem minus_mem_appendInt {x : Int} {width : Nat} : '-' ∈ appendInt x width ↔ x < 0 := by
  have hdigits : '-' ∉ (Nat.toDigits 10 x.natAbs).leftpad width '0' := by
    intro hmem
    rcases mem_append.mp hmem with hzero | hdigit
    · exact absurd (eq_of_mem_replicate hzero) (by decide)
    · exact absurd (Nat.isDigit_of_mem_toDigits (by decide) (by decide) hdigit) (by decide)
  unfold appendInt
  split
  · exact iff_of_true (mem_append_left _ mem_cons_self) ‹_›
  · exact iff_of_false (by rwa [nil_append]) ‹_›

theorem appendInt_injective {x y : Int} {width : Nat} (h : appendInt x width = appendInt y width) : x = y := by
  have hsame : x < 0 ↔ y < 0 := by
    rw [← @minus_mem_appendInt x width, h, minus_mem_appendInt]
  have habs : x.natAbs = y.natAbs := by
    unfold appendInt at h
    simp only [hsame] at h
    rw [← ofDigitChars_leftpad x.natAbs width, append_cancel_left h, ofDigitChars_leftpad]
  omega

theorem length_appendInt {x : Int} (h0 : 0 ≤ x) (h : x < 100) : (appendInt x 2).length = 2 := by
  have hneg : ¬ x < 0 := by omega
  have hdigits : (Nat.toDigits 10 x.natAbs).length ≤ 2 :=
    (Nat.length_toDigits_le_iff (by decide) (by decide)).mpr (by omega)
  simp only [appendInt, hneg, if_false, nil_append, List.leftpad, length_append, length_replicate]
  omega

/-- The time of day and what precedes it after the year. -/
def dayAndTime (date : Date) (s : Int) : List Char :=
  ['-'] ++ (appendInt date.month 2 ++ (['-'] ++ (appendInt date.day 2 ++ (['T'] ++
    (appendInt (s / 3600) 2 ++ ([':'] ++ (appendInt (s % 3600 / 60) 2 ++ ([':'] ++
      (appendInt (s % 60) 2 ++ ['Z'])))))))))

/-- `Format(time.RFC3339)` of the second `t` after 1970-01-01 in UTC. -/
def rfc3339 (t : Int) : String :=
  let date := Date.ofDays (t / 86400)
  String.ofList (appendInt date.year 4 ++ dayAndTime date (t % 86400))

example : rfc3339 1767225600 = "2026-01-01T00:00:00Z" := by decide +kernel

theorem length_dayAndTime {n s : Int} (h0 : 0 ≤ s) (h : s < 86400) : (dayAndTime (.ofDays n) s).length = 16 := by
  obtain ⟨hm0, hm, hd0, hd⟩ := Date.ofDays_bounds n
  have hhour := length_appendInt (x := s / 3600) (by omega) (by omega)
  have hminute := length_appendInt (x := s % 3600 / 60) (by omega) (by omega)
  have hsecond := length_appendInt (x := s % 60) (by omega) (by omega)
  simp [dayAndTime, length_appendInt hm0 hm, length_appendInt hd0 hd, hhour, hminute, hsecond]

theorem dayAndTime_injective {m n s s' : Int} (h0 : 0 ≤ s) (h : s < 86400) (h0' : 0 ≤ s')
    (h' : s' < 86400) (he : dayAndTime (.ofDays m) s = dayAndTime (.ofDays n) s') :
    (Date.ofDays m).month = (Date.ofDays n).month ∧ (Date.ofDays m).day = (Date.ofDays n).day ∧ s = s' := by
  obtain ⟨hm0, hm, hd0, hd⟩ := Date.ofDays_bounds m
  obtain ⟨hm0', hm', hd0', hd'⟩ := Date.ofDays_bounds n
  -- Each field has two digits on both sides.
  have htwo : ∀ {x y : Int} {l l' : List Char}, (0 ≤ x ∧ x < 100) → (0 ≤ y ∧ y < 100) →
      appendInt x 2 ++ l = appendInt y 2 ++ l' → x = y ∧ l = l' := by
    intro x y l l' hx hy happ
    have hlen := (length_appendInt hx.1 hx.2).trans (length_appendInt hy.1 hy.2).symm
    obtain ⟨hleft, hright⟩ := append_inj happ hlen
    exact ⟨appendInt_injective hleft, hright⟩
  obtain ⟨hmonth, he⟩ := htwo ⟨hm0, hm⟩ ⟨hm0', hm'⟩ (append_cancel_left he)
  obtain ⟨hday, he⟩ := htwo ⟨hd0, hd⟩ ⟨hd0', hd'⟩ (append_cancel_left he)
  obtain ⟨hhour, he⟩ := htwo (by omega) (by omega) (append_cancel_left he)
  obtain ⟨hminute, he⟩ := htwo (by omega) (by omega) (append_cancel_left he)
  obtain ⟨hsecond, -⟩ := htwo (by omega) (by omega) (append_cancel_left he)
  exact ⟨hmonth, hday, by omega⟩

/-- **Distinct seconds have distinct timestamps.** -/
theorem rfc3339_injective {t u : Int} (h : rfc3339 t = rfc3339 u) : t = u := by
  have hlist := String.ofList_injective h
  have hlen : (dayAndTime (.ofDays (t / 86400)) (t % 86400)).length =
      (dayAndTime (.ofDays (u / 86400)) (u % 86400)).length := by
    rw [length_dayAndTime (by omega) (by omega), length_dayAndTime (by omega) (by omega)]
  obtain ⟨hyear, hrest⟩ := append_inj' hlist hlen
  obtain ⟨hmonth, hday, htime⟩ :=
    dayAndTime_injective (by omega) (by omega) (by omega) (by omega) hrest
  have hdate : Date.ofDays (t / 86400) = Date.ofDays (u / 86400) := by
    have hy := appendInt_injective hyear
    rcases ht : Date.ofDays (t / 86400) with ⟨y, m, d⟩
    rcases hu : Date.ofDays (u / 86400) with ⟨y', m', d'⟩
    rw [ht, hu] at hy hmonth hday
    simp only at hy hmonth hday
    rw [hy, hmonth, hday]
  have hdays := Date.ofDays_injective hdate
  omega

end Leoflow.Lib
