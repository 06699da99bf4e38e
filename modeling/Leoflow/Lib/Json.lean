import Mathlib.Data.List.TakeWhile
import Mathlib.Data.Char
import Mathlib.Tactic.IntervalCases

/-!
# JSON text

JSON as Go's `encoding/json` reads and writes it. Reading keeps what a decoder distinguishes: number
literals as they are spelt, members in order, repeated keys included. Writing is for records of
strings and integers. `parse_write` is the round trip.
-/

namespace Leoflow.Lib

open List Option

/-- A parsed document, with the texts of its numbers. -/
inductive Json where
  | null
  | bool (b : Bool)
  | number (literal : String)
  | string (s : String)
  | array (items : List Json)
  | object (members : List (String × Json))

namespace Json

/-- What is left of the input after a value. -/
abbrev Result (α : Type) := Option (α × List Char)

/-! ## Reading -/

/-- The white space of JSON, which is not all of Unicode's. -/
def isJsonSpace (c : Char) : Bool := c == ' ' || c == '\t' || c == '\r' || c == '\n'

/-- The text after its leading white space. -/
def skipSpace (cs : List Char) : List Char := cs.dropWhile isJsonSpace

/-- The value of a hexadecimal digit. -/
def hexDigit? (c : Char) : Option Nat :=
  if '0' ≤ c ∧ c ≤ '9' then some (c.toNat - 48)
  else if 'a' ≤ c ∧ c ≤ 'f' then some (c.toNat - 87)
  else if 'A' ≤ c ∧ c ≤ 'F' then some (c.toNat - 55)
  else none

/-- The code unit of four hexadecimal digits. -/
def hex4 (a b c d : Char) : Option Nat := do
  return (← hexDigit? a) * 4096 + (← hexDigit? b) * 256 + (← hexDigit? c) * 16 + (← hexDigit? d)

/-- The unit begins a surrogate pair. -/
def isHighSurrogate (n : Nat) : Bool := 0xD800 ≤ n && n < 0xDC00

/-- The unit ends a surrogate pair. -/
def isLowSurrogate (n : Nat) : Bool := 0xDC00 ≤ n && n < 0xE000

/-- The code point of a surrogate pair. -/
def pair (high low : Nat) : Nat := (high - 0xD800) * 0x400 + (low - 0xDC00) + 0x10000

/-- The escapes of one letter. -/
def simpleEscape? : Char → Option Char
  | '"' => some '"' | '\\' => some '\\' | '/' => some '/' | 'b' => some '\x08' | 'f' => some '\x0c'
  | 'n' => some '\n' | 'r' => some '\r' | 't' => some '\t' | _ => none

/-- A high surrogate that is waiting for its low one reads as U+FFFD where it gets none. -/
def flush (pending : Option Nat) : List Char := if pending.isSome then ['�'] else []

/-- The characters an escaped code unit completes, and the high surrogate that waits after it. -/
def codeUnit (pending : Option Nat) (n : Nat) : List Char × Option Nat :=
  if isLowSurrogate n then
    match pending with
    | some high => ([Char.ofNat (pair high n)], none)
    | none => (['�'], none)
  else if isHighSurrogate n then (flush pending, some n)
  else (flush pending ++ [Char.ofNat n], none)

/-- Put characters in front of what is read next. -/
def emit (cs : List Char) (r : Result (List Char)) : Result (List Char) :=
  r.map fun p => (cs ++ p.1, p.2)

/-- The rest of a string after its opening quote. -/
def stringBody : (pending : Option Nat) → List Char → Result (List Char)
  | pending, '"' :: rest => some (flush pending, rest)
  | pending, '\\' :: 'u' :: a :: b :: c :: d :: rest =>
    match hex4 a b c d with
    | some n => emit (codeUnit pending n).1 (stringBody (codeUnit pending n).2 rest)
    | none => none
  | pending, '\\' :: e :: rest =>
    match simpleEscape? e with
    | some c => emit (flush pending ++ [c]) (stringBody none rest)
    | none => none
  | pending, c :: rest =>
    if c.toNat < 0x20 then none else emit (flush pending ++ [c]) (stringBody none rest)
  | _, [] => none

/-- An exponent, if there is one, after the mantissa `m`. -/
def exponent (m : List Char) : List Char → Result (List Char)
  | e :: rest =>
    if e = 'e' ∨ e = 'E' then
      let sign := rest.take 1 |>.filter fun c => c == '+' || c == '-'
      let digits := (rest.drop sign.length).takeWhile Char.isDigit
      if digits.isEmpty then none
      else some (m ++ e :: sign ++ digits, (rest.drop sign.length).dropWhile Char.isDigit)
    else some (m, e :: rest)
  | [] => some (m, [])

/-- A fraction, if there is one, after the integer part `m`, and an exponent. -/
def fraction (m : List Char) : List Char → Result (List Char)
  | '.' :: rest =>
    let digits := rest.takeWhile Char.isDigit
    if digits.isEmpty then none
    else exponent (m ++ '.' :: digits) (rest.dropWhile Char.isDigit)
  | rest => exponent m rest

/-- A number after its sign: no leading zero unless the integer part is `0`. -/
def unsigned (sign : List Char) : List Char → Result (List Char)
  | '0' :: rest => fraction (sign ++ ['0']) rest
  | c :: rest =>
    if c.isDigit then
      fraction (sign ++ (c :: rest).takeWhile Char.isDigit) ((c :: rest).dropWhile Char.isDigit)
    else none
  | [] => none

/-- A number, as it is written. -/
def numberText : List Char → Result (List Char)
  | '-' :: rest => unsigned ['-'] rest
  | cs => unsigned [] cs

/-- A value that is neither an array nor an object. -/
def scalar : List Char → Result Json
  | '"' :: rest => (stringBody none rest).map fun p => (.string (String.ofList p.1), p.2)
  | 't' :: 'r' :: 'u' :: 'e' :: rest => some (.bool true, rest)
  | 'f' :: 'a' :: 'l' :: 's' :: 'e' :: rest => some (.bool false, rest)
  | 'n' :: 'u' :: 'l' :: 'l' :: rest => some (.null, rest)
  | cs => (numberText cs).map fun p => (.number (String.ofList p.1), p.2)

/-- The items of an array and its closing bracket; `fuel` bounds their number. -/
def elements (item : List Char → Result Json) : Nat → List Char → Result (List Json)
  | 0, _ => none
  | fuel + 1, cs =>
    match item (skipSpace cs) with
    | none => none
    | some (v, rest) =>
      match skipSpace rest with
      | ',' :: rest => (elements item fuel rest).map fun p => (v :: p.1, p.2)
      | ']' :: rest => some ([v], rest)
      | _ => none

/-- A key and its colon. -/
def key (cs : List Char) : Result String :=
  match skipSpace cs with
  | '"' :: rest =>
    match stringBody none rest with
    | some (k, rest) =>
      match skipSpace rest with
      | ':' :: rest => some (String.ofList k, rest)
      | _ => none
    | none => none
  | _ => none

/-- The members of an object and its closing brace; `fuel` bounds their number. -/
def members (item : List Char → Result Json) : Nat → List Char → Result (List (String × Json))
  | 0, _ => none
  | fuel + 1, cs =>
    match key cs with
    | none => none
    | some (k, rest) =>
      match item (skipSpace rest) with
      | none => none
      | some (v, rest) =>
        match skipSpace rest with
        | ',' :: rest => (members item fuel rest).map fun p => ((k, v) :: p.1, p.2)
        | '}' :: rest => some ([(k, v)], rest)
        | _ => none

/-- A value, with `item` for the values inside it. An item takes at least one character, so the
length of the input is fuel enough. -/
def compound (item : List Char → Result Json) : List Char → Result Json
  | '[' :: rest =>
    match skipSpace rest with
    | ']' :: rest => some (.array [], rest)
    | _ => (elements item rest.length rest).map fun p => (.array p.1, p.2)
  | '{' :: rest =>
    match skipSpace rest with
    | '}' :: rest => some (.object [], rest)
    | _ => (members item rest.length rest).map fun p => (.object p.1, p.2)
  | cs => scalar cs

/-- A value nested at most `depth` deep. -/
def value : (depth : Nat) → List Char → Result Json
  | 0 => scalar
  | depth + 1 => compound (value depth)

/-- The depth at which the decoder gives up. -/
def maxNestingDepth : Nat := 10000

/-- The document of a text, with nothing after it. -/
def parse (s : String) : Option Json :=
  match value maxNestingDepth (skipSpace s.toList) with
  | some (v, rest) => if (skipSpace rest).isEmpty then some v else none
  | none => none

/-! ## Writing -/

/-- The lower-case hexadecimal digit of a number below 16. -/
def hexDigit (n : Nat) : Char := if n < 10 then Char.ofNat (48 + n) else Char.ofNat (87 + n)

/-- A unit of UTF-16 as an escape. -/
def escapeUnit (n : Nat) : List Char :=
  ['\\', 'u', hexDigit (n / 4096 % 16), hexDigit (n / 256 % 16), hexDigit (n / 16 % 16), hexDigit (n % 16)]

/-- One character inside a string, with the escapes that keep the text safe in HTML. -/
def escape (c : Char) : List Char :=
  if c = '"' then ['\\', '"']
  else if c = '\\' then ['\\', '\\']
  else if c = '\x08' then ['\\', 'b']
  else if c = '\x0c' then ['\\', 'f']
  else if c = '\n' then ['\\', 'n']
  else if c = '\r' then ['\\', 'r']
  else if c = '\t' then ['\\', 't']
  else if c.toNat < 0x20 ∨ c = '<' ∨ c = '>' ∨ c = '&' ∨ c.toNat = 0x2028 ∨ c.toNat = 0x2029 then
    escapeUnit c.toNat
  else [c]

/-- A string in quotes. -/
def quote (s : String) : List Char := '"' :: s.toList.flatMap escape ++ ['"']

/-- A field of a record. -/
inductive Field where
  | string (s : String)
  | int (n : Int)

namespace Field

/-- The text of a field. -/
def text : Field → List Char
  | string s => quote s
  | int n => n.repr.toList

/-- What the text of a field parses to. -/
def json : Field → Json
  | string s => .string s
  | int n => .number n.repr

end Field

/-- A member of an object. -/
def memberText (m : String × Field) : List Char := quote m.1 ++ ':' :: m.2.text

/-- The members, with commas between them. -/
def membersText : List (String × Field) → List Char
  | [] => []
  | [m] => memberText m
  | m :: m' :: ms => memberText m ++ ',' :: membersText (m' :: ms)

/-- `json.Marshal` of a struct with these fields. -/
def write (fields : List (String × Field)) : String :=
  String.ofList ('{' :: membersText fields ++ ['}'])

/-! ## Strings -/

theorem hexDigit?_hexDigit : ∀ n < 16, hexDigit? (hexDigit n) = some n := by decide

theorem hex4_hexDigit {n : Nat} (h : n < 0x10000) :
    hex4 (hexDigit (n / 4096 % 16)) (hexDigit (n / 256 % 16)) (hexDigit (n / 16 % 16))
      (hexDigit (n % 16)) = some n := by
  have hd : ∀ m, hexDigit? (hexDigit (m % 16)) = some (m % 16) := fun m =>
    hexDigit?_hexDigit _ (Nat.mod_lt _ (by decide))
  simp only [hex4, hd, Option.pure_def, bind_eq_bind, bind_some, Option.some.injEq]
  omega

theorem codeUnit_toNat (c : Char) : codeUnit none c.toNat = ([c], none) := by
  have hlow : isLowSurrogate c.toNat = false := by
    have := c.valid
    simp only [UInt32.isValidChar, Nat.isValidChar] at this
    simp only [isLowSurrogate, Bool.and_eq_false_iff, decide_eq_false_iff_not, Char.toNat]
    omega
  have hhigh : isHighSurrogate c.toNat = false := by
    have := c.valid
    simp only [UInt32.isValidChar, Nat.isValidChar] at this
    simp only [isHighSurrogate, Bool.and_eq_false_iff, decide_eq_false_iff_not, Char.toNat]
    omega
  simp [codeUnit, hlow, hhigh, flush, Char.ofNat_toNat]

theorem stringBody_escapeUnit {c : Char} (h : c.toNat < 0x10000) (rest : List Char) :
    stringBody none (escapeUnit c.toNat ++ rest) = emit [c] (stringBody none rest) := by
  simp [escapeUnit, stringBody, hex4_hexDigit h, codeUnit_toNat]

theorem stringBody_plain {c : Char} (hq : c ≠ '"') (hb : c ≠ '\\') (hc : ¬ c.toNat < 0x20)
    (rest : List Char) : stringBody none (c :: rest) = emit [c] (stringBody none rest) := by
  rw [stringBody.eq_def]
  split
  · rename_i he; cases he; exact absurd rfl hq
  · rename_i he; cases he; exact absurd rfl hb
  · rename_i he; cases he; exact absurd rfl hb
  · rename_i he; cases he; rw [if_neg hc]; rfl
  · rename_i he; cases he

variable {rest : List Char}

/-- An escaped character is read back. -/
theorem stringBody_escape (c : Char) (rest : List Char) :
    stringBody none (escape c ++ rest) = emit [c] (stringBody none rest) := by
  unfold escape
  split
  · subst_vars; rfl
  split
  · subst_vars; rfl
  split
  · subst_vars; rfl
  split
  · subst_vars; rfl
  split
  · subst_vars; rfl
  split
  · subst_vars; rfl
  split
  · subst_vars; rfl
  split
  next h =>
    refine stringBody_escapeUnit ?_ rest
    rcases h with h | rfl | rfl | rfl | h | h
    · omega
    · decide
    · decide
    · decide
    · omega
    · omega
  next hq hb _ _ _ _ _ hu =>
    simp only [not_or] at hu
    exact stringBody_plain hq hb hu.1 rest

theorem stringBody_flatMap (cs rest : List Char) :
    stringBody none (cs.flatMap escape ++ '"' :: rest) = some (cs, rest) := by
  induction cs with
  | nil => rfl
  | cons c cs ih => rw [flatMap_cons, append_assoc, stringBody_escape, ih]; rfl

/-! ## Numbers -/

/-- What follows a member: it ends a number. -/
def Ends (rest : List Char) : Prop := ∃ c cs, rest = c :: cs ∧ (c = ',' ∨ c = '}')

theorem fraction_ends (h : Ends rest) (m : List Char) : fraction m rest = some (m, rest) := by
  obtain ⟨c, cs, rfl, rfl | rfl⟩ := h <;> rfl

theorem takeWhile_isDigit {ds : List Char} (hd : ∀ c ∈ ds, c.isDigit = true) (hr : Ends rest) :
    (ds ++ rest).takeWhile Char.isDigit = ds ∧ (ds ++ rest).dropWhile Char.isDigit = rest := by
  have hrest : rest.takeWhile Char.isDigit = [] ∧ rest.dropWhile Char.isDigit = rest := by
    obtain ⟨c, cs, rfl, rfl | rfl⟩ := hr <;> exact ⟨rfl, rfl⟩
  constructor
  · rw [takeWhile_append_of_pos hd, hrest.1, append_nil]
  · rw [dropWhile_append_of_pos hd, hrest.2]

theorem toDigits_head {n : Nat} (h : 0 < n) : (Nat.toDigits 10 n).head? ≠ some '0' := by
  induction n using Nat.strongRecOn with
  | _ n ih =>
    by_cases hn : n < 10
    · rw [Nat.toDigits_of_lt_base hn]
      interval_cases n <;> decide
    · rw [Nat.toDigits_of_base_le (by decide) (not_lt.mp hn)]
      have := ih (n / 10) (by omega) (by omega)
      cases hds : Nat.toDigits 10 (n / 10) with
      | nil => exact absurd hds Nat.toDigits_ne_nil
      | cons d ds => rwa [hds] at this

theorem unsigned_toDigits (hr : Ends rest) (sign : List Char) (n : Nat) :
    unsigned sign (Nat.toDigits 10 n ++ rest) = some (sign ++ Nat.toDigits 10 n, rest) := by
  have hd : ∀ c ∈ Nat.toDigits 10 n, c.isDigit = true := fun c hc =>
    Nat.isDigit_of_mem_toDigits (by decide) (by decide) hc
  obtain ⟨htake, hdrop⟩ := takeWhile_isDigit hd hr
  rcases Nat.eq_zero_or_pos n with rfl | hpos
  · exact fraction_ends hr _
  · have hhead := toDigits_head hpos
    cases hds : Nat.toDigits 10 n with
    | nil => exact absurd hds Nat.toDigits_ne_nil
    | cons d ds =>
      rw [hds] at hd htake hdrop hhead
      have hd0 : d ≠ '0' := by simpa using hhead
      rw [cons_append] at htake hdrop ⊢
      rw [unsigned.eq_def]
      split
      · simp_all
      next he =>
        cases he
        rw [if_pos (hd d mem_cons_self), htake, hdrop]
        exact fraction_ends hr _
      · simp_all

theorem repr_toList (n : Int) : (∃ m : Nat, n = m ∧ n.repr.toList = Nat.toDigits 10 m) ∨
    ∃ m : Nat, n = -(m : Int) ∧ n.repr.toList = '-' :: Nat.toDigits 10 m := by
  cases n with
  | ofNat m => exact .inl ⟨m, rfl, Nat.toList_repr⟩
  | negSucc m => exact .inr ⟨m + 1, rfl, by simp [Int.repr, Nat.toList_repr]⟩

theorem toDigits_cons (n : Nat) : ∃ d ds, Nat.toDigits 10 n = d :: ds ∧ d.isDigit = true := by
  cases hds : Nat.toDigits 10 n with
  | nil => exact absurd hds Nat.toDigits_ne_nil
  | cons d ds =>
    exact ⟨d, ds, rfl, Nat.isDigit_of_mem_toDigits (by decide) (by decide) (hds ▸ mem_cons_self)⟩

theorem numberText_of_isDigit {d : Char} (h : d.isDigit = true) (cs : List Char) :
    numberText (d :: cs) = unsigned [] (d :: cs) := by
  rw [numberText.eq_def]
  split
  · rename_i he; cases he; cases h
  · rfl

theorem numberText_repr (hr : Ends rest) (n : Int) :
    numberText (n.repr.toList ++ rest) = some (n.repr.toList, rest) := by
  rcases repr_toList n with ⟨m, -, hm⟩ | ⟨m, -, hm⟩
  · obtain ⟨d, ds, hds, hd⟩ := toDigits_cons m
    have := unsigned_toDigits hr [] m
    rw [hm]
    rw [hds] at this ⊢
    exact (numberText_of_isDigit hd _).trans this
  · rw [hm]
    exact unsigned_toDigits hr ['-'] m

/-! ## Records -/

theorem skipSpace_cons {c : Char} (h : isJsonSpace c = false) (cs : List Char) : skipSpace (c :: cs) = c :: cs :=
  dropWhile_cons_of_neg (by simp [h])

theorem quote_append (s : String) (rest : List Char) :
    quote s ++ rest = '"' :: (s.toList.flatMap escape ++ '"' :: rest) := by
  simp [quote]

theorem key_quote (k : String) (rest : List Char) : key (quote k ++ ':' :: rest) = some (k, rest) := by
  rw [quote_append, key, skipSpace_cons rfl]
  simp only [stringBody_flatMap]
  rw [skipSpace_cons rfl]
  simp

/-- A character that starts a number starts no other value. -/
theorem scalar_of_numberText {c : Char} (h : c.isDigit = true ∨ c = '-') (cs : List Char) :
    scalar (c :: cs) = (numberText (c :: cs)).map fun p => (.number (String.ofList p.1), p.2) := by
  rw [scalar.eq_def]
  split
  · rename_i he; cases he; rcases h with h | h <;> cases h
  · rename_i he; cases he; rcases h with h | h <;> cases h
  · rename_i he; cases he; rcases h with h | h <;> cases h
  · rename_i he; cases he; rcases h with h | h <;> cases h
  · rfl

theorem scalar_text (hr : Ends rest) (f : Field) : scalar (f.text ++ rest) = some (f.json, rest) := by
  cases f with
  | string s =>
    simp [Field.text, quote_append, scalar, stringBody_flatMap, Field.json]
  | int n =>
    have hnum := numberText_repr hr n
    have hhead : ∃ c cs, n.repr.toList = c :: cs ∧ (c.isDigit = true ∨ c = '-') := by
      rcases repr_toList n with ⟨m, -, hm⟩ | ⟨m, -, hm⟩
      · obtain ⟨d, ds, hds, hd⟩ := toDigits_cons m
        exact ⟨d, ds, hm.trans hds, .inl hd⟩
      · exact ⟨_, _, hm, .inr rfl⟩
    obtain ⟨c, cs, hcs, hc⟩ := hhead
    rw [Field.text]
    rw [hcs] at hnum ⊢
    rw [cons_append] at hnum ⊢
    rw [scalar_of_numberText hc, hnum, map_some, ← hcs, String.ofList_toList, Field.json]

theorem text_cons (f : Field) : ∃ c cs, f.text = c :: cs ∧ isJsonSpace c = false ∧ c ≠ '[' ∧ c ≠ '{' := by
  cases f with
  | string s => exact ⟨_, _, rfl, rfl, by decide, by decide⟩
  | int n =>
    rcases repr_toList n with ⟨m, -, hm⟩ | ⟨m, -, hm⟩
    · obtain ⟨d, ds, hds, hd⟩ := toDigits_cons m
      refine ⟨d, ds, hm.trans hds, ?_, ?_, ?_⟩
      · by_contra hs
        simp only [isJsonSpace, Bool.not_eq_false, Bool.or_eq_true, beq_iff_eq] at hs
        rcases hs with ((rfl | rfl) | rfl) | rfl <;> cases hd
      · rintro rfl; cases hd
      · rintro rfl; cases hd
    · exact ⟨_, _, hm, rfl, by decide, by decide⟩

theorem value_text (hr : Ends rest) (depth : Nat) (f : Field) :
    value depth (skipSpace (f.text ++ rest)) = some (f.json, rest) := by
  obtain ⟨c, cs, hcs, hspace, harr, hobj⟩ := text_cons f
  have hscalar := scalar_text hr f
  rw [hcs, cons_append] at hscalar ⊢
  rw [skipSpace_cons hspace]
  cases depth with
  | zero => exact hscalar
  | succ depth =>
    rw [value, compound.eq_def]
    split
    · rename_i he; cases he; exact absurd rfl harr
    · rename_i he; cases he; exact absurd rfl hobj
    · exact hscalar

/-- The members a record writes are read back. -/
theorem members_text (depth : Nat) {fields : List (String × Field)} (hne : fields ≠ [])
    {fuel : Nat} (hfuel : fields.length ≤ fuel) (rest : List Char) :
    members (value depth) fuel (membersText fields ++ '}' :: rest) =
      some (fields.map fun m => (m.1, m.2.json), rest) := by
  induction fields generalizing fuel with
  | nil => exact absurd rfl hne
  | cons m ms ih =>
    obtain ⟨fuel, rfl⟩ : ∃ k, fuel = k + 1 := ⟨fuel - 1, by simp at hfuel; omega⟩
    cases ms with
    | nil =>
      have hval := value_text ⟨'}', rest, rfl, .inr rfl⟩ depth m.2
      simp only [membersText, memberText, append_assoc, cons_append, members, key_quote, hval]
      rw [skipSpace_cons rfl]
      rfl
    | cons m' ms =>
      have hends : Ends (',' :: (membersText (m' :: ms) ++ '}' :: rest)) := ⟨_, _, rfl, .inl rfl⟩
      have hval := value_text hends depth m.2
      have hrest := ih (cons_ne_nil _ _) (Nat.le_of_succ_le_succ hfuel)
      simp only [membersText, memberText, append_assoc, cons_append, members, key_quote, hval]
      rw [skipSpace_cons rfl]
      simp [hrest]

theorem length_membersText (fields : List (String × Field)) : fields.length ≤ (membersText fields).length := by
  induction fields with
  | nil => exact Nat.zero_le _
  | cons m ms ih =>
    cases ms with
    | nil => simp [membersText, memberText, quote]
    | cons m' ms =>
      simp only [membersText, memberText, quote, length_append, length_cons] at ih ⊢
      omega

theorem membersText_cons {fields : List (String × Field)} (h : fields ≠ []) : ∃ cs, membersText fields = '"' :: cs := by
  match fields, h with
  | [m], _ => exact ⟨_, by rw [membersText, memberText, quote_append]⟩
  | m :: m' :: ms, _ => exact ⟨_, by rw [membersText, memberText, quote_append]; rfl⟩

/-- **Round trip.** A record reads back as the object of its fields. -/
theorem parse_write (fields : List (String × Field)) :
    parse (write fields) = some (.object (fields.map fun m => (m.1, m.2.json))) := by
  by_cases hne : fields = []
  · subst hne; rfl
  obtain ⟨cs, hcs⟩ := membersText_cons hne
  have hlen : fields.length ≤ (membersText fields ++ ['}']).length := by
    rw [length_append]
    exact Nat.le_add_right_of_le (length_membersText fields)
  have hmem := members_text 9999 hne hlen []
  have hvalue : value maxNestingDepth (skipSpace (write fields).toList) =
      some (.object (fields.map fun m => (m.1, m.2.json)), []) := by
    rw [write, String.toList_ofList, cons_append, skipSpace_cons rfl]
    have hdepth : value maxNestingDepth = compound (value 9999) := rfl
    rw [hdepth, compound]
    rw [hcs, cons_append] at hmem ⊢
    rw [skipSpace_cons rfl]
    exact congrArg (Option.map _) hmem
  simp only [parse, hvalue]
  rfl

/-! ## Decoding into a record -/

/-- The case folding under which a key is matched with a field name of ASCII letters. -/
def foldRune (c : Char) : Char :=
  if c.isUpper then c.toLower
  else if c = '\u017f' then 's'
  else if c = '\u212a' then 'k'
  else c

/-- A member's name as the decoder compares it. -/
def foldName (key : String) : String := String.ofList (key.toList.map foldRune)

/-- The number that digits stand for. -/
def digitsValue (ds : List Char) : Option Int :=
  if !ds.isEmpty && ds.all Char.isDigit then some (Nat.ofDigitChars 10 ds 0) else none

/-- `strconv.ParseInt` of a number literal in base ten, for 64 bits. -/
def parseInt64 (literal : String) : Option Int64 :=
  let n? := match literal.toList with
    | '-' :: ds => (digitsValue ds).map (- ·)
    | ds => digitsValue ds
  n?.bind fun n => if -2 ^ 63 ≤ n ∧ n < 2 ^ 63 then some (Int64.ofInt n) else none

/-- What a value stores in a string; `null` leaves it alone. -/
def storeString (old : String) : Json → Option String
  | string s => some s
  | null => some old
  | _ => none

/-- What a value stores in an `int`; `null` leaves it alone. -/
def storeInt (old : Int64) : Json → Option Int64
  | number literal => parseInt64 literal
  | null => some old
  | _ => none

/-- Decode into a record that `set` updates member by member, the last of equal keys winning. -/
def decode {α : Type} (set : α → String → Json → Option α) (zero : α) : Json → Option α
  | object ms => ms.foldlM (fun a m => set a m.1 m.2) zero
  | null => some zero
  | _ => none

theorem digitsValue_toDigits (m : Nat) : digitsValue (Nat.toDigits 10 m) = some (m : Int) := by
  have hall : (Nat.toDigits 10 m).all Char.isDigit :=
    all_eq_true.mpr fun c hc => Nat.isDigit_of_mem_toDigits (by decide) (by decide) hc
  have hne : (Nat.toDigits 10 m).isEmpty = false := by
    rw [isEmpty_eq_false_iff]
    exact Nat.toDigits_ne_nil
  simp [digitsValue, hall, hne, Nat.ofDigitChars_toDigits]

theorem parseInt64_repr (n : Int64) : parseInt64 n.toInt.repr = some n := by
  have hrange : -2 ^ 63 ≤ n.toInt ∧ n.toInt < 2 ^ 63 := ⟨n.le_toInt, n.toInt_lt⟩
  have hvalue : (match n.toInt.repr.toList with
      | '-' :: ds => (digitsValue ds).map (- ·)
      | ds => digitsValue ds) = some n.toInt := by
    rcases repr_toList n.toInt with ⟨m, hn, hm⟩ | ⟨m, hn, hm⟩
    · obtain ⟨d, ds, hds, hd⟩ := toDigits_cons m
      rw [hm, hn, ← digitsValue_toDigits]
      split
      next he =>
        rw [hds] at he
        cases he
        cases hd
      · rfl
    · rw [hm]
      simp only [digitsValue_toDigits, map_some, hn]
  simp only [parseInt64, hvalue, bind_some, if_pos hrange, Int64.ofInt_toInt]

end Json

end Leoflow.Lib
