import Utos.Core.Dict
import Utos.Core.Json
import Utos.Core.Uuid

namespace Utos.Core.JsonText

open Uuid (hexDigits readHex)

/-- One UTF-16 unit as an escape. -/
def unicodeEscape (n : Nat) : List Char := '\\' :: 'u' :: hexDigits 4 n

/-- One character of a text in JSON, with ensure_ascii. -/
def jsonChar (c : Char) : List Char :=
  let n := c.toNat
  if n = 34 ∨ n = 92 then ['\\', c]
  else if n = 10 then ['\\', 'n']
  else if n = 13 then ['\\', 'r']
  else if n = 9 then ['\\', 't']
  else if n = 8 then ['\\', 'b']
  else if n = 12 then ['\\', 'f']
  else if 32 ≤ n ∧ n ≤ 126 then [c]
  else if n < 65536 then unicodeEscape n
  else unicodeEscape (55296 + (n - 65536) / 1024) ++ unicodeEscape (56320 + (n - 65536) % 1024)

def jsonString (s : String) : List Char := '\x22' :: s.toList.flatMap jsonChar ++ ['\x22']

/-- What is written of a float, given its repr: the names of what is no number are others. -/
def floatText (printed : String) : String :=
  if printed = "nan" then "NaN"
  else if printed = "inf" then "Infinity"
  else if printed = "-inf" then "-Infinity"
  else printed

mutual

/-- json.dumps(value) -/
def dumps : Json → List Char
  | .null => "null".toList
  | .bool true => "true".toList
  | .bool false => "false".toList
  | .int n => (toString n).toList
  | .float _ printed => (floatText printed).toList
  | .text s => jsonString s
  | .list items => '[' :: [',', ' '].intercalate (dumpsItems items) ++ [']']
  | .object fields => '\x7b' :: [',', ' '].intercalate (dumpsFields fields) ++ ['\x7d']
termination_by structural j => j

def dumpsItems : List Json → List (List Char)
  | [] => []
  | j :: rest => dumps j :: dumpsItems rest
termination_by structural items => items

def dumpsFields : List (String × Json) → List (List Char)
  | [] => []
  | (key, j) :: rest => (jsonString key ++ ':' :: ' ' :: dumps j) :: dumpsFields rest
termination_by structural fields => fields

end

def isSpace (c : Char) : Bool := c = ' ' ∨ c = '\t' ∨ c = '\n' ∨ c = '\r'

def skipSpace : List Char → List Char := List.dropWhile isSpace

/-- Four hexadecimal digits. -/
def scanUnit (text : List Char) : Option (Nat × List Char) :=
  if text.length < 4 then none else (readHex 0 (text.take 4)).map (fun n => (n, text.drop 4))

/-- The character of a \u escape, or of two that are a surrogate pair. A lone
surrogate is no character of a text here; it is refused. -/
def scanUnicode (text : List Char) : Option (Char × List Char) := do
  let (high, rest) ← scanUnit text
  if 55296 ≤ high ∧ high < 56320 then
    let (low, rest) ← scanUnit (← rest.dropPrefix? ['\\', 'u'])
    if 56320 ≤ low ∧ low < 57344 then
      return (Char.ofNat (65536 + (high - 55296) * 1024 + (low - 56320)), rest)
    else none
  else if 56320 ≤ high ∧ high < 57344 then none
  else return (Char.ofNat high, rest)

/-- What the letter behind a backslash stands for. -/
def escapes : List (Char × Char) :=
  [('\x22', '\x22'), ('\\', '\\'), ('/', '/'), ('b', '\x08'), ('f', '\x0c'), ('n', '\n'), ('r', '\r'), ('t', '\t')]

/-- One character of a string, in strict mode. -/
def scanChar : List Char → Option (Char × List Char)
  | '\\' :: 'u' :: rest => scanUnicode rest
  | '\\' :: c :: rest => (escapes.lookup c).map (fun d => (d, rest))
  | c :: rest => if 32 ≤ c.toNat ∧ c ≠ '\\' then some (c, rest) else none
  | [] => none

/-- scanstring: what stands before the closing quote, and the text behind it. -/
def scanString : Nat → List Char → Option (String × List Char)
  | 0, _ => none
  | _ + 1, '\x22' :: rest => some ("", rest)
  | fuel + 1, text => do
    let (c, rest) ← scanChar text
    let (s, rest) ← scanString fuel rest
    return (String.ofList (c :: s.toList), rest)

/-- null, true and false, and the names of the floats that are no numbers. -/
def literals : List (String × Json) :=
  [("null", .null), ("true", .bool true), ("false", .bool false), ("NaN", .float none "nan"),
    ("Infinity", .float none "inf"), ("-Infinity", .float none "-inf")]

def scanLiteral (text : List Char) : Option (Json × List Char) :=
  literals.findSome? (fun e => (text.dropPrefix? e.1.toList).map (fun rest => (e.2, rest)))

/-- 0, or digits that do not begin with it. -/
def wholePart (text : List Char) : List Char :=
  if text.head? = some '0' then ['0'] else text.takeWhile Char.isDigit

/-- A point and digits, or nothing. -/
def fracPart : List Char → List Char
  | '.' :: rest => if rest.takeWhile Char.isDigit = [] then [] else '.' :: rest.takeWhile Char.isDigit
  | _ => []

/-- An exponent, or nothing. -/
def exponentPart : List Char → List Char
  | [] => []
  | c :: rest =>
      let sign := rest.takeWhile (fun d => d = '-' ∨ d = '+') |>.take 1
      let digits := (rest.drop sign.length).takeWhile Char.isDigit
      if (c = 'e' ∨ c = 'E') ∧ digits ≠ [] then c :: sign ++ digits else []

section

-- float(text), for the text of a number that is no integer
variable (float : String → Json)

def scanNumber (text : List Char) : Option (Json × List Char) :=
  let sign := if text.head? = some '-' then ['-'] else []
  let whole := wholePart (text.drop sign.length)
  let rest := text.drop (sign ++ whole).length
  let frac := fracPart rest
  let exponent := exponentPart (rest.drop frac.length)
  if whole = [] then none
  else if frac ++ exponent = [] then
    some (.int (if sign = [] then Nat.ofDigitChars 10 whole 0 else -Nat.ofDigitChars 10 whole 0), rest)
  else some (float (String.ofList (sign ++ whole ++ frac ++ exponent)), rest.drop (frac ++ exponent).length)

/-- The dict of some pairs: of two with one key the later one counts. -/
def objectOf (fields : List (String × Json)) : Json :=
  .object (fields.foldl (fun d e => d.set e.1 e.2) (∅ : Dict String Json)).entries

mutual

/-- scan_once: the value at the front of a text, and the text behind it. -/
def scanOnce : Nat → List Char → Option (Json × List Char)
  | 0, _ => none
  | _ + 1, '\x22' :: rest => (scanString rest.length rest).map (fun (s, rest) => (.text s, rest))
  | fuel + 1, '[' :: rest =>
      if (skipSpace rest).head? = some ']' then some (.list [], (skipSpace rest).tail)
      else (scanItems fuel (skipSpace rest)).map (fun (items, rest) => (.list items, rest))
  | fuel + 1, '\x7b' :: rest =>
      if (skipSpace rest).head? = some '\x7d' then some (.object [], (skipSpace rest).tail)
      else (scanFields fuel (skipSpace rest)).map (fun (fields, rest) => (objectOf fields, rest))
  | _ + 1, text => (scanLiteral text).or (scanNumber float text)

def scanItems : Nat → List Char → Option (List Json × List Char)
  | 0, _ => none
  | fuel + 1, text => do
    let (item, rest) ← scanOnce fuel text
    match skipSpace rest with
    | ']' :: rest => return ([item], rest)
    | ',' :: rest =>
      let (items, rest) ← scanItems fuel (skipSpace rest)
      return (item :: items, rest)
    | _ => none

def scanFields : Nat → List Char → Option (List (String × Json) × List Char)
  | 0, _ => none
  | fuel + 1, '\x22' :: text => do
    let (key, rest) ← scanString text.length text
    match skipSpace rest with
    | ':' :: rest =>
      let (value, rest) ← scanOnce fuel (skipSpace rest)
      match skipSpace rest with
      | '\x7d' :: rest => return ([(key, value)], rest)
      | ',' :: rest =>
        let (fields, rest) ← scanFields fuel (skipSpace rest)
        return ((key, value) :: fields, rest)
      | _ => none
    | _ => none
  | _ + 1, _ => none

end

/-- json.loads(text); None is its JSONDecodeError. -/
def loads (text : List Char) : Option Json := do
  let (value, rest) ← scanOnce float text.length (skipSpace text)
  if skipSpace rest = [] then return value else none

end

theorem scanUnit_hexDigits {n : Nat} (h : n < 65536) (rest : List Char) :
    scanUnit (hexDigits 4 n ++ rest) = some (n, rest) := by
  have hlen : (hexDigits 4 n).length = 4 := Uuid.length_hexDigits 4 n
  have htake : (hexDigits 4 n ++ rest).take 4 = hexDigits 4 n := List.take_left' hlen
  have hdrop : (hexDigits 4 n ++ rest).drop 4 = rest := List.drop_left' hlen
  have hshort : ¬ (hexDigits 4 n ++ rest).length < 4 := by rw [List.length_append, hlen]; omega
  rw [scanUnit, if_neg hshort, htake, hdrop, Uuid.readHex_hexDigits 4 n h]
  rfl

theorem scanUnicode_hexDigits {c : Char} (h : c.toNat < 65536) (rest : List Char) :
    scanUnicode (hexDigits 4 c.toNat ++ rest) = some (c, rest) := by
  have hvalid : c.toNat < 55296 ∨ 57343 < c.toNat := by
    rcases c.valid with hlow | ⟨hhigh, -⟩
    · exact Or.inl hlow
    · exact Or.inr hhigh
  have hhigh : ¬ (55296 ≤ c.toNat ∧ c.toNat < 56320) := by omega
  have hlow : ¬ (56320 ≤ c.toNat ∧ c.toNat < 57344) := by omega
  simp only [scanUnicode, scanUnit_hexDigits h, Option.bind_eq_bind, Option.bind_some, if_neg hhigh, if_neg hlow,
    Char.ofNat_toNat]
  rfl

theorem dropPrefix_unicodeEscape (n : Nat) (rest : List Char) :
    (unicodeEscape n ++ rest).dropPrefix? ['\\', 'u'] = some (hexDigits 4 n ++ rest) := by
  simp [unicodeEscape, List.dropPrefix?]

theorem scanUnicode_units {high low : Nat} (hhigh : 55296 ≤ high ∧ high < 56320) (hlow : 56320 ≤ low ∧ low < 57344)
    (rest : List Char) : scanUnicode (hexDigits 4 high ++ (unicodeEscape low ++ rest)) =
      some (Char.ofNat (65536 + (high - 55296) * 1024 + (low - 56320)), rest) := by
  have hfirst := scanUnit_hexDigits (show high < 65536 by omega) (unicodeEscape low ++ rest)
  have hsecond := scanUnit_hexDigits (show low < 65536 by omega) rest
  simp only [scanUnicode, hfirst, Option.bind_eq_bind, Option.bind_some, if_pos hhigh, dropPrefix_unicodeEscape,
    hsecond, if_pos hlow]
  rfl

/-- A character beyond the first plane is put together from its two units. -/
theorem scanUnicode_pair {c : Char} (h : 65536 ≤ c.toNat) (rest : List Char) :
    scanUnicode (hexDigits 4 (55296 + (c.toNat - 65536) / 1024) ++
      (unicodeEscape (56320 + (c.toNat - 65536) % 1024) ++ rest)) = some (c, rest) := by
  have hmax : c.toNat < 1114112 := by
    rcases c.valid with hlow | ⟨-, hhigh⟩
    · exact Nat.lt_trans hlow (by decide)
    · exact hhigh
  generalize hquot : (c.toNat - 65536) / 1024 = q
  generalize hrem : (c.toNat - 65536) % 1024 = r
  have hnat : 65536 + (55296 + q - 55296) * 1024 + (56320 + r - 56320) = c.toNat := by omega
  rw [scanUnicode_units (by omega) (by omega), hnat, Char.ofNat_toNat]

theorem char_eq {c : Char} {n : Nat} (h : c.toNat = n) : c = Char.ofNat n := by rw [← h, Char.ofNat_toNat]

theorem scanChar_plain {c : Char} (h : 32 ≤ c.toNat) (hback : c ≠ '\\') (rest : List Char) :
    scanChar (c :: rest) = some (c, rest) := by
  unfold scanChar
  split
  next heq => exact absurd (List.cons.inj heq).1 hback
  next heq => exact absurd (List.cons.inj heq).1 hback
  next heq =>
    obtain ⟨rfl, rfl⟩ := List.cons.inj heq
    exact if_pos ⟨h, hback⟩
  next heq => cases heq

/-- A character is written as a letter behind a backslash, as itself, or as one or two escaped units. -/
theorem jsonChar_cases (c : Char) :
    (∃ e, jsonChar c = ['\\', e] ∧ ∀ rest, scanChar ('\\' :: e :: rest) = some (c, rest)) ∨
      (jsonChar c = [c] ∧ 32 ≤ c.toNat ∧ c.toNat ≠ 34 ∧ c.toNat ≠ 92) ∨
      (jsonChar c = unicodeEscape c.toNat ∧ c.toNat < 65536) ∨
      (jsonChar c = unicodeEscape (55296 + (c.toNat - 65536) / 1024) ++
        unicodeEscape (56320 + (c.toNat - 65536) % 1024) ∧ 65536 ≤ c.toNat) := by
  by_cases hquote : c.toNat = 34 ∨ c.toNat = 92
  · refine .inl ⟨c, if_pos hquote, fun rest => ?_⟩
    rcases hquote with h | h <;> rw [char_eq h] <;> rfl
  by_cases hletter : c.toNat = 10 ∨ c.toNat = 13 ∨ c.toNat = 9 ∨ c.toNat = 8 ∨ c.toNat = 12
  · refine .inl ?_
    rcases hletter with h | h | h | h | h <;> rw [char_eq h] <;> exact ⟨_, rfl, fun rest => rfl⟩
  simp only [not_or] at hquote hletter
  obtain ⟨h10, h13, h9, h8, h12⟩ := hletter
  have hplain : jsonChar c = if 32 ≤ c.toNat ∧ c.toNat ≤ 126 then [c] else if c.toNat < 65536 then unicodeEscape c.toNat
      else unicodeEscape (55296 + (c.toNat - 65536) / 1024) ++ unicodeEscape (56320 + (c.toNat - 65536) % 1024) := by
    simp only [jsonChar, hquote, h10, h13, h9, h8, h12, or_self, if_false]
  by_cases hprinted : 32 ≤ c.toNat ∧ c.toNat ≤ 126
  · rw [if_pos hprinted] at hplain
    exact .inr (.inl ⟨hplain, hprinted.1, hquote⟩)
  rw [if_neg hprinted] at hplain
  by_cases hunit : c.toNat < 65536
  · rw [if_pos hunit] at hplain
    exact .inr (.inr (.inl ⟨hplain, hunit⟩))
  · rw [if_neg hunit] at hplain
    exact .inr (.inr (.inr ⟨hplain, not_lt.mp hunit⟩))

/-- A character is read back as it was written, whatever stands behind it. -/
theorem scanChar_jsonChar (c : Char) (rest : List Char) : scanChar (jsonChar c ++ rest) = some (c, rest) := by
  rcases jsonChar_cases c with ⟨e, hc, hscan⟩ | ⟨hc, hlow, -, hback⟩ | ⟨hc, h⟩ | ⟨hc, h⟩
  · rw [hc]
    exact hscan rest
  · rw [hc]
    exact scanChar_plain hlow (fun heq => hback (by rw [heq]; rfl)) rest
  · rw [hc]
    exact scanUnicode_hexDigits h rest
  · rw [hc, List.append_assoc]
    exact scanUnicode_pair h rest

theorem jsonChar_eq_cons (c : Char) : ∃ d ds, jsonChar c = d :: ds ∧ d ≠ '\x22' := by
  rcases jsonChar_cases c with ⟨e, hc, -⟩ | ⟨hc, -, hquote, -⟩ | ⟨hc, -⟩ | ⟨hc, -⟩
  · exact ⟨_, _, hc, by decide⟩
  · exact ⟨_, _, hc, fun heq => hquote (by rw [heq]; rfl)⟩
  · exact ⟨_, _, hc, by decide⟩
  · exact ⟨_, _, hc, by decide⟩

theorem scanString_cons {d : Char} (h : d ≠ '\x22') (fuel : Nat) (text : List Char) :
    scanString (fuel + 1) (d :: text) = (scanChar (d :: text)).bind (fun (c, rest) =>
      (scanString fuel rest).bind (fun (s, rest) => some (String.ofList (c :: s.toList), rest))) := by
  rw [scanString]
  · rfl
  · intro rest heq
    exact h (List.cons.inj heq).1

theorem scanString_flatMap (cs rest : List Char) (fuel : Nat) (hfuel : cs.length < fuel) :
    scanString fuel (cs.flatMap jsonChar ++ '\x22' :: rest) = some (String.ofList cs, rest) := by
  induction cs generalizing fuel with
  | nil =>
      obtain ⟨fuel, rfl⟩ := Nat.exists_eq_succ_of_ne_zero (Nat.ne_of_gt hfuel)
      rfl
  | cons c cs ih =>
      obtain ⟨fuel, rfl⟩ := Nat.exists_eq_succ_of_ne_zero (Nat.ne_zero_of_lt hfuel)
      obtain ⟨d, ds, hd, hne⟩ := jsonChar_eq_cons c
      have hchar := scanChar_jsonChar c (cs.flatMap jsonChar ++ '\x22' :: rest)
      rw [List.flatMap_cons, List.append_assoc]
      rw [hd, List.cons_append] at hchar ⊢
      rw [scanString_cons hne, hchar, Option.bind_some]
      simp only [ih fuel (Nat.lt_of_succ_lt_succ hfuel), Option.bind_some, String.toList_ofList]

theorem length_le_flatMap (cs : List Char) : cs.length ≤ (cs.flatMap jsonChar).length := by
  induction cs with
  | nil => exact Nat.le_refl _
  | cons c cs ih =>
      obtain ⟨d, ds, hd, -⟩ := jsonChar_eq_cons c
      rw [List.flatMap_cons, hd, List.length_append, List.length_cons, List.length_cons]
      omega

/-- A string is read back, from behind its opening quote on. -/
theorem scanString_jsonString (s : String) (rest : List Char) :
    ∃ text, jsonString s ++ rest = '\x22' :: text ∧ scanString text.length text = some (s, rest) := by
  refine ⟨s.toList.flatMap jsonChar ++ '\x22' :: rest, by simp [jsonString], ?_⟩
  have hlen := length_le_flatMap s.toList
  rw [scanString_flatMap, String.ofList_toList]
  rw [List.length_append, List.length_cons]
  omega

/-- The text ends, or goes on behind an item of a list or a dict. -/
def Ends (rest : List Char) : Prop := ∀ c ∈ rest.head?, c = ',' ∨ c = ']' ∨ c = '\x7d'

theorem head_toDigits {n : Nat} (h : n ≠ 0) : (Nat.toDigits 10 n).head? ≠ some '0' := by
  induction n using Nat.strong_induction_on with
  | h n ih =>
      rw [Nat.toDigits_eq_if (by decide)]
      split
      next hlt =>
        have hall : ∀ d < 10, d ≠ 0 → [Nat.digitChar d].head? ≠ some '0' := by decide
        exact hall n hlt h
      next hge =>
        rw [List.head?_append_of_ne_nil _ Nat.toDigits_ne_nil]
        exact ih (n / 10) (by omega) (by omega)

variable {rest : List Char}

theorem takeWhile_ends (h : Ends rest) : rest.takeWhile Char.isDigit = [] := by
  cases rest with
  | nil => rfl
  | cons c rest => rcases h c rfl with rfl | rfl | rfl <;> rfl

theorem wholePart_toDigits (n : Nat) (h : Ends rest) : wholePart (Nat.toDigits 10 n ++ rest) = Nat.toDigits 10 n := by
  by_cases hn : n = 0
  · subst hn
    rfl
  · have hhead : (Nat.toDigits 10 n ++ rest).head? ≠ some '0' := by
      rw [List.head?_append_of_ne_nil _ Nat.toDigits_ne_nil]
      exact head_toDigits hn
    rw [wholePart, if_neg hhead, List.takeWhile_append_of_pos, takeWhile_ends h, List.append_nil]
    exact fun c hc => Nat.isDigit_of_mem_toDigits (by decide) (by decide) hc

theorem fracPart_ends (h : Ends rest) : fracPart rest = [] := by
  cases rest with
  | nil => rfl
  | cons c rest => rcases h c rfl with rfl | rfl | rfl <;> rfl

theorem exponentPart_ends (h : Ends rest) : exponentPart rest = [] := by
  cases rest with
  | nil => rfl
  | cons c rest =>
      have hc : ¬ (c = 'e' ∨ c = 'E') := by rcases h c rfl with rfl | rfl | rfl <;> decide
      exact if_neg (fun hexp => hc hexp.1)

theorem toDigits_eq_cons (n : Nat) : ∃ c cs, Nat.toDigits 10 n = c :: cs ∧ c.isDigit = true := by
  obtain ⟨c, cs, hdigits⟩ := List.exists_cons_of_ne_nil (Nat.toDigits_ne_nil (b := 10) (n := n))
  refine ⟨c, cs, hdigits, Nat.isDigit_of_mem_toDigits (b := 10) (n := n) (by decide) (by decide) ?_⟩
  rw [hdigits]
  exact List.mem_cons_self

theorem ne_of_isDigit {c d : Char} (hc : c.isDigit = true) (hd : d.isDigit = false) : c ≠ d := by
  rintro rfl
  rw [hc] at hd
  cases hd

section

variable (float : String → Json)

theorem scanNumber_nat (n : Nat) (h : Ends rest) :
    scanNumber float (Nat.toDigits 10 n ++ rest) = some (.int n, rest) := by
  have hminus : (Nat.toDigits 10 n ++ rest).head? ≠ some '-' := by
    intro hc
    rw [List.head?_append_of_ne_nil _ Nat.toDigits_ne_nil] at hc
    have hdigit := Nat.isDigit_of_mem_toDigits (b := 10) (by decide) (by decide) (List.mem_of_head? hc)
    exact absurd hdigit (by decide)
  simp only [scanNumber, if_neg hminus, List.length_nil, List.drop_zero, List.nil_append, wholePart_toDigits n h,
    List.drop_left, fracPart_ends h, exponentPart_ends h, List.append_nil, if_neg Nat.toDigits_ne_nil, if_pos,
    Nat.ofDigitChars_ten_toDigits]

theorem scanNumber_neg (n : Nat) (h : Ends rest) :
    scanNumber float ('-' :: (Nat.toDigits 10 n ++ rest)) = some (.int (-n), rest) := by
  have hminus : ('-' :: (Nat.toDigits 10 n ++ rest)).head? = some '-' := rfl
  have hdrop : ('-' :: (Nat.toDigits 10 n ++ rest)).drop (['-'] ++ Nat.toDigits 10 n).length = rest := by simp
  have hone : ('-' :: (Nat.toDigits 10 n ++ rest)).drop ['-'].length = Nat.toDigits 10 n ++ rest := rfl
  simp only [scanNumber, if_pos hminus, hone, wholePart_toDigits n h, hdrop, fracPart_ends h, exponentPart_ends h,
    List.append_nil, List.length_nil, List.drop_zero, if_neg Nat.toDigits_ne_nil, if_true,
    if_neg (List.cons_ne_nil _ _), Nat.ofDigitChars_ten_toDigits]

theorem toList_toString (n : Int) : (toString n).toList =
    (if 0 ≤ n then [] else ['-']) ++ Nat.toDigits 10 n.natAbs := by
  rw [Int.toString_eq_repr, Int.repr_eq_if]
  split
  next h =>
    rw [show n.natAbs = n.toNat by omega, List.nil_append]
    exact String.toList_ofList
  next h =>
    rw [show n.natAbs = (-n).toNat by omega, String.toList_append]
    exact congrArg (fun ds => ['-'] ++ ds) String.toList_ofList

/-- A value with no float in it, and with no key twice in a dict. -/
inductive Exact : Json → Prop
  | null : Exact .null
  | bool (b : Bool) : Exact (.bool b)
  | int (n : Int) : Exact (.int n)
  | text (s : String) : Exact (.text s)
  | list {items : List Json} (h : ∀ j ∈ items, Exact j) : Exact (.list items)
  | object {fields : List (String × Json)} (hnodup : (fields.map Prod.fst).Nodup) (h : ∀ e ∈ fields, Exact e.2) :
      Exact (.object fields)

/-- The value is read back from the front of a text. -/
def Reads (j : Json) : Prop := ∀ rest fuel, Ends rest → (dumps j).length ≤ fuel →
  scanOnce float fuel (dumps j ++ rest) = some (j, rest)

variable {float}

theorem scanOnce_other {c : Char} (hquote : c ≠ '\x22') (hlist : c ≠ '[') (hobject : c ≠ '\x7b') (fuel : Nat)
    (text : List Char) : scanOnce float (fuel + 1) (c :: text) =
      (scanLiteral (c :: text)).or (scanNumber float (c :: text)) := by
  rw [scanOnce]
  · exact fun _ heq => hquote (List.cons.inj heq).1
  · exact fun _ heq => hlist (List.cons.inj heq).1
  · exact fun _ heq => hobject (List.cons.inj heq).1

theorem scanLiteral_digit {c : Char} (hc : c.isDigit = true) (text : List Char) : scanLiteral (c :: text) = none := by
  have hne (d : Char) (hd : d.isDigit = false) : (c == d) = false := beq_eq_false_iff_ne.mpr (ne_of_isDigit hc hd)
  simp [scanLiteral, literals, List.dropPrefix?, hne]

theorem scanLiteral_minus {c : Char} (hc : c.isDigit = true) (text : List Char) :
    scanLiteral ('-' :: c :: text) = none := by
  have hne : (c == 'I') = false := beq_eq_false_iff_ne.mpr (ne_of_isDigit hc (by decide))
  simp [scanLiteral, literals, List.dropPrefix?, hne]

theorem reads_int (n : Int) : Reads float (.int n) := by
  intro rest fuel hrest hfuel
  obtain ⟨c, cs, hdigits, hc⟩ := toDigits_eq_cons n.natAbs
  rw [dumps, toList_toString] at hfuel ⊢
  obtain ⟨fuel, rfl⟩ : ∃ m, fuel = m + 1 := by
    refine Nat.exists_eq_succ_of_ne_zero (fun h0 => ?_)
    rw [h0, hdigits] at hfuel
    simp at hfuel
  by_cases hn : 0 ≤ n
  · rw [if_pos hn, List.nil_append]
    have hnumber := scanNumber_nat float n.natAbs hrest
    rw [Int.natAbs_of_nonneg hn] at hnumber
    rw [hdigits, List.cons_append] at hnumber ⊢
    rw [scanOnce_other (ne_of_isDigit hc (by decide)) (ne_of_isDigit hc (by decide)) (ne_of_isDigit hc (by decide)),
      scanLiteral_digit hc, hnumber]
    rfl
  · rw [if_neg hn]
    have hnumber := scanNumber_neg float n.natAbs hrest
    rw [show -(n.natAbs : Int) = n by omega] at hnumber
    rw [hdigits, List.cons_append] at hnumber ⊢
    rw [List.cons_append, List.nil_append, List.cons_append, scanOnce_other (by decide) (by decide) (by decide),
      scanLiteral_minus hc, hnumber]
    rfl

theorem objectOf_eq {fields : List (String × Json)} (h : (fields.map Prod.fst).Nodup) :
    objectOf fields = .object fields :=
  congrArg Json.object (Dict.entries_foldl_set (∅ : Dict String Json) fields h)

/-- What is written of a value begins with something that is neither a blank nor a closing bracket. -/
theorem dumps_eq_cons {j : Json} (h : Exact j) : ∃ c cs, dumps j = c :: cs ∧ isSpace c = false ∧ c ≠ ']' := by
  cases h with
  | null => exact ⟨_, _, rfl, by decide, by decide⟩
  | bool b => cases b <;> exact ⟨_, _, rfl, by decide, by decide⟩
  | int n =>
      obtain ⟨c, cs, hdigits, hc⟩ := toDigits_eq_cons n.natAbs
      have hspace : isSpace c = false := by
        have hne (d : Char) (hd : d.isDigit = false) : c ≠ d := ne_of_isDigit hc hd
        simp [isSpace, hne]
      rw [dumps, toList_toString, hdigits]
      split
      · exact ⟨c, cs, rfl, hspace, ne_of_isDigit hc (by decide)⟩
      · exact ⟨_, _, rfl, by decide, by decide⟩
  | text s => exact ⟨_, _, rfl, by decide, by decide⟩
  | list h => exact ⟨_, _, rfl, by decide, by decide⟩
  | object hnodup h => exact ⟨_, _, rfl, by decide, by decide⟩

theorem skipSpace_dumps {j : Json} (h : Exact j) (rest : List Char) : skipSpace (dumps j ++ rest) = dumps j ++ rest := by
  obtain ⟨c, cs, hcs, hspace, -⟩ := dumps_eq_cons h
  rw [hcs, List.cons_append, skipSpace, List.dropWhile_cons_of_neg (by simp [hspace])]

variable {fuel : Nat} {text more : List Char} {item : Json} {items : List Json}

theorem scanItems_last (h : scanOnce float fuel text = some (item, ']' :: rest)) :
    scanItems float (fuel + 1) text = some ([item], rest) := by
  rw [scanItems, h]
  rfl

theorem scanItems_next (h : scanOnce float fuel text = some (item, ',' :: ' ' :: more))
    (hmore : skipSpace more = more) (hitems : scanItems float fuel more = some (items, rest)) :
    scanItems float (fuel + 1) text = some (item :: items, rest) := by
  have hskip : skipSpace (' ' :: more) = more := hmore
  rw [scanItems, h]
  simp only [Option.bind_eq_bind, Option.bind_some, show skipSpace (',' :: ' ' :: more) = ',' :: ' ' :: more from rfl,
    hskip, hitems]
  rfl

theorem intercalate_dumpsItems (j : Json) (items : List Json) :
    ∃ tail, [',', ' '].intercalate (dumpsItems (j :: items)) = dumps j ++ tail := by
  cases items with
  | nil => exact ⟨[], by rw [dumpsItems, dumpsItems, List.intercalate_singleton, List.append_nil]⟩
  | cons j' items =>
      rw [dumpsItems, dumpsItems, List.intercalate_cons_cons, List.append_assoc]
      exact ⟨_, rfl⟩

theorem skipSpace_dumpsItems {j : Json} (h : Exact j) (items : List Json) (rest : List Char) :
    skipSpace ([',', ' '].intercalate (dumpsItems (j :: items)) ++ rest) =
      [',', ' '].intercalate (dumpsItems (j :: items)) ++ rest := by
  obtain ⟨tail, htail⟩ := intercalate_dumpsItems j items
  rw [htail, List.append_assoc]
  exact skipSpace_dumps h _

theorem ends_comma (rest : List Char) : Ends (',' :: rest) := by
  rintro c ⟨⟩
  exact Or.inl rfl

theorem ends_bracket (rest : List Char) : Ends (']' :: rest) := by
  rintro c ⟨⟩
  exact Or.inr (Or.inl rfl)

theorem ends_brace (rest : List Char) : Ends ('\x7d' :: rest) := by
  rintro c ⟨⟩
  exact Or.inr (Or.inr rfl)

theorem scanItems_dumps {items : List Json} (hne : items ≠ []) (hexact : ∀ j ∈ items, Exact j)
    (h : ∀ j ∈ items, Reads float j) (rest : List Char) (fuel : Nat)
    (hfuel : ([',', ' '].intercalate (dumpsItems items)).length < fuel) :
    scanItems float fuel ([',', ' '].intercalate (dumpsItems items) ++ ']' :: rest) = some (items, rest) := by
  induction items generalizing fuel with
  | nil => exact absurd rfl hne
  | cons j items ih =>
      obtain ⟨fuel, rfl⟩ := Nat.exists_eq_succ_of_ne_zero (Nat.ne_zero_of_lt hfuel)
      have hj := h j List.mem_cons_self
      cases items with
      | nil =>
          rw [dumpsItems, dumpsItems, List.intercalate_singleton] at hfuel ⊢
          apply scanItems_last
          exact hj _ _ (ends_bracket rest) (Nat.lt_succ_iff.mp hfuel)
      | cons j' items =>
          rw [dumpsItems, dumpsItems, List.intercalate_cons_cons] at hfuel ⊢
          rw [← dumpsItems] at hfuel ⊢
          simp only [List.length_append, List.length_cons, List.length_nil] at hfuel
          have hitems := ih (List.cons_ne_nil _ _) (fun j hj => hexact j (List.mem_cons_of_mem _ hj))
            (fun j hj => h j (List.mem_cons_of_mem _ hj)) fuel (by omega)
          have hmore := skipSpace_dumpsItems (hexact j' (by simp)) items (']' :: rest)
          rw [List.append_assoc, List.append_assoc]
          exact scanItems_next (hj _ _ (ends_comma _) (by omega)) hmore hitems

variable {key : String} {value : Json} {fields : List (String × Json)}

theorem scanFields_last (hkey : scanString text.length text = some (key, ':' :: ' ' :: more))
    (hmore : skipSpace more = more) (hvalue : scanOnce float fuel more = some (value, '\x7d' :: rest)) :
    scanFields float (fuel + 1) ('\x22' :: text) = some ([(key, value)], rest) := by
  have hskip : skipSpace (' ' :: more) = more := hmore
  rw [scanFields, hkey]
  simp only [Option.bind_eq_bind, Option.bind_some, show skipSpace (':' :: ' ' :: more) = ':' :: ' ' :: more from rfl,
    hskip, hvalue]
  rfl

theorem scanFields_next {behind : List Char} (hkey : scanString text.length text = some (key, ':' :: ' ' :: more))
    (hmore : skipSpace more = more) (hvalue : scanOnce float fuel more = some (value, ',' :: ' ' :: behind))
    (hbehind : skipSpace behind = behind) (hfields : scanFields float fuel behind = some (fields, rest)) :
    scanFields float (fuel + 1) ('\x22' :: text) = some ((key, value) :: fields, rest) := by
  have hskip : skipSpace (' ' :: more) = more := hmore
  have hskip' : skipSpace (' ' :: behind) = behind := hbehind
  rw [scanFields, hkey]
  simp only [Option.bind_eq_bind, Option.bind_some, show skipSpace (':' :: ' ' :: more) = ':' :: ' ' :: more from rfl,
    hskip, hvalue, show skipSpace (',' :: ' ' :: behind) = ',' :: ' ' :: behind from rfl, hskip', hfields]
  rfl

theorem intercalate_dumpsFields (e : String × Json) (fields : List (String × Json)) :
    ∃ tail, [',', ' '].intercalate (dumpsFields (e :: fields)) = '\x22' :: tail := by
  cases fields with
  | nil =>
      rw [dumpsFields, dumpsFields, List.intercalate_singleton]
      exact ⟨_, rfl⟩
  | cons e' fields =>
      rw [dumpsFields, dumpsFields, List.intercalate_cons_cons]
      exact ⟨_, rfl⟩

theorem skipSpace_dumpsFields (e : String × Json) (fields : List (String × Json)) (rest : List Char) :
    skipSpace ([',', ' '].intercalate (dumpsFields (e :: fields)) ++ rest) =
      [',', ' '].intercalate (dumpsFields (e :: fields)) ++ rest := by
  obtain ⟨tail, htail⟩ := intercalate_dumpsFields e fields
  rw [htail]
  rfl

theorem scanFields_dumps {fields : List (String × Json)} (hne : fields ≠ []) (hexact : ∀ e ∈ fields, Exact e.2)
    (h : ∀ e ∈ fields, Reads float e.2) (rest : List Char) (fuel : Nat)
    (hfuel : ([',', ' '].intercalate (dumpsFields fields)).length < fuel) :
    scanFields float fuel ([',', ' '].intercalate (dumpsFields fields) ++ '\x7d' :: rest) = some (fields, rest) := by
  induction fields generalizing fuel with
  | nil => exact absurd rfl hne
  | cons e fields ih =>
      obtain ⟨key, value⟩ := e
      obtain ⟨fuel, rfl⟩ := Nat.exists_eq_succ_of_ne_zero (Nat.ne_zero_of_lt hfuel)
      have hvalue : Reads float value := h (key, value) List.mem_cons_self
      have hstart := skipSpace_dumps (hexact (key, value) List.mem_cons_self)
      cases fields with
      | nil =>
          rw [dumpsFields, dumpsFields, List.intercalate_singleton] at hfuel ⊢
          simp only [List.length_append, List.length_cons] at hfuel
          rw [List.append_assoc, List.cons_append, List.cons_append]
          obtain ⟨text, htext, hkey⟩ := scanString_jsonString key (':' :: ' ' :: (dumps value ++ '\x7d' :: rest))
          rw [htext]
          exact scanFields_last hkey (hstart _) (hvalue _ _ (ends_brace rest) (by omega))
      | cons e' fields =>
          obtain ⟨key', value'⟩ := e'
          rw [dumpsFields, dumpsFields, List.intercalate_cons_cons] at hfuel ⊢
          rw [← dumpsFields] at hfuel ⊢
          simp only [List.length_append, List.length_cons, List.length_nil] at hfuel
          have hfields := ih (List.cons_ne_nil _ _) (fun e he => hexact e (List.mem_cons_of_mem _ he))
            (fun e he => h e (List.mem_cons_of_mem _ he)) fuel (by omega)
          have hbehind := skipSpace_dumpsFields (key', value') fields ('\x7d' :: rest)
          rw [List.append_assoc, List.append_assoc, List.append_assoc, List.cons_append, List.cons_append]
          obtain ⟨text, htext, hkey⟩ := scanString_jsonString key (':' :: ' ' :: (dumps value ++ ([',', ' '] ++
            ([',', ' '].intercalate (dumpsFields ((key', value') :: fields)) ++ '\x7d' :: rest))))
          rw [htext]
          exact scanFields_next hkey (hstart _) (hvalue _ _ (ends_comma _) (by omega)) hbehind hfields

theorem exists_fuel {j : Json} (h : Exact j) (hfuel : (dumps j).length ≤ fuel) : ∃ m, fuel = m + 1 := by
  obtain ⟨c, cs, hcs, -, -⟩ := dumps_eq_cons h
  rw [hcs, List.length_cons] at hfuel
  exact Nat.exists_eq_succ_of_ne_zero (by omega)

theorem reads_list {items : List Json} (hexact : ∀ j ∈ items, Exact j) (h : ∀ j ∈ items, Reads float j) :
    Reads float (.list items) := by
  intro rest fuel hrest hfuel
  obtain ⟨fuel, rfl⟩ := exists_fuel (.list hexact) hfuel
  rw [dumps] at hfuel ⊢
  rw [List.cons_append, List.cons_append, List.append_assoc, scanOnce]
  cases items with
  | nil => rfl
  | cons j items =>
      have hitems := scanItems_dumps (List.cons_ne_nil j items) hexact h rest fuel (by
        simp only [List.length_cons, List.length_append, List.length_nil] at hfuel
        omega)
      have hhead : ([',', ' '].intercalate (dumpsItems (j :: items)) ++ ([']'] ++ rest)).head? ≠ some ']' := by
        obtain ⟨tail, htail⟩ := intercalate_dumpsItems j items
        obtain ⟨c, cs, hcs, -, hclose⟩ := dumps_eq_cons (hexact j List.mem_cons_self)
        rw [htail, hcs]
        exact fun hc => hclose (Option.some.inj hc)
      rw [skipSpace_dumpsItems (hexact j List.mem_cons_self), if_neg hhead]
      exact congrArg (Option.map _) hitems

theorem reads_object {fields : List (String × Json)} (hnodup : (fields.map Prod.fst).Nodup)
    (hexact : ∀ e ∈ fields, Exact e.2) (h : ∀ e ∈ fields, Reads float e.2) : Reads float (.object fields) := by
  intro rest fuel hrest hfuel
  obtain ⟨fuel, rfl⟩ := exists_fuel (.object hnodup hexact) hfuel
  rw [dumps] at hfuel ⊢
  rw [List.cons_append, List.cons_append, List.append_assoc, scanOnce]
  cases fields with
  | nil => rfl
  | cons e fields =>
      have hfields := scanFields_dumps (List.cons_ne_nil e fields) hexact h rest fuel (by
        simp only [List.length_cons, List.length_append, List.length_nil] at hfuel
        omega)
      have hhead : ([',', ' '].intercalate (dumpsFields (e :: fields)) ++ (['\x7d'] ++ rest)).head? ≠
          some '\x7d' := by
        obtain ⟨tail, htail⟩ := intercalate_dumpsFields e fields
        rw [htail]
        exact fun hc => absurd (Option.some.inj hc) (by decide)
      rw [skipSpace_dumpsFields, if_neg hhead, ← objectOf_eq hnodup]
      exact congrArg (Option.map _) hfields

/-- Every exact value is read back from the front of what is written of it. -/
theorem reads_exact {j : Json} (h : Exact j) : Reads float j := by
  induction h with
  | null =>
      intro rest fuel hrest hfuel
      obtain ⟨fuel, rfl⟩ := exists_fuel .null hfuel
      simp [dumps, scanOnce_other, scanLiteral, literals, List.dropPrefix?]
  | bool b =>
      intro rest fuel hrest hfuel
      obtain ⟨fuel, rfl⟩ := exists_fuel (.bool b) hfuel
      cases b <;> simp [dumps, scanOnce_other, scanLiteral, literals, List.dropPrefix?]
  | int n => exact reads_int n
  | text s =>
      intro rest fuel hrest hfuel
      obtain ⟨fuel, rfl⟩ := exists_fuel (.text s) hfuel
      obtain ⟨text, htext, hscan⟩ := scanString_jsonString s rest
      rw [dumps, htext, scanOnce, hscan]
      rfl
  | list hexact ih => exact reads_list hexact ih
  | object hnodup hexact ih => exact reads_object hnodup hexact ih

/-- json.loads(json.dumps(value)) is the value. -/
theorem loads_dumps {j : Json} (h : Exact j) : loads float (dumps j) = some j := by
  have hskip : skipSpace (dumps j) = dumps j := by
    have happend := skipSpace_dumps h []
    rwa [List.append_nil] at happend
  have hreads : Reads float j := reads_exact h
  have hread := hreads [] _ (fun c hc => by cases hc) (Nat.le_refl _)
  rw [List.append_nil] at hread
  rw [loads, hskip, hread]
  rfl

end

end Utos.Core.JsonText
