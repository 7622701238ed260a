import Mathlib.Algebra.Order.Field.Rat
import Mathlib.Data.Fin.Basic
import Mathlib.Data.List.Basic

namespace Utos.Core

/-- uuid.UUID: its 128 bits, as the integer they are. -/
abbrev Uuid := Fin (2 ^ 128)

namespace Uuid

/-- The last digits of n in base 16, as many as the width says. -/
def hexDigits : Nat → Nat → List Char
  | 0, _ => []
  | width + 1, n => hexDigits width (n / 16) ++ [Nat.digitChar (n % 16)]

def hex (u : Uuid) : List Char := hexDigits 32 u

def dashed : List Nat → List Char → List Char
  | [], cs => cs
  | n :: ns, cs => cs.take n ++ '-' :: dashed ns (cs.drop n)

/-- str(uuid) -/
def str (u : Uuid) : String := String.ofList (dashed [8, 4, 4, 4] u.hex)

def hexValue (c : Char) : Option Nat :=
  if '0' ≤ c ∧ c ≤ '9' then some (c.toNat - '0'.toNat)
  else if 'a' ≤ c ∧ c ≤ 'f' then some (c.toNat - 'a'.toNat + 10)
  else if 'A' ≤ c ∧ c ≤ 'F' then some (c.toNat - 'A'.toNat + 10)
  else none

/-- int(text, 16), for hexadecimal digits. -/
def readHex : Nat → List Char → Option Nat
  | acc, [] => some acc
  | acc, c :: cs => (hexValue c).bind (fun d => readHex (16 * acc + d) cs)

/-- UUID(text), where the text has neither a prefix nor braces; None is its ValueError. -/
def parse (s : String) : Option Uuid :=
  let digits := s.toList.filter (· ≠ '-')
  if digits.length ≠ 32 then none
  else (readHex 0 digits).bind (fun n => if h : n < 2 ^ 128 then some ⟨n, h⟩ else none)

example : str 1 = "00000000-0000-0000-0000-000000000001" := by decide +kernel

theorem hexValue_digitChar {d : Nat} (h : d < 16) : hexValue (Nat.digitChar d) = some d := by
  have hall : ∀ d < 16, hexValue (Nat.digitChar d) = some d := by decide
  exact hall d h

theorem digitChar_ne_dash {d : Nat} (h : d < 16) : Nat.digitChar d ≠ '-' := by
  have hall : ∀ d < 16, Nat.digitChar d ≠ '-' := by decide
  exact hall d h

theorem length_hexDigits (width n : Nat) : (hexDigits width n).length = width := by
  induction width generalizing n with
  | zero => rfl
  | succ width ih => simp [hexDigits, ih]

theorem ne_dash_of_mem_hexDigits {width n : Nat} {c : Char} (h : c ∈ hexDigits width n) : c ≠ '-' := by
  induction width generalizing n with
  | zero => cases h
  | succ width ih =>
      rcases List.mem_append.mp h with h | h
      · exact ih h
      · rw [List.mem_singleton.mp h]
        exact digitChar_ne_dash (Nat.mod_lt _ (by decide))

theorem readHex_append (acc : Nat) (cs : List Char) (d : Nat) (h : d < 16) :
    readHex acc (cs ++ [Nat.digitChar d]) = (readHex acc cs).map (fun n => 16 * n + d) := by
  induction cs generalizing acc with
  | nil => simp [readHex, hexValue_digitChar h]
  | cons c cs ih =>
      simp only [List.cons_append, readHex]
      cases hexValue c with
      | none => rfl
      | some v => simp [ih]

theorem readHex_hexDigits (width n : Nat) (h : n < 16 ^ width) : readHex 0 (hexDigits width n) = some n := by
  induction width generalizing n with
  | zero =>
      have hn : n = 0 := by simpa using h
      rw [hn]
      rfl
  | succ width ih =>
      have hq : n / 16 < 16 ^ width := Nat.div_lt_of_lt_mul (by rwa [Nat.pow_succ, Nat.mul_comm] at h)
      rw [hexDigits, readHex_append _ _ _ (Nat.mod_lt _ (by decide)), ih _ hq, Option.map_some, Nat.div_add_mod]

/-- Taking the dashes out puts the text together again. -/
theorem filter_dashed (ns : List Nat) (cs : List Char) (h : ∀ c ∈ cs, c ≠ '-') :
    (dashed ns cs).filter (· ≠ '-') = cs := by
  induction ns generalizing cs with
  | nil => exact List.filter_eq_self.mpr (by simpa [dashed] using h)
  | cons n ns ih =>
      have htake : (cs.take n).filter (· ≠ '-') = cs.take n :=
        List.filter_eq_self.mpr (fun c hc => by simpa using h c (List.mem_of_mem_take hc))
      have hrest := ih (cs.drop n) (fun c hc => h c (List.mem_of_mem_drop hc))
      rw [dashed, List.filter_append, htake, List.filter_cons_of_neg (by simp), hrest, List.take_append_drop]

/-- UUID(str(u)) is u. -/
@[simp] theorem parse_str (u : Uuid) : parse u.str = some u := by
  have hdigits : (str u).toList.filter (· ≠ '-') = u.hex := by
    rw [str, String.toList_ofList]
    exact filter_dashed _ _ (fun _ => ne_dash_of_mem_hexDigits)
  have hlen : u.hex.length = 32 := length_hexDigits _ _
  have hread : readHex 0 u.hex = some u.val := readHex_hexDigits 32 u.val (lt_of_lt_of_eq u.isLt (by decide))
  simp only [parse, hdigits, hlen, ne_eq, not_true_eq_false, if_false, hread, Option.bind_some, dif_pos u.isLt]

theorem str_ne_empty (u : Uuid) : u.str ≠ "" := by
  intro h
  have hparse := parse_str u
  have hempty : parse "" = none := by decide
  rw [h, hempty] at hparse
  cases hparse

end Uuid

end Utos.Core
