import Mathlib.Algebra.Order.Field.Rat
import Mathlib.Algebra.GroupWithZero.Basic
import Mathlib.Algebra.Order.GroupWithZero.Basic
import Mathlib.Tactic.Linarith

namespace Utos.Core

/-- A finite Decimal: sign, coefficient and exponent, as they were given or computed. -/
structure Decimal where
  negative : Bool
  coefficient : Nat
  exponent : Int
  deriving DecidableEq, Repr

namespace Decimal

variable (d : Decimal)

def zero : Decimal := ⟨false, 0, 0⟩

def value : ℚ := (if d.negative then -1 else 1) * d.coefficient * (10 : ℚ) ^ d.exponent

/-- bool(d) -/
def truthy : Bool := d.coefficient ≠ 0

def digits : List Char := Nat.toDigits 10 d.coefficient

/-- The number of digits before the point, if all were written out. -/
def leftDigits : Int := d.exponent + d.digits.length

/-- The notation without an exponent is used. -/
def Plain : Prop := d.exponent ≤ 0 ∧ -6 < d.leftDigits

instance : Decidable d.Plain := inferInstanceAs (Decidable (_ ∧ _))

def dotPlace : Int := if d.Plain then d.leftDigits else 1

def wholePart : List Char :=
  if d.dotPlace ≤ 0 then ['0']
  else if d.digits.length ≤ d.dotPlace then d.digits ++ List.replicate (d.dotPlace - d.digits.length).toNat '0'
  else d.digits.take d.dotPlace.toNat

def fracPart : List Char :=
  if d.dotPlace ≤ 0 then List.replicate (-d.dotPlace).toNat '0' ++ d.digits
  else if d.digits.length ≤ d.dotPlace then []
  else d.digits.drop d.dotPlace.toNat

def exponentText (e : Int) : List Char :=
  if e = 0 then [] else 'E' :: (if e < 0 then '-' else '+') :: Nat.toDigits 10 e.natAbs

def layout (negative : Bool) (whole frac : List Char) (e : Int) : List Char :=
  (if negative then ['-'] else []) ++ whole ++ (if frac = [] then [] else '.' :: frac) ++ exponentText e

/-- str(d), the to-scientific-string conversion. -/
def str : String := String.ofList (layout d.negative d.wholePart d.fracPart (d.leftDigits - d.dotPlace))

def signed : List Char → Bool × List Char
  | '-' :: cs => (true, cs)
  | '+' :: cs => (false, cs)
  | cs => (false, cs)

def fraction : List Char → List Char × List Char
  | '.' :: cs => (cs.takeWhile Char.isDigit, cs.dropWhile Char.isDigit)
  | cs => ([], cs)

def exponentOf : List Char → Option Int
  | [] => some 0
  | c :: cs =>
      let (negative, ds) := signed cs
      if (c = 'e' ∨ c = 'E') ∧ ds ≠ [] ∧ ds.all Char.isDigit then
        some (if negative then -(Nat.ofDigitChars 10 ds 0) else Nat.ofDigitChars 10 ds 0)
      else none

/-- Decimal(s), for the numeric strings in ASCII without blanks or underscores. -/
def parse (s : String) : Option Decimal :=
  let (negative, cs) := signed s.toList
  let whole := cs.takeWhile Char.isDigit
  let (frac, rest) := fraction (cs.dropWhile Char.isDigit)
  if whole ++ frac = [] then none
  else (exponentOf rest).map (fun e => ⟨negative, Nat.ofDigitChars 10 (whole ++ frac) 0, e - frac.length⟩)

example : (Decimal.mk false 100 (-9)).str = "1.00E-7" := by decide +kernel

variable {d}

theorem isDigit_of_mem_toDigits {n : Nat} {c : Char} (h : c ∈ Nat.toDigits 10 n) : c.isDigit = true :=
  Nat.isDigit_of_mem_toDigits (by decide) (by decide) h

theorem digits_ne_nil : d.digits ≠ [] := Nat.toDigits_ne_nil

theorem isDigit_of_mem_wholePart {c : Char} (h : c ∈ d.wholePart) : c.isDigit = true := by
  unfold wholePart at h
  split at h
  · rw [List.mem_singleton.mp h]
    rfl
  split at h
  · rcases List.mem_append.mp h with h | h
    · exact isDigit_of_mem_toDigits h
    · rw [List.eq_of_mem_replicate h]
      rfl
  · exact isDigit_of_mem_toDigits (List.mem_of_mem_take h)

theorem isDigit_of_mem_fracPart {c : Char} (h : c ∈ d.fracPart) : c.isDigit = true := by
  unfold fracPart at h
  split at h
  · rcases List.mem_append.mp h with h | h
    · rw [List.eq_of_mem_replicate h]
      rfl
    · exact isDigit_of_mem_toDigits h
  split at h
  · cases h
  · exact isDigit_of_mem_toDigits (List.mem_of_mem_drop h)

theorem length_pos : 0 < d.digits.length := List.length_pos_iff.mpr digits_ne_nil

theorem wholePart_ne_nil : d.wholePart ≠ [] := by
  unfold wholePart
  split
  · exact List.cons_ne_nil _ _
  next hdot =>
    split
    · exact List.append_ne_nil_of_left_ne_nil digits_ne_nil _
    · have := length_pos (d := d)
      rw [ne_eq, List.take_eq_nil_iff, not_or]
      exact ⟨by omega, digits_ne_nil⟩

/-- With a point to the right of all digits there is nothing to fill up. -/
theorem dotPlace_le (h : d.digits.length ≤ d.dotPlace) : d.dotPlace = d.digits.length := by
  have hpos := length_pos (d := d)
  unfold dotPlace at h ⊢
  by_cases hp : d.Plain
  · rw [if_pos hp] at h ⊢
    unfold leftDigits at h ⊢
    have hexp := hp.1
    omega
  · rw [if_neg hp] at h ⊢
    omega

theorem ofDigitChars_parts : Nat.ofDigitChars 10 (d.wholePart ++ d.fracPart) 0 = d.coefficient := by
  unfold wholePart fracPart
  split
  · simp [Nat.ofDigitChars_append, Nat.ofDigitChars_cons, digits]
  · split
    next hlen =>
      rw [dotPlace_le hlen]
      simp [digits]
    · rw [List.take_append_drop, digits, Nat.ofDigitChars_ten_toDigits]

theorem exponent_parts : d.leftDigits - d.dotPlace - d.fracPart.length = d.exponent := by
  unfold fracPart
  split
  next hdot =>
    simp only [List.length_append, List.length_replicate, leftDigits]
    omega
  · split
    next hlen =>
      have := dotPlace_le hlen
      simp only [List.length_nil, leftDigits]
      omega
    next hlen =>
      simp only [List.length_drop, leftDigits]
      omega

theorem signed_of_digit {c : Char} {cs : List Char} (h : c.isDigit = true) : signed (c :: cs) = (false, c :: cs) := by
  have hminus : c ≠ '-' := fun hc => by rw [hc] at h; exact absurd h (by decide)
  have hplus : c ≠ '+' := fun hc => by rw [hc] at h; exact absurd h (by decide)
  unfold signed
  split
  next heq => exact absurd (List.cons.inj heq).1 hminus
  next heq => exact absurd (List.cons.inj heq).1 hplus
  next => rfl

theorem exponentOf_text (e : Int) : exponentOf (exponentText e) = some e := by
  unfold exponentText
  split
  next he => rw [he]; rfl
  next he =>
    have hall : (Nat.toDigits 10 e.natAbs).all Char.isDigit = true :=
      List.all_eq_true.mpr (fun c hc => isDigit_of_mem_toDigits hc)
    have hne : Nat.toDigits 10 e.natAbs ≠ [] := Nat.toDigits_ne_nil
    by_cases hneg : e < 0
    · rw [if_pos hneg]
      simp only [exponentOf, signed, hne, hall, ne_eq, not_false_eq_true, and_self, or_true, if_true,
        Nat.ofDigitChars_ten_toDigits]
      congr 1
      omega
    · rw [if_neg hneg]
      simp only [exponentOf, signed, hne, hall, ne_eq, not_false_eq_true, and_self, or_true, if_true,
        Nat.ofDigitChars_ten_toDigits, Bool.false_eq_true, if_false]
      congr 1
      omega

/-- The text after the digits does not begin with a digit. -/
theorem takeWhile_exponentText (e : Int) : (exponentText e).takeWhile Char.isDigit = [] ∧
    (exponentText e).dropWhile Char.isDigit = exponentText e := by
  unfold exponentText
  split
  · exact ⟨rfl, rfl⟩
  · exact ⟨rfl, rfl⟩

theorem fraction_exponentText (e : Int) : fraction (exponentText e) = ([], exponentText e) := by
  unfold exponentText
  split <;> rfl

/-- What is laid out is read back. -/
theorem parse_layout {negative : Bool} {whole frac : List Char} (e : Int) (hne : whole ≠ [])
    (hwhole : ∀ c ∈ whole, c.isDigit = true) (hfrac : ∀ c ∈ frac, c.isDigit = true) :
    parse (String.ofList (layout negative whole frac e)) =
      some ⟨negative, Nat.ofDigitChars 10 (whole ++ frac) 0, e - frac.length⟩ := by
  have hsigned : signed (layout negative whole frac e) =
      (negative, whole ++ ((if frac = [] then [] else '.' :: frac) ++ exponentText e)) := by
    cases negative with
    | true => simp [layout, signed]
    | false =>
        obtain ⟨c, cs, rfl⟩ := List.exists_cons_of_ne_nil hne
        simp only [layout, Bool.false_eq_true, if_false, List.nil_append, List.cons_append, List.append_assoc]
        exact signed_of_digit (hwhole c List.mem_cons_self)
  obtain ⟨htake, hdrop⟩ := takeWhile_exponentText e
  simp only [parse, String.toList_ofList, hsigned, List.takeWhile_append_of_pos hwhole,
    List.dropWhile_append_of_pos hwhole]
  by_cases hf : frac = []
  · subst hf
    simp [htake, hdrop, fraction_exponentText, hne, exponentOf_text]
  · simp [hf, fraction, List.takeWhile_append_of_pos hfrac, List.dropWhile_append_of_pos hfrac, htake, hdrop, hne,
      exponentOf_text]

/-- Decimal(str(d)) is d. -/
@[simp] theorem parse_str (d : Decimal) : parse d.str = some d := by
  rw [str, parse_layout _ wholePart_ne_nil (fun _ => isDigit_of_mem_wholePart) (fun _ => isDigit_of_mem_fracPart),
    ofDigitChars_parts, exponent_parts]

theorem str_ne_empty (d : Decimal) : d.str ≠ "" := by
  intro h
  have hparse := d.parse_str
  have hempty : parse "" = none := by decide
  rw [h, hempty] at hparse
  cases hparse

theorem value_eq_zero : d.value = 0 ↔ d.truthy = false := by
  cases h : d.negative <;> simp [value, truthy, h, zpow_ne_zero]

theorem str_injective {d d' : Decimal} (h : d.str = d'.str) : d = d' := by
  have hparse := d.parse_str
  rw [h, d'.parse_str] at hparse
  exact (Option.some.inj hparse).symm

/-- Digits and a decimal point, and nothing else. -/
def PlainText (s : String) : Prop := ∀ c ∈ s.toList, c.isDigit = true ∨ c = '.'

theorem plain_iff_exponent : d.Plain ↔ d.leftDigits - d.dotPlace = 0 := by
  have hpos := length_pos (d := d)
  unfold dotPlace
  by_cases h : d.Plain
  · rw [if_pos h, sub_self]
    exact iff_of_true h rfl
  · rw [if_neg h]
    refine iff_of_false h (fun hone => h ⟨?_, ?_⟩)
    · unfold leftDigits at hone
      omega
    · omega

/-- A number without a sign is written out in exactly the cases in which it is plain. -/
theorem plainText_str_iff (h : d.negative = false) : PlainText d.str ↔ d.Plain := by
  rw [plain_iff_exponent, PlainText, str, String.toList_ofList, layout, h]
  constructor
  · intro htext
    by_contra hexp
    have hE : 'E' ∈ exponentText (d.leftDigits - d.dotPlace) := by
      rw [exponentText, if_neg hexp]
      exact List.mem_cons_self
    rcases htext 'E' (List.mem_append_right _ hE) with hc | hc
    · exact absurd hc (by decide)
    · exact absurd hc (by decide)
  · intro hexp c hc
    rw [hexp, exponentText, if_pos rfl, List.append_nil, if_neg Bool.false_ne_true, List.nil_append] at hc
    rcases List.mem_append.mp hc with hc | hc
    · exact Or.inl (isDigit_of_mem_wholePart hc)
    · split at hc
      · cases hc
      · rcases List.mem_cons.mp hc with rfl | hc
        · exact Or.inr rfl
        · exact Or.inl (isDigit_of_mem_fracPart hc)

theorem negative_of_value_pos (h : 0 < d.value) : d.negative = false := by
  by_contra hneg
  have hvalue : d.value = -(d.coefficient * (10 : ℚ) ^ d.exponent) := by
    simp [value, Bool.eq_true_of_not_eq_false hneg]
  have hnonneg : (0 : ℚ) ≤ d.coefficient * (10 : ℚ) ^ d.exponent :=
    mul_nonneg (Nat.cast_nonneg _) (zpow_nonneg (by decide) _)
  linarith

/-- A number that a truth test lets through is the number it was, unless it is zero. -/
theorem filter_truthy_values {o : Option Decimal} :
    (o.filter truthy).map value = o.map value ↔ ∀ d ∈ o, d.value ≠ 0 := by
  cases o with
  | none => simp
  | some d => cases h : d.truthy <;> simp [Option.filter, h, value_eq_zero]

end Decimal

end Utos.Core
