import Mathlib.Data.Finset.Card
import Mathlib.Data.Finset.Range
import Mathlib.Order.Bounds.Basic
import Utos.Core.Exceptions

namespace Utos.Core.Sequence

open Exceptions

variable {α β : Type}

/-- xs[i]: a negative index counts from the end. -/
def item (xs : List α) (i : Int) : Except Exn α :=
  let j := if i < 0 then i + xs.length else i
  if j < 0 then .error (.other "IndexError" "list index out of range")
  else match xs[j.toNat]? with
    | some x => .ok x
    | none => .error (.other "IndexError" "list index out of range")

/-- range(start, stop) -/
def range (start stop : Int) : List Int := (List.range (stop - start).toNat).map (fun (k : Nat) => start + k)

/-- Where a slice of a list begins or ends. -/
def bound (n : Nat) (i : Int) : Nat := if i < 0 then (i + n).toNat else min i.toNat n

/-- xs[:stop] -/
def upTo (xs : List α) (stop : Int) : List α := xs.take (bound xs.length stop)

/-- xs[start:] -/
def since (xs : List α) (start : Int) : List α := xs.drop (bound xs.length start)

/-- xs[start:stop] -/
def slice (xs : List α) (start stop : Int) : List α := (upTo xs stop).drop (bound xs.length start)

theorem item_of_lt {xs : List α} {i : Int} (h0 : 0 ≤ i) (h : i < xs.length) :
    ∃ x, xs[i.toNat]? = some x ∧ item xs i = .ok x := by
  have hlt : i.toNat < xs.length := by omega
  have hget : xs[i.toNat]? = some xs[i.toNat] := List.getElem?_eq_getElem hlt
  refine ⟨xs[i.toNat], hget, ?_⟩
  simp only [item, if_neg (not_lt.mpr h0), hget]

/-- xs[-1] -/
theorem item_last {xs : List α} {x : α} (h : xs.getLast? = some x) : item xs (-1) = .ok x := by
  have hlen : xs ≠ [] := by
    rintro rfl
    cases h
  have hpos := List.length_pos_iff.mpr hlen
  have hindex : ((-1 : Int) + xs.length).toNat = xs.length - 1 := by omega
  rw [List.getLast?_eq_getElem?] at h
  simp only [item, show (-1 : Int) < 0 from by decide, if_true, hindex, h]
  rw [if_neg (by omega)]

theorem upTo_natCast (xs : List α) (n : Nat) : upTo xs n = xs.take n := by
  rw [upTo, bound, if_neg (by omega), Int.toNat_natCast, List.take_eq_take_iff]
  omega

theorem range_self (start : Int) : range start start = [] := by simp [range]

theorem range_cons {start stop : Int} (h : start < stop) : range start stop = start :: range (start + 1) stop := by
  have hlen : (stop - start).toNat = (stop - (start + 1)).toNat + 1 := by omega
  rw [range, hlen, List.range_succ_eq_map, List.map_cons, List.map_map, range]
  refine congrArg₂ List.cons (by simp) (List.map_congr_left (fun k _ => ?_))
  simp only [Function.comp_apply]
  omega

theorem mem_range {start stop i : Int} : i ∈ range start stop ↔ start ≤ i ∧ i < stop := by
  rw [range, List.mem_map]
  constructor
  · rintro ⟨k, hk, rfl⟩
    rw [List.mem_range] at hk
    omega
  · rintro ⟨h, h'⟩
    exact ⟨(i - start).toNat, by rw [List.mem_range]; omega, by omega⟩

theorem nodup_range (start stop : Int) : (range start stop).Nodup := by
  exact List.Nodup.map (fun _ _ h => Int.ofNat_inj.mp (Int.add_left_cancel h)) List.nodup_range

/-- The elements of a range that meet a condition are as many as the numbers below a bound
that lie in it and do. -/
theorem length_filter_range {start stop : Int} {n : Nat} (hstart : 0 ≤ start) (hstop : stop ≤ n) (p : Int → Prop)
    [DecidablePred p] : ((range start stop).filter p).length =
      ((Finset.range n).filter (fun i : Nat => start ≤ i ∧ (i : Int) < stop ∧ p i)).card := by
  have hinjective : Function.Injective (fun k : Nat => (k : Int)) := fun _ _ h => Int.ofNat_inj.mp h
  rw [← List.toFinset_card_of_nodup ((nodup_range start stop).filter _), ← Finset.card_image_of_injective _ hinjective]
  congr 1
  ext i
  simp only [List.mem_toFinset, List.mem_filter, mem_range, decide_eq_true_eq, Finset.mem_image, Finset.mem_filter,
    Finset.mem_range]
  constructor
  · rintro ⟨⟨hlow, hhigh⟩, hp⟩
    have hcast : (i.toNat : Int) = i := Int.toNat_of_nonneg (hstart.trans hlow)
    exact ⟨i.toNat, ⟨by omega, by rwa [hcast], by rwa [hcast], by rwa [hcast]⟩, hcast⟩
  · rintro ⟨k, ⟨-, hlow, hhigh, hp⟩, rfl⟩
    exact ⟨⟨hlow, hhigh⟩, hp⟩

/-- In an ascending list the first that meets a condition is the smallest that does. -/
theorem find?_isLeast [PartialOrder α] {p : α → Prop} [DecidablePred p] {xs : List α} (hsorted : xs.Pairwise (· < ·))
    {x : α} : xs.find? p = some x ↔ IsLeast {y | y ∈ xs ∧ p y} x := by
  induction xs with
  | nil => simp [IsLeast]
  | cons y xs ih =>
      obtain ⟨hy, hxs⟩ := List.pairwise_cons.mp hsorted
      rw [List.find?_cons]
      by_cases hp : p y
      · have hleast : IsLeast {z | z ∈ y :: xs ∧ p z} y := by
          refine ⟨⟨List.mem_cons_self, hp⟩, fun z hz => ?_⟩
          rcases List.mem_cons.mp hz.1 with rfl | hmem
          · exact le_rfl
          · exact (hy z hmem).le
        rw [decide_eq_true hp]
        exact ⟨fun h => Option.some.inj h ▸ hleast, fun h => congrArg some (hleast.unique h)⟩
      · have hsame : {z | z ∈ y :: xs ∧ p z} = {z | z ∈ xs ∧ p z} := by
          ext z
          simp only [Set.mem_ofPred_eq, List.mem_cons]
          refine and_congr_left (fun hz => or_iff_right ?_)
          rintro rfl
          exact hp hz
        rw [decide_eq_false hp, hsame]
        exact ih hxs

theorem bind_eq_ok {m : Except Exn α} {f : α → Except Exn β} {y : β} :
    (m >>= f) = .ok y ↔ ∃ x, m = .ok x ∧ f x = .ok y := by
  cases m with
  | error e => exact iff_of_false (fun h => by cases h) (fun ⟨_, h, _⟩ => by cases h)
  | ok x => exact ⟨fun h => ⟨x, rfl, h⟩, fun ⟨_, hx, h⟩ => by cases hx; exact h⟩

/-- What the body of a loop makes of every element, until it raises. -/
def each (f : α → Except Exn β) : List α → Except Exn (List β)
  | [] => .ok []
  | x :: xs => do
      let y ← f x
      let ys ← each f xs
      return y :: ys

theorem each_eq_ok {f : α → Except Exn β} {xs : List α} {ys : List β} :
    each f xs = .ok ys ↔ List.Forall₂ (fun x y => f x = .ok y) xs ys := by
  induction xs generalizing ys with
  | nil => cases ys <;> simp [each]
  | cons x xs ih =>
      rw [each]
      cases hx : f x with
      | error e => cases ys <;> simp [bind, Except.bind, hx]
      | ok y =>
          cases hxs : each f xs with
          | error e => cases ys <;> simp [bind, Except.bind, ← ih, hxs, hx]
          | ok rest => cases ys <;> simp [bind, Except.bind, pure, Except.pure, ← ih, hxs, hx]

end Utos.Core.Sequence
