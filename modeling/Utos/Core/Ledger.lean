import Mathlib.Algebra.BigOperators.Group.List.Basic
import Mathlib.Algebra.BigOperators.Ring.Finset
import Mathlib.Algebra.Field.Basic
import Mathlib.Tactic.FieldSimp
import Mathlib.Tactic.Ring

namespace Utos.Core.Ledger

variable {R : Type} [Field R]

/-- What changed hands at a price; the amount is negative where it was given away. -/
structure Trade (R : Type) where
  price : R
  amount : R
  deriving DecidableEq

def Trade.cost (t : Trade R) : R := t.price * t.amount

def held (trades : List (Trade R)) : R := (trades.map Trade.amount).sum

/-- What the trades have brought in, less what they have cost. -/
def cash (trades : List (Trade R)) : R := -(trades.map Trade.cost).sum

/-- What the trades have come to if what is held is worth p. -/
def worth (trades : List (Trade R)) (p : R) : R := cash trades + held trades * p

variable (t : Trade R) (trades more : List (Trade R)) (p : R)

@[simp] theorem held_nil : held ([] : List (Trade R)) = 0 := rfl

@[simp] theorem cash_nil : cash ([] : List (Trade R)) = 0 := by simp [cash]

@[simp] theorem held_append : held (trades ++ more) = held trades + held more := by simp [held]

@[simp] theorem cash_append : cash (trades ++ more) = cash trades + cash more := by
  simp only [cash, List.map_append, List.sum_append]
  ring

@[simp] theorem held_singleton : held [t] = t.amount := by simp [held]

@[simp] theorem cash_singleton : cash [t] = -t.cost := by simp [cash]

theorem worth_concat : worth (trades ++ [t]) p = worth trades p + t.amount * (p - t.price) := by
  simp only [worth, cash_append, held_append, cash_singleton, held_singleton, Trade.cost]
  ring

section

variable {κ : Type} [DecidableEq κ]

/-- What the trades of one of several accounts have come to. -/
def heldAt (k : κ) (trades : List (κ × Trade R)) : R := held ((trades.filter (fun t => t.1 = k)).map Prod.snd)

/-- What the trades would have cost, had each account its own fixed price. -/
def costAt (price : κ → R) (trades : List (κ × Trade R)) : R := (trades.map (fun t => price t.1 * t.2.amount)).sum

theorem heldAt_cons (k : κ) (t : κ × Trade R) (trades : List (κ × Trade R)) :
    heldAt k (t :: trades) = (if t.1 = k then t.2.amount else 0) + heldAt k trades := by
  by_cases h : t.1 = k
  · simp [heldAt, held, h]
  · simp [heldAt, held, h]

omit [DecidableEq κ] in
theorem costAt_concat (price : κ → R) (trades : List (κ × Trade R)) (k : κ) (t : Trade R) :
    costAt price (trades ++ [(k, t)]) = costAt price trades + price k * t.amount := by simp [costAt]

theorem costAt_eq_sum (price : κ → R) (trades : List (κ × Trade R)) {keys : Finset κ}
    (hkeys : ∀ t ∈ trades, t.1 ∈ keys) : costAt price trades = ∑ k ∈ keys, price k * heldAt k trades := by
  induction trades with
  | nil => simp [costAt, heldAt]
  | cons t trades ih =>
      rw [List.forall_mem_cons] at hkeys
      have hfirst : ∑ k ∈ keys, price k * (if t.1 = k then t.2.amount else 0) = price t.1 * t.2.amount := by
        simp only [mul_ite, mul_zero, Finset.sum_ite_eq, if_pos hkeys.1]
      simp only [heldAt_cons, mul_add, Finset.sum_add_distrib, hfirst, ← ih hkeys.2]
      exact List.sum_cons

end

/-- A holding booked at its average entry price, with the profit that has been
taken. The quantity is negative if it is owed. -/
structure Average (R : Type) where
  realized : R
  entry : R
  quantity : R

namespace Average

variable (a : Average R)

def worth : R := a.realized + (p - a.entry) * a.quantity

def enlarge : Average R where
  realized := a.realized
  entry := (a.entry * a.quantity + t.cost) / (a.quantity + t.amount)
  quantity := a.quantity + t.amount

def reduce : Average R where
  realized := a.realized - (t.price - a.entry) * t.amount
  entry := a.entry
  quantity := a.quantity + t.amount

theorem enlarge_worth (h : a.quantity + t.amount ≠ 0) :
    (a.enlarge t).worth p = a.worth p + t.amount * (p - t.price) := by
  simp only [worth, enlarge, Trade.cost]
  field_simp
  ring

theorem reduce_worth : (a.reduce t).worth p = a.worth p + t.amount * (p - t.price) := by
  simp only [worth, reduce]
  ring

/-- The booking agrees with the trades, whatever the price is. -/
structure Carries (trades : List (Trade R)) : Prop where
  quantity : a.quantity = held trades
  worth : ∀ p, a.worth p = Ledger.worth trades p

variable {a t trades}

theorem carries_open : Carries ⟨0, t.price, t.amount⟩ [t] where
  quantity := (held_singleton t).symm
  worth p := by
    simp only [Average.worth, Ledger.worth, cash_singleton, held_singleton, Trade.cost]
    ring

theorem Carries.enlarge (h : a.Carries trades) (hne : a.quantity + t.amount ≠ 0) :
    (a.enlarge t).Carries (trades ++ [t]) where
  quantity := by rw [held_append, held_singleton, ← h.quantity]; rfl
  worth p := by rw [enlarge_worth t p a hne, h.worth, worth_concat]

theorem Carries.reduce (h : a.Carries trades) : (a.reduce t).Carries (trades ++ [t]) where
  quantity := by rw [held_append, held_singleton, ← h.quantity]; rfl
  worth p := by rw [reduce_worth, h.worth, worth_concat]

end Average

end Utos.Core.Ledger
