import Utos.Grid.Engine
import Utos.Execution.Exchange
import Mathlib.Tactic.Linarith
import Mathlib.Tactic.Ring

namespace Utos.Grid.Holdings

open Core.DomainTypes Execution.Models Execution.Exchange Engine

/-- The quantity of an order if it is a sell of the level. -/
def soldFor (k : LevelKey) (o : Order Owner) : ℚ :=
  if o.owner.key = k ∧ o.side = .sell then o.quantity else 0

def liveSold (k : LevelKey) (o : Order Owner) : ℚ := if o.state = .live then soldFor k o else 0

/-- The sells of the level that are live. -/
def liveSells (d : Desk Owner) (k : LevelKey) : ℚ := (d.orders.map (liveSold k)).sum

/-- What the last buy of the level filled for, and the sells of the level that
have filled since. -/
structure Tally where
  held : ℚ := 0
  sold : ℚ := 0
  deriving DecidableEq, Repr

def tally (k : LevelKey) : List (Order Owner × ℚ) → Tally
  | [] => {}
  | (o, quantity) :: fills =>
      if o.owner.key = k then
        match o.side with
        | .buy => { held := quantity }
        | .sell => { tally k fills with sold := (tally k fills).sold + o.quantity }
      else tally k fills

/-- What is on its way out of the level: its sells that are live or have filled since its last buy fill. -/
def outstanding (d : Desk Owner) (k : LevelKey) : ℚ := liveSells d k + (tally k d.fills).sold

def held (d : Desk Owner) (k : LevelKey) : ℚ := (tally k d.fills).held

/-- No level sells more than its last buy filled for. -/
def NoOversell (d : Desk Owner) : Prop := ∀ k, outstanding d k ≤ held d k

variable {d : Desk Owner} {k : LevelKey} {r : Nat} {o : Order Owner}

theorem soldFor_nonneg (h : 0 < o.quantity) : 0 ≤ soldFor k o := by
  unfold soldFor; split
  · exact h.le
  · exact le_rfl

theorem liveSold_nonneg (h : 0 < o.quantity) : 0 ≤ liveSold k o := by
  unfold liveSold; split
  · exact soldFor_nonneg h
  · exact le_rfl

theorem sum_modify {α : Type} (g : α → ℚ) (f : α → α) {l : List α} {a : α} (h : l[r]? = some a) :
    ((l.modify r f).map g).sum = (l.map g).sum + (g (f a) - g a) := by
  induction l generalizing r with
  | nil => simp at h
  | cons b l ih =>
      cases r with
      | zero =>
          simp only [List.getElem?_cons_zero, Option.some.injEq] at h
          subst h
          simp only [List.modify_zero_cons, List.map_cons, List.sum_cons]
          ring
      | succ r =>
          simp only [List.getElem?_cons_succ] at h
          simp only [List.modify_succ_cons, List.map_cons, List.sum_cons, ih h]
          ring

theorem liveSells_setState {state : OrderState} (ho : d.orders[r]? = some o) (hl : o.state = .live)
    (hs : state ≠ .live) : liveSells (d.setState r state) k = liveSells d k - soldFor k o := by
  have hsum := sum_modify (liveSold k) (fun o => { o with state := state }) ho
  have hbefore : liveSold k o = soldFor k o := by simp [liveSold, hl]
  have hafter : liveSold k { o with state := state } = 0 := by simp [liveSold, hs]
  rw [hbefore, hafter] at hsum
  rw [zero_sub, ← sub_eq_add_neg] at hsum
  exact hsum

theorem cancel_eq (ho : d.orders[r]? = some o) (hl : o.state = .live) :
    d.cancel r = d.setState r .cancelled := by
  unfold Desk.cancel
  rw [if_pos ⟨o, ho, hl⟩]

theorem fill_eq (quantity : ℚ) (ho : d.orders[r]? = some o) (hl : o.state = .live) :
    d.fill r quantity = { d.setState r (.filled quantity) with fills := (o, quantity) :: d.fills } := by
  unfold Desk.fill
  simp only [ho, hl, if_true]

theorem settle_of_not_live (h : ¬ d.IsLive r) (effect : CancelEffect) : d.settle r effect = d := by
  cases effect with
  | cancelled => exact if_neg h
  | unchanged => rfl
  | filled quantity =>
      simp only [Desk.settle, Desk.fill]
      split
      · rfl
      · next o ho =>
          split
          · next hl => exact absurd ⟨o, ho, hl⟩ h
          · rfl

theorem positive_settle (effect : CancelEffect) (r : Nat) (h : ∀ o ∈ d.orders, 0 < o.quantity) :
    ∀ o ∈ (d.settle r effect).orders, 0 < o.quantity := by
  intro o' ho'
  obtain ⟨i, hi⟩ := List.mem_iff_getElem?.mp ho'
  obtain ⟨o, state, ho, rfl⟩ := settle_order hi
  exact h o (List.mem_of_getElem? ho)

theorem liveSells_cancel (ho : d.orders[r]? = some o) (hl : o.state = .live) :
    liveSells (d.cancel r) k = liveSells d k - soldFor k o := by
  rw [cancel_eq ho hl]
  exact liveSells_setState ho hl (by simp)

theorem liveSells_fill (quantity : ℚ) (ho : d.orders[r]? = some o) (hl : o.state = .live) :
    liveSells (d.fill r quantity) k = liveSells d k - soldFor k o := by
  rw [fill_eq quantity ho hl]
  exact liveSells_setState ho hl (by simp)

@[simp] theorem cancel_fills (d : Desk Owner) (r : Nat) : (d.cancel r).fills = d.fills := by
  unfold Desk.cancel; split <;> rfl

/-- The fill of an order does nothing for a level unless the order is a buy of
it, which starts the tally anew. -/
theorem outstanding_fill (quantity : ℚ) (ho : d.orders[r]? = some o) (hl : o.state = .live) :
    (o.owner.key = k ∧ o.side = .buy ∧ held (d.fill r quantity) k = quantity ∧
        outstanding (d.fill r quantity) k = liveSells d k) ∨
      (held (d.fill r quantity) k = held d k ∧ outstanding (d.fill r quantity) k = outstanding d k) := by
  have hlive := liveSells_fill (k := k) quantity ho hl
  have hfills : (d.fill r quantity).fills = (o, quantity) :: d.fills := by rw [fill_eq quantity ho hl]
  by_cases hk : o.owner.key = k
  · cases hside : o.side with
    | buy =>
        refine .inl ⟨hk, rfl, by simp [held, hfills, tally, hk, hside], ?_⟩
        simp [outstanding, hlive, hfills, tally, hk, hside, soldFor]
    | sell =>
        refine .inr ⟨by simp [held, hfills, tally, hk, hside], ?_⟩
        simp only [outstanding, hlive, hfills, tally, hk, hside, soldFor, if_true, and_self]
        ring
  · refine .inr ⟨by simp [held, hfills, tally, hk], ?_⟩
    simp [outstanding, hlive, hfills, tally, hk, soldFor]

theorem sum_newOrder (owner : Owner) (request : OrderRequest) (lives : List Bool) :
    ((lives.map (Desk.newOrder owner request)).map (liveSold k)).sum =
      lives.count true * if owner.key = k ∧ request.side = .sell then request.quantity else 0 := by
  induction lives with
  | nil => simp
  | cons b lives ih =>
      rw [List.map_cons, List.map_cons, List.sum_cons, ih]
      cases b
      · simp [liveSold, Desk.newOrder]
      · simp only [liveSold, Desk.newOrder, soldFor, if_true, List.count_cons_self, Nat.cast_add, Nat.cast_one]
        ring

theorem liveSells_accept (d : Desk Owner) (owner : Owner) (request : OrderRequest) (fate : PlaceFate) :
    liveSells (d.accept owner request fate) k = liveSells d k +
      fate.orders.count true * if owner.key = k ∧ request.side = .sell then request.quantity else 0 := by
  simp only [liveSells, Desk.accept, List.map_append, List.sum_append, sum_newOrder]

end Utos.Grid.Holdings
