import Utos.Core.DomainTypes
import Utos.Core.Ledger
import Utos.Recovery.Portfolio
import Mathlib.Tactic.Linarith

namespace Utos.Recovery.CashFlow

open Core Core.DomainTypes Core.Exceptions Core.Ledger Portfolio

/-- A fill, as update_position is told of it. -/
structure Fill where
  instanceId : String
  side : OrderSide
  price : ℚ
  quantity : ℚ
  deriving DecidableEq, Repr

def Fill.trade (f : Fill) : Trade ℚ where
  price := f.price
  amount := match f.side with
    | .buy => f.quantity
    | .sell => -f.quantity

def update (m : PortfolioManager) (f : Fill) : Except Exn (Position × PortfolioManager) :=
  m.updatePosition f.instanceId f.price f.quantity f.side.value

/-- The fills of any instances in their order, as long as every update succeeds. -/
def updateAll : PortfolioManager → List Fill → Except Exn PortfolioManager
  | m, [] => .ok m
  | m, f :: fills => match update m f with
    | .ok (_, m') => updateAll m' fills
    | .error e => .error e

/-- The money that changed hands in the fills of one side. -/
def money (side : OrderSide) (fills : List Fill) : ℚ :=
  ((fills.filter (fun f => f.side = side)).map (fun f => f.price * f.quantity)).sum

def volume (side : OrderSide) (fills : List Fill) : ℚ :=
  ((fills.filter (fun f => f.side = side)).map Fill.quantity).sum

def fillsOf (i : String) (fills : List Fill) : List Fill := fills.filter (fun f => f.instanceId = i)

/-- The side that adds to a position, and the one that takes from it. -/
def openingSide (side : String) : OrderSide := if side = "long" then .buy else .sell

def closingSide (side : String) : OrderSide := if side = "long" then .sell else .buy

/-- One for a long position, minus one for a short one. -/
def sign (side : String) : ℚ := if side = "long" then 1 else -1

/-- The fill that a registration stands for. -/
def openingFill (args : PortfolioManager.RegisterArgs) : Fill where
  instanceId := args.instanceId
  side := openingSide args.side
  price := args.entryPrice
  quantity := args.quantity

def average (position : Position) : Average ℚ where
  realized := position.realizedPnl
  entry := position.entryPrice
  quantity := sign position.side * position.quantity

/-- What holds of a position between two fills. -/
structure Booked (position : Position) (trades : List (Trade ℚ)) : Prop where
  side : position.side = "long" ∨ position.side = "short"
  carries : (average position).Carries trades
  nonneg : 0 ≤ position.quantity
  closed : position.closed = true ↔ position.quantity = 0

variable {m m' : PortfolioManager} {position : Position} {trades : List (Trade ℚ)} {f : Fill} {fills : List Fill}

theorem cash_trades (fills : List Fill) : cash (fills.map Fill.trade) = money .sell fills - money .buy fills := by
  induction fills with
  | nil => simp [money]
  | cons f fills ih =>
      rw [List.map_cons, ← List.singleton_append, cash_append, ih, cash_singleton]
      cases hside : f.side <;> simp [money, Trade.cost, Fill.trade, hside] <;> ring

theorem held_trades (fills : List Fill) :
    held (fills.map Fill.trade) = volume .buy fills - volume .sell fills := by
  induction fills with
  | nil => simp [volume]
  | cons f fills ih =>
      rw [List.map_cons, ← List.singleton_append, held_append, ih, held_singleton]
      cases hside : f.side <;> simp [volume, Fill.trade, hside] <;> ring

theorem trade_opening (hside : f.side = openingSide position.side) :
    f.trade = ⟨f.price, sign position.side * f.quantity⟩ := by
  by_cases h : position.side = "long" <;> simp [openingSide, h] at hside <;> simp [Fill.trade, sign, h, hside]

theorem trade_closing (hside : f.side ≠ openingSide position.side) :
    f.trade = ⟨f.price, -(sign position.side * f.quantity)⟩ := by
  by_cases h : position.side = "long" <;> cases hs : f.side <;> simp [openingSide, h, hs] at hside <;>
    simp [Fill.trade, sign, h, hs]

theorem isOpening_iff (h : position.side = "long" ∨ position.side = "short") :
    PortfolioManager.isOpening position f.side.value = true ↔ f.side = openingSide position.side := by
  rcases h with h | h <;> cases hs : f.side <;> simp [PortfolioManager.isOpening, OrderSide.value, openingSide, h]

theorem sign_ne_zero (side : String) : sign side ≠ 0 := by
  unfold sign
  split <;> norm_num

theorem average_increased (position : Position) (price quantity : ℚ) :
    average (PortfolioManager.increased position price quantity) =
      (average position).enlarge ⟨price, sign position.side * quantity⟩ := by
  have hd := sign_ne_zero position.side
  have hentry : (position.entryPrice * position.quantity + price * quantity) / (position.quantity + quantity) =
      (position.entryPrice * (sign position.side * position.quantity) + price * (sign position.side * quantity)) /
        (sign position.side * position.quantity + sign position.side * quantity) := by
    rw [← mul_add, mul_left_comm, mul_left_comm price, ← mul_add, mul_div_mul_left _ _ hd]
  simp only [average, PortfolioManager.increased, Average.enlarge, Trade.cost, hentry, mul_add]

theorem average_decreased (position : Position) (price quantity : ℚ) :
    average (PortfolioManager.decreased position price quantity) =
      (average position).reduce ⟨price, -(sign position.side * quantity)⟩ := by
  have hpnl : PortfolioManager.fillPnl position price quantity =
      -((price - position.entryPrice) * -(sign position.side * quantity)) := by
    unfold PortfolioManager.fillPnl sign
    split <;> ring
  simp only [average, PortfolioManager.decreased, Average.reduce, hpnl, sub_eq_add_neg, mul_add, mul_neg]

theorem Booked.increased (h : Booked position trades) (hopen : position.closed = false) (hq : 0 < f.quantity)
    (hside : f.side = openingSide position.side) :
    Booked (PortfolioManager.increased position f.price f.quantity) (trades ++ [f.trade]) := by
  have hpos : 0 < position.quantity + f.quantity := by linarith [h.nonneg]
  refine ⟨h.side, ?_, hpos.le, ?_⟩
  · rw [average_increased, trade_opening hside]
    refine h.carries.enlarge ?_
    simp only [average, ← mul_add]
    exact mul_ne_zero (sign_ne_zero _) hpos.ne'
  · simp only [PortfolioManager.increased, hopen, Bool.false_eq_true, false_iff]
    exact hpos.ne'

theorem Booked.decreased (h : Booked position trades) (hle : f.quantity ≤ position.quantity)
    (hside : f.side ≠ openingSide position.side) :
    Booked (PortfolioManager.decreased position f.price f.quantity) (trades ++ [f.trade]) := by
  refine ⟨h.side, ?_, sub_nonneg.mpr hle, ?_⟩
  · rw [average_decreased, trade_closing hside]
    exact h.carries.reduce
  · simp only [PortfolioManager.decreased, decide_eq_true_eq]

theorem update_ok {changed : Position} (h : update m f = .ok (changed, m')) :
    ∃ position hkey, m.positions.get f.instanceId = some position ∧ position.closed = false ∧
      m' = m.put f.instanceId changed hkey ∧
      (PortfolioManager.isOpening position f.side.value = true ∧ position.quantity + f.quantity ≠ 0 ∧
          changed = PortfolioManager.increased position f.price f.quantity ∨
        PortfolioManager.isOpening position f.side.value = false ∧ f.quantity ≤ position.quantity ∧
          changed = PortfolioManager.decreased position f.price f.quantity) :=
  PortfolioManager.updatePosition_ok h

/-- The instance has a position, and it agrees with the trades. -/
def Keeps (i : String) (trades : List (Trade ℚ)) (m : PortfolioManager) : Prop :=
  ∃ position, m.positions.get i = some position ∧ Booked position trades

theorem Keeps.update {i : String} {changed : Position} (h : Keeps i trades m) (hq : 0 < f.quantity)
    (hok : update m f = .ok (changed, m')) : Keeps i (trades ++ (fillsOf i [f]).map Fill.trade) m' := by
  obtain ⟨position, hget, hbooked⟩ := h
  obtain ⟨found, hkey, hfound, hopen, rfl, hchanged⟩ := update_ok hok
  by_cases hi : f.instanceId = i
  · subst hi
    cases hget.symm.trans hfound
    refine ⟨changed, by simp, ?_⟩
    simp only [fillsOf, decide_true, List.filter_cons_of_pos, List.filter_nil, List.map_cons, List.map_nil]
    have hiff := isOpening_iff (f := f) hbooked.side
    rcases hchanged with ⟨hopening, -, rfl⟩ | ⟨hclosing, hle, rfl⟩
    · exact hbooked.increased hopen hq (hiff.mp hopening)
    · exact hbooked.decreased hle (fun hside => by rw [hiff.mpr hside] at hclosing; cases hclosing)
  · refine ⟨position, ?_, ?_⟩
    · rw [PortfolioManager.put_get, if_neg (Ne.symm hi)]
      exact hget
    · simpa [fillsOf, hi] using hbooked

theorem fillsOf_cons (i : String) (f : Fill) (fills : List Fill) :
    fillsOf i (f :: fills) = fillsOf i [f] ++ fillsOf i fills := List.filter_append [f] fills

theorem Keeps.updateAll {i : String} (h : Keeps i trades m) (hq : ∀ f ∈ fills, 0 < f.quantity)
    (hok : updateAll m fills = .ok m') : Keeps i (trades ++ (fillsOf i fills).map Fill.trade) m' := by
  induction fills generalizing m trades with
  | nil =>
      cases hok
      simpa [fillsOf] using h
  | cons f fills ih =>
      rw [CashFlow.updateAll] at hok
      cases hf : CashFlow.update m f with
      | error e => rw [hf] at hok; cases hok
      | ok r =>
          rw [hf] at hok
          have hnext := ih (h.update (hq f (by simp)) hf) (fun g hg => hq g (by simp [hg])) hok
          rwa [List.append_assoc, ← List.map_append, ← fillsOf_cons] at hnext

theorem keeps_register {args : PortfolioManager.RegisterArgs} (h : m.registerPosition args = .ok (position, m')) :
    Keeps args.instanceId [(openingFill args).trade] m' := by
  obtain ⟨-, hside, -, hq, rfl, rfl⟩ := PortfolioManager.registerPosition_ok h
  refine ⟨args.position, ?_, hside, ?_, hq.le, ?_⟩
  · exact (PortfolioManager.put_get m args.instanceId args.position rfl _).trans (if_pos rfl)
  · have htrade : (openingFill args).trade = ⟨args.entryPrice, sign args.side * args.quantity⟩ :=
      trade_opening (show (openingFill args).side = openingSide args.position.side from rfl)
    rw [htrade]
    exact Average.carries_open (t := ⟨args.entryPrice, sign args.side * args.quantity⟩)
  · exact iff_of_false (by simp [PortfolioManager.RegisterArgs.position]) hq.ne'

/-- The average entry price and the realized profit account for every payment,
whatever mix of fills the position has seen. -/
theorem position_accounts {args : PortfolioManager.RegisterArgs} {registered : Position} {m₁ : PortfolioManager}
    (hreg : m.registerPosition args = .ok (registered, m₁)) (hq : ∀ f ∈ fills, 0 < f.quantity)
    (hok : updateAll m₁ fills = .ok m') :
    ∃ position, m'.positions.get args.instanceId = some position ∧
      (∀ p, position.realizedPnl + sign position.side * ((p - position.entryPrice) * position.quantity) =
        money .sell (openingFill args :: fillsOf args.instanceId fills) -
          money .buy (openingFill args :: fillsOf args.instanceId fills) +
            sign position.side * position.quantity * p) ∧
      position.quantity = volume (openingSide position.side) (openingFill args :: fillsOf args.instanceId fills) -
        volume (closingSide position.side) (openingFill args :: fillsOf args.instanceId fills) ∧
      0 ≤ position.quantity ∧ (position.closed = true ↔ position.quantity = 0) := by
  obtain ⟨position, hget, hbooked⟩ := (keeps_register hreg).updateAll hq hok
  rw [List.singleton_append, ← List.map_cons] at hbooked
  have hheld := hbooked.carries.quantity
  rw [held_trades] at hheld
  refine ⟨position, hget, fun p => ?_, ?_, hbooked.nonneg, hbooked.closed⟩
  · have hworth := hbooked.carries.worth p
    rw [worth, cash_trades, ← hbooked.carries.quantity] at hworth
    rw [mul_left_comm]
    exact hworth
  · simp only [average, sign] at hheld
    by_cases hlong : position.side = "long" <;> simp only [hlong, if_true, if_false] at hheld <;>
      simp only [openingSide, closingSide, hlong, if_true, if_false] <;> linarith

def longBitcoin : PortfolioManager.RegisterArgs :=
  { instanceId := "a", accountId := "account", exchange := "binance", symbol := "BTCUSDT", side := "long"
    entryPrice := 100, quantity := 1 }

/-- One more is bought at 110, and both are sold at 120. -/
def boughtAndSold : List Fill :=
  [{ instanceId := "a", side := .buy, price := 110, quantity := 1 },
   { instanceId := "a", side := .sell, price := 120, quantity := 2 }]

theorem position_accounts_boughtAndSold :
    ∃ m₁ m', PortfolioManager.registerPosition {} longBitcoin = .ok (longBitcoin.position, m₁) ∧
      updateAll m₁ boughtAndSold = .ok m' ∧ ∃ position, m'.positions.get "a" = some position ∧
        position.quantity = volume (openingSide position.side) (openingFill longBitcoin :: boughtAndSold) -
          volume (closingSide position.side) (openingFill longBitcoin :: boughtAndSold) := by
  have hok : ((PortfolioManager.registerPosition {} longBitcoin).bind fun r => updateAll r.2 boughtAndSold).isOk =
      true := by decide +kernel
  obtain ⟨m₁, hreg⟩ : ∃ m₁, PortfolioManager.registerPosition {} longBitcoin = .ok (longBitcoin.position, m₁) :=
    ⟨_, rfl⟩
  rw [hreg] at hok
  cases h : updateAll m₁ boughtAndSold with
  | error e =>
      simp only [Except.bind, h] at hok
      cases hok
  | ok m' =>
      obtain ⟨position, hget, -, hquantity, -⟩ := position_accounts hreg (by decide) h
      exact ⟨m₁, m', hreg, h, position, hget, hquantity⟩

end Utos.Recovery.CashFlow
