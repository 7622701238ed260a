import Utos.Risk.Metrics
import Utos.Risk.PortfolioRun

namespace Utos.Risk.CompletePnl

open Core Core.DomainTypes Core.Exceptions Core.Ledger Recovery.Portfolio Recovery.CashFlow Manager Metrics PortfolioRun
open Recovery.Portfolio.PortfolioManager (RegisterArgs)

/-- The fill of a call that goes through, with the symbol of its position. A registration is one too. -/
def dealBy (m : PortfolioManager) : Call → List (String × Fill)
  | .register args => match m.registerPosition args with
    | .ok _ => [(args.symbol, openingFill args)]
    | .error _ => []
  | .update f => match update m f with
    | .ok r => [(r.1.symbol, f)]
    | .error _ => []
  | .close _ => []

def deals : List Call → List (String × Fill) := collect dealBy .empty

/-- The profit or the loss that a closing fill takes. -/
def takenBy (m : PortfolioManager) : Call → List ℚ
  | .update f => match m.positions.get f.instanceId, update m f with
    | some position, .ok _ =>
        if PortfolioManager.isOpening position f.side.value then []
        else [PortfolioManager.fillPnl position f.price f.quantity]
    | _, _ => []
  | .register _ | .close _ => []

def taken : List Call → List ℚ := collect takenBy .empty

def trades (deals : List (String × Fill)) : List (String × Trade ℚ) := deals.map (fun d => (d.1, d.2.trade))

def priceOf (prices : Dict String ℚ) (symbol : String) : ℚ := (prices.get symbol).getD 0

/-- What was paid for the sold, less what was paid for the bought, and the worth of what is held. -/
def earned (prices : Dict String ℚ) (deals : List (String × Fill)) : ℚ :=
  money .sell (deals.map Prod.snd) - money .buy (deals.map Prod.snd) +
    ∑ symbol ∈ (deals.map Prod.fst).toFinset, priceOf prices symbol * heldAt symbol (trades deals)

variable {prices : Dict String ℚ} {m m' : PortfolioManager} {position : Position} {f : Fill}

theorem earned_eq (deals : List (String × Fill)) : earned prices deals =
    cash ((deals.map Prod.snd).map Fill.trade) + costAt (priceOf prices) (trades deals) := by
  have hkeys : ∀ t ∈ trades deals, t.1 ∈ (deals.map Prod.fst).toFinset := by
    intro t ht
    obtain ⟨d, hd, rfl⟩ := List.mem_map.mp ht
    exact List.mem_toFinset.mpr (List.mem_map_of_mem hd)
  rw [earned, cash_trades, costAt_eq_sum _ _ hkeys]

theorem earned_concat (deals : List (String × Fill)) (symbol : String) (f : Fill) :
    earned prices (deals ++ [(symbol, f)]) =
      earned prices deals + f.trade.amount * (priceOf prices symbol - f.trade.price) := by
  rw [earned_eq, earned_eq]
  simp only [trades, List.map_append, List.map_cons, List.map_nil, cash_append, cash_singleton, costAt_concat,
    Trade.cost]
  ring

/-- What a position has come to at the price of its symbol. -/
def worthOf (prices : Dict String ℚ) (pos : Position) : ℚ := (average pos).worth (priceOf prices pos.symbol)

theorem worthOf_registered (args : RegisterArgs) : worthOf prices args.position =
    (openingFill args).trade.amount * (priceOf prices args.symbol - (openingFill args).trade.price) := by
  have htrade : (openingFill args).trade = ⟨args.entryPrice, sign args.side * args.quantity⟩ :=
    trade_opening (show (openingFill args).side = openingSide args.position.side from rfl)
  rw [htrade]
  simp only [worthOf, average, Average.worth, RegisterArgs.position]
  ring

/-- A fill changes the worth of its position by what it pays above or below the price. -/
theorem worthOf_update (hm : Marked m) (h : update m f = .ok (position, m')) :
    ∃ found, m.positions.get f.instanceId = some found ∧ position.symbol = found.symbol ∧
      worthOf prices position =
        worthOf prices found + f.trade.amount * (priceOf prices found.symbol - f.trade.price) := by
  obtain ⟨found, -, hget, -, -, hchanged⟩ := update_ok h
  have hiff := isOpening_iff (f := f) (hm _ _ hget).2
  rcases hchanged with ⟨hopening, hne, rfl⟩ | ⟨hclosing, -, rfl⟩
  · have htrade := trade_opening (hiff.mp hopening)
    refine ⟨found, hget, rfl, ?_⟩
    rw [worthOf, average_increased, ← htrade]
    refine Average.enlarge_worth _ _ _ ?_
    rw [htrade, average, ← mul_add]
    exact mul_ne_zero (sign_ne_zero _) hne
  · have htrade : f.trade = _ := trade_closing (fun hside => by rw [hiff.mpr hside] at hclosing; cases hclosing)
    refine ⟨found, hget, rfl, ?_⟩
    rw [worthOf, average_decreased, ← htrade]
    exact Average.reduce_worth _ _ _

theorem realizedPnl_update (h : update m f = .ok (position, m')) :
    ∃ found, m.positions.get f.instanceId = some found ∧
      position.realizedPnl = found.realizedPnl + (takenBy m (.update f)).sum := by
  obtain ⟨found, -, hget, -, -, hchanged⟩ := update_ok h
  refine ⟨found, hget, ?_⟩
  rcases hchanged with ⟨hopening, -, rfl⟩ | ⟨hclosing, -, rfl⟩
  · simp [takenBy, hget, h, hopening, PortfolioManager.increased]
  · simp [takenBy, hget, h, hclosing, PortfolioManager.decreased]

/-- The books of a run: no position is closed by hand, and the fills and the profits are all in the positions. -/
structure Booked (prices : Dict String ℚ) (calls : List Call) : Prop where
  closed : (run calls).closedPositions = []
  worth : sumOver (worthOf prices) (run calls) = earned prices (deals calls)
  realized : sumOver Position.realizedPnl (run calls) = (taken calls).sum

/-- A call that raises is no deal and takes no profit. -/
theorem nothing_of_error {c : Call} {e : Exn} (he : perform m c = .error e) : dealBy m c = [] ∧ takenBy m c = [] := by
  cases c with
  | register args => exact ⟨by rw [dealBy, show m.registerPosition args = .error e from he], rfl⟩
  | update f =>
      have herror : update m f = .error e := he
      refine ⟨by rw [dealBy, herror], ?_⟩
      rw [takenBy, herror]
      cases m.positions.get f.instanceId <;> rfl
  | close i => exact ⟨rfl, rfl⟩

theorem booked_nil : Booked prices [] := by
  have hnothing : (0 : ℚ) = earned prices [] := by
    rw [earned_eq]
    simp [trades, costAt]
  exact ⟨rfl, hnothing, rfl⟩

theorem Booked.concat {calls : List Call} {c : Call} (h : Booked prices calls) (hc : ∀ i, c ≠ .close i) :
    Booked prices (calls ++ [c]) := by
  have hm := marked_run calls
  have hdeals : deals (calls ++ [c]) = deals calls ++ dealBy (run calls) c := collect_concat _ _ _ _
  have htaken : taken (calls ++ [c]) = taken calls ++ takenBy (run calls) c := collect_concat _ _ _ _
  rcases step_cases (run calls) c with ⟨⟨e, he⟩, hstep⟩ | ⟨position, m', hperform, hstep⟩
  · obtain ⟨hdeal, htake⟩ := nothing_of_error he
    rw [hdeal, List.append_nil] at hdeals
    rw [htake, List.append_nil] at htaken
    refine ⟨?_, ?_, ?_⟩
    · rw [run_concat, hstep, h.closed]
    · rw [run_concat, hstep, hdeals, h.worth]
    · rw [run_concat, hstep, htaken, h.realized]
  cases c with
  | close i => exact absurd rfl (hc i)
  | register args =>
      have hresult : (run calls).registerPosition args = .ok (position, m') := hperform
      obtain ⟨hfree, -, -, -, rfl, rfl⟩ := PortfolioManager.registerPosition_ok hresult
      refine ⟨?_, ?_, ?_⟩
      · rw [run_concat, hstep]
        exact h.closed
      · rw [run_concat, hstep, sumOver_register hfree, h.worth, hdeals, dealBy, hresult, earned_concat,
          worthOf_registered, add_comm]
      · rw [run_concat, hstep, sumOver_register hfree, h.realized, htaken, takenBy, List.append_nil]
        exact zero_add _
  | update f =>
      have hresult : update (run calls) f = .ok (position, m') := hperform
      obtain ⟨found, hkey, hget, -, rfl, -⟩ := update_ok hresult
      refine ⟨?_, ?_, ?_⟩
      · rw [run_concat, hstep]
        exact h.closed
      · obtain ⟨other, hother, hsymbol, hworth⟩ := worthOf_update hm hresult
        cases hget.symm.trans hother
        rw [run_concat, hstep, sumOver_put, hworth, hdeals, dealBy, hresult, earned_concat, ← h.worth,
          sumOver_of_get hget, hsymbol]
        ring
      · obtain ⟨other, hother, hrealized⟩ := realizedPnl_update hresult
        cases hget.symm.trans hother
        rw [run_concat, hstep, sumOver_put, hrealized, htaken, List.sum_append, ← h.realized, sumOver_of_get hget]
        ring

theorem booked (calls : List Call) (hcalls : ∀ c ∈ calls, ∀ i, c ≠ .close i) : Booked prices calls := by
  induction calls using List.reverseRecOn with
  | nil => exact booked_nil
  | append_singleton calls c ih =>
      exact (ih (fun c hc => hcalls c (List.mem_append_left _ hc))).concat (hcalls c (by simp))

end Utos.Risk.CompletePnl
