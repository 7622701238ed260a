import Utos.Risk.PerUser
import Utos.Risk.PortfolioRun

namespace Utos.Risk.PositionSize

open Core Core.DomainTypes Core.Exceptions Coroutine
open Recovery.Portfolio Recovery.CashFlow Manager PerUser PortfolioRun
open Recovery.Portfolio.PortfolioManager (RegisterArgs isOpening increased decreased)

/-- What stays as it is during a run: the user's limits, what each instance trades and
where, and the prices, of which the manager may know some. -/
structure Setup where
  userId : String
  limits : Dict String RiskLimits
  instanceCapital : Dict String ℚ
  accountId : String → String
  exchange : String → String
  symbol : String → String
  price : String → ℚ
  price_pos : ∀ symbol, 0 < price symbol
  prices : Dict String ℚ
  quoted : ∀ symbol x, prices.get symbol = some x → x = price symbol

/-- What an instance asks for. -/
structure Request where
  instanceId : String
  side : OrderSide
  quantity : ℚ
  quantity_pos : 0 < quantity

/-- What an open position counts for under a key. -/
def worth (field : Position → String) (k : String) (pos : Position) : ℚ :=
  if pos.closed = false ∧ field pos = k then pos.entryPrice * pos.quantity else 0

/-- The open positions of every value of a field stay within a limit. -/
def Bounded (field : Position → String) (limit : ℚ) (m : PortfolioManager) : Prop :=
  ∀ i pos, m.positions.get i = some pos → pos.closed = false → sumOver (worth field (field pos)) m ≤ limit

namespace Setup

def manager (u : Setup) : RiskManager :=
  { portfolio := .empty, limits := u.limits, prices := u.prices, instanceCapital := u.instanceCapital }

def params (u : Setup) : RiskLimits := getRiskParameters u.manager u.userId

def fillPrice (u : Setup) (r : Request) : ℚ := u.price (u.symbol r.instanceId)

def order (u : Setup) (r : Request) : Order :=
  { instanceId := r.instanceId, accountId := u.accountId r.instanceId, exchange := u.exchange r.instanceId
    symbol := u.symbol r.instanceId, side := r.side.value, quantity := r.quantity, price := u.fillPrice r, userId := u.userId }

/-- A first fill is registered as a position. -/
def args (u : Setup) (r : Request) : RegisterArgs :=
  { instanceId := r.instanceId, accountId := u.accountId r.instanceId, exchange := u.exchange r.instanceId
    symbol := u.symbol r.instanceId
    side := match r.side with
      | .buy => "long"
      | .sell => "short"
    entryPrice := u.fillPrice r, quantity := r.quantity }

def fillOf (u : Setup) (r : Request) : Fill :=
  { instanceId := r.instanceId, side := r.side, price := u.fillPrice r, quantity := r.quantity }

/-- The order is filled in full at its price. -/
def fill (u : Setup) (m : PortfolioManager) (r : Request) : Except Exn (Position × PortfolioManager) :=
  if getPosition m r.instanceId = none then m.registerPosition (u.args r) else update m (u.fillOf r)

/-- The order is checked, and filled if it is allowed. -/
def step (u : Setup) (s : RiskManager) (r : Request) : RiskManager :=
  let checked := checkOrderRisk s (u.order r)
  if checked.1.allowed then
    match u.fill s.portfolio r with
    | .ok filled => { checked.2 with portfolio := filled.2 }
    | .error _ => checked.2
  else checked.2

def Allowed (u : Setup) (s : RiskManager) (r : Request) : Prop := (checkOrderRisk s (u.order r)).1.allowed = true

instance (u : Setup) (s : RiskManager) (r : Request) : Decidable (Allowed u s r) := inferInstanceAs (Decidable (_ = true))

/-- A fill that adds to an open position leaves it no larger than a position may be. -/
def KeepsSize (u : Setup) (s : RiskManager) (r : Request) : Prop :=
  ∀ pos, getPosition s.portfolio r.instanceId = some pos → pos.closed = false →
    isOpening pos r.side.value = true → u.fillPrice r * (pos.quantity + r.quantity) ≤ u.params.maxPositionSize

/-- No position, no symbol and no exchange is over its limit. -/
structure Within (u : Setup) (s : RiskManager) : Prop where
  size : ∀ pos ∈ s.portfolio.getPositions, notional s.prices pos ≤ (getRiskParameters s u.userId).maxPositionSize
  symbol : ∀ k x, (getExposureBySymbol s.portfolio.getPositions s.prices).get k = some x →
    x ≤ (getRiskParameters s u.userId).maxExposurePerSymbol
  exchange : ∀ k x, (getExposureByExchange s.portfolio.getPositions s.prices).get k = some x →
    x ≤ (getRiskParameters s u.userId).maxExposurePerExchange

/-- What every run keeps: the sums of the open positions are part of it. -/
structure Sound (u : Setup) (s : RiskManager) : Prop where
  limits : s.limits = u.limits
  prices : s.prices = u.prices
  marked : Marked s.portfolio
  placed : ∀ i pos, s.portfolio.positions.get i = some pos →
    pos.symbol = u.symbol i ∧ pos.exchange = u.exchange i ∧ pos.entryPrice = u.price (u.symbol i) ∧ 0 ≤ pos.quantity
  symbol : Bounded Position.symbol u.params.maxExposurePerSymbol s.portfolio
  exchange : Bounded Position.exchange u.params.maxExposurePerExchange s.portfolio

end Setup

variable {u : Setup} {s : RiskManager} {r : Request} {m : PortfolioManager} {field : Position → String} {i : String}

theorem sumOver_others (f : Position → ℚ) (m : PortfolioManager) (i : String) :
    sumOver f m = (m.positions.get i).elim 0 f + ((m.others i).map f).sum := by
  cases hget : m.positions.get i with
  | none => rw [PortfolioManager.others_of_get_none hget, sumOver, Option.elim_none, zero_add]
  | some pos => exact sumOver_of_get hget

theorem Bounded.put {pos : Position} {limit : ℚ} (h : Bounded field limit m) (hi : pos.instanceId = i)
    (hold : ∀ old, m.positions.get i = some old → field old = field pos)
    (hsum : sumOver (worth field (field pos)) (m.put i pos hi) ≤ limit) : Bounded field limit (m.put i pos hi) := by
  intro j other hother hopen
  rw [PortfolioManager.put_get] at hother
  split at hother
  next =>
    cases hother
    exact hsum
  next hj =>
    by_cases hk : field pos = field other
    · rw [← hk]
      exact hsum
    · -- the sum under another key counts neither the old position nor the new one
      have hother' := h j other hother hopen
      rw [sumOver_others _ m i] at hother'
      rw [sumOver_put hi, worth, if_neg (fun hboth => hk hboth.2)]
      cases hget : m.positions.get i with
      | none => rwa [hget] at hother'
      | some old =>
          rw [hget, Option.elim_some, worth, if_neg (fun hboth => hk ((hold old hget).symm.trans hboth.2))] at hother'
          exact hother'

namespace Setup

theorem Sound.notional_eq (hs : Sound u s) {prices : Dict String ℚ}
    (hprices : ∀ symbol x, prices.get symbol = some x → x = u.price symbol) {pos : Position}
    (hget : s.portfolio.positions.get i = some pos) : notional prices pos = pos.entryPrice * pos.quantity := by
  obtain ⟨hsymbol, -, hentry, -⟩ := hs.placed i pos hget
  rw [notional]
  cases hquoted : prices.get pos.symbol with
  | none => rfl
  | some x => rw [Option.getD_some, hprices _ _ hquoted, hentry, hsymbol]

theorem Sound.total_eq (hs : Sound u s) {prices : Dict String ℚ}
    (hprices : ∀ symbol x, prices.get symbol = some x → x = u.price symbol) (field : Position → String) (k : String) :
    total field k prices s.portfolio.getPositions = sumOver (worth field k) s.portfolio := by
  have hterms : ∀ positions : List Position, (∀ pos ∈ positions, pos ∈ s.portfolio.getPositions) →
      total field k prices positions = (positions.map (worth field k)).sum := by
    intro positions
    induction positions with
    | nil => exact fun _ => rfl
    | cons pos positions ih =>
        intro hmem
        rw [total_cons, ih (fun other hother => hmem other (List.mem_cons_of_mem _ hother)), List.map_cons,
          List.sum_cons, worth, hs.notional_eq hprices (s.portfolio.mem_getPositions.mp (hmem pos List.mem_cons_self))]
  exact hterms _ (fun _ hpos => hpos)

theorem currentPrices_quoted (hs : Sound u s) (r : Request) :
    ∀ symbol x, (currentPrices s (u.order r)).get symbol = some x → x = u.price symbol := by
  intro symbol x hx
  rw [currentPrices, Dict.get_set] at hx
  split at hx
  next heq =>
    cases hx
    rw [heq]
    rfl
  next =>
    rw [hs.prices] at hx
    exact u.quoted symbol x hx

theorem Sound.params_eq (hs : Sound u s) : getRiskParameters s u.userId = u.params := by
  rw [getRiskParameters, hs.limits]
  rfl

theorem args_side (u : Setup) (r : Request) : (u.args r).side = "long" ∨ (u.args r).side = "short" := by
  rw [args]
  cases r.side <;> simp

theorem update_error {f : Fill} {pos : Position} {e : Exn} (hget : m.positions.get f.instanceId = some pos)
    (hquantity : 0 < f.quantity) (hnonneg : 0 ≤ pos.quantity) (h : update m f = .error e) :
    pos.closed = true ∨ isOpening pos f.side.value = false := by
  unfold update PortfolioManager.updatePosition at h
  split at h
  next hnone => cases hget.symm.trans hnone
  next found hfound =>
    cases hget.symm.trans hfound
    split at h
    next hclosed => exact .inl hclosed
    next =>
      split at h
      next =>
        rw [if_neg (add_pos_of_nonneg_of_pos hnonneg hquantity).ne'] at h
        cases h
      next hclosing => exact .inr (by simpa using hclosing)

theorem step_denied (h : ¬ Allowed u s r) : u.step s r = (checkOrderRisk s (u.order r)).2 := if_neg h

theorem step_failed {e : Exn} (h : u.fill s.portfolio r = .error e) :
    u.step s r = (checkOrderRisk s (u.order r)).2 := by
  simp only [step, h, ite_self]

theorem step_filled {pos : Position} (ha : Allowed u s r) (h : u.fill s.portfolio r = .ok (pos, m)) :
    u.step s r = { (checkOrderRisk s (u.order r)).2 with portfolio := m } := by
  simp only [step, h, if_pos (show (checkOrderRisk s (u.order r)).1.allowed = true from ha)]

theorem step_constant (u : Setup) (s : RiskManager) (r : Request) :
    (u.step s r).limits = s.limits ∧ (u.step s r).prices = s.prices := by
  by_cases ha : Allowed u s r
  · cases hfill : u.fill s.portfolio r with
    | error e =>
        rw [step_failed hfill]
        exact ⟨rfl, rfl⟩
    | ok filled =>
        rw [step_filled ha hfill]
        exact ⟨rfl, rfl⟩
  · rw [step_denied ha]
    exact ⟨rfl, rfl⟩

/-- What an order does to the portfolio: nothing, or it opens, increases or decreases
the position of its instance. -/
theorem portfolio_step (hs : Sound u s) (r : Request) :
    ((u.step s r).portfolio = s.portfolio ∧ (Allowed u s r → KeepsSize u s r)) ∨
    (s.portfolio.positions.get r.instanceId = none ∧ Allowed u s r ∧
      (u.step s r).portfolio = s.portfolio.put r.instanceId (u.args r).position rfl) ∨
    ∃ pos, s.portfolio.positions.get r.instanceId = some pos ∧ pos.closed = false ∧
      (Allowed u s r ∧ isOpening pos r.side.value = true ∧ (∃ hkey, (u.step s r).portfolio =
          s.portfolio.put r.instanceId (increased pos (u.fillPrice r) r.quantity) hkey) ∨
        isOpening pos r.side.value = false ∧ r.quantity ≤ pos.quantity ∧ ∃ hkey, (u.step s r).portfolio =
          s.portfolio.put r.instanceId (decreased pos (u.fillPrice r) r.quantity) hkey) := by
  by_cases ha : Allowed u s r
  swap
  · exact .inl ⟨by rw [step_denied ha]; rfl, fun h => absurd h ha⟩
  cases hget : s.portfolio.positions.get r.instanceId with
  | none =>
      have hfill : u.fill s.portfolio r =
          .ok ((u.args r).position, s.portfolio.put r.instanceId (u.args r).position rfl) := by
        rw [fill, getPosition, if_pos hget]
        exact PortfolioManager.registerPosition_free hget (u.args_side r) (u.price_pos _) r.quantity_pos
      exact .inr (.inl ⟨rfl, ha, by rw [step_filled ha hfill]⟩)
  | some pos =>
      have hfill : u.fill s.portfolio r = update s.portfolio (u.fillOf r) := by
        rw [fill, getPosition, if_neg (by rw [hget]; exact Option.some_ne_none pos)]
      cases hupdate : update s.portfolio (u.fillOf r) with
      | error e =>
          refine .inl ⟨by rw [step_failed (hfill.trans hupdate)]; rfl, fun _ other hother hopen hopening => ?_⟩
          cases hget.symm.trans hother
          rcases update_error (f := u.fillOf r) hget r.quantity_pos (hs.placed _ _ hget).2.2.2 hupdate with hclosed | hclosing
          · cases hclosed.symm.trans hopen
          · cases hopening.symm.trans hclosing
      | ok filled =>
          obtain ⟨changed, m'⟩ := filled
          have hstep := congrArg RiskManager.portfolio (step_filled ha (hfill.trans hupdate))
          obtain ⟨found, hkey, hfound, hopen, rfl, hchanged⟩ := update_ok hupdate
          cases hget.symm.trans hfound
          refine .inr (.inr ⟨pos, rfl, hopen, ?_⟩)
          rcases hchanged with ⟨hopening, -, rfl⟩ | ⟨hclosing, hle, rfl⟩
          · exact .inl ⟨ha, hopening, hkey, hstep⟩
          · exact .inr ⟨hclosing, hle, hkey, hstep⟩

/-- What the rules that allow an order say of it. -/
theorem Allowed.limits (hs : Sound u s) (ha : Allowed u s r) :
    u.fillPrice r * r.quantity ≤ u.params.maxPositionSize ∧
    sumOver (worth Position.symbol (u.symbol r.instanceId)) s.portfolio + u.fillPrice r * r.quantity ≤
      u.params.maxExposurePerSymbol ∧
    sumOver (worth Position.exchange (u.exchange r.instanceId)) s.portfolio + u.fillPrice r * r.quantity ≤
      u.params.maxExposurePerExchange := by
  obtain ⟨hown, hsymbol, hexchange, -⟩ := (@allowed_iff s (u.order r) s.portfolio).mp ha
  have hnotional : (u.order r).notional = u.fillPrice r * r.quantity := mul_comm _ _
  have hparams : getRiskParameters s (u.order r).userId = u.params := hs.params_eq
  rw [hparams, hnotional, hs.total_eq (currentPrices_quoted hs r)] at hsymbol hexchange
  refine ⟨?_, hsymbol, hexchange⟩
  have hsize := (not_or.mp hown).1
  rwa [hparams, hnotional, not_lt] at hsize

theorem Sound.put {s' : RiskManager} {pos : Position} (hs : Sound u s)
    (hconstant : s'.limits = s.limits ∧ s'.prices = s.prices) (hi : pos.instanceId = i)
    (hportfolio : s'.portfolio = s.portfolio.put i pos hi) (hclosed : pos.closed = true ↔ pos.quantity = 0)
    (hside : pos.side = "long" ∨ pos.side = "short")
    (hplaced : pos.symbol = u.symbol i ∧ pos.exchange = u.exchange i ∧ pos.entryPrice = u.price (u.symbol i) ∧
      0 ≤ pos.quantity)
    (hsymbol : sumOver (worth Position.symbol (u.symbol i)) (s.portfolio.put i pos hi) ≤ u.params.maxExposurePerSymbol)
    (hexchange : sumOver (worth Position.exchange (u.exchange i)) (s.portfolio.put i pos hi) ≤
      u.params.maxExposurePerExchange) : Sound u s' where
  limits := hconstant.1.trans hs.limits
  prices := hconstant.2.trans hs.prices
  marked := hportfolio ▸ hs.marked.put hi hclosed hside
  placed := by
    rw [hportfolio]
    exact PortfolioManager.put_forall hi hs.placed hplaced
  symbol := by
    rw [hportfolio]
    refine hs.symbol.put hi (fun old hold => (hs.placed i old hold).1.trans hplaced.1.symm) ?_
    rwa [hplaced.1]
  exchange := by
    rw [hportfolio]
    refine hs.exchange.put hi (fun old hold => (hs.placed i old hold).2.1.trans hplaced.2.1.symm) ?_
    rwa [hplaced.2.1]

theorem worth_open {k : String} {pos : Position} (hopen : pos.closed = false) (hk : field pos = k) :
    worth field k pos = pos.entryPrice * pos.quantity := if_pos ⟨hopen, hk⟩

theorem worth_decreased_le {k : String} {pos : Position} (hopen : pos.closed = false) (hk : field pos = k)
    (hentry : 0 ≤ pos.entryPrice) (hnonneg : 0 ≤ pos.quantity) (price : ℚ) {quantity : ℚ} (hquantity : 0 ≤ quantity) :
    worth field k (decreased pos price quantity) ≤ worth field k pos := by
  rw [worth_open hopen hk, worth]
  split_ifs
  · exact mul_le_mul_of_nonneg_left (sub_le_self _ hquantity) hentry
  · exact mul_nonneg hentry hnonneg

theorem sumOver_change {f : Position → ℚ} {pos old : Position} (hi : pos.instanceId = i)
    (hget : m.positions.get i = some old) : sumOver f (m.put i pos hi) = sumOver f m + (f pos - f old) := by
  rw [sumOver_put hi, sumOver_of_get hget]
  ring

theorem increased_entryPrice {pos : Position} {price quantity : ℚ} (hprice : pos.entryPrice = price)
    (hne : pos.quantity + quantity ≠ 0) : (increased pos price quantity).entryPrice = price := by
  rw [increased, hprice, ← mul_add, mul_div_cancel_right₀ _ hne]

theorem worth_increased {k : String} {pos : Position} {price quantity : ℚ} (hopen : pos.closed = false) (hk : field pos = k)
    (hk' : field (increased pos price quantity) = k) (hprice : pos.entryPrice = price) (hne : pos.quantity + quantity ≠ 0) :
    worth field k (increased pos price quantity) - worth field k pos = price * quantity := by
  have hopen' : (increased pos price quantity).closed = false := hopen
  rw [worth_open hopen hk, worth_open hopen' hk', increased_entryPrice hprice hne, hprice]
  simp only [increased]
  ring

theorem sumOver_entered {k : String} (hfree : s.portfolio.positions.get r.instanceId = none)
    (hk : field (u.args r).position = k) :
    sumOver (worth field k) (s.portfolio.put r.instanceId (u.args r).position rfl) =
      sumOver (worth field k) s.portfolio + u.fillPrice r * r.quantity := by
  have hworth : worth field k (u.args r).position = u.fillPrice r * r.quantity := worth_open rfl hk
  rw [add_comm, ← hworth]
  exact @sumOver_register s.portfolio (worth field k) (u.args r) hfree

theorem Sound.step (hs : Sound u s) (r : Request) : Sound u (u.step s r) := by
  have hprice := u.price_pos (u.symbol r.instanceId)
  have hquantity := r.quantity_pos
  rcases portfolio_step hs r with ⟨hsame, -⟩ | ⟨hfree, ha, hput⟩ | ⟨pos, hget, hopen, hchanged⟩
  · obtain ⟨hlimits, hprices⟩ := step_constant u s r
    exact ⟨hlimits.trans hs.limits, hprices.trans hs.prices, hsame ▸ hs.marked, hsame ▸ hs.placed, hsame ▸ hs.symbol,
      hsame ▸ hs.exchange⟩
  · obtain ⟨-, hsymbol, hexchange⟩ := ha.limits hs
    refine hs.put (i := r.instanceId) (step_constant u s r) rfl hput
      (iff_of_false Bool.false_ne_true hquantity.ne') (u.args_side r) ⟨rfl, rfl, rfl, hquantity.le⟩ ?_ ?_
    · exact (sumOver_entered hfree rfl).trans_le hsymbol
    · exact (sumOver_entered hfree rfl).trans_le hexchange
  · obtain ⟨hsymbol, hexchange, hentry, hnonneg⟩ := hs.placed _ _ hget
    have hside := (hs.marked _ _ hget).2
    rcases hchanged with ⟨ha, -, hkey, hput⟩ | ⟨-, hle, hkey, hput⟩
    · obtain ⟨-, hsymbolLimit, hexchangeLimit⟩ := ha.limits hs
      have hne : pos.quantity + r.quantity ≠ 0 := (add_pos_of_nonneg_of_pos hnonneg hquantity).ne'
      have hentry' : pos.entryPrice = u.fillPrice r := hentry
      refine hs.put (step_constant u s r) hkey hput (iff_of_false ?_ hne) hside
        ⟨hsymbol, hexchange, increased_entryPrice hentry' hne, (add_pos_of_nonneg_of_pos hnonneg hquantity).le⟩ ?_ ?_
      · exact Bool.eq_false_iff.mp hopen
      · rwa [sumOver_change hkey hget, worth_increased hopen hsymbol hsymbol hentry' hne]
      · rwa [sumOver_change hkey hget, worth_increased hopen hexchange hexchange hentry' hne]
    · have hshrunk : ∀ {field : Position → String} {k : String}, field pos = k →
          worth field k (decreased pos (u.fillPrice r) r.quantity) - worth field k pos ≤ 0 := by
        intro field k hk
        exact sub_nonpos.mpr (worth_decreased_le hopen hk (hentry ▸ hprice.le) hnonneg _ hquantity.le)
      refine hs.put (step_constant u s r) hkey hput (by simp [decreased]) hside
        ⟨hsymbol, hexchange, hentry, sub_nonneg.mpr hle⟩ ?_ ?_
      · rw [sumOver_change hkey hget]
        refine (add_le_of_nonpos_right (hshrunk hsymbol)).trans ?_
        exact hsymbol ▸ hs.symbol _ _ hget hopen
      · rw [sumOver_change hkey hget]
        refine (add_le_of_nonpos_right (hshrunk hexchange)).trans ?_
        exact hexchange ▸ hs.exchange _ _ hget hopen

def bitcoin : Setup where
  userId := "default"
  limits := ∅
  instanceCapital := ∅
  accountId _ := "acc"
  exchange _ := "binance"
  symbol _ := "BTCUSDT"
  price _ := 50000
  price_pos _ := by decide +kernel
  prices := ∅
  quoted symbol x h := by simp at h

end Setup

end Utos.Risk.PositionSize
