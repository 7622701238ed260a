import Utos.Grid.Holdings
import Utos.Grid.CallTerms

namespace Utos.Grid.Room

open Core.DomainTypes Core.Exceptions Execution.Models Execution.Service Execution.Exchange Execution.Validator
open Engine Terms Holdings

variable {d : Desk Owner} {o : Quota} {w : World Owner} {k : LevelKey}

/-- What may still be offered for sale on behalf of a level or of its lock. -/
def total (o : Quota) (k : LevelKey) : ℚ := o.sells (.level k) + o.sells (.lock k)

/-- The live sell that a cancel will take off the level. -/
def cancellable (w : World Owner) (k : LevelKey) (r : Nat) : ℚ :=
  match w.desk.orders[r]? with
  | none => 0
  | some o => if (w.oracle.cancel r).effect = .cancelled then liveSold k o else 0

/-- What the level gets back from the order that is still to be replaced. -/
def credit (w : World Owner) (o : Quota) (k : LevelKey) : ℚ :=
  match (o.replaces k).bind w.desk.index with
  | none => 0
  | some r => cancellable w k r

/-- Each level has room for what is still to be offered. -/
def Fits (o : Quota) (w : World Owner) : Prop :=
  ∀ k, 0 < total o k → outstanding w.desk k + total o k ≤ held w.desk k + credit w o k

/-- The room there has to be for a call: the level has it, the exchange makes no
more than one live order of a sell, and it hands out no id under which an order
is still to be cancelled. -/
structure HasRoom (o : Quota) (w : World Owner) : Prop where
  fits : Fits o w
  single : ∀ request : OrderRequest, request.side = .sell → (w.oracle.place request).orders.count true ≤ 1
  fresh : ∀ (request : OrderRequest) (orderId : OrderId) (k : LevelKey),
    (w.oracle.place request).registered = some orderId →
      o.replaces k ≠ some (request.exchangeAccountId, orderId)

/-- The desk between any two requests. -/
structure Safe (d : Desk Owner) : Prop where
  positive : ∀ o ∈ d.orders, 0 < o.quantity
  noOversell : NoOversell d

structure Within (o : Quota) (w : World Owner) : Prop where
  safe : Safe w.desk
  nonneg : ∀ owner, 0 ≤ o.sells owner
  room : HasRoom o w

theorem Within.sells_le_total (h : Within o w) (owner : Owner) : o.sells owner ≤ total o owner.key := by
  cases owner with
  | level k => exact le_add_of_nonneg_right (h.nonneg _)
  | lock k => exact le_add_of_nonneg_left (h.nonneg _)

/-- Only the owner of the order has less to offer after it. -/
theorem sells_spend {owner : Owner} {request : UUID → OrderRequest} (hside : (request 0).side = .sell) (other : Owner) :
    (o.spend (.placeOrder owner request)).sells other =
      o.sells other - if other = owner then max (request 0).quantity 0 else 0 := by
  simp only [Quota.spend, hside]
  by_cases hother : other = owner
  · rw [hother, Function.update_self, if_pos rfl]
  · rw [Function.update_of_ne hother, if_neg hother, sub_zero]

theorem total_spend_sell {owner : Owner} {request : UUID → OrderRequest} (hside : (request 0).side = .sell) :
    total (o.spend (.placeOrder owner request)) k =
      total o k - if owner.key = k then max (request 0).quantity 0 else 0 := by
  rw [total, sells_spend hside, sells_spend hside, total]
  cases owner with
  | level j => grind [Owner.key]
  | lock j => grind [Owner.key]

theorem total_spend_le (q : ExecReq Owner) : total (o.spend q) k ≤ total o k := by
  cases q with
  | cancelOrder acct orderId => exact le_rfl
  | placeOrder owner request =>
      cases hside : (request 0).side with
      | buy => simp only [total, Quota.spend, hside]; exact le_rfl
      | sell =>
          rw [total_spend_sell hside]
          split
          · linarith [le_max_right (request 0).quantity 0]
          · simp

theorem cancellable_nonneg (h : ∀ o ∈ w.desk.orders, 0 < o.quantity) (r : Nat) : 0 ≤ cancellable w k r := by
  unfold cancellable
  split
  · exact le_rfl
  · next o ho =>
      split
      · exact liveSold_nonneg (h o (List.mem_of_getElem? ho))
      · exact le_rfl

theorem credit_nonneg (h : ∀ o ∈ w.desk.orders, 0 < o.quantity) : 0 ≤ credit w o k := by
  unfold credit
  split
  · exact le_rfl
  · exact cancellable_nonneg h _

theorem credit_none (h : o.replaces k = none) : credit w o k = 0 := by simp [credit, h]

theorem cancellable_of_not_live {r : Nat} (h : ¬ w.desk.IsLive r) : cancellable w k r = 0 := by
  unfold cancellable
  split
  · rfl
  · next o ho =>
      have hl : o.state ≠ .live := fun hl => h ⟨o, ho, hl⟩
      simp [liveSold, hl]

theorem cancellable_of_effect {r : Nat} (h : (w.oracle.cancel r).effect ≠ .cancelled) : cancellable w k r = 0 := by
  unfold cancellable
  split
  · rfl
  · simp [h]

theorem credit_spend (acct : Option UUID) (orderId : OrderId) :
    credit w (o.spend (.cancelOrder acct orderId)) k =
      if o.replaces k = some (acct, orderId) then 0 else credit w o k := by
  by_cases h : o.replaces k = some (acct, orderId)
  · simp [credit, Quota.spend, h]
  · simp [credit, Quota.spend, h]

/-- A level keeps its room if it gets back what it loses. -/
theorem Fits.keep {o' : Quota} {w' : World Owner} (h : Fits o w) (htotal : ∀ k, total o' k ≤ total o k)
    (hheld : ∀ k, held w'.desk k = held w.desk k)
    (hout : ∀ k, outstanding w'.desk k + credit w o k ≤ outstanding w.desk k + credit w' o' k) : Fits o' w' := by
  intro k hk
  have hfit := h k (hk.trans_le (htotal k))
  rw [hheld]
  linarith [htotal k, hout k]

theorem outstanding_cancel {r : Nat} {order : Order Owner} (ho : d.orders[r]? = some order)
    (hl : order.state = .live) : outstanding (d.cancel r) k = outstanding d k - soldFor k order := by
  rw [outstanding, liveSells_cancel ho hl, cancel_fills, outstanding]
  ring

theorem cancellable_cancel_of_ne {r r' : Nat} (h : r ≠ r') :
    cancellable { w with desk := w.desk.cancel r } k r' = cancellable w k r' := by
  have ho : (w.desk.cancel r).orders[r']? = w.desk.orders[r']? := by
    rw [Desk.cancel_orders]
    cases w.desk.orders[r']? with
    | none => rfl
    | some o => simp [h]
  simp only [cancellable, ho]

theorem credit_cancel {acct : Option UUID} {orderId : OrderId} {r : Nat} {order : Order Owner}
    (hpos : ∀ o ∈ w.desk.orders, 0 < o.quantity) (hr : w.desk.index (acct, orderId) = some r)
    (ho : w.desk.orders[r]? = some order) (hl : order.state = .live) :
    credit w o k ≤ soldFor k order +
      credit { w with desk := w.desk.cancel r } (o.spend (.cancelOrder acct orderId)) k := by
  have hsold := soldFor_nonneg (k := k) (hpos order (List.mem_of_getElem? ho))
  have hrest : 0 ≤ credit { w with desk := w.desk.cancel r } (o.spend (.cancelOrder acct orderId)) k :=
    credit_nonneg (positive_settle .cancelled r hpos)
  cases hk : (o.replaces k).bind w.desk.index with
  | none => simpa only [credit, hk] using add_nonneg hsold hrest
  | some r' =>
      by_cases hne : r = r'
      · subst hne
        refine le_trans ?_ (le_add_of_nonneg_right hrest)
        simp only [credit, hk, cancellable, ho, liveSold, hl, if_true]
        split
        · exact le_rfl
        · exact hsold
      · have hkey : o.replaces k ≠ some (acct, orderId) := fun h => hne (by simpa [h, hr] using hk)
        rw [credit_spend, if_neg hkey]
        simp only [credit, hk, Desk.cancel_index, cancellable_cancel_of_ne hne]
        exact le_add_of_nonneg_left hsold

/-- If the order that fills is a buy, the live sells of its level do not exceed the fill. -/
def Absorbs (d : Desk Owner) (r : Nat) (quantity : ℚ) : Prop :=
  ∀ o ∈ d.orders[r]?, o.state = .live → o.side = .buy → liveSells d o.owner.key ≤ quantity

instance (d : Desk Owner) (r : Nat) (quantity : ℚ) : Decidable (Absorbs d r quantity) :=
  inferInstanceAs (Decidable (∀ o ∈ d.orders[r]?, o.state = .live → o.side = .buy →
    liveSells d o.owner.key ≤ quantity))

theorem Safe.fill (h : Safe d) {r : Nat} {quantity : ℚ} (hbuy : Absorbs d r quantity) :
    Safe (d.fill r quantity) := by
  refine ⟨positive_settle (.filled quantity) r h.positive, fun k => ?_⟩
  by_cases hl : d.IsLive r
  · obtain ⟨o, ho, hl⟩ := hl
    rcases outstanding_fill (k := k) quantity ho hl with ⟨rfl, hside, hheld, hout⟩ | ⟨hheld, hout⟩
    · rw [hheld, hout]
      exact hbuy o ho hl hside
    · rw [hheld, hout]
      exact h.noOversell k
  · have hsame : d.fill r quantity = d := settle_of_not_live hl (.filled quantity)
    rw [hsame]
    exact h.noOversell k

theorem Safe.cancel (h : Safe d) (r : Nat) : Safe (d.cancel r) := by
  refine ⟨positive_settle .cancelled r h.positive, fun k => ?_⟩
  by_cases hl : d.IsLive r
  · obtain ⟨o, ho, hl⟩ := hl
    have hq := soldFor_nonneg (k := k) (h.positive o (List.mem_of_getElem? ho))
    have hheld : held (d.cancel r) k = held d k := by rw [held, cancel_fills, held]
    rw [outstanding_cancel ho hl, hheld]
    linarith [h.noOversell k]
  · have hsame : d.cancel r = d := settle_of_not_live hl .cancelled
    rw [hsame]
    exact h.noOversell k

theorem HasRoom.spend {q : ExecReq Owner} (h : HasRoom o w) {d' : Desk Owner}
    (hfits : Fits (o.spend q) { w with desk := d' }) : HasRoom (o.spend q) { w with desk := d' } := by
  refine ⟨hfits, h.single, fun request orderId k hreg => ?_⟩
  have hne := h.fresh request orderId k hreg
  cases q with
  | placeOrder owner request' =>
      simp only [Quota.spend]
      cases (request' 0).side <;> exact hne
  | cancelOrder acct id =>
      simp only [Quota.spend]
      split
      · simp
      · exact hne

theorem nonneg_spend {q : ExecReq Owner} (h : ∀ owner, 0 ≤ o.sells owner) (ha : o.Allows q) (owner : Owner) :
    0 ≤ (o.spend q).sells owner := by
  cases q with
  | cancelOrder acct orderId => exact h owner
  | placeOrder owner' request =>
      have hside := ha.2
      cases hs : (request 0).side with
      | buy => simpa only [Quota.spend, hs] using h owner
      | sell =>
          simp only [hs] at hside
          simp only [Quota.spend, hs]
          by_cases hne : owner = owner'
          · subst hne
            rw [Function.update_self, sub_nonneg]
            exact max_le hside.1 (h owner)
          · rw [Function.update_of_ne hne]
            exact h owner

theorem Within.cancelOrder {acct : Option UUID} {orderId : OrderId} (h : Within o w)
    (hfill : ∀ r quantity, w.desk.index (acct, orderId) = some r → (w.oracle.cancel r).effect = .filled quantity →
      Absorbs w.desk r quantity ∧
        Fits (o.spend (.cancelOrder acct orderId)) { w with desk := w.desk.fill r quantity }) :
    Within (o.spend (.cancelOrder acct orderId)) (handler w (.cancelOrder acct orderId)).2 := by
  rw [handler_cancelOrder]
  have hsame : (∀ k, o.replaces k = some (acct, orderId) → credit w o k = 0) →
      Fits (o.spend (.cancelOrder acct orderId)) w := by
    intro hzero
    refine h.room.fits.keep (fun _ => le_rfl) (fun _ => rfl) (fun k => ?_)
    rw [credit_spend]
    split
    next hk => simp [hzero k hk]
    next => exact le_rfl
  have hcredit : ∀ r, w.desk.index (acct, orderId) = some r → ∀ k, o.replaces k = some (acct, orderId) →
      credit w o k = cancellable w k r := fun r hr k hk => by simp [credit, hk, hr]
  cases hr : w.desk.index (acct, orderId) with
  | none =>
      simp only [Desk.settleById, hr]
      exact ⟨h.safe, h.nonneg, h.room.spend (hsame (fun k hk => by simp [credit, hk, hr]))⟩
  | some r =>
      simp only [Desk.settleById, hr]
      by_cases hl : w.desk.IsLive r
      · cases he : (w.oracle.cancel r).effect with
        | unchanged =>
            have hz : ∀ k, cancellable w k r = 0 := fun k => cancellable_of_effect (by simp [he])
            exact ⟨h.safe, h.nonneg, h.room.spend (hsame (fun k hk => (hcredit r hr k hk).trans (hz k)))⟩
        | filled quantity =>
            obtain ⟨habs, hfits⟩ := hfill r quantity hr he
            exact ⟨h.safe.fill habs, h.nonneg, h.room.spend hfits⟩
        | cancelled =>
            obtain ⟨order, ho, hlive⟩ := hl
            refine ⟨h.safe.cancel r, h.nonneg, h.room.spend ?_⟩
            refine h.room.fits.keep (fun _ => le_rfl) (fun k => by simp only [Desk.settle, held, cancel_fills])
              (fun k => ?_)
            have hc := credit_cancel (k := k) (o := o) h.safe.positive hr ho hlive
            simp only [Desk.settle]
            rw [outstanding_cancel ho hlive]
            linarith
      · rw [settle_of_not_live hl]
        exact ⟨h.safe, h.nonneg, h.room.spend (hsame (fun k hk =>
          (hcredit r hr k hk).trans (cancellable_of_not_live hl)))⟩

@[simp] theorem credit_spend_placeOrder (owner : Owner) (request : UUID → OrderRequest) :
    credit w (o.spend (.placeOrder owner request)) k = credit w o k := by
  simp only [credit, Quota.spend]
  cases (request 0).side <;> rfl

theorem positive_accept (owner : Owner) {request : OrderRequest} (fate : PlaceFate)
    (h : ∀ o ∈ d.orders, 0 < o.quantity) (hq : 0 < request.quantity) :
    ∀ o ∈ (d.accept owner request fate).orders, 0 < o.quantity := by
  intro o ho
  rcases List.mem_append.mp ho with ho | ho
  · exact h o ho
  · obtain ⟨isLive, -, rfl⟩ := List.mem_map.mp ho
    exact hq

theorem credit_accept {owner : Owner} {request : OrderRequest} (h : Within o w) (hq : 0 < request.quantity) :
    credit w o k ≤ credit { w with desk := w.desk.accept owner request (w.oracle.place request) } o k := by
  have hpos := positive_accept owner (w.oracle.place request) h.safe.positive hq
  have hindex : (o.replaces k).bind (w.desk.accept owner request (w.oracle.place request)).index =
      (o.replaces k).bind w.desk.index := by
    cases hk : o.replaces k with
    | none => rfl
    | some key =>
        simp only [Option.bind_some, Desk.accept]
        cases hreg : (w.oracle.place request).registered with
        | none => rfl
        | some orderId =>
            simp only
            split
            · rfl
            · refine Function.update_of_ne (fun hkey => ?_) _ _
              exact h.room.fresh request orderId k hreg (hk.trans (congrArg some hkey))
  simp only [credit, hindex]
  split
  · exact le_rfl
  · next r _ =>
      by_cases hr : r < w.desk.orders.length
      · simp only [cancellable, Desk.accept, List.getElem?_append_left hr]
        exact le_rfl
      · have hnone : ¬ w.desk.IsLive r := by
          rintro ⟨o, ho, -⟩
          exact hr (List.getElem?_eq_some_iff.mp ho).1
        rw [cancellable_of_not_live hnone]
        exact cancellable_nonneg hpos r

theorem Within.asked (h : Within o w) (asked : List Owner) :
    Within o { w with desk := { w.desk with asked := asked } } :=
  ⟨⟨h.safe.positive, h.safe.noOversell⟩, h.nonneg, ⟨h.room.fits, h.room.single, h.room.fresh⟩⟩

theorem Within.accept {owner : Owner} {request : UUID → OrderRequest} {rq : OrderRequest} (h : Within o w)
    (ha : o.Allows (.placeOrder owner request)) (hside : rq.side = (request 0).side)
    (hquantity : rq.quantity = (request 0).quantity) (hq : 0 < rq.quantity) :
    Within (o.spend (.placeOrder owner request))
      { w with desk := w.desk.accept owner rq (w.oracle.place rq) } := by
  have hpos := positive_accept owner (w.oracle.place rq) h.safe.positive hq
  have hcredit : ∀ k, credit w o k ≤
      credit { w with desk := w.desk.accept owner rq (w.oracle.place rq) } (o.spend (.placeOrder owner request)) k := by
    intro k
    rw [credit_spend_placeOrder]
    exact credit_accept h hq
  have hout : ∀ k, outstanding (w.desk.accept owner rq (w.oracle.place rq)) k = outstanding w.desk k +
      (w.oracle.place rq).orders.count true * if owner.key = k ∧ rq.side = .sell then rq.quantity else 0 := by
    intro k
    rw [outstanding, liveSells_accept, outstanding]
    exact add_right_comm _ _ _
  have hheld : ∀ k, held (w.desk.accept owner rq (w.oracle.place rq)) k = held w.desk k := fun _ => rfl
  cases hs : rq.side with
  | buy =>
      have hsame : ∀ k, outstanding (w.desk.accept owner rq (w.oracle.place rq)) k = outstanding w.desk k := by
        intro k
        rw [hout, hs]
        simp
      refine ⟨⟨hpos, fun k => ?_⟩, nonneg_spend h.nonneg ha, h.room.spend ?_⟩
      · rw [hsame]
        exact h.safe.noOversell k
      · refine h.room.fits.keep (fun _ => total_spend_le _) hheld (fun k => ?_)
        rw [hsame]
        linarith [hcredit k]
  | sell =>
      have hside0 : (request 0).side = .sell := hside ▸ hs
      obtain ⟨hsells, hreplaces⟩ : (request 0).quantity ≤ o.sells owner ∧ o.replaces owner.key = none := by
        have h2 := ha.2
        simpa only [hside0] using h2
      have hcount : ((w.oracle.place rq).orders.count true : ℚ) ≤ 1 := by
        exact_mod_cast h.room.single rq hs
      have hfit := h.room.fits owner.key (by linarith [h.sells_le_total owner])
      rw [credit_none hreplaces] at hfit
      have hadd : (w.oracle.place rq).orders.count true * rq.quantity ≤ rq.quantity := by
        nlinarith
      refine ⟨⟨hpos, fun k => ?_⟩, nonneg_spend h.nonneg ha, h.room.spend (fun k hk => ?_)⟩
      · rw [hout, hheld]
        by_cases hk : owner.key = k
        · subst hk
          simp only [hs, and_self, if_true]
          linarith [h.sells_le_total owner]
        · simpa [hk] using h.safe.noOversell k
      · rw [total_spend_sell hside0] at hk ⊢
        rw [hout, hheld]
        by_cases hkey : owner.key = k
        · subst hkey
          have hc := hcredit owner.key
          rw [credit_none hreplaces] at hc
          have hmax : max (request 0).quantity 0 = rq.quantity := by
            rw [← hquantity]
            exact max_eq_left hq.le
          simp only [hs, and_self, if_true, hmax]
          linarith
        · simp only [hkey, false_and, if_false, mul_zero, add_zero, sub_zero] at hk ⊢
          linarith [h.room.fits k hk, hcredit k]

theorem Within.placeOrder {owner : Owner} {request : UUID → OrderRequest} (h : Within o w)
    (ha : o.Allows (.placeOrder owner request)) :
    Within (o.spend (.placeOrder owner request)) (handler w (.placeOrder owner request)).2 := by
  have hreq := ha.1 w.desk.asked.length
  have hside : (request w.desk.asked.length).side = (request 0).side := by rw [hreq]
  have hquantity : (request w.desk.asked.length).quantity = (request 0).quantity := by rw [hreq]
  have h1 := h.asked (owner :: w.desk.asked)
  simp only [handler]
  split
  next =>
    refine ⟨h1.safe, nonneg_spend h.nonneg ha, h1.room.spend ?_⟩
    refine h1.room.fits.keep (fun _ => total_spend_le _) (fun _ => rfl) (fun k => ?_)
    rw [credit_spend_placeOrder]
  next hvalid => exact h1.accept ha hside hquantity (validate_quantity hvalid)

end Utos.Grid.Room
