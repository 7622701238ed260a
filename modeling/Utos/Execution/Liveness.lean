import Utos.Execution.Exchange

namespace Utos.Execution.Exchange

open Coroutine Core.DomainTypes Core.Exceptions Models Service Validator

variable {ω : Type} {d : Desk ω} {ref r : Nat} {oracle : Oracle}

/-- Every id that the tracker knows names an order of the exchange. -/
def Desk.Indexed (d : Desk ω) : Prop := ∀ key ref, d.index key = some ref → ref < d.orders.length

theorem Desk.IsLive.lt (h : d.IsLive r) : r < d.orders.length := by
  obtain ⟨o, ho, -⟩ := h
  exact (List.getElem?_eq_some_iff.mp ho).1

theorem isLive_settle {effect : CancelEffect} :
    (d.settle ref effect).IsLive r ↔ d.IsLive r ∧ (ref = r → effect = .unchanged) := by
  constructor
  · rintro ⟨o, ho, hl⟩
    obtain ⟨hold, heffect⟩ := settle_live ho hl
    exact ⟨⟨o, hold, hl⟩, heffect⟩
  · rintro ⟨⟨o, ho, hl⟩, heffect⟩
    cases effect with
    | unchanged => exact ⟨o, ho, hl⟩
    | cancelled =>
        have hne : ref ≠ r := fun h => (by cases heffect h)
        exact ⟨o, by rw [Desk.settle, Desk.cancel_orders, ho, Option.map_some, if_neg (fun h => hne h.1)], hl⟩
    | filled quantity =>
        have hne : ref ≠ r := fun h => (by cases heffect h)
        exact ⟨o, by rw [Desk.settle, Desk.fill_orders, ho, Option.map_some, if_neg (fun h => hne h.1)], hl⟩

theorem isLive_settleById {key : Option UUID × OrderId} :
    (d.settleById oracle key).IsLive r ↔
      d.IsLive r ∧ (d.index key = some r → (oracle.cancel r).effect = .unchanged) := by
  unfold Desk.settleById
  cases hkey : d.index key with
  | none => simp
  | some ref =>
      rw [isLive_settle]
      refine and_congr_right (fun _ => ⟨fun h hr => ?_, fun h hr => ?_⟩)
      · obtain rfl := Option.some.inj hr
        exact h rfl
      · subst hr
        exact h rfl

theorem newOrder_live {owner : ω} {request : OrderRequest} {isLive : Bool} :
    (Desk.newOrder owner request isLive).state = .live ↔ isLive = true := by
  cases isLive <;> simp [Desk.newOrder]

theorem isLive_accept {owner : ω} {request : OrderRequest} {fate : PlaceFate} :
    (d.accept owner request fate).IsLive r ↔
      d.IsLive r ∨ d.orders.length ≤ r ∧ fate.orders[r - d.orders.length]? = some true := by
  rcases Nat.lt_or_ge r d.orders.length with hr | hr
  · simp only [Desk.IsLive, Desk.accept, List.getElem?_append_left hr, Nat.not_le.mpr hr, false_and, or_false]
  · have hold : ¬ d.IsLive r := fun h => Nat.not_lt.mpr hr h.lt
    simp only [hold, false_or, hr, true_and]
    simp only [Desk.IsLive, Desk.accept, List.getElem?_append_right hr, List.getElem?_map]
    constructor
    · rintro ⟨o, ho, hl⟩
      obtain ⟨isLive, hlive, rfl⟩ := Option.map_eq_some_iff.mp ho
      rw [hlive, newOrder_live.mp hl]
    · intro h
      exact ⟨_, by rw [h, Option.map_some], newOrder_live.mpr rfl⟩

/-- Only the id that the tracker keeps the placement under is known otherwise than before. -/
theorem accept_index_of_ne {owner : ω} {request : OrderRequest} {fate : PlaceFate} {key : Option UUID × OrderId}
    (hkey : ∀ orderId, fate.registered = some orderId → key ≠ (request.exchangeAccountId, orderId)) :
    (d.accept owner request fate).index key = d.index key := by
  cases hreg : fate.registered with
  | none => simp only [Desk.accept, hreg]
  | some orderId =>
      simp only [Desk.accept, hreg]
      by_cases hne : fate.orders = []
      · rw [if_pos hne]
      · rw [if_neg hne, Function.update_of_ne (hkey orderId hreg)]

theorem Desk.Indexed.settleById (h : d.Indexed) (oracle : Oracle) (key : Option UUID × OrderId) :
    (d.settleById oracle key).Indexed := by
  intro key' ref href
  rw [Desk.settleById_index] at href
  rw [Desk.settleById_length]
  exact h key' ref href

theorem Desk.Indexed.accept (h : d.Indexed) (owner : ω) (request : OrderRequest) (fate : PlaceFate) :
    (d.accept owner request fate).Indexed := by
  intro key ref href
  have hlength : (d.accept owner request fate).orders.length = d.orders.length + fate.orders.length := by
    simp [Desk.accept]
  have hold : ∀ key ref, d.index key = some ref → ref < (d.accept owner request fate).orders.length :=
    fun key ref href => hlength ▸ Nat.lt_add_right _ (h key ref href)
  cases hreg : fate.registered with
  | none =>
      simp only [Desk.accept, hreg] at href
      exact hold key ref href
  | some orderId =>
      simp only [Desk.accept, hreg] at href
      by_cases hne : fate.orders = []
      · rw [if_pos hne] at href
        exact hold key ref href
      · rw [if_neg hne] at href
        by_cases hkey : key = (request.exchangeAccountId, orderId)
        · rw [hkey, Function.update_self] at href
          have hpos := List.length_pos_iff.mpr hne
          have hlast := Option.some.inj href
          omega
        · rw [Function.update_of_ne hkey] at href
          exact hold key ref href

theorem Desk.Indexed.handler {w : World ω} (h : w.desk.Indexed) (q : ExecReq ω) :
    (Exchange.handler w q).2.desk.Indexed := by
  cases q with
  | cancelOrder acct orderId =>
      rw [handler_cancelOrder]
      exact h.settleById w.oracle _
  | placeOrder owner request =>
      have hasked : (Desk.Indexed { w.desk with asked := owner :: w.desk.asked }) := h
      simp only [Exchange.handler]
      split
      next => exact hasked
      next => exact hasked.accept _ _ _

theorem Desk.Indexed.fill (h : d.Indexed) (ref : Nat) (quantity : ℚ) : (d.fill ref quantity).Indexed := by
  intro key r hr
  rw [Desk.fill_index] at hr
  rw [Desk.fill_length]
  exact h key r hr

end Utos.Execution.Exchange
