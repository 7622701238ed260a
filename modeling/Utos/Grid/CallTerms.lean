import Utos.Grid.PlanTerms
import Utos.Grid.Trading

namespace Utos.Grid.CallTerms

open Coroutine Program Core.DomainTypes Core.Exceptions Execution.Models Execution.Service State
open CircuitBreaker Planner Calculator Engine Trading Invariant Terms LockTerms PlanTerms
open ProfitLock.State (ProfitLockState ProfitLockStatus)

variable {K : Set LevelKey} {α : Type} {o : Quota} {s : GridEngine}

theorem fine_placeAll {i : String} {actions : List GridAction} (hs : Sound K s)
    (hn : ∀ k, o.replaces k = none) (ha : ∀ a ∈ actions, o.Admits i true a)
    (hnd : (actions.map GridAction.level).Nodup) : Fine K o s (placeAll i actions) := by
  refine under_forEach (fun xs o s => Sound K s ∧ (∀ k, o.replaces k = none) ∧ (∀ a ∈ xs, o.Admits i true a) ∧
    (xs.map GridAction.level).Nodup) _ ?_ (fun _ _ _ => trivial) actions ⟨hs, hn, ha, hnd⟩
  rintro a xs o1 s1 ⟨hs1, hn1, ha1, hnd1⟩
  simp only [List.map_cons, List.nodup_cons, List.mem_map, not_exists, not_and] at hnd1
  rw [bind_eq, under_bind]
  refine under_mono (under_placeGridOrder hs1 (fun state => (ha1 a (by simp)).allows hn1 state)) ?_
  rintro (e | orderId) o2 s2 ⟨hs2, ho2, -, -⟩
  · trivial
  · have hrest := Quota.rest_placement ho2
    exact ⟨hs2, fun k => by rw [hrest.replaces]; exact hn1 k,
      fun a' ha' => (ha1 a' (by simp [ha'])).rest hrest (hnd1.1 a' ha'), hnd1.2⟩

/-- What stays when orders are cancelled. -/
def MayGoOn (K : Set LevelKey) (o : Quota) : Quota → GridEngine → Prop :=
  fun o' s' => Sound K s' ∧ o'.mayCancel = o.mayCancel ∧ o'.mayBuy = o.mayBuy

theorem under_cancelGridOrder {i : String} {a : GridAction} (hs : Sound K s) (hc : o.mayCancel = true) :
    Under (terms K) (cancelGridOrder i a) (fun _ o' s' => MayGoOn K o o' s') o s := by
  rw [cancelGridOrder, bind_eq, under_bind, under_read, thenUnder_ok]
  split
  next => exact ⟨hs, rfl, rfl⟩
  next => exact ⟨hs, rfl, rfl⟩
  next =>
    rw [bind_eq, under_bind]
    refine under_cancelOrder hc ?_
    rintro (e | result)
    · exact ⟨hs, rfl, rfl⟩
    · rw [thenUnder_ok, bind_eq, under_bind]
      refine under_updateLevel hs (setOrderId_level _ _) (fun h1 => ?_) (fun e => ⟨hs, rfl, rfl⟩)
      exact under_transitionLevel h1 (fun _ _ _ _ _ h2 => ⟨h2, rfl, rfl⟩) (fun e => ⟨h1, rfl, rfl⟩)

theorem under_cancelAll {i : String} {actions : List GridAction} (hs : Sound K s) (hc : o.mayCancel = true) :
    Under (terms K) (cancelAll i actions) (fun _ o' s' => MayGoOn K o o' s') o s := by
  refine under_forEach (fun _ => MayGoOn K o) _ ?_ (fun _ _ h => h) actions ⟨hs, rfl, rfl⟩
  rintro a xs o1 s1 ⟨hs1, hc1, hb1⟩
  refine under_mono (under_cancelGridOrder hs1 (hc1.trans hc)) ?_
  rintro (e | u) o2 s2 ⟨hs2, hc2, hb2⟩
  · exact ⟨hs2, hc2.trans hc1, hb2.trans hb1⟩
  · exact ⟨hs2, hc2.trans hc1, hb2.trans hb1⟩

theorem fine_activateGrid {i : String} {p : ℚ} (hs : Sound K s) (hn : ∀ k, o.replaces k = none)
    (hbuy : o.mayBuy = true) : Fine K o s (activateGrid i p) := by
  rw [Fine, activateGrid, bind_eq, under_bind, under_read, thenUnder_ok]
  split
  next => trivial
  next state hg =>
    rw [bind_eq, under_bind]
    refine under_transitionGrid hs ?_ (fun e => trivial)
    intro g s1 _ _ _ hs1
    rw [thenUnder_ok, bind_eq, under_bind, setCurrentPrice, modifyGrids, under_modify]
    have hs2 := hs1.withGrids (hs1.numbered.assignGrid i (fun g => { g with currentPrice := some p })
      (fun _ => rfl))
    refine ⟨hs2, trivial, fine_bind_ret (fun _ _ _ => trivial) (fine_placeAll hs2 hn ?_ ?_)⟩
    · intro a ha
      obtain ⟨lv, -, rfl⟩ := mem_planInitial ha
      exact .inl ⟨rfl, rfl, fun _ => hbuy⟩
    · exact (planInitial_levels_sublist state.levels p).nodup (hs.numbered i state hg)

theorem fine_pauseGrid {i : String} (hs : Sound K s) (hc : o.mayCancel = true) :
    Fine K o s (pauseGrid i) := by
  rw [Fine, pauseGrid, bind_eq, under_bind, under_read, thenUnder_ok]
  split
  next => trivial
  next state hg =>
    rw [bind_eq, under_bind]
    refine under_mono (under_cancelAll hs hc) ?_
    rintro (e | u) o1 s1 ⟨hs1, -, -⟩
    · trivial
    · rw [thenUnder_ok, bind_eq, under_bind]
      exact under_transitionGrid hs1 (fun _ _ _ _ _ _ => trivial) (fun _ => trivial)

theorem fine_closeAllGridOrders {i : String} (hs : Sound K s) (hc : o.mayCancel = true) :
    Fine K o s (closeAllGridOrders i) := by
  rw [Fine, closeAllGridOrders, bind_eq, under_bind, under_read, thenUnder_ok]
  exact fine_bind_ret (fun _ _ _ => trivial) (under_mono (under_cancelAll hs hc) (fun _ _ _ _ => trivial))

theorem fine_resumeGrid {i : String} {p : ℚ} (hs : Sound K s) (hn : ∀ k, o.replaces k = none)
    (hbuy : o.mayBuy = true)
    (hsell : ∀ g, s.grids i = some g → .active ∈ gridTransitions g.status → ∀ n lv,
      s.grids.getLevel i n = some lv → lv.status = .filled → lv.sellPrice ≤ p →
        lv.quantity ≤ o.sells (.level ⟨i, n⟩)) :
    Fine K o s (resumeGrid i p) := by
  rw [Fine, resumeGrid, bind_eq, under_bind, under_read, thenUnder_ok]
  split
  next => trivial
  next state hg =>
    rw [bind_eq, under_bind]
    refine under_transitionGrid hs ?_ (fun e => trivial)
    intro g s1 hg' hm _ hs1
    cases hg.symm.trans hg'
    rw [thenUnder_ok, bind_eq, under_bind, setCurrentPrice, modifyGrids, under_modify]
    have hs2 := hs1.withGrids (hs1.numbered.assignGrid i (fun g => { g with currentPrice := some p })
      (fun _ => rfl))
    have hlist : state.levels = s.grids.listLevels i := by simp [State.Store.listLevels, hg]
    refine ⟨hs2, trivial, fine_bind_ret (fun _ _ _ => trivial) (fine_placeAll hs2 hn ?_ ?_)⟩
    · rw [hlist]
      exact planned_admits hs.numbered (fun _ => hbuy) (hsell state hg hm)
    · exact (plan_levels_sublist state.levels p 1 false).nodup (hs.numbered i state hg)

theorem fine_onBuyFilled {i : String} {n : Nat} {fillPrice quantity : ℚ} (hs : Sound K s)
    (hn : ∀ k, o.replaces k = none) (hK : (⟨i, n⟩ : LevelKey) ∉ K)
    (hsell : ∀ g lv, s.grids i = some g → g.status = .active → s.trailingConfig i = none →
      s.grids.getLevel i n = some lv → .filled ∈ levelTransitions lv.status →
        lv.quantity ≤ o.sells (.level ⟨i, n⟩)) :
    Fine K o s (onBuyFilled i n fillPrice quantity) := by
  rw [Fine, onBuyFilled, bind_eq, under_bind, under_read, thenUnder_ok]
  split
  next => trivial
  next lv hlv =>
    rw [bind_eq, under_bind]
    refine under_transitionLevel hs ?_ (fun e => trivial)
    intro lv' s1 hlv' hm hs1 hsound1
    cases hlv.symm.trans hlv'
    rw [thenUnder_ok, bind_eq, under_bind, modifyGrids, under_modify]
    have hs2 := hsound1.withGrids (hsound1.numbered.assignLevel i n (setOrderId .buy none)
      (setOrderId_level _ _))
    refine ⟨hs2, trivial, ?_⟩
    rw [thenUnder_ok, bind_eq, under_bind, under_read, thenUnder_ok]
    obtain ⟨g, hg, hfind⟩ : ∃ g, s.grids i = some g ∧ findLevel n g.levels = some lv := by
      simpa [State.Store.getLevel, Option.bind_eq_some_iff] using hlv
    have hstatus : ∀ g2, (s1.grids.assignLevel i n (setOrderId .buy none)) i = some g2 → g2.status = g.status := by
      intro g2 hg2
      have hg1 : s1.grids i = some { g with levels := modifyLevel n (setStatus .filled) g.levels } := by
        simp [hs1, State.Store.assignLevel, hg, State.Store.put]
      simp only [State.Store.assignLevel, hg1, State.Store.put, Function.update_self, Option.some.injEq] at hg2
      exact hg2 ▸ rfl
    split
    next => trivial
    next g2 hg2 ht =>
      split
      next hact =>
        rw [bind_eq, under_bind]
        have hlevel : (placeSellOf lv).level = n := (findLevel_mem hfind).2
        have hq := hsell g lv hg ((hstatus g2 hg2) ▸ hact) (by simpa [hs1] using ht) hlv hm
        have hadm : o.Admits i true (placeSellOf lv) := .inr ⟨rfl, rfl, by rw [hlevel]; exact hq⟩
        refine under_mono (under_placeGridOrder hs2 (fun state => hadm.allows hn state)) ?_
        rintro (e | x) _ _ _ <;> trivial
      next => trivial
    next g2 trailing hg2 ht =>
      split
      next =>
        rw [tryCatch_eq, under_tryCatch, bind_eq, under_bind]
        refine under_mono (fine_enable hs2 hK rfl) ?_
        rintro (e | b) _ _ _ <;> trivial
      next => trivial

theorem fine_completeCycle {i : String} {n : Nat} {profit : ℚ} (hs : Sound K s) :
    Fine K o s (completeCycle i n profit) := by
  rw [Fine, completeCycle, bind_eq, under_bind, modifyGrids, under_modify]
  have h := hs.withGrids (hs.numbered.assignGrid i (fun g => { g with
    totalCycles := g.totalCycles + 1
    totalProfit := g.totalProfit + profit }) (fun _ => rfl))
  refine ⟨h, trivial, ?_⟩
  rw [thenUnder_ok, bind_eq, under_bind, under_read, thenUnder_ok]
  split
  next => trivial
  next =>
    split
    next => exact under_transitionLevel h (fun _ _ _ _ _ _ => trivial) (fun _ => trivial)
    next => trivial

theorem fine_onSellFilled {i : String} {n : Nat} {fillPrice quantity : ℚ} (hs : Sound K s) :
    Fine K o s (onSellFilled i n fillPrice quantity) := by
  rw [Fine, onSellFilled, bind_eq, under_bind, under_read, thenUnder_ok]
  split
  next => trivial
  next lv hlv =>
    rw [bind_eq, under_bind]
    refine under_transitionLevel hs ?_ (fun e => trivial)
    intro lv' s1 _ _ _ hs1
    rw [thenUnder_ok, bind_eq, under_bind, modifyGrids, under_modify]
    have hs2 := hs1.withGrids (hs1.numbered.assignLevel i n (setOrderId .sell none) (setOrderId_level _ _))
    refine ⟨hs2, trivial, ?_⟩
    rw [thenUnder_ok, bind_eq, under_bind, under_read, thenUnder_ok]
    split
    next => exact fine_completeCycle hs2
    next => exact fine_completeCycle hs2

/-- The cancel of a replaced order leaves the quota of the sells alone and
settles the replacement. -/
structure Replaced (K : Set LevelKey) (acct : Option UUID) (orderId : OrderId) (o o' : Quota) : Prop where
  sells : o'.sells = o.sells
  mayCancel : o'.mayCancel = o.mayCancel
  mayBuy : o'.mayBuy = o.mayBuy
  settled : ∀ k, o.replaces k = none ∨ orderId ≠ none ∧ o.replaces k = some (acct, orderId) →
    o'.replaces k = none
  others : ∀ k, o'.replaces k = none ∨ o'.replaces k = o.replaces k

theorem under_cancelReplaced {acct : Option UUID} {orderId : OrderId} (hc : o.mayCancel = true) :
    Under (terms K) (cancelReplaced acct orderId)
      (fun r o' s' => r = .ok () ∧ s' = s ∧ Replaced K acct orderId o o') o s := by
  unfold cancelReplaced
  split
  next hid =>
    have hdone : Replaced K acct orderId o (o.spend (.cancelOrder acct orderId)) := by
      refine ⟨rfl, rfl, rfl, fun k hk => ?_, fun k => ?_⟩
      · rcases hk with hk | ⟨-, hk⟩ <;> simp [Quota.spend, hk]
      · by_cases hk : o.replaces k = some (acct, orderId)
        · exact .inl (by simp [Quota.spend, hk])
        · exact .inr (by simp [Quota.spend, hk])
    rw [tryCatch_eq, under_tryCatch, bind_eq, under_bind]
    refine under_cancelOrder hc ?_
    rintro (e | result)
    · exact ⟨rfl, rfl, hdone⟩
    · exact ⟨rfl, rfl, hdone⟩
  next hid =>
    refine ⟨rfl, rfl, rfl, rfl, rfl, fun k hk => ?_, fun k => .inr rfl⟩
    rcases hk with hk | ⟨hne, -⟩
    · exact hk
    · exact absurd hne hid

theorem fine_forceBuy {i : String} {level : Option Nat} {price quantity : Option ℚ} (hs : Sound K s)
    (hc : o.mayCancel = true) (hbuy : o.mayBuy = true) : Fine K o s (forceBuy i level price quantity) := by
  rw [Fine, forceBuy, bind_eq, under_bind, under_read, thenUnder_ok]
  split
  next => trivial
  next state hg =>
    split
    next => trivial
    next =>
      rw [bind_eq, under_bind, under_lift]
      cases forceBuyTarget state level with
      | error e => trivial
      | ok lv =>
          rw [thenUnder_ok, bind_eq, under_bind]
          refine under_mono (under_cancelReplaced hc) ?_
          rintro _ o1 _ ⟨rfl, rfl, h1⟩
          rw [thenUnder_ok, bind_eq, under_bind]
          refine under_placeOrder ⟨fun _ => rfl, h1.mayBuy.trans hbuy, _, rfl⟩ ?_
          rintro (e | result)
          · trivial
          · rw [thenUnder_ok, bind_eq, under_bind]
            refine under_updateLevel hs (setOrderId_level _ _) (fun h2 => ?_) (fun _ => trivial)
            rw [thenUnder_ok, bind_eq, under_bind]
            exact under_transitionLevel h2 (fun _ _ _ _ _ _ => trivial) (fun _ => trivial)

/-- What holds while force_sell goes through its levels. -/
structure Selling (K : Set LevelKey) (i : String) (acct : Option UUID) (quantity : Option ℚ) (ns : List Nat)
    (o : Quota) (s : GridEngine) : Prop where
  sound : Sound K s
  mayCancel : o.mayCancel = true
  nodup : ns.Nodup
  sells : ∀ n ∈ ns, ∀ lv, s.grids.getLevel i n = some lv →
    forceSellQuantity quantity lv ≤ o.sells (.level ⟨i, n⟩) ∧
      (o.replaces ⟨i, n⟩ = none ∨ lv.sellOrderId ≠ none ∧ o.replaces ⟨i, n⟩ = some (acct, lv.sellOrderId))

theorem under_forceSellLevel {i : String} {state : GridState} {sellPrice quantity : Option ℚ} {n : Nat}
    {ns : List Nat} {report : ForceSellReport} (h : Selling K i state.exchangeAccountId quantity (n :: ns) o s) :
    Under (terms K) (forceSellLevel i state sellPrice quantity n report)
      (fun r o' s' => (∃ report', r = .ok report') → Selling K i state.exchangeAccountId quantity ns o' s') o s := by
  rw [forceSellLevel, bind_eq, under_bind, under_read, thenUnder_ok]
  split
  next => exact fun ⟨_, hr⟩ => by cases hr
  next lv hlv =>
    obtain ⟨hq, hrep⟩ := h.sells n (by simp) lv hlv
    rw [bind_eq, under_bind]
    refine under_mono (under_cancelReplaced h.mayCancel) ?_
    rintro _ o1 _ ⟨rfl, rfl, h1⟩
    rw [thenUnder_ok, bind_eq, under_bind]
    refine under_placeOrder ⟨fun _ => rfl, h1.sells ▸ hq, h1.settled _ hrep⟩ ?_
    rintro (e | result)
    · exact fun ⟨_, hr⟩ => by cases hr
    · rw [thenUnder_ok]
      split
      next => exact fun ⟨_, hr⟩ => by cases hr
      next p =>
        rw [bind_eq, under_bind]
        refine under_updateLevel h.sound (setOrderId_level _ _) (fun hs2 => fun _ => ?_)
          (fun e => fun ⟨_, hr⟩ => by cases hr)
        refine ⟨hs2, h1.mayCancel.trans h.mayCancel, (List.nodup_cons.mp h.nodup).2, fun m hm lv' hlv' => ?_⟩
        have hmn : m ≠ n := fun hmn => (List.nodup_cons.mp h.nodup).1 (hmn ▸ hm)
        rw [State.Store.getLevel_assignLevel _ _ _ _ (setOrderId_level _ _), if_neg (by simp [hmn])] at hlv'
        obtain ⟨hq', hrep'⟩ := h.sells m (by simp [hm]) lv' hlv'
        refine ⟨?_, ?_⟩
        · simp only [Quota.spend, limitOrder, h1.sells]
          rw [Function.update_of_ne (by simp [hmn])]
          exact hq'
        · simp only [Quota.spend, limitOrder]
          rcases h1.others ⟨i, m⟩ with hnone | hsame
          · exact .inl hnone
          · rw [hsame]; exact hrep'

theorem fine_forceSellLevels {i : String} {state : GridState} {sellPrice quantity : Option ℚ} (ns : List Nat)
    {report : ForceSellReport} (h : Selling K i state.exchangeAccountId quantity ns o s) :
    Fine K o s (forceSellLevels i state sellPrice quantity ns report) := by
  induction ns generalizing o s report with
  | nil => trivial
  | cons n ns ih =>
      rw [forceSellLevels, Fine, bind_eq, under_bind]
      refine under_mono (under_forceSellLevel h) ?_
      rintro (e | report') o' s' h'
      · trivial
      · exact ih (h' ⟨_, rfl⟩)

/-- The levels force_sell goes through are levels in status FILLED of the grid. -/
theorem forceSellTargets_ok {state : GridState} {level : Option Nat} {targets : List GridLevel}
    (hnd : (state.levels.map GridLevel.level).Nodup) (h : forceSellTargets state level = .ok targets) :
    (targets.map GridLevel.level).Nodup ∧ ∀ lv ∈ targets, findLevel lv.level state.levels = some lv ∧
      lv.status = .filled ∧ (level = none ∨ level = some lv.level) := by
  unfold forceSellTargets at h
  split at h
  next n =>
    split at h
    · cases h
    · next lv hlv =>
        have hl := (findLevel_mem hlv).2
        split at h
        · cases h
        · next hf =>
            cases h
            refine ⟨by simp, fun lv' hlv' => ?_⟩
            cases List.mem_singleton.mp hlv'
            exact ⟨hl ▸ hlv, not_not.mp hf, .inr (by rw [hl])⟩
  next =>
    simp only at h
    split at h
    · cases h
    · cases h
      refine ⟨((List.filter_sublist).map _).nodup hnd, fun lv hlv => ?_⟩
      obtain ⟨hm, hf⟩ := List.mem_filter.mp hlv
      exact ⟨findLevel_of_mem hnd hm, by simpa using hf, .inl rfl⟩

theorem fine_forceSell {i : String} {level : Option Nat} {price quantity : Option ℚ} (hs : Sound K s)
    (hc : o.mayCancel = true)
    (hsell : ∀ g lv, s.grids i = some g → g.status = .active → s.grids.getLevel i lv.level = some lv →
      lv.status = .filled → (level = none ∨ level = some lv.level) →
        forceSellQuantity quantity lv ≤ o.sells (.level ⟨i, lv.level⟩) ∧
          (o.replaces ⟨i, lv.level⟩ = none ∨ lv.sellOrderId ≠ none ∧
            o.replaces ⟨i, lv.level⟩ = some (g.exchangeAccountId, lv.sellOrderId))) :
    Fine K o s (forceSell i level price quantity) := by
  rw [Fine, forceSell, bind_eq, under_bind, under_read, thenUnder_ok]
  split
  next => trivial
  next state hg =>
    split
    next => trivial
    next hact =>
      rw [bind_eq, under_bind, under_lift]
      cases ht : forceSellTargets state level with
      | error e => trivial
      | ok targets =>
          obtain ⟨hnd, htargets⟩ := forceSellTargets_ok (hs.numbered i state hg) ht
          refine fine_forceSellLevels _ ⟨hs, hc, hnd, fun n hn lv hlv => ?_⟩
          obtain ⟨lv', hlv', rfl⟩ := List.mem_map.mp hn
          obtain ⟨hfind, hf, hlevel⟩ := htargets lv' hlv'
          rw [State.Store.getLevel_eq hg] at hlv
          cases hfind.symm.trans hlv
          exact hsell state lv hg (not_not.mp hact) (by rw [State.Store.getLevel_eq hg]; exact hfind) hf hlevel

theorem initialState_nodup {i : String} {args : InitArgs} {state : GridState}
    (h : initialState i args = .ok state) : (state.levels.map GridLevel.level).Nodup := by
  unfold initialState at h
  split at h
  · cases hl : calculateLevels args.upperPrice args.lowerPrice args.gridCount args.investmentPerGrid with
    | error e => simp [hl, Bind.bind, Except.bind] at h
    | ok levels =>
        simp only [hl, Bind.bind, Except.bind, Pure.pure, Except.pure, Except.ok.injEq] at h
        exact h ▸ (calculateLevels_spec hl).1
  · cases hl : calculateLevelsWithAveraging args.upperPrice args.investmentPerGrid args.averagingSteps with
    | error e => simp [hl, Bind.bind, Except.bind] at h
    | ok levels =>
        simp only [hl, Bind.bind, Except.bind, Pure.pure, Except.pure, Except.ok.injEq] at h
        exact h ▸ (calculateLevelsWithAveraging_spec hl).1

theorem fine_initializeGrid {i : String} {args : InitArgs} (hs : Sound K s) :
    Fine K o s (initializeGrid i args) := by
  rw [Fine, initializeGrid, bind_eq, under_bind, under_lift]
  cases hi : initialState i args with
  | error e => trivial
  | ok state =>
      rw [thenUnder_ok, bind_eq, under_bind, modifyGrids, under_modify]
      have h1 := hs.withGrids (hs.numbered.put (i := i) (initialState_nodup hi))
      exact ⟨h1, trivial, under_transitionGrid h1 (fun _ _ _ _ _ _ => trivial) (fun _ => trivial)⟩

/-- What the planner offers for sale at a price: the level is in status FILLED
and its sell price is reached. -/
def plannedSell (s : GridEngine) (i : String) (p : ℚ) (n : Nat) : ℚ :=
  match s.grids.getLevel i n with
  | none => 0
  | some lv => if lv.status = .filled ∧ lv.sellPrice ≤ p then lv.quantity else 0

/-- What the locks offer at a price that on_price_update forwards to them. -/
def forwardedSell (s : GridEngine) (i : String) (p : ℚ) (n : Nat) : ℚ :=
  match s.grids.getLevel i n with
  | none => 0
  | some lv =>
      if s.hasProfitLock ∧ (s.trailingConfig i).isSome ∧ lv.status = .filled ∧ ¬ lv.sellPrice ≤ p then
        lockSells s.locks ⟨i, n⟩ p
      else 0

/-- What on_buy_filled offers: the level's own quantity, whatever was filled. -/
def buyFilledSell (s : GridEngine) (i : String) (n : Nat) : ℚ :=
  match s.grids i, s.grids.getLevel i n with
  | some g, some lv =>
      if g.status = .active ∧ s.trailingConfig i = none ∧ .filled ∈ levelTransitions lv.status then lv.quantity
      else 0
  | _, _ => 0

/-- The levels a force_sell goes through. -/
def forceSold (s : GridEngine) (i : String) (level : Option Nat) (n : Nat) : Option (GridState × GridLevel) :=
  match s.grids i, s.grids.getLevel i n with
  | some g, some lv =>
      if g.status = .active ∧ lv.status = .filled ∧ (level = none ∨ level = some n) then some (g, lv) else none
  | _, _ => none

/-- The quantity a call offers for sale on behalf of an owner, read off the
state in which it starts. -/
def offers (s : GridEngine) : Call → Owner → ℚ
  | .onPriceUpdate _ i p, .level k => if k.instanceId = i then plannedSell s i p k.level else 0
  | .onPriceUpdate _ i p, .lock k => if k.instanceId = i then forwardedSell s i p k.level else 0
  | .resumeGrid i p, .level k =>
      if k.instanceId = i ∧ (∃ g ∈ s.grids i, .active ∈ gridTransitions g.status) then plannedSell s i p k.level
      else 0
  | .onBuyFilled i n _ _, .level k => if k = ⟨i, n⟩ then buyFilledSell s i n else 0
  | .forceSell i level _ quantity, .level k =>
      if k.instanceId = i then ((forceSold s i level k.level).map (fun t => forceSellQuantity quantity t.2)).getD 0
      else 0
  | .lock (.onPriceUpdate key p), .lock k => if k = key then lockSells s.locks key p else 0
  | .lock (.executeLock key _), .lock k =>
      if k = key then match s.locks key with
        | none => 0
        | some st => if st.status = .triggered then st.quantity else 0
      else 0
  | _, _ => 0

/-- The order a force_sell cancels before it sells a level. -/
def replaces (s : GridEngine) : Call → LevelKey → Option (Option UUID × OrderId)
  | .forceSell i level _ _, k =>
      if k.instanceId = i then (forceSold s i level k.level).bind (fun t =>
        if t.2.sellOrderId = none then none else some (t.1.exchangeAccountId, t.2.sellOrderId))
      else none
  | _, _ => none

def quota (s : GridEngine) (call : Call) : Quota :=
  { sells := fun owner => max (offers s call owner) 0, replaces := replaces s call }

/-- The locks a call may switch on. -/
def enables : Call → Set LevelKey
  | .onBuyFilled i n _ _ => {⟨i, n⟩}
  | _ => ∅

theorem fine_void {p : Op α} (h : Fine K o s p) : Fine K o s (void p) := fine_bind_ret (fun _ _ _ => trivial) h

theorem fine_performLock {call : LockCall} (hs : Sound K s) :
    Fine K (quota s (.lock call)) s (performLock call) := by
  cases call with
  | disable key => exact fine_void (fine_disable hs rfl)
  | onPriceUpdate key p =>
      refine under_mono (under_lockPriceUpdate hs rfl ?_) (fun _ _ _ _ => trivial)
      simp [quota, offers]
  | onPositionUpdate key entryPrice quantity => exact fine_onPositionUpdate hs
  | onOrderFilled key orderId => exact fine_onOrderFilled hs
  | onOrderCancelled key orderId => exact fine_onOrderCancelled hs
  | executeLock key p =>
      refine fine_void (fine_executeLock hs rfl (fun st hk ht => ?_))
      simp [quota, offers, hk, ht]

theorem fine_configure {f : GridEngine → GridEngine} (h : Sound K (f s)) :
    Fine K o s (modify f) := ⟨h, trivial, trivial⟩

/-- Every call stays within what its quota, read off the state it starts in, allows. -/
theorem fine_perform {evaluate : Evaluate} {call : Call} (hs : Sound K s) (hK : ∀ k ∈ enables call, k ∉ K) :
    Fine K (quota s call) s (perform evaluate call) := by
  cases call with
  | configureTrailingProfit i config => exact fine_configure ⟨hs.numbered, hs.locksOk, hs.off⟩
  | configureTa i configs => exact fine_configure ⟨hs.numbered, hs.locksOk, hs.off⟩
  | updateTaCandles i candles => exact fine_configure ⟨hs.numbered, hs.locksOk, hs.off⟩
  | configureCircuitBreaker i args => exact fine_configure ⟨hs.numbered, hs.locksOk, hs.off⟩
  | updateTaCandles15m i candles => exact fine_configure ⟨hs.numbered, hs.locksOk, hs.off⟩
  | initializeGrid i args => exact fine_initializeGrid hs
  | activateGrid i p => exact fine_void (fine_activateGrid hs (fun _ => rfl) rfl)
  | pauseGrid i => exact fine_void (fine_pauseGrid hs rfl)
  | resumeGrid i p =>
      refine fine_void (fine_resumeGrid hs (fun _ => rfl) rfl (fun g hg hm n lv hlv hf hp => ?_))
      simp [quota, offers, plannedSell, hg, hm, hlv, hf, hp]
  | closeAllGridOrders i => exact fine_void (fine_closeAllGridOrders hs rfl)
  | onPriceUpdate today i p =>
      refine fine_onPriceUpdate hs (fun _ => rfl) rfl rfl (fun n lv hlv hf hp => ?_)
        (fun hpl ht n lv hlv hf hp => ?_)
      · simp [quota, offers, plannedSell, hlv, hf, hp]
      · have hp' := not_le.mp hp
        simp [quota, offers, forwardedSell, hlv, hf, hp', hpl, ht]
  | onBuyFilled i n fillPrice quantity =>
      refine fine_onBuyFilled hs (fun _ => rfl) (hK _ rfl) (fun g lv hg hact ht hlv hm => ?_)
      simp [quota, offers, buyFilledSell, hg, hact, ht, hlv, hm]
  | onSellFilled i n fillPrice quantity => exact fine_onSellFilled hs
  | forceBuy i level price quantity => exact fine_void (fine_forceBuy hs rfl rfl)
  | forceSell i level price quantity =>
      refine fine_void (fine_forceSell hs rfl (fun g lv hg hact hlv hf hlevel => ?_))
      have hsold : forceSold s i level lv.level = some (g, lv) := by
        simp [forceSold, hg, hlv, hact, hf, hlevel]
      refine ⟨by simp [quota, offers, hsold], ?_⟩
      by_cases hid : lv.sellOrderId = none
      · exact .inl (by simp [quota, replaces, hsold, hid])
      · exact .inr ⟨hid, by simp [quota, replaces, hsold, hid]⟩
  | lock call => exact fine_performLock hs

end Utos.Grid.CallTerms

namespace Utos.Grid.Reach

open Coroutine Program Core.DomainTypes Core.Exceptions Execution.Service Execution.Exchange State CircuitBreaker
open Engine Trading Invariant Terms CallTerms

variable {evaluate : Evaluate} {K : Set LevelKey}

theorem asked_handler (o : Quota) (s : GridEngine) (q : ExecReq Owner) (w : World Owner)
    (ha : (terms K).asks o s q) {k : LevelKey} (hk : k ∈ K) :
    (handler w q).2.desk.asked.count (.lock k) = w.desk.asked.count (.lock k) := by
  cases q with
  | placeOrder owner request =>
      have hne : owner ≠ .lock k := fun h => ha.2 k hk request (by rw [h])
      have hcount : (owner :: w.desk.asked).count (.lock k) = w.desk.asked.count (.lock k) :=
        List.count_cons_of_ne hne
      simp only [handler]
      split
      · exact hcount
      · exact hcount
  | cancelOrder acct orderId =>
      simp only [handler]
      split
      · rfl
      · next ref _ =>
          cases (w.oracle.cancel ref).effect with
          | unchanged => rfl
          | cancelled => simp only [Desk.settle, Desk.cancel_asked]
          | filled quantity => simp only [Desk.settle, Desk.fill_asked]

variable (evaluate) in
theorem runCall_keeps {s : Floor} (call : Call) (hs : Sound K s.engine) (hK : ∀ k ∈ enables call, k ∉ K)
    (oracle : Oracle) : Sound K (s.runCall evaluate call oracle).2.engine ∧
      ∀ k ∈ K, (s.runCall evaluate call oracle).2.desk.asked.count (.lock k) = s.desk.asked.count (.lock k) := by
  obtain ⟨_, hsound, hcount, -⟩ := wp_of_under (h := handler) (π := terms K)
    (fun _ w => ∀ k ∈ K, w.desk.asked.count (.lock k) = s.desk.asked.count (.lock k)) (fun _ _ => rfl)
    (fun _ _ _ => trivial) (fun o s q w _ ha hw k hk => (asked_handler o s q w ha hk).trans (hw k hk)) _
    (fine_perform hs hK) hs ⟨s.desk, oracle⟩ (fun _ _ => rfl)
  exact ⟨hsound, hcount⟩

/-- The event delivers a buy fill of the level to the grid engine. -/
def BuyFill (k : LevelKey) (e : Event) : Prop :=
  ∃ fillPrice quantity oracle, e = .call (.onBuyFilled k.instanceId k.level fillPrice quantity) oracle

variable (evaluate) in
theorem step_keeps {s : Floor} {e : Event} (hs : Sound K s.engine) (hK : ∀ k ∈ K, ¬ BuyFill k e) :
    Sound K (s.step evaluate e).engine ∧
      ∀ k ∈ K, (s.step evaluate e).desk.asked.count (.lock k) = s.desk.asked.count (.lock k) := by
  cases e with
  | fill ref quantity =>
      refine ⟨hs, fun k _ => ?_⟩
      simp only [Floor.step, Desk.fill_asked]
  | call call oracle =>
      refine runCall_keeps evaluate call hs (fun k hk hkK => hK k hkK ?_) oracle
      cases call <;> simp only [enables, Set.mem_empty_iff_false, Set.mem_singleton_iff] at hk
      exact ⟨_, _, oracle, by rw [hk]⟩

theorem runEvents_keeps (events : List Event) {s : Floor} (hs : Sound K s.engine)
    (hK : ∀ e ∈ events, ∀ k ∈ K, ¬ BuyFill k e) :
    Sound K (s.runEvents evaluate events).engine ∧
      ∀ k ∈ K, (s.runEvents evaluate events).desk.asked.count (.lock k) = s.desk.asked.count (.lock k) := by
  induction events generalizing s with
  | nil => exact ⟨hs, fun _ _ => rfl⟩
  | cons e events ih =>
      obtain ⟨h1, hc1⟩ := step_keeps evaluate hs (hK e (by simp))
      obtain ⟨h2, hc2⟩ := ih h1 (fun e' he' => hK e' (by simp [he']))
      exact ⟨h2, fun k hk => (hc2 k hk).trans (hc1 k hk)⟩

theorem sound_start (hasProfitLock : Bool) : Sound ∅ (Floor.start hasProfitLock).engine := by
  refine ⟨fun i g h => ?_, fun k st h => ?_, fun k h => ?_⟩
  · simp [Floor.start] at h
  · simp [Floor.start] at h
  · simp at h

theorem reachable_sound {s : Floor} (h : s.Reachable evaluate) : Sound ∅ s.engine :=
  Floor.reachable_induction (I := fun s => Sound ∅ s.engine) sound_start
    (fun _ _ hs => (step_keeps evaluate hs (fun _ h => by cases h)).1) h

end Utos.Grid.Reach
