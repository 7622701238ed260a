import Utos.Execution.Engine
import Utos.Grid.Terms
import Utos.Grid.Trading

namespace Utos.Grid.PlanStable

open Coroutine Program Core.DomainTypes Core.Exceptions Execution.Models Execution.Service State Planner Engine
open Invariant Terms Trading

/-- The three plans of the planner, with their arguments. -/
inductive Planning
  | plan (currentPrice : ℚ) (breakerActive : Bool) (widenMultiplier : ℚ)
  | planInitial (currentPrice : ℚ)
  | planCancelAll

namespace Planning

def actions : Planning → List GridLevel → List GridAction
  | .plan currentPrice breakerActive widenMultiplier, levels => Planner.plan levels currentPrice breakerActive widenMultiplier
  | .planInitial currentPrice, levels => Planner.planInitial levels currentPrice
  | .planCancelAll, levels => Planner.planCancelAll levels

/-- What a plan decides for one level. -/
def ofLevel : Planning → GridLevel → Option GridAction
  | .plan currentPrice breakerActive widenMultiplier, lv => match planLevel lv currentPrice with
      | none => none
      | some action =>
          if action.action = .placeBuy ∧ skipsBuy breakerActive widenMultiplier action.level then none
          else some action
  | .planInitial currentPrice, lv =>
      if lv.status = .waiting ∧ lv.buyPrice < currentPrice then some (placeBuyOf lv) else none
  | .planCancelAll, lv => cancelOf lv

theorem actions_eq (k : Planning) (levels : List GridLevel) : k.actions levels = levels.filterMap k.ofLevel := by
  cases k <;> rfl

end Planning

/-- The action is for the level, at its own price and quantity. -/
def OwnTerms (lv : GridLevel) (a : GridAction) : Prop :=
  a.level = lv.level ∧ a.quantity = lv.quantity ∧
    a.price = if a.action = .placeSell then lv.sellPrice else lv.buyPrice

/-- The actions are for some of the levels, in their order, at their own terms. -/
def Lawful (levels : List GridLevel) (actions : List GridAction) : Prop :=
  ∃ chosen, chosen.Sublist levels ∧ List.Forall₂ OwnTerms chosen actions

/-- The status that an action leads to. -/
def target (a : GridAction) : GridLevelStatus := if a.action = .cancel then .cancelled else .opened

/-- The terms of what a plan decides for a level. -/
structure Fits (k : Planning) (lv : GridLevel) (a : GridAction) : Prop where
  terms : OwnTerms lv a
  moves : target a ∈ levelTransitions lv.status
  named : a.action = .cancel → a.orderId ≠ none
  settles : ∀ lv' : GridLevel, lv'.status = target a → k.ofLevel lv' = none

theorem planLevel_opened {lv : GridLevel} {p : ℚ} (h : lv.status = .opened) : planLevel lv p = none := by
  rw [planLevel, h]

/-- What is decided for a level is legal for it, and nothing is left to decide after it. -/
theorem fits_of_decided {k : Planning} {lv : GridLevel} {a : GridAction} (h : k.ofLevel lv = some a) : Fits k lv a := by
  cases k with
  | plan p active m =>
      have hplan : planLevel lv p = some a := by
        simp only [Planning.ofLevel] at h
        split at h
        · cases h
        next a' ha' =>
          split at h
          · cases h
          · rw [ha', Option.some.inj h]
      have hsettles : ∀ lv' : GridLevel, lv'.status = .opened → (Planning.plan p active m).ofLevel lv' = none :=
        fun lv' hlv' => by simp only [Planning.ofLevel, planLevel_opened hlv']
      rcases planLevel_cases hplan with ⟨rfl, hstatus⟩ | ⟨rfl, hstatus, -⟩
      · refine ⟨⟨rfl, rfl, rfl⟩, ?_, fun hc => (by cases hc), hsettles⟩
        rcases hstatus with ⟨hw, -⟩ | ht
        · simp [target, placeBuyOf, levelTransitions, hw]
        · simp [target, placeBuyOf, levelTransitions, ht]
      · refine ⟨⟨rfl, rfl, rfl⟩, ?_, fun hc => (by cases hc), hsettles⟩
        simp [target, placeSellOf, levelTransitions, hstatus]
  | planInitial p =>
      simp only [Planning.ofLevel] at h
      split at h
      next hwaits =>
        cases h
        refine ⟨⟨rfl, rfl, rfl⟩, ?_, fun hc => (by cases hc), fun lv' hlv' => if_neg (fun hw => ?_)⟩
        · simp [target, placeBuyOf, levelTransitions, hwaits.1]
        · exact absurd (hlv'.symm.trans hw.1) (by simp [target, placeBuyOf])
      next => cases h
  | planCancelAll =>
      simp only [Planning.ofLevel, cancelOf] at h
      split at h
      next hopened =>
        split at h
        · cases h
        · cases h
          refine ⟨⟨rfl, rfl, rfl⟩, ?_, fun _ => Option.some_ne_none _, fun lv' hlv' => if_neg (fun hw => ?_)⟩
          · simp [target, levelTransitions, hopened]
          · exact absurd (hlv'.symm.trans hw) (by simp [target])
      next => cases h

theorem lawful_actions (k : Planning) (levels : List GridLevel) : Lawful levels (k.actions levels) := by
  rw [Planning.actions_eq]
  induction levels with
  | nil => exact ⟨[], List.Sublist.refl _, .nil⟩
  | cons lv levels ih =>
      obtain ⟨chosen, hsub, hterms⟩ := ih
      cases hdecided : k.ofLevel lv with
      | none =>
          rw [List.filterMap_cons_none hdecided]
          exact ⟨chosen, hsub.cons lv, hterms⟩
      | some a =>
          rw [List.filterMap_cons_some hdecided]
          exact ⟨lv :: chosen, hsub.cons_cons lv, .cons (fits_of_decided hdecided).terms hterms⟩

theorem modifyLevel_split {before after : List GridLevel} {lv : GridLevel} (f : GridLevel → GridLevel)
    (h : lv.level ∉ before.map GridLevel.level) :
    modifyLevel lv.level f (before ++ lv :: after) = before ++ f lv :: after := by
  induction before with
  | nil => exact if_pos rfl
  | cons b before ih =>
      rw [List.map_cons, List.mem_cons, not_or] at h
      rw [List.cons_append, modifyLevel, if_neg (Ne.symm h.1), ih h.2, List.cons_append]

section

variable {W : Type} {h : Handler W (ExecReq Owner) (ExecAns Owner)} {i : String} {s : GridEngine} {w : W}
variable {g : GridState} {lv : GridLevel} {n : Nat} {a : GridAction}

theorem wp_attemptGrids_ok {f : State.Store → Except Exn (Unit × State.Store)} {grids : State.Store}
    {R : Except Exn Unit → GridEngine → W → Prop} (hf : f s.grids = .ok ((), grids)) :
    wp h (attemptGrids f) R s w ↔ R (.ok ()) { s with grids := grids } w := by
  rw [attemptGrids, wp_attempt, hf]
  rfl

theorem updateLevel_eq {store : State.Store} (hg : store i = some g) (hlv : findLevel n g.levels = some lv)
    (f : GridLevel → GridLevel) :
    store.updateLevel i n f = .ok ((), store.put i { g with levels := modifyLevel n f g.levels }) := by
  simp only [State.Store.updateLevel, State.Store.getLevel_eq hg, hlv, State.Store.assignLevel, hg]

theorem transitionLevel_eq {store : State.Store} {status : GridLevelStatus} (hg : store i = some g)
    (hlv : findLevel n g.levels = some lv) (hmove : status ∈ levelTransitions lv.status) :
    store.transitionLevel i n status =
      .ok ((), store.put i { g with levels := modifyLevel n (setStatus status) g.levels }) := by
  simp only [State.Store.transitionLevel, hg, hlv, validateLevelTransition, if_pos hmove, State.Store.assignLevel]
  rfl

/-- The grid with a level that has a new order id and status. -/
def moved (g : GridState) (n : Nat) (side : OrderSide) (orderId : OrderId) (status : GridLevelStatus) : GridState :=
  { g with levels := modifyLevel n (setStatus status) (modifyLevel n (setOrderId side orderId) g.levels) }

theorem transitionLevel_updated {store : State.Store} {side : OrderSide} {orderId : OrderId} {status : GridLevelStatus}
    (hlv : findLevel n g.levels = some lv) (hmove : status ∈ levelTransitions lv.status) :
    (store.put i { g with levels := modifyLevel n (setOrderId side orderId) g.levels }).transitionLevel i n status =
      .ok ((), store.put i (moved g n side orderId status)) := by
  have hlv' : findLevel n (modifyLevel n (setOrderId side orderId) g.levels) = some (setOrderId side orderId lv) := by
    rw [findLevel_modifyLevel _ _ _ (setOrderId_level side orderId), if_pos rfl, hlv, Option.map_some]
  have hmove' : status ∈ levelTransitions (setOrderId side orderId lv).status := by
    cases side <;> exact hmove
  have hg : (store.put i { g with levels := modifyLevel n (setOrderId side orderId) g.levels }) i =
      some { g with levels := modifyLevel n (setOrderId side orderId) g.levels } := Function.update_self _ _ _
  rw [transitionLevel_eq hg hlv' hmove']
  simp only [State.Store.put, Function.update_idem]
  rfl

theorem levels_moved (g : GridState) (n : Nat) (side : OrderSide) (orderId : OrderId) (status : GridLevelStatus) :
    (moved g n side orderId status).levels.map GridLevel.level = g.levels.map GridLevel.level :=
  (modifyLevel_levels n (setStatus status) (fun _ => rfl) _).trans
    (modifyLevel_levels n (setOrderId side orderId) (setOrderId_level side orderId) g.levels)

/-- Every call of the exchange succeeds. -/
def Succeeds (h : Handler W (ExecReq Owner) (ExecAns Owner)) : Prop := ∀ w q, ∃ result, (h w q).1 = .ok result

/-- What the actions left and the world have in common, kept by a call of the exchange that succeeds. -/
structure Obliges (h : Handler W (ExecReq Owner) (ExecAns Owner)) (i : String) (g : GridState)
    (J : List GridAction → W → Prop) : Prop where
  place : ∀ {a xs w}, a.action ≠ .cancel → J (a :: xs) w → ∃ result, (h w (placement g i a)).1 = .ok result ∧
    J xs (h w (placement g i a)).2
  cancel : ∀ {a xs w orderId}, a.action = .cancel → J (a :: xs) w → ∃ result,
    (h w (.cancelOrder g.exchangeAccountId (some orderId))).1 = .ok result ∧
      J xs (h w (.cancelOrder g.exchangeAccountId (some orderId))).2

theorem Succeeds.obliges (hok : Succeeds h) (i : String) (g : GridState) : Obliges h i g (fun _ _ => True) where
  place _ _ := (hok _ _).imp (fun _ hresult => ⟨hresult, trivial⟩)
  cancel _ _ := (hok _ _).imp (fun _ hresult => ⟨hresult, trivial⟩)

theorem wp_placeGridOrder_ok {result : OrderResult} (hresult : (h w (placement g i a)).1 = .ok result)
    (hg : s.grids i = some g) (hlv : findLevel a.level g.levels = some lv)
    (hmove : .opened ∈ levelTransitions lv.status) {R : Except Exn OrderId → GridEngine → W → Prop}
    (hR : R (.ok result.orderId) { s with grids := s.grids.put i (moved g a.level a.side result.orderId .opened) }
      (h w (placement g i a)).2) : wp h (placeGridOrder i a) R s w := by
  rw [placeGridOrder, bind_eq, wp_bind, wp_read, andThen_ok]
  simp only [hg]
  rw [placement] at hresult hR
  rw [bind_eq, wp_bind, placeOrder, wp_await, hresult, id_eq, andThen_ok, bind_eq, wp_bind,
    wp_attemptGrids_ok (updateLevel_eq hg hlv _), andThen_ok, bind_eq, wp_bind,
    wp_attemptGrids_ok (transitionLevel_updated hlv hmove), andThen_ok]
  exact hR

theorem wp_cancelGridOrder_ok {orderId : String} {result : OrderResult} (horderId : a.orderId = some orderId)
    (hresult : (h w (.cancelOrder g.exchangeAccountId (some orderId))).1 = .ok result)
    (hg : s.grids i = some g) (hlv : findLevel a.level g.levels = some lv)
    (hmove : .cancelled ∈ levelTransitions lv.status) {R : Except Exn Unit → GridEngine → W → Prop}
    (hR : R (.ok ()) { s with grids := s.grids.put i (moved g a.level a.side none .cancelled) }
      (h w (.cancelOrder g.exchangeAccountId (some orderId))).2) : wp h (cancelGridOrder i a) R s w := by
  rw [cancelGridOrder, bind_eq, wp_bind, wp_read, andThen_ok]
  simp only [hg, horderId]
  rw [bind_eq, wp_bind, cancelOrder, wp_await, hresult, id_eq, andThen_ok, bind_eq, wp_bind,
    wp_attemptGrids_ok (updateLevel_eq hg hlv _), andThen_ok, wp_attemptGrids_ok (transitionLevel_updated hlv hmove)]
  exact hR

theorem wp_carryOut {J : List GridAction → W → Prop} (hJ : Obliges h i g J) (hg : s.grids i = some g)
    (hlv : findLevel a.level g.levels = some lv) (hmove : target a ∈ levelTransitions lv.status)
    (hnamed : a.action = .cancel → a.orderId ≠ none) {xs : List GridAction} (hw : J (a :: xs) w)
    {R : Except Exn Unit → GridEngine → W → Prop} (hR : ∀ orderId w', J xs w' →
      R (.ok ()) { s with grids := s.grids.put i (moved g a.level a.side orderId (target a)) } w') :
    wp h (match a.action with
      | .cancel => cancelGridOrder i a
      | .placeBuy => if true then do let _ ← placeGridOrder i a else pure ()
      | .placeSell => do let _ ← placeGridOrder i a) R s w := by
  cases haction : a.action with
  | cancel =>
      have htarget : target a = .cancelled := if_pos haction
      rw [htarget] at hmove hR
      obtain ⟨orderId, horderId⟩ := Option.ne_none_iff_exists'.mp (hnamed haction)
      obtain ⟨result, hresult, hw'⟩ : ∃ result, (h w (.cancelOrder g.exchangeAccountId (some orderId))).1 = .ok result ∧
          J xs (h w (.cancelOrder g.exchangeAccountId (some orderId))).2 := hJ.cancel haction hw
      exact wp_cancelGridOrder_ok horderId hresult hg hlv hmove (hR none _ hw')
  | placeBuy | placeSell =>
      have hplaces : a.action ≠ .cancel := by simp [haction]
      have htarget : target a = .opened := if_neg hplaces
      rw [htarget] at hmove hR
      obtain ⟨result, hresult, hw'⟩ := hJ.place hplaces hw
      simp only [if_true]
      rw [bind_eq, wp_bind]
      exact wp_placeGridOrder_ok hresult hg hlv hmove (hR result.orderId _ hw')

/-- A plan taken at any moment of its execution is what is left of it. -/
theorem wp_executePlan_actions {J : List GridAction → W → Prop} (hJ : Obliges h i g J) (k : Planning)
    (hg : s.grids i = some g) (hnodup : (g.levels.map GridLevel.level).Nodup) (hw : J (k.actions g.levels) w) :
    wp h (executePlan i true (k.actions g.levels)) (fun r s' w' => r = .ok () ∧ J [] w' ∧
      ∃ g', s' = { s with grids := s.grids.put i g' } ∧ k.actions g'.levels = []) s w := by
  refine wp_forEach (fun xs s' w' => J xs w' ∧ ∃ g', s' = { s with grids := s.grids.put i g' } ∧
    (g'.levels.map GridLevel.level).Nodup ∧ Obliges h i g' J ∧ k.actions g'.levels = xs) _ ?_ ?_ _
    ⟨hw, g, ?_, hnodup, hJ, rfl⟩
  · rintro a xs s1 w1 ⟨hw1, g1, rfl, hnodup1, hJ1, hrest⟩
    rw [Planning.actions_eq, List.filterMap_eq_cons_iff] at hrest
    obtain ⟨before, lv, after, hlevels, hbefore, hdecided, hafter⟩ := hrest
    have hfits := fits_of_decided hdecided
    have hlv : findLevel a.level g1.levels = some lv := by
      rw [hfits.terms.1]
      exact findLevel_of_mem hnodup1 (hlevels ▸ List.mem_append_right _ List.mem_cons_self)
    have hg1 : s.grids.put i g1 i = some g1 := Function.update_self _ _ _
    refine wp_carryOut hJ1 hg1 hlv hfits.moves hfits.named hw1 (fun orderId w' hw' => ?_)
    rw [iterPost_ok]
    refine ⟨hw', moved g1 a.level a.side orderId (target a), ?_, (levels_moved _ _ _ _ _).symm ▸ hnodup1,
      ⟨hJ1.place, hJ1.cancel⟩, ?_⟩
    · simp only [State.Store.put, Function.update_idem]
    have hfresh : lv.level ∉ before.map GridLevel.level := by
      rw [hlevels, List.map_append, List.nodup_append] at hnodup1
      exact fun hmem => hnodup1.2.2 _ hmem _ List.mem_cons_self rfl
    have hmoved : (moved g1 a.level a.side orderId (target a)).levels =
        before ++ setStatus (target a) (setOrderId a.side orderId lv) :: after := by
      rw [moved, hlevels, hfits.terms.1, modifyLevel_split _ hfresh]
      have hnamed : (setOrderId a.side orderId lv).level ∉ before.map GridLevel.level := by
        rwa [setOrderId_level]
      have hsame : modifyLevel (setOrderId a.side orderId lv).level (setStatus (target a))
          (before ++ setOrderId a.side orderId lv :: after) = _ := modifyLevel_split _ hnamed
      rwa [setOrderId_level] at hsame
    have hsettled := hfits.settles (setStatus (target a) (setOrderId a.side orderId lv)) rfl
    rw [Planning.actions_eq, hmoved, List.filterMap_append, List.filterMap_cons_none hsettled, hafter,
      List.filterMap_eq_nil_iff.mpr hbefore, List.nil_append]
  · rintro s1 w1 ⟨hw1, g1, hs1, -, -, hrest⟩
    exact ⟨rfl, hw1, g1, hs1, hrest⟩
  · rw [State.Store.put, ← hg, Function.update_eq_self]

/-- Every plan has at most one action for a level, in the order of the levels and at
their own terms; carried out, it raises nothing, and the same plan is then empty. -/
theorem plan_legal_and_stable (hok : Succeeds h) (k : Planning) (hg : s.grids i = some g)
    (hnodup : (g.levels.map GridLevel.level).Nodup) (w : W) :
    Lawful g.levels (k.actions g.levels) ∧
      ∃ s' w' g', run h (executePlan i true (k.actions g.levels)) s w = (.ok (), s', w') ∧ s'.grids i = some g' ∧
        k.actions g'.levels = [] := by
  obtain ⟨hrun, -, g', hs', hempty⟩ := wp_executePlan_actions (hok.obliges i g) k hg hnodup (w := w) trivial
  refine ⟨lawful_actions k g.levels, _, _, g', Prod.ext hrun rfl, ?_, hempty⟩
  rw [hs']
  exact Function.update_self _ _ _

end

/-- An exchange that does all it is asked for. -/
def obliging : Handler Unit (ExecReq Owner) (ExecAns Owner) := fun w _ =>
  (.ok (Execution.Engine.report "i" "77" "open"), w)

def trading : GridEngine := { grids := State.Store.put (fun _ => none) "grid" tradingGrid }

theorem plan_stable_trading :
    Lawful tradingGrid.levels (Planning.planCancelAll.actions tradingGrid.levels) ∧
      ∃ s' w' g', run obliging (executePlan "grid" true (Planning.planCancelAll.actions tradingGrid.levels)) trading () =
        (.ok (), s', w') ∧ s'.grids "grid" = some g' ∧ Planning.planCancelAll.actions g'.levels = [] :=
  plan_legal_and_stable (fun _ _ => ⟨_, rfl⟩) .planCancelAll rfl (by decide) ()

end Utos.Grid.PlanStable
