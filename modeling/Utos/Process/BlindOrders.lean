import Utos.Process.Market
import Utos.Process.Records

namespace Utos.Process.BlindOrders

open Coroutine Program Core Core.DomainTypes Core.Exceptions Execution.Service Execution.Exchange
open StateMachine Manager Wiring Runs Market
open Grid Grid.Calculator Grid.Planner Grid.Trading
open Grid.Engine hiding Op

/-- The grid of the instance is ACTIVE. -/
def GridActive (i : InstanceId) (s : GridEngine) : Prop := ∃ g, s.grids i = some g ∧ g.status = .active

section

variable {V : Type} {h : Handler V (ExecReq Owner) (ExecAns Owner)} {i : InstanceId} {s : GridEngine} {v : V}

theorem keeps_attemptGrids {J : GridEngine → V → Prop} {f : State.Store → Except Exn (Unit × State.Store)}
    (hf : ∀ s v g, f s.grids = .ok ((), g) → J s v → J { s with grids := g } v) : Keeps h J (attemptGrids f) := by
  refine keeps_attempt (fun s v a s' hs hJ => ?_)
  cases hg : f s.grids with
  | error e => rw [hg] at hs; cases hs
  | ok r =>
      rw [hg] at hs
      cases hs
      exact hf s v r.2 hg hJ

theorem GridActive.assignLevel {store : State.Store} {n : Nat} {f : GridLevel → GridLevel}
    (hactive : GridActive i { s with grids := store }) : GridActive i { s with grids := store.assignLevel i n f } := by
  obtain ⟨g, hg, hstatus⟩ := hactive
  refine ⟨{ g with levels := State.modifyLevel n f g.levels }, ?_, hstatus⟩
  simp only [State.Store.assignLevel]
  rw [show store i = some g from hg]
  simp [State.Store.put]

theorem keeps_placeGridOrder (action : GridAction) :
    Keeps h (fun s _ => GridActive i s) (placeGridOrder i action) := by
  refine keeps_read_bind (fun s => ?_)
  cases s.grids i with
  | none => exact keeps_raise _
  | some state =>
      refine keeps_bind (keeps_await (fun _ _ hs => hs)) (fun result => ?_)
      refine keeps_bind (keeps_attemptGrids (fun s v g hg hs => ?_)) (fun _ => ?_)
      · obtain ⟨-, rfl⟩ := State.Store.updateLevel_ok hg
        exact GridActive.assignLevel hs
      · refine keeps_bind (keeps_attemptGrids (fun s v g hg hs => ?_)) (fun _ => keeps_ret _)
        obtain ⟨lv, -, -, rfl⟩ := State.Store.transitionLevel_ok hg
        exact GridActive.assignLevel hs

theorem keeps_placeAll (actions : List GridAction) :
    Keeps h (fun s _ => GridActive i s) (placeAll i actions) :=
  keeps_forEach (fun action _ => keeps_bind (keeps_placeGridOrder action) (fun _ => keeps_ret _))

theorem wp_initializeGrid {args : InitArgs} {R : Except Exn Unit → GridEngine → V → Prop}
    (herr : ∀ e, initialState i args = .error e → R (.error e) s v)
    (hok : ∀ state g s', initialState i args = .ok state → s'.grids i = some g → g.status = .initialized →
      R (.ok ()) s' v) : wp h (initializeGrid i args) R s v := by
  rw [initializeGrid, bind_eq, wp_bind, wp_lift]
  cases hstate : initialState i args with
  | error e => exact herr e hstate
  | ok state =>
      have hidle : state.status = .idle := by
        unfold initialState at hstate
        split at hstate
        · cases hl : calculateLevels args.upperPrice args.lowerPrice args.gridCount args.investmentPerGrid with
          | error e => rw [hl] at hstate; cases hstate
          | ok levels => rw [hl] at hstate; cases hstate; rfl
        · cases hl : calculateLevelsWithAveraging args.upperPrice args.investmentPerGrid args.averagingSteps with
          | error e => rw [hl] at hstate; cases hstate
          | ok levels => rw [hl] at hstate; cases hstate; rfl
      rw [andThen_ok, bind_eq, wp_bind, modifyGrids, wp_modify, andThen_ok, attemptGrids, wp_attempt]
      simp only [State.Store.transitionGrid, State.Store.put, Function.update_self, hidle]
      exact hok state { state with status := .initialized } _ hstate (by simp) rfl

/-- An initialised grid is ACTIVE whatever comes of the orders of its activation. -/
theorem wp_activateGrid {g : GridState} (hg : s.grids i = some g) (hstatus : g.status = .initialized)
    (price : ℚ) : wp h (activateGrid i price) (fun _ s' _ => GridActive i s') s v := by
  rw [activateGrid, bind_eq, wp_bind, wp_read, andThen_ok]
  simp only [hg]
  rw [bind_eq, wp_bind, attemptGrids, wp_attempt]
  simp only [State.Store.transitionGrid, hg, hstatus]
  refine (keeps_bind (J := fun s _ => GridActive i s) (keeps_modify (fun s v hs => ?_)) (fun _ =>
    keeps_bind (keeps_placeAll _) (fun _ => keeps_ret _))) _ _ ?_
  · obtain ⟨g, hg, hstatus⟩ := hs
    refine ⟨{ g with currentPrice := some price }, ?_, hstatus⟩
    simp [State.Store.assignGrid, hg, State.Store.put]
  · exact ⟨{ g with status := .active }, by simp [State.Store.put], rfl⟩

end

variable {w : WorkerId} {row : TradingInstance} {ref : Nat} {s : System} {m : Market}

/-- Whether the wiring of an instance gets as far as activate_grid: both engines
are there, the records are found, the price is known and the levels can be built. -/
def Activates (w : WorkerId) (row : TradingInstance) (ref : Nat) (s : System) (m : Market) : Prop :=
  (s.workers w).gridUp = true ∧ (s.workers w).hubUp = true ∧
    ∃ profile steps price state,
      m.script m.clock (.gridProfile row.gridProfileId) = .ok (some profile) ∧
      m.script (m.clock + 1) (.averaging row.id) = .ok steps ∧
      m.script (m.clock + 2) (.getPrice (s.processes ref).exchangeName row.symbol) = .ok price ∧
      initialState row.id (gridArgs row profile (orTemplate steps) price) = .ok state

/-- No order of the instance is live, and its grid is not ACTIVE. -/
def NothingLeft (w : WorkerId) (i : InstanceId) (s : System) (m : Market) : Prop :=
  m.Flat i ∧ ¬ GridActive i (s.workers w).grid

def Subscribed (w : WorkerId) (i : InstanceId) (s : System) : Prop := ∃ sub, (sub, i) ∈ (s.workers w).subs

abbrev ActiveAt (w : WorkerId) (i : InstanceId) : System → Market → Prop := fun s _ => GridActive i (s.workers w).grid

theorem keeps_setupBreaker (price : ℚ) : Keeps market (ActiveAt w row.id) (setupBreaker w row price) := by
  refine keeps_bind (keeps_await (fun _ _ hs => hs)) (fun config => ?_)
  intro s m hs
  refine (wp_onGrid _).mpr ?_
  simp only [configureCircuitBreaker, wp_modify, ActiveAt, withGrid_workers]
  exact hs

theorem keeps_subscribe (exchangeName : String) : Keeps market (ActiveAt w row.id) (subscribe w exchangeName row) := by
  refine keeps_bind (keeps_await (fun _ _ hs => hs)) (fun _ => keeps_read_bind (fun s0 => ?_))
  refine keeps_bind (keeps_modify (fun s m hs => ?_)) (fun _ => keeps_ret _)
  simp only [ActiveAt, System.setWorker, subscribed, Function.update_self]
  exact hs

theorem wp_wireGrid_activated {exchangeName : String} {price : ℚ} {args : InitArgs} {state : GridState}
    (hstate : initialState row.id args = .ok state) :
    wp market (do
      onGrid w (initializeGrid row.id args)
      let _ ← onGrid w (activateGrid row.id price)
      if row.breakerEnabled ∧ row.continuationRate ≠ none then setupBreaker w row price
      let sub ← subscribe w exchangeName row
      setSubscription ref (some sub)) (fun _ s' m' => ActiveAt w row.id s' m') s m := by
  have htail : Keeps market (ActiveAt w row.id)
      (Program.bind (subscribe w exchangeName row) (fun sub => setSubscription ref (some sub))) :=
    keeps_bind (keeps_subscribe exchangeName) (fun _ => keeps_modify (fun s m hs => hs))
  rw [bind_eq, wp_bind, wp_onGrid]
  refine wp_initializeGrid (fun e he => ?_) (fun state' g grid _ hg hinit => ?_)
  · rw [hstate] at he
    cases he
  rw [andThen_ok, bind_eq, wp_bind, wp_onGrid]
  refine wp_mono (wp_activateGrid (by simpa using hg) hinit price) ?_
  rintro (e | u) grid' m' hactive
  · simpa [ActiveAt] using hactive
  rw [andThen_ok]
  have hs : ActiveAt w row.id (withGrid (withGrid s w grid) w grid') m' := by
    simpa [ActiveAt] using hactive
  split
  · exact keeps_bind (keeps_setupBreaker price) (fun _ => htail) _ _ hs
  · exact htail _ _ hs

theorem activates_iff {profile : GridProfile} {steps : AveragingSteps} {price : ℚ}
    (hup : (s.workers w).gridUp = true ∧ (s.workers w).hubUp = true)
    (hprofile : m.script m.clock (.gridProfile row.gridProfileId) = .ok (some profile))
    (hsteps : m.script (m.clock + 1) (.averaging row.id) = .ok steps)
    (hprice : m.script (m.clock + 2) (.getPrice (s.processes ref).exchangeName row.symbol) = .ok price) :
    Activates w row ref s m ↔ ∃ state, initialState row.id (gridArgs row profile (orTemplate steps) price) = .ok state := by
  constructor
  · rintro ⟨-, -, profile', steps', price', state, hprofile', hsteps', hprice', hstate⟩
    cases hprofile.symm.trans hprofile'
    cases hsteps.symm.trans hsteps'
    cases hprice.symm.trans hprice'
    exact ⟨state, hstate⟩
  · rintro ⟨state, hstate⟩
    exact ⟨hup.1, hup.2, profile, steps, price, state, hprofile, hsteps, hprice, hstate⟩

theorem wp_wire : wp market (wire w row ref) (fun r s' m' => r = .ok () →
    (Activates w row ref s m → GridActive row.id (s'.workers w).grid) ∧
      (¬ Activates w row ref s m → s' = s ∧ m'.orders = m.orders)) s m := by
  rw [wire, bind_eq, wp_bind, wp_read, andThen_ok]
  split
  next hdown =>
    refine fun _ => ⟨fun hact => ?_, fun _ => ⟨rfl, rfl⟩⟩
    rcases hdown with hgrid | hhub
    · exact absurd (hgrid.symm.trans hact.1) (by simp)
    · exact absurd (hhub.symm.trans hact.2.1) (by simp)
  next hup =>
    simp only [not_or, Bool.not_eq_false] at hup
    rw [bind_eq]
    refine wp_bind_await (fun e _ hr => by cases hr) (fun found hfound => ?_)
    cases found with
    | none =>
        refine fun _ => ⟨fun hact => ?_, fun _ => ⟨rfl, rfl⟩⟩
        obtain ⟨_, _, _, _, hprofile, -⟩ := hact.2.2
        cases hfound.symm.trans hprofile
    | some profile =>
        simp only
        rw [bind_eq]
        refine wp_bind_await (fun e _ hr => by cases hr) (fun steps hsteps => ?_)
        rw [tryCatch_eq, wp_tryCatch, wireGrid, bind_eq, wp_bind, wp_read, andThen_ok, bind_eq]
        refine wp_bind_await (fun e hfailed _ => ⟨fun hact => ?_, fun _ => ⟨rfl, rfl⟩⟩) (fun price hprice => ?_)
        · obtain ⟨_, _, _, _, -, -, hprice, -⟩ := hact.2.2
          cases hfailed.symm.trans hprice
        have hinits := activates_iff hup hfound hsteps hprice
        cases hstate : initialState row.id (gridArgs row profile (orTemplate steps) price) with
        | error e =>
            rw [bind_eq, wp_bind, wp_onGrid]
            refine wp_initializeGrid (fun e' _ _ => ⟨fun hact => ?_, fun _ => ⟨withGrid_self s w, rfl⟩⟩)
              (fun state g grid he => ?_)
            · obtain ⟨state, hok⟩ := hinits.mp hact
              cases hstate.symm.trans hok
            · cases hstate.symm.trans he
        | ok state =>
            have hact := hinits.mpr ⟨state, hstate⟩
            refine wp_mono (wp_wireGrid_activated hstate) ?_
            rintro (e | u) s' m' hs'
            · exact fun _ => ⟨fun _ => hs', fun hn => absurd hact hn⟩
            · exact fun _ => ⟨fun _ => hs', fun hn => absurd hact hn⟩

/-- The wiring returns, and no subscription of the instance is live at the worker. -/
def ReturnsUnsubscribed (w : WorkerId) (row : TradingInstance) (ref : Nat) (s : System) (m : Market) : Prop :=
  (run market (wire w row ref) s m).1 = .ok () ∧ ¬ Subscribed w row.id (run market (wire w row ref) s m).2.1

/-- A wiring that fails leaves nothing behind if and only if it fails before
activate_grid and nothing was there before. -/
theorem wire_leaves_nothing_iff (hret : ReturnsUnsubscribed w row ref s m) :
    NothingLeft w row.id (run market (wire w row ref) s m).2.1 (run market (wire w row ref) s m).2.2 ↔
      ¬ Activates w row ref s m ∧ NothingLeft w row.id s m := by
  obtain ⟨hactive, hnot⟩ := wp_wire hret.1
  constructor
  · rintro ⟨hflat, hidle⟩
    have hn : ¬ Activates w row ref s m := fun hact => hidle (hactive hact)
    obtain ⟨hs, hm⟩ := hnot hn
    rw [Market.Flat, hm] at hflat
    rw [hs] at hidle
    exact ⟨hn, hflat, hidle⟩
  · rintro ⟨hn, hflat, hidle⟩
    obtain ⟨hs, hm⟩ := hnot hn
    rw [NothingLeft, Market.Flat, hm, hs]
    exact ⟨hflat, hidle⟩

def unpriced : Market := marketWith (.error (named "SymbolNotSupported" "BTCUSDT")) willing

theorem not_subscribed {i : InstanceId} (hsubs : (s.workers w).subs = []) : ¬ Subscribed w i s := by
  rintro ⟨sub, hsub⟩
  rw [hsubs] at hsub
  cases hsub

theorem wire_leaves_nothing_iff_unpriced :
    NothingLeft 0 "a" (run market (wire 0 readyBot 0) {} unpriced).2.1
        (run market (wire 0 readyBot 0) {} unpriced).2.2 ↔
      ¬ Activates 0 readyBot 0 {} unpriced ∧ NothingLeft 0 "a" {} unpriced :=
  wire_leaves_nothing_iff ⟨by decide +kernel, not_subscribed (by decide +kernel)⟩

/-- The second order of the activation is lost, and the first is left alone at the exchange. -/
theorem failed_activation_leaves_order :
    ReturnsUnsubscribed 0 readyBot 0 {} (marketWith (.ok 100) firstOnly) ∧
      ¬ NothingLeft 0 "a" (run market (wire 0 readyBot 0) {} (marketWith (.ok 100) firstOnly)).2.1
        (run market (wire 0 readyBot 0) {} (marketWith (.ok 100) firstOnly)).2.2 := by
  refine ⟨⟨by decide +kernel, not_subscribed (by decide +kernel)⟩, fun hnothing => ?_⟩
  have hflat := hnothing.1
  revert hflat
  decide +kernel

end Utos.Process.BlindOrders
