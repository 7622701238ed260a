import Utos.Grid.Cancelling
import Utos.Process.AllOrNothing

namespace Utos.Process.FlatOrders

open Coroutine Program Core Core.DomainTypes Core.Exceptions Execution.Service Execution.Exchange
open StateMachine Manager Wiring Lifecycle Records Recovery Registry Market AllOrNothing
open Grid Grid.Trading Grid.Pause Grid.Cancelling Grid.Terms Grid.CallTerms
open Grid.Engine hiding Op

/-- An event of the manager, or a call of the grid engine of a worker. -/
inductive Event
  | manager (e : Runs.Event Market)
  | grid (w : WorkerId) (call : Trading.Call)

variable (evaluate : CircuitBreaker.Evaluate)

def step (x : System × Market) : Event → System × Market
  | .manager e => Runs.step market x e
  | .grid w c => (Program.run market (onGrid w (Trading.perform evaluate c)) x.1 x.2).2

variable {evaluate} {s : System} {m : Market} {w : WorkerId} {i : InstanceId} {ref : Nat} {row : TradingInstance}
variable {userId : UUID}

/-- No order of the instance is live at the exchange, and no subscription of it is left. -/
def Settled (i : InstanceId) (s : System) (m : Market) : Prop := m.Flat i ∧ ∀ w sub, (sub, i) ∉ (s.workers w).subs

/-- The subscriptions of the instance are those of the process that is registered at the worker. -/
def SubsHeld (w : WorkerId) (i : InstanceId) (s : System) : Prop :=
  ∀ w' sub, (sub, i) ∈ (s.workers w').subs → w' = w ∧ (s.workers w).hubUp = true ∧
    ∃ ref, (s.workers w).registry i = some ref ∧ (s.processes ref).subscriptionId = some sub

/-- The live orders of the instance are among those that a pause of its grid at the
worker cancels, every cancel of this pause is answered, and those of the live orders go through. -/
def OrdersHeld (w : WorkerId) (i : InstanceId) (s : System) (m : Market) : Prop :=
  (s.workers w).gridUp = true ∧ ∃ g, (s.workers w).grid.grids i = some g ∧ Answered g ⟨m.desk w, m.oracle⟩ ∧
    ∀ (r : Nat) (o : Order Owner), m.orders[r]? = some o → o.owner.key.instanceId = i → o.state = .live →
      ∃ key ∈ cancelKeys g g.levels, m.index w key = some r ∧ (m.oracle.cancel r).effect ≠ .unchanged

/-- The call is let through as far as its transition. -/
def LetThrough (i : InstanceId) (userId : UUID) (target : TradingInstanceStatus) (s : System) : Prop :=
  ∃ row, s.rows.get i = some row ∧ row.userId = userId ∧ target ∈ transitions row.status

/-- A pause or a stop comes to the worker that holds what there is of the
instance; a stop without a registered process finds no live order. -/
def Meets (x : System × Market) : Event → Prop
  | .manager (.call (.pause w i userId)) => LetThrough i userId .paused x.1 →
      SubsHeld w i x.1 ∧ (x.2.Flat i ∨ OrdersHeld w i x.1 x.2)
  | .manager (.call (.stop w i userId)) => LetThrough i userId .stopping x.1 →
      SubsHeld w i x.1 ∧ (x.2.Flat i ∨ (x.1.workers w).registry i ≠ none ∧ OrdersHeld w i x.1 x.2)
  | _ => True

/-- The call returns, and so reports its status, only if it has settled the instance. -/
def SettlesIfReturns (x : System × Market) (i : InstanceId) (c : Lifecycle.Call) : Prop :=
  ∀ rows, (Runs.outcome market x c).1 = .ok rows →
    Settled i (Runs.outcome market x c).2.1 (Runs.outcome market x c).2.2

def ReportsTruly (x : System × Market) : Event → Prop
  | .manager (.call (.pause w i userId)) => SettlesIfReturns x i (.pause w i userId)
  | .manager (.call (.stop w i userId)) => SettlesIfReturns x i (.stop w i userId)
  | _ => True

/-- The engines of all workers are sound. -/
def EnginesSound (s : System) : Prop := ∀ w, Invariant.Sound ∅ (s.workers w).grid

theorem EnginesSound.setWorker (hs : EnginesSound s) (x : WorkerId) {f : Worker → Worker}
    (hf : Invariant.Sound ∅ (f (s.workers x)).grid) : EnginesSound (s.setWorker x f) := by
  intro w
  by_cases hw : w = x
  · subst hw
    simpa [System.setWorker] using hf
  · simpa [System.setWorker, hw] using hs w

section

variable {W : Type} {h : Handler W Req Ans}

/-- A program of the grid engine that behaves under the terms keeps the engines sound. -/
theorem keeps_fine {α : Type} {p : Grid.Engine.Op α} {o : GridEngine → Quota}
    (hp : ∀ g, Invariant.Sound ∅ g → Fine ∅ (o g) g p) : Keeps h (fun s _ => EnginesSound s) (onGrid w p) := by
  intro s ω hs
  refine (wp_onGrid p).mpr (wp_mono (wp_of_under (π := terms ∅) (fun _ _ => True) (fun _ _ => rfl)
    (fun _ _ _ => trivial) (fun _ _ _ _ _ _ _ => trivial) p (hp _ (hs w)) (hs w) ω trivial) ?_)
  rintro r grid ω' ⟨o', hgrid, -, -⟩
  exact hs.setWorker w hgrid

theorem keeps_managed {α : Type} {p : Grid.Engine.Op α} (hp : Managed i p) :
    Keeps h (fun s _ => EnginesSound s) (onGrid w p) := by
  refine keeps_fine (o := fun _ => { sells := fun _ => 0 }) (fun g hg => ?_)
  cases hp with
  | initializes args => exact fine_initializeGrid hg
  | activate price => exact fine_activateGrid hg (fun _ => rfl) rfl
  | configure args => exact fine_configure ⟨hg.numbered, hg.locksOk, hg.off⟩
  | pause => exact fine_pauseGrid hg rfl

theorem closed_enginesSound : Closed h (fun s _ => EnginesSound s) where
  answer _ _ _ _ hs := hs
  newProcess _ _ _ hs := hs
  setProcess _ _ _ _ _ hs := hs
  subs s _ x _ hf hs := hs.setWorker x ((hf (s.workers x)).2 ▸ hs x)
  grid _ _ _ hp := keeps_managed hp
  lock _ _ _ hs := hs
  register _ _ x _ _ hs := hs.setWorker x (hs x)
  rows _ _ _ hs := hs

end

/-- The invariant of a run. -/
structure Sound (s : System) : Prop where
  keyed : Keyed s.rows
  numbered : Numbered s
  engines : EnginesSound s

theorem Sound.step {x : System × Market} (hs : Sound x.1) (e : Event) : Sound (step evaluate x e).1 := by
  cases e with
  | manager e =>
      refine ⟨keyed_step hs.keyed e, hs.numbered.step e, ?_⟩
      cases e with
      | call c => exact keeps_perform closed_enginesSound c x.1 x.2 hs.engines
      | restart w gridUp hubUp =>
          exact hs.engines.setWorker w (f := fun _ => { gridUp := gridUp, hubUp := hubUp }) (Reach.sound_start true)
      | expire i => exact hs.engines
      | world m => exact hs.engines
  | grid w c =>
      have hrun : wp market (onGrid w (Trading.perform evaluate c))
          (fun _ s' _ => s'.rows = x.1.rows ∧ s'.size = x.1.size ∧ s'.processes = x.1.processes ∧
            ∀ y, (s'.workers y).registry = (x.1.workers y).registry) x.1 x.2 := by
        refine (wp_onGrid _).mpr ⟨rfl, rfl, rfl, fun y => ?_⟩
        by_cases hy : y = w
        · subst hy
          rw [withGrid_workers]
        · simp [withGrid, System.setWorker, hy]
      obtain ⟨hrows, hsize, hprocesses, hregistry⟩ := hrun
      refine ⟨?_, fun y i ref hreg => ?_, ?_⟩
      · exact (congrArg Keyed hrows).mpr hs.keyed
      · have hb := hs.numbered y i ref ((congrFun (hregistry y) i).symm.trans hreg)
        exact ⟨hsize ▸ hb.1, hprocesses ▸ hb.2.1, hprocesses ▸ hb.2.2⟩
      · exact keeps_fine (fun g hg => fine_perform hg (fun k _ => Set.notMem_empty k)) x.1 x.2 hs.engines

/-- The processes and the rest that the orders of an instance depend on are as they were at the market m. -/
def SameDesk (m m' : Market) : Prop := m'.orders = m.orders ∧ m'.index = m.index ∧ m'.oracle = m.oracle

theorem still_sameDesk (m : Market) : Still market (SameDesk m) := by
  intro m' q hq h
  cases q with
  | exec w q => cases hq
  | _ => exact h

theorem SameDesk.flat {m' : Market} (h : SameDesk m m') (hflat : m.Flat i) : m'.Flat i := by
  rw [Market.Flat, h.1]
  exact hflat

theorem SameDesk.desk {m' : Market} (h : SameDesk m m') (w : WorkerId) :
    (m'.desk w).orders = m.orders ∧ (m'.desk w).index = m.index w ∧ m'.oracle = m.oracle :=
  ⟨h.1, congrFun h.2.1 w, h.2.2⟩

/-- The grid engine of the worker and the exchange are as they were. -/
def SameEngine (w : WorkerId) (s : System) (m : Market) (s' : System) (m' : Market) : Prop :=
  (s'.workers w).grid = (s.workers w).grid ∧ (s'.workers w).gridUp = (s.workers w).gridUp ∧ SameDesk m m'

theorem heldOrders_of_sameEngine {s1 : System} {m1 : Market} (hsame : SameEngine w s m s1 m1)
    (h : m.Flat i ∨ OrdersHeld w i s m) : m1.Flat i ∨ OrdersHeld w i s1 m1 := by
  obtain ⟨hgrid, hgridUp, horders, hindex, horacle⟩ := hsame
  rcases h with hflat | ⟨hup, g, hg, hanswered, hheld⟩
  · exact .inl (SameDesk.flat ⟨horders, hindex, horacle⟩ hflat)
  refine .inr ⟨hgridUp.trans hup, g, ?_, fun key hkey => ?_, fun r o ho howner hlive => ?_⟩
  · rw [hgrid]
    exact hg
  · obtain ⟨ref, result, href, hanswer⟩ := hanswered key hkey
    refine ⟨ref, result, ?_, ?_⟩
    · exact (congrFun (congrFun hindex w) key).trans href
    · rw [← hanswer]
      exact congrArg (fun oracle => (oracle.cancel ref).answer) horacle
  · rw [horders] at ho
    obtain ⟨key, hkey, href, heffect⟩ := hheld r o ho howner hlive
    refine ⟨key, hkey, ?_, ?_⟩
    · rw [hindex]
      exact href
    · rw [horacle]
      exact heffect

/-- No subscription of the instance is left, and nothing else has happened to it. -/
def Unsubscribed (i : InstanceId) (w : WorkerId) (s : System) (m : Market) (s' : System) (m' : Market) : Prop :=
  (∀ x sub, (sub, i) ∉ (s'.workers x).subs) ∧ SameEngine w s m s' m'

/-- The subscriptions of the instance are all that of the process. -/
def SubsOf (w : WorkerId) (i : InstanceId) (ref : Nat) (s : System) : Prop :=
  ∀ w' sub, (sub, i) ∈ (s.workers w').subs → w' = w ∧ (s.workers w).hubUp = true ∧
    (s.processes ref).subscriptionId = some sub

theorem wp_unsubscribeProcess (hsubs : SubsOf w i ref s) :
    wp market (unsubscribeProcess w ref) (fun r s' m' => r = .ok () ∧ Unsubscribed i w s m s' m') s m := by
  have hnone : ∀ {s' : System}, s'.workers = s.workers → (s.processes ref).subscriptionId = none →
      ∀ x sub, (sub, i) ∉ (s'.workers x).subs := by
    intro s' hw hsub x sub hmem
    rw [hw] at hmem
    cases hsub.symm.trans (hsubs x sub hmem).2.2
  rw [unsubscribeProcess, bind_eq, wp_bind, wp_read, andThen_ok]
  cases hsub : (s.processes ref).subscriptionId with
  | none => exact ⟨rfl, hnone rfl hsub, rfl, rfl, rfl, rfl, rfl⟩
  | some sub =>
      simp only
      split
      next hup =>
        rw [bind_eq, wp_bind, tryCatch_eq, wp_tryCatch, unsubscribe, bind_eq, wp_bind, wp_modify, andThen_ok, wp_await]
        have hleft : ∀ x sub', (sub', i) ∉
            ((s.setWorker w (fun y => { y with subs := y.subs.filter (fun e => e.1 ≠ sub) })).workers x).subs := by
          intro x sub' hmem
          by_cases hx : x = w
          · subst hx
            simp only [System.setWorker, Function.update_self, List.mem_filter, decide_eq_true_eq] at hmem
            have hheld := (hsubs x sub' hmem.1).2.2
            rw [hsub] at hheld
            cases hheld
            exact hmem.2 rfl
          · simp only [System.setWorker, Function.update_of_ne hx] at hmem
            exact hx (hsubs x sub' hmem).1
        have hdone : Unsubscribed i w s m
            ((s.setWorker w (fun y => { y with subs := y.subs.filter (fun e => e.1 ≠ sub) })).setProcess ref
              (fun p => { p with subscriptionId := none })) m.tick := by
          refine ⟨hleft, ?_, ?_, rfl, rfl, rfl⟩
          · simp [System.setProcess, System.setWorker]
          · simp [System.setProcess, System.setWorker]
        cases (market m .closeStream).1 with
        | error e => exact ⟨rfl, hdone⟩
        | ok u => exact ⟨rfl, hdone⟩
      next hdown =>
        refine ⟨rfl, fun x sub' hmem => ?_, rfl, rfl, rfl, rfl, rfl⟩
        exact hdown (hsubs x sub' hmem).2.1

/-- A pause of the grid leaves no order of the instance live, if it comes to the worker that holds them. -/
theorem wp_pauseGrid_flat (hs : EnginesSound s) (horders : m.Flat i ∨ OrdersHeld w i s m) :
    wp market (onGrid w (pauseGrid i))
      (fun _ s' m' => m'.Flat i ∧ ∀ x, (s'.workers x).subs = (s.workers x).subs) s m := by
  refine wp_onGrid_market ?_
  have hsubs : ∀ grid x, ((withGrid s w grid).workers x).subs = (s.workers x).subs := by
    intro grid x
    by_cases hx : x = w
    · subst hx
      rw [withGrid_workers]
    · simp [withGrid, System.setWorker, hx]
  rcases horders with hflat | ⟨-, g, hg, hanswered, hheld⟩
  · refine wp_of_keeps (keeps_pauseGrid_live (m.desk w) i) (liveIn_refl _) ?_
    intro r grid v hlive m' hdesk _
    refine ⟨fun o ho howner hstate => ?_, hsubs grid⟩
    obtain ⟨n, hn⟩ := List.mem_iff_getElem?.mp ho
    have hn' : v.desk.orders[n]? = some o := by
      rw [← hdesk]
      exact hn
    exact hflat o (List.mem_of_getElem? (hlive n o hn' hstate)) howner hstate
  · refine wp_mono (wp_pauseGrid_answered (hs w) hg hanswered) ?_
    rintro r grid v rfl m' hdesk _
    refine ⟨fun o ho howner hstate => ?_, hsubs grid⟩
    obtain ⟨n, hn⟩ := List.mem_iff_getElem?.mp ho
    have hn' : (m'.desk w).orders[n]? = some o := hn
    rw [hdesk] at hn'
    obtain ⟨hold, huntouched⟩ := settleIds_live _ hn' hstate
    obtain ⟨key, hkey, href, heffect⟩ := hheld n o hold howner hstate
    exact heffect (huntouched key hkey href)

theorem wp_unwire (hs : EnginesSound s) (hid : row.id = i) (hsubs : SubsOf w i ref s)
    (horders : m.Flat i ∨ OrdersHeld w i s m) :
    wp market (unwire w row ref) (fun _ s' m' => Settled i s' m') s m := by
  have hcalm : Quiet market (fun s _ => EnginesSound s) := closed_enginesSound.toQuiet
  rw [unwire, bind_eq, wp_bind]
  refine wp_mono (wp_and (wp_unsubscribeProcess hsubs) (keeps_unsubscribeProcess hcalm w ref s m hs)) ?_
  rintro r s1 m1 ⟨⟨rfl, hun⟩, hs1⟩
  rw [andThen_ok, bind_eq, wp_bind, wp_read, andThen_ok]
  have horders1 : m1.Flat i ∨ OrdersHeld w i s1 m1 :=
    heldOrders_of_sameEngine hun.2 horders
  split
  next hup =>
    rw [tryCatch_eq, wp_tryCatch, bind_eq, wp_bind, hid]
    refine wp_mono (wp_pauseGrid_flat hs1 horders1) ?_
    rintro (e | b) s2 m2 ⟨hflat, hsubs2⟩
    · exact ⟨hflat, fun x sub hmem => hun.1 x sub (hsubs2 x ▸ hmem)⟩
    · exact ⟨hflat, fun x sub hmem => hun.1 x sub (hsubs2 x ▸ hmem)⟩
  next hdown =>
    refine ⟨horders1.resolve_right (fun hheld => hdown hheld.1), hun.1⟩

theorem calm_settled : Calm market (Settled i) where
  answer s m q hq h := by
    cases q with
    | exec w q => cases hq
    | _ => exact h

theorem SubsHeld.of_registered (hheld : SubsHeld w i s) (hreg : (s.workers w).registry i = some ref) :
    SubsOf w i ref s := by
  intro w' sub hmem
  obtain ⟨hw, hup, ref', hreg', hsub⟩ := hheld w' sub hmem
  rw [hreg] at hreg'
  cases hreg'
  exact ⟨hw, hup, hsub⟩

theorem SubsHeld.of_unregistered (hheld : SubsHeld w i s) (hreg : (s.workers w).registry i = none) :
    ∀ w' sub, (sub, i) ∉ (s.workers w').subs := by
  intro w' sub hmem
  obtain ⟨-, -, ref, hreg', -⟩ := hheld w' sub hmem
  rw [hreg] at hreg'
  cases hreg'

theorem keeps_rest_of_pause {w : WorkerId} {ref : Nat} :
    Keeps market (Settled i) (do
      setProcessStatus ref .paused
      let row ← persistStatus row .paused
      setState w i
      releaseLock w i
      return row) := by
  refine keeps_bind (keeps_modify (fun _ _ h => h)) (fun _ => ?_)
  refine keeps_bind (keeps_persistStatus calm_settled (fun _ _ _ h => h) row _) (fun _ => ?_)
  exact keeps_bind (keeps_setState calm_settled w i) (fun _ =>
    keeps_bind (keeps_releaseLock calm_settled (fun _ _ _ h => h) w i) (fun _ => keeps_ret _))

theorem wp_rest_of_pause (hs : EnginesSound s) (hid : row.id = i) (hsubs : SubsOf w i ref s)
    (horders : m.Flat i ∨ OrdersHeld w i s m) :
    wp market (do
      unwire w row ref
      setProcessStatus ref .paused
      let row ← persistStatus row .paused
      setState w i
      releaseLock w i
      return row) (onOk fun _ s' m' => Settled i s' m') s m := by
  rw [bind_eq, wp_bind]
  refine wp_mono (wp_unwire hs hid hsubs horders) ?_
  rintro (e | u) s1 m1 h1
  · exact trivial
  · rw [andThen_ok]
    refine wp_of_keeps keeps_rest_of_pause h1 ?_
    rintro (e | a) s2 m2 h2
    · exact trivial
    · exact h2

theorem wp_pause (hs : Sound s) (hmeets : LetThrough i userId .paused s →
    SubsHeld w i s ∧ (m.Flat i ∨ OrdersHeld w i s m)) :
    wp market (pause w i userId) (onOk fun _ s' m' => Settled i s' m') s m := by
  refine wp_opened (still_sameDesk m) ⟨rfl, rfl, rfl⟩ (fun _ _ _ => trivial) (fun row m1 h1 hrow howner hedge => ?_)
  have hid := hs.keyed i row hrow
  obtain ⟨hsubs, horders⟩ := hmeets ⟨row, hrow, howner, hedge⟩
  rw [getOrBuild, bind_eq, wp_bind, bind_eq, wp_bind, getProcess, bind_eq, wp_bind, wp_read, andThen_ok, pure_eq,
    wp_ret, andThen_ok, hid]
  cases hreg : (s.workers w).registry i with
  | some ref =>
      refine wp_rest_of_pause hs.engines hid (hsubs.of_registered hreg) ?_
      exact heldOrders_of_sameEngine ⟨rfl, rfl, h1⟩ horders
  | none =>
      have hnosubs := hsubs.of_unregistered hreg
      rw [bind_eq, wp_bind]
      refine wp_buildProcess (still_sameDesk m) h1 (fun _ _ _ => trivial) (fun p m2 h2 _ _ _ => ?_)
      rw [andThen_ok, bind_eq, wp_bind, register, wp_modify, andThen_ok]
      refine wp_rest_of_pause (s := (s.newProcess p).registered w i (some s.size)) ?_ hid (fun x sub hmem => ?_) ?_
      · exact EnginesSound.setWorker (s := s.newProcess p) hs.engines w
          (f := fun y => { y with registry := Function.update y.registry i (some s.size) }) (hs.engines w)
      · refine absurd ?_ (hnosubs x sub)
        by_cases hx : x = w
        · subst hx
          simpa [System.registered, System.setWorker, System.newProcess] using hmem
        · simpa [System.registered, System.setWorker, System.newProcess, hx] using hmem
      · refine heldOrders_of_sameEngine ⟨?_, ?_, h2⟩ horders
        · simp [System.registered, System.setWorker, System.newProcess]
        · simp [System.registered, System.setWorker, System.newProcess]

theorem wp_dismantle (hs : EnginesSound s) (hid : row.id = i) (hsubs : SubsHeld w i s)
    (horders : m.Flat i ∨ (s.workers w).registry i ≠ none ∧ OrdersHeld w i s m) :
    wp market (dismantle w row) (fun _ s' m' => Settled i s' m') s m := by
  rw [dismantle, bind_eq, wp_bind, getProcess, bind_eq, wp_bind, wp_read, andThen_ok, pure_eq, wp_ret, andThen_ok, hid]
  cases hreg : (s.workers w).registry i with
  | none => exact ⟨horders.resolve_right (fun hheld => hheld.1 hreg), hsubs.of_unregistered hreg⟩
  | some ref =>
      simp only
      rw [bind_eq, wp_bind, setProcessStatus, wp_modify, andThen_ok, bind_eq, wp_bind]
      have hsubs' := hsubs.of_registered hreg
      refine wp_mono (wp_unwire (s := s.setProcess ref (fun p => { p with status := .stopping })) hs hid
        (fun x sub hmem => ?_) (horders.imp id And.right)) ?_
      · obtain ⟨hx, hup, hsub⟩ := hsubs' x sub hmem
        exact ⟨hx, hup, by simpa [System.setProcess] using hsub⟩
      · rintro (e | u) s1 m1 h1
        · exact h1
        · rw [andThen_ok, disconnect, bind_eq, wp_bind, wp_read, andThen_ok]
          refine wp_of_keeps (keeps_tryCatch (keeps_request calm_settled rfl) (fun _ => keeps_ret ())) h1 ?_
          exact fun _ _ _ h2 => h2

theorem wp_stop (hs : Sound s) (hmeets : LetThrough i userId .stopping s →
    SubsHeld w i s ∧ (m.Flat i ∨ (s.workers w).registry i ≠ none ∧ OrdersHeld w i s m)) :
    wp market (stop w i userId) (onOk fun _ s' m' => Settled i s' m') s m := by
  refine wp_opened (still_sameDesk m) ⟨rfl, rfl, rfl⟩ (fun _ _ _ => trivial) (fun row m1 h1 hrow howner hedge => ?_)
  have hid := hs.keyed i row hrow
  obtain ⟨hsubs, horders⟩ := hmeets ⟨row, hrow, howner, hedge⟩
  rw [bind_eq, wp_bind]
  refine wp_flushStatus (fun e => trivial) ?_
  rw [andThen_ok, bind_eq, wp_bind]
  have horders1 : m1.Flat i ∨ (s.workers w).registry i ≠ none ∧ OrdersHeld w i s m1 := by
    rcases horders with hflat | ⟨hreg, hheld⟩
    · exact .inl (h1.flat hflat)
    · exact (heldOrders_of_sameEngine ⟨rfl, rfl, h1⟩ (.inr hheld)).imp id (fun hheld' => ⟨hreg, hheld'⟩)
  refine wp_mono (wp_dismantle hs.engines hid hsubs horders1) ?_
  rintro (e | u) s2 m2 h2
  · exact trivial
  rw [andThen_ok]
  refine wp_of_keeps (J := Settled i) ?_ h2 ?_
  · refine keeps_bind (keeps_releaseLock calm_settled (fun _ _ _ h => h) w i) (fun _ => ?_)
    refine keeps_bind (keeps_modify (fun s3 m3 h3 => ⟨h3.1, fun x sub hmem => h3.2 x sub ?_⟩)) (fun _ => ?_)
    · by_cases hx : x = w
      · subst hx
        simpa [System.registered, System.setWorker] using hmem
      · simpa [System.registered, System.setWorker, hx] using hmem
    · exact keeps_bind (keeps_persistStatus calm_settled (fun _ _ _ h => h) row _) (fun _ =>
        keeps_bind (keeps_setState calm_settled w i) (fun _ => keeps_ret _))
  · rintro (e | a) s3 m3 h3
    · exact trivial
    · exact h3

/-- A call that settles the instance when it returns, settles it when it commits. -/
theorem settlesIfReturns {c : Lifecycle.Call} {p : Op TradingInstance} {x : System × Market}
    (hc : operation c = one p) (hp : wp market p (onOk fun _ s' m' => Settled i s' m') x.1 x.2) :
    SettlesIfReturns x i c := by
  have hwp : wp market (Lifecycle.perform c) (onOk fun _ s' m' => Settled i s' m') x.1 x.2 := by
    rw [Lifecycle.perform, hc]
    refine wp_session (wp_mono (Moves.wp_one hp) ?_)
    rintro (e | a) s' m' h'
    · exact ⟨fun _ _ => trivial, fun a ha => by cases ha⟩
    · exact ⟨fun e he => (by cases he), fun a _ => ⟨fun _ => trivial, h'⟩⟩
  intro rows hrows
  exact (congrArg (fun r => onOk (fun _ s' m' => Settled i s' m') r (Runs.outcome market x c).2.1
    (Runs.outcome market x c).2.2) hrows).mp hwp

theorem Sound.reportsTruly {x : System × Market} {e : Event} (hs : Sound x.1) (hmeets : Meets x e) :
    ReportsTruly x e := by
  cases e with
  | grid w c => exact trivial
  | manager e =>
      cases e with
      | call c =>
          cases c with
          | pause w i userId => exact settlesIfReturns rfl (wp_pause hs hmeets)
          | stop w i userId => exact settlesIfReturns rfl (wp_stop hs hmeets)
          | _ => exact trivial
      | _ => exact trivial

/-- In a run in which every pause and every stop comes to the worker that holds
what there is of its instance, each of them reports only what it has done. -/
theorem reportsTruly_of_allMeet (m : Market) {events : List Event}
    (hmeets : AllMeet (step evaluate) Meets ({}, m) events) :
    AllMeet (step evaluate) ReportsTruly ({}, m) events := by
  have hsound : Sound ({} : System) := by
    refine ⟨fun i row hrow => ?_, fun w i ref hreg => ?_, fun w => Reach.sound_start true⟩
    · simp at hrow
    · simp at hreg
  have hrun : ∀ (events : List Event) (x : System × Market), Sound x.1 → AllMeet (step evaluate) Meets x events →
      AllMeet (step evaluate) ReportsTruly x events := by
    intro events
    induction events with
    | nil => exact fun _ _ _ => trivial
    | cons e events ih => exact fun x hx hall => ⟨hx.reportsTruly hall.1, ih _ (hx.step e) hall.2⟩
  exact hrun events _ hsound hmeets

/-- A bot is started at worker 0, and its price is known. -/
def startedBot : List Event :=
  [.manager (.call (.createProcess "a" (Runs.botArgs 1))), .manager (.call (.prepare "a" 1)),
    .manager (.call (.start 0 "a" 1))]

def started : System × Market := startedBot.foldl (step (fun _ _ _ => true)) ({}, open100)

/-- The workers other than 0 have no subscriptions. -/
def Elsewhere (s : System) : Prop := ∀ n, n ≠ 0 → (s.workers n).subs = []

theorem Elsewhere.setWorker (hs : Elsewhere s) (f : Worker → Worker) : Elsewhere (s.setWorker 0 f) := by
  intro n hn
  simpa [System.setWorker, hn] using hs n hn

theorem aside_elsewhere : Aside market 0 i ref (fun s _ => Elsewhere s) where
  answer _ _ _ _ hs := hs
  status _ _ _ hs := hs
  connect s _ hs := Elsewhere.setWorker (s := s) hs (fun y => subscribed y i)
  drop _ _ _ _ hs := hs.setWorker _
  clear _ _ hs := hs
  grid p _ := keeps_component (gridLens 0) _ _
    (fun s g _ hs => Elsewhere.setWorker (s := s) hs (fun y => { y with grid := g })) (fun _ _ _ hs => hs) p

theorem keeps_elsewhere : Keeps market (fun s _ => Elsewhere s) (Lifecycle.perform (.start 0 i userId)) := by
  have hcalm : Calm market (fun s _ => Elsewhere s) := calm Elsewhere
  refine keeps_inSession hcalm (fun _ _ _ hs => hs) (keeps_one (keeps_opened hcalm (fun row => ?_)))
  refine keeps_bind (keeps_checkDuplicateRunning hcalm row) (fun _ => ?_)
  refine keeps_bind (keeps_acquireLock hcalm (fun _ _ _ hs => hs) 0 i) (fun _ => keeps_bind (keeps_raiseIf _ _) (fun _ => ?_))
  refine keeps_bind (keeps_build hcalm (fun _ _ _ hs => hs) 0 row) (fun ref => ?_)
  have haside : Aside market 0 row.id ref (fun s _ => Elsewhere s) := aside_elsewhere
  refine keeps_bind (keeps_setProcessStatus_aside haside _) (fun _ => ?_)
  refine keeps_bind (keeps_modify (fun _ _ hs => Elsewhere.setWorker hs _)) (fun _ => ?_)
  refine keeps_bind (keeps_wire_aside haside) (fun _ => ?_)
  exact keeps_bind (keeps_persistStatus hcalm (fun _ _ _ hs => hs) row _) (fun _ =>
    keeps_bind (keeps_setState hcalm 0 i) (fun _ => keeps_ret _))

theorem started_elsewhere : Elsewhere started.1 := by
  refine keeps_elsewhere _ _ ?_
  refine keeps_inSession (calm Elsewhere) (fun _ _ _ hs => hs)
    (keeps_one (keeps_prepare (calm Elsewhere) (fun _ _ _ hs => hs) "a" 1)) _ _ ?_
  refine keeps_inSession (calm Elsewhere) (fun _ _ _ hs => hs)
    (keeps_one (keeps_createProcess (calm Elsewhere) (fun _ _ _ hs => hs) "a" _)) _ _ ?_
  exact fun _ _ => rfl

/-- Worker 0 holds the subscription and both orders of the bot. -/
theorem started_held : SubsHeld 0 "a" started.1 ∧ (started.1.workers 0).registry "a" ≠ none ∧
    OrdersHeld 0 "a" started.1 started.2 := by
  have hsub : (started.1.workers 0).subs = [(0, "a")] := by decide +kernel
  have hkeys : ((started.1.workers 0).grid.grids "a").map (fun g => cancelKeys g g.levels) =
      some [(some 1, some "i"), (some 1, some "ii")] := by decide +kernel
  have hindex : started.2.index 0 (some 1, some "i") = some 0 ∧ started.2.index 0 (some 1, some "ii") = some 1 ∧
      started.2.orders.length = 2 := by decide +kernel
  have hanswer : ∀ ref < 2, (started.2.oracle.cancel ref).answer.isOk = true ∧
      (started.2.oracle.cancel ref).effect ≠ .unchanged := by decide +kernel
  obtain ⟨g, hg, hgkeys⟩ := Option.map_eq_some_iff.mp hkeys
  have hkey : ∀ key ∈ cancelKeys g g.levels, ∃ ref < 2, started.2.index 0 key = some ref := by
    rw [hgkeys]
    rintro key hmem
    rcases List.mem_pair.mp hmem with rfl | rfl
    · exact ⟨0, by decide, hindex.1⟩
    · exact ⟨1, by decide, hindex.2.1⟩
  refine ⟨fun w' sub hmem => ?_, by decide +kernel, by decide +kernel, g, hg, fun key hmem => ?_, fun r o ho _ _ => ?_⟩
  · by_cases hw : w' = 0
    · subst hw
      rw [hsub, List.mem_singleton] at hmem
      cases hmem
      exact ⟨rfl, by decide +kernel, 0, by decide +kernel, by decide +kernel⟩
    · rw [started_elsewhere w' hw] at hmem
      cases hmem
  · obtain ⟨ref, hlt, href⟩ := hkey key hmem
    cases hans : (started.2.oracle.cancel ref).answer with
    | ok result => exact ⟨ref, result, href, hans⟩
    | error e =>
        have hok := (hanswer ref hlt).1
        rw [hans] at hok
        cases hok
  · have hr : r < 2 := hindex.2.2 ▸ (List.getElem?_eq_some_iff.mp ho).1
    rw [hgkeys]
    obtain rfl | rfl : r = 0 ∨ r = 1 := by omega
    · exact ⟨_, List.mem_cons_self, hindex.1, (hanswer 0 hr).2⟩
    · exact ⟨_, List.mem_cons_of_mem _ List.mem_cons_self, hindex.2.1, (hanswer 1 hr).2⟩

theorem reportsTruly_of_allMeet_stopped :
    AllMeet (step (fun _ _ _ => true)) ReportsTruly ({}, open100)
      (startedBot ++ [.manager (.call (.stop 0 "a" 1))]) := by
  refine reportsTruly_of_allMeet open100 (allMeet_append.mpr ⟨⟨trivial, trivial, trivial, trivial⟩, ?_, trivial⟩)
  exact fun _ => ⟨started_held.1, .inr started_held.2⟩

/-- A bot that was started at worker 0 is stopped at worker 1, which knows nothing
of it: its orders stay, and so does its subscription. -/
theorem stopElsewhere_leaves_orders :
    (Runs.outcome market started (.stop 1 "a" 1)).1.map (fun rows => rows.map TradingInstance.status) =
        .ok [.stopped] ∧
      ¬ AllMeet (step (fun _ _ _ => true)) ReportsTruly ({}, open100)
        (startedBot ++ [.manager (.call (.stop 1 "a" 1))]) := by
  have hreturns : (Runs.outcome market started (.stop 1 "a" 1)).1.map (fun rows => rows.map TradingInstance.status) =
      .ok [.stopped] := by decide +kernel
  refine ⟨hreturns, fun h => ?_⟩
  have htruly : SettlesIfReturns started "a" (.stop 1 "a" 1) := (allMeet_append.mp h).2.1
  cases hrows : (Runs.outcome market started (.stop 1 "a" 1)).1 with
  | error e =>
      rw [hrows] at hreturns
      cases hreturns
  | ok rows =>
      have hflat := (htruly rows hrows).1
      revert hflat
      decide +kernel

end Utos.Process.FlatOrders
