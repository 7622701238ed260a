import Utos.Process.BlindOrders
import Utos.Process.Registry

namespace Utos.Process.Beside

open Coroutine Program Core Core.DomainTypes Core.Exceptions Execution.Service
open StateMachine Manager Wiring Lifecycle Records Recovery Registry Market BlindOrders
open Grid Grid.Planner
open Grid.Engine hiding Op

section

variable {V : Type} {h : Handler V (ExecReq Owner) (ExecAns Owner)} {i j : InstanceId} {P : Option GridState → Prop}

theorem put_other {store : State.Store} {g : GridState} (hij : i ≠ j) (hP : P (store j)) : P (store.put i g j) := by
  simpa [State.Store.put, hij.symm] using hP

theorem assignGrid_other {store : State.Store} {f : GridState → GridState} (hij : i ≠ j) (hP : P (store j)) :
    P (store.assignGrid i f j) := by
  unfold State.Store.assignGrid
  cases store i with
  | none => exact hP
  | some g => exact put_other hij hP

theorem assignLevel_other {store : State.Store} {n : Nat} {f : GridLevel → GridLevel} (hij : i ≠ j)
    (hP : P (store j)) : P (store.assignLevel i n f j) := by
  unfold State.Store.assignLevel
  cases store i with
  | none => exact hP
  | some g => exact put_other hij hP

theorem keeps_transitionGrid_other (hij : i ≠ j) (target : GridStatus) :
    Keeps h (fun s _ => P (s.grids j)) (attemptGrids (fun grids => grids.transitionGrid i target)) := by
  refine keeps_attemptGrids (fun s v g hg hs => ?_)
  obtain ⟨_, _, _, rfl⟩ := State.Store.transitionGrid_ok hg
  exact put_other hij hs

theorem keeps_updateLevel_other (hij : i ≠ j) (n : Nat) (f : GridLevel → GridLevel) :
    Keeps h (fun s _ => P (s.grids j)) (attemptGrids (fun grids => grids.updateLevel i n f)) := by
  refine keeps_attemptGrids (fun s v g hg hs => ?_)
  obtain ⟨-, rfl⟩ := State.Store.updateLevel_ok hg
  exact assignLevel_other hij hs

theorem keeps_transitionLevel_other (hij : i ≠ j) (n : Nat) (target : GridLevelStatus) :
    Keeps h (fun s _ => P (s.grids j)) (attemptGrids (fun grids => grids.transitionLevel i n target)) := by
  refine keeps_attemptGrids (fun s v g hg hs => ?_)
  obtain ⟨_, _, _, rfl⟩ := State.Store.transitionLevel_ok hg
  exact assignLevel_other hij hs

theorem keeps_placeAll_other (hij : i ≠ j) (actions : List GridAction) :
    Keeps h (fun s _ => P (s.grids j)) (placeAll i actions) := by
  refine keeps_forEach (fun action _ => keeps_bind (keeps_read_bind (fun s => ?_)) (fun _ => keeps_ret _))
  cases s.grids i with
  | none => exact keeps_raise _
  | some state =>
      refine keeps_bind (keeps_await (fun _ _ hs => hs)) (fun result => ?_)
      exact keeps_bind (keeps_updateLevel_other hij _ _) (fun _ =>
        keeps_bind (keeps_transitionLevel_other hij _ _) (fun _ => keeps_ret _))

theorem keeps_cancelAll_other (hij : i ≠ j) (actions : List GridAction) :
    Keeps h (fun s _ => P (s.grids j)) (cancelAll i actions) := by
  refine keeps_forEach (fun action _ => keeps_read_bind (fun s => ?_))
  cases s.grids i with
  | none => exact keeps_raise _
  | some state =>
      cases action.orderId with
      | none => exact keeps_ret _
      | some orderId =>
          refine keeps_bind (keeps_await (fun _ _ hs => hs)) (fun _ => ?_)
          exact keeps_bind (keeps_updateLevel_other hij _ _) (fun _ => keeps_transitionLevel_other hij _ _)

theorem keeps_managed_other {α : Type} {p : Grid.Engine.Op α} (hp : Managed i p) (hij : i ≠ j) :
    Keeps h (fun s _ => P (s.grids j)) p := by
  cases hp with
  | initializes args =>
      refine keeps_bind (keeps_lift _) (fun state => keeps_bind (keeps_modify (fun s v hs => put_other hij hs)) (fun _ => ?_))
      exact keeps_transitionGrid_other hij _
  | activate price =>
      refine keeps_read_bind (fun s => ?_)
      cases s.grids i with
      | none => exact keeps_raise _
      | some state =>
          refine keeps_bind (keeps_transitionGrid_other hij _) (fun _ => ?_)
          refine keeps_bind (keeps_modify (fun s v hs => assignGrid_other hij hs)) (fun _ => ?_)
          exact keeps_bind (keeps_placeAll_other hij _) (fun _ => keeps_ret _)
  | configure args => exact keeps_modify (fun s v hs => hs)
  | pause =>
      refine keeps_read_bind (fun s => ?_)
      cases s.grids i with
      | none => exact keeps_raise _
      | some state =>
          refine keeps_bind (keeps_cancelAll_other hij _) (fun _ => ?_)
          exact keeps_bind (keeps_transitionGrid_other hij _) (fun _ => keeps_ret _)

end

variable {W : Type} {h : Handler W Req Ans} {s : System} {ω : W} {w : WorkerId} {i j : InstanceId} {ref : Nat}
variable {row : TradingInstance} {userId : UUID} {K : InstanceId → Prop}

/-- The grid is ACTIVE, and one subscription of the instance is live, that of its registered process. -/
def Wired (w : WorkerId) (i : InstanceId) (s : System) : Prop :=
  GridActive i (s.workers w).grid ∧ ∃ ref sub, (s.workers w).registry i = some ref ∧
    (s.processes ref).subscriptionId = some sub ∧ (s.workers w).subs.filter (fun e => e.2 = i) = [(sub, i)]

/-- A registered process has no other subscription than one of its own instance, and new numbers are new. -/
def Tidy (w : WorkerId) (s : System) : Prop :=
  Numbered s ∧ (∀ e ∈ (s.workers w).subs, e.1 < (s.workers w).nextSub) ∧
    ∀ i ref sub, (s.workers w).registry i = some ref → (s.processes ref).subscriptionId = some sub →
      sub < (s.workers w).nextSub ∧ ∀ e ∈ (s.workers w).subs, e.1 = sub → e.2 = i

/-- All is tidy, and the instances that are watched are wired. -/
def Watched (w : WorkerId) (K : InstanceId → Prop) (s : System) : Prop := Tidy w s ∧ ∀ j, K j → Wired w j s

/-- The same with the process of an instance registered. -/
def Held (w : WorkerId) (K : InstanceId → Prop) (i : InstanceId) (ref : Nat) (s : System) : Prop :=
  Watched w K s ∧ (s.workers w).registry i = some ref

/-- The same with a new process that is to be registered. -/
def AtHand (w : WorkerId) (K : InstanceId → Prop) (i : InstanceId) (ref : Nat) (s : System) : Prop :=
  Watched w K s ∧ Built w i ref s ∧ (s.processes ref).subscriptionId = none

theorem built_unique (hb : Built w i ref s) (hb' : Built w j ref s) : i = j := hb.2.1.symm.trans hb'.2.1

theorem Watched.status (hs : Watched w K s) (ref : Nat) (status : TradingInstanceStatus) :
    Watched w K (s.setProcess ref (fun p => { p with status := status })) := by
  have hsub : ∀ r, ((s.setProcess ref (fun p => { p with status := status })).processes r).subscriptionId =
      (s.processes r).subscriptionId := by
    intro r
    by_cases hr : r = ref
    · subst hr
      simp [System.setProcess]
    · simp [System.setProcess, hr]
  obtain ⟨⟨hnum, hfresh, howned⟩, hwired⟩ := hs
  refine ⟨⟨?_, hfresh, fun i r sub hreg hr => howned i r sub hreg ((hsub r).symm.trans hr)⟩, fun j hj => ?_⟩
  · exact fun w i r hreg => (hnum w i r hreg).setProcess ref (fun _ => ⟨rfl, rfl⟩)
  · obtain ⟨hactive, r, sub, hreg, hr, hsubs⟩ := hwired j hj
    exact ⟨hactive, r, sub, hreg, (hsub r).trans hr, hsubs⟩

theorem Watched.newProcess (hs : Watched w K s) (p : TradingProcess) : Watched w K (s.newProcess p) := by
  obtain ⟨⟨hnum, hfresh, howned⟩, hwired⟩ := hs
  have hold : ∀ i r, (s.workers w).registry i = some r → (s.newProcess p).processes r = s.processes r := by
    intro i r hreg
    have hne : r ≠ s.size := Nat.ne_of_lt (hnum w i r hreg).1
    simp [System.newProcess, hne]
  refine ⟨⟨?_, hfresh, fun i r sub hreg hr => ?_⟩, fun j hj => ?_⟩
  · exact fun w i r hreg => (hnum w i r hreg).newProcess p
  · rw [hold i r hreg] at hr
    exact howned i r sub hreg hr
  · obtain ⟨hactive, r, sub, hreg, hr, hsubs⟩ := hwired j hj
    refine ⟨hactive, r, sub, hreg, ?_, hsubs⟩
    rw [hold j r hreg]
    exact hr

theorem AtHand.register (hs : AtHand w K i ref s) (hi : ¬ K i) : Held w K i ref (s.registered w i (some ref)) := by
  obtain ⟨⟨⟨hnum, hfresh, howned⟩, hwired⟩, hb, hnone⟩ := hs
  have hself : (s.registered w i (some ref)).workers w =
      { s.workers w with registry := Function.update (s.workers w).registry i (some ref) } := by
    simp [System.registered, System.setWorker]
  refine ⟨⟨⟨hnum.registered (fun r hr => hr ▸ hb), ?_, ?_⟩, fun j hj => ?_⟩, ?_⟩
  · rw [hself]
    exact hfresh
  · rw [hself]
    intro j r sub hreg hr
    by_cases hj : j = i
    · subst hj
      simp only [Function.update_self, Option.some.injEq] at hreg
      subst hreg
      rw [show (s.registered w j (some ref)).processes ref = s.processes ref from rfl, hnone] at hr
      cases hr
    · exact howned j r sub (by simpa [hj] using hreg) hr
  · have hne : j ≠ i := fun he => hi (he ▸ hj)
    obtain ⟨hactive, r, sub, hreg, hr, hsubs⟩ := hwired j hj
    rw [Wired, hself]
    exact ⟨hactive, r, sub, by simpa [hne] using hreg, hr, hsubs⟩
  · rw [hself]
    exact Function.update_self _ _ _

theorem Watched.unregister (hs : Watched w K s) (hi : ¬ K i) : Watched w K (s.registered w i none) := by
  obtain ⟨⟨hnum, hfresh, howned⟩, hwired⟩ := hs
  have hself : (s.registered w i none).workers w =
      { s.workers w with registry := Function.update (s.workers w).registry i none } := by
    simp [System.registered, System.setWorker]
  refine ⟨⟨hnum.unregistered, ?_, ?_⟩, fun j hj => ?_⟩
  · rw [hself]
    exact hfresh
  · rw [hself]
    intro j r sub hreg hr
    by_cases hj : j = i
    · subst hj
      simp at hreg
    · exact howned j r sub (by simpa [hj] using hreg) hr
  · have hne : j ≠ i := fun he => hi (he ▸ hj)
    obtain ⟨hactive, r, sub, hreg, hr, hsubs⟩ := hwired j hj
    rw [Wired, hself]
    exact ⟨hactive, r, sub, by simpa [hne] using hreg, hr, hsubs⟩

theorem Held.built (hs : Held w K i ref s) : Built w i ref s := hs.1.1.1 w i ref hs.2

theorem Held.ne (hs : Held w K i ref s) {r : Nat} (hj : j ≠ i) (hreg : (s.workers w).registry j = some r) : r ≠ ref := by
  intro hr
  subst hr
  exact hj (built_unique (hs.1.1.1 w j r hreg) hs.built)

theorem Held.resubscribe (hs : Held w K i ref s) (hi : ¬ K i) {o : Option Nat} {f : Worker → Worker}
    (hreg : (f (s.workers w)).registry = (s.workers w).registry) (hgrid : (f (s.workers w)).grid = (s.workers w).grid)
    (hle : (s.workers w).nextSub ≤ (f (s.workers w)).nextSub)
    (hnew : ∀ e ∈ (f (s.workers w)).subs, e ∈ (s.workers w).subs ∨
      (s.workers w).nextSub ≤ e.1 ∧ e.1 < (f (s.workers w)).nextSub ∧ e.2 = i)
    (hothers : ∀ j, j ≠ i → (f (s.workers w)).subs.filter (fun e => e.2 = j) = (s.workers w).subs.filter (fun e => e.2 = j))
    (hsub : ∀ sub, o = some sub → sub < (f (s.workers w)).nextSub ∧
      ∀ e ∈ (f (s.workers w)).subs, e.1 = sub → e.2 = i) :
    Held w K i ref ((s.setWorker w f).setProcess ref (fun p => { p with subscriptionId := o })) := by
  have hself : ((s.setWorker w f).setProcess ref (fun p => { p with subscriptionId := o })).workers w =
      f (s.workers w) := by simp [System.setProcess, System.setWorker]
  have hother : ∀ r, r ≠ ref → ((s.setWorker w f).setProcess ref
      (fun p => { p with subscriptionId := o })).processes r = s.processes r := by
    intro r hr
    simp [System.setProcess, System.setWorker, hr]
  have hne := fun j r => hs.ne (j := j) (r := r)
  obtain ⟨⟨⟨hnum, hfresh, howned⟩, hwired⟩, hregi⟩ := hs
  refine ⟨⟨⟨?_, ?_, ?_⟩, fun j hj => ?_⟩, ?_⟩
  · intro x i' r hreg'
    refine Built.setProcess (s := s.setWorker w f) (hnum x i' r ?_) ref (fun _ => ⟨rfl, rfl⟩)
    by_cases hx : x = w
    · subst hx
      rw [hself, hreg] at hreg'
      exact hreg'
    · simpa [System.setProcess, System.setWorker, hx] using hreg'
  · rw [hself]
    intro e he
    rcases hnew e he with hold | ⟨-, hlt, -⟩
    · exact Nat.lt_of_lt_of_le (hfresh e hold) hle
    · exact hlt
  · rw [hself]
    intro j r sub hreg' hr
    rw [hreg] at hreg'
    by_cases hj : j = i
    · subst hj
      cases hregi.symm.trans hreg'
      simp only [System.setProcess, Function.update_self] at hr
      exact hsub sub hr
    · rw [hother r (hne j r hj hreg')] at hr
      obtain ⟨hlt, hall⟩ := howned j r sub hreg' hr
      refine ⟨Nat.lt_of_lt_of_le hlt hle, fun e he hesub => ?_⟩
      rcases hnew e he with hold | ⟨hge, -, -⟩
      · exact hall e hold hesub
      · omega
  · have hji : j ≠ i := fun he => hi (he ▸ hj)
    obtain ⟨hactive, r, sub, hreg', hr, hsubs⟩ := hwired j hj
    rw [Wired, hself]
    refine ⟨hgrid ▸ hactive, r, sub, hreg ▸ hreg', ?_, (hothers j hji).trans hsubs⟩
    rw [hother r (hne j r hji hreg')]
    exact hr
  · rw [hself, hreg]
    exact hregi

theorem Held.connect (hs : Held w K i ref s) (hi : ¬ K i) :
    Held w K i ref ((s.setWorker w (fun y => subscribed y i)).setProcess ref
      (fun p => { p with subscriptionId := some (s.workers w).nextSub })) := by
  have hfresh := hs.1.1.2.1
  refine hs.resubscribe hi (f := fun y => subscribed y i) rfl rfl (Nat.le_succ _) (fun e he => ?_) (fun j hj => ?_) ?_
  · rcases List.mem_append.mp he with hold | hnew
    · exact .inl hold
    · rw [List.mem_singleton.mp hnew]
      exact .inr ⟨Nat.le_refl _, Nat.lt_succ_self _, rfl⟩
  · simp [subscribed, List.filter_append, hj.symm]
  · rintro sub hsub
    cases hsub
    refine ⟨Nat.lt_succ_self _, fun e he hesub => ?_⟩
    rcases List.mem_append.mp he with hold | hnew
    · exact absurd (hfresh e hold) (by omega)
    · rw [List.mem_singleton.mp hnew]

theorem Held.clear (hs : Held w K i ref s) (hi : ¬ K i) :
    Held w K i ref (s.setProcess ref (fun p => { p with subscriptionId := none })) := by
  have hsame : s.setWorker w (fun y => y) = s := by simp [System.setWorker]
  have h := hs.resubscribe hi (f := fun y => y) (o := none) rfl rfl (Nat.le_refl _) (fun e he => .inl he)
    (fun j _ => rfl) (fun sub hsub => by cases hsub)
  rwa [hsame] at h

theorem Held.drop (hs : Held w K i ref s) (hi : ¬ K i) {sub : Nat} (hsub : (s.processes ref).subscriptionId = some sub) :
    Held w K i ref (s.setWorker w (fun y => { y with subs := y.subs.filter (fun e => e.1 ≠ sub) })) := by
  have hself : (s.setWorker w (fun y => { y with subs := y.subs.filter (fun e => e.1 ≠ sub) })).workers w =
      { s.workers w with subs := (s.workers w).subs.filter (fun e => e.1 ≠ sub) } := by simp [System.setWorker]
  obtain ⟨⟨⟨hnum, hfresh, howned⟩, hwired⟩, hreg⟩ := hs
  have hmine := (howned i ref sub hreg hsub).2
  refine ⟨⟨⟨hnum.setWorker w (fun _ => rfl), ?_, ?_⟩, fun j hj => ?_⟩, ?_⟩
  · rw [hself]
    exact fun e he => hfresh e (List.mem_of_mem_filter he)
  · rw [hself]
    intro j r sub' hreg' hr
    obtain ⟨hlt, hall⟩ := howned j r sub' hreg' hr
    exact ⟨hlt, fun e he => hall e (List.mem_of_mem_filter he)⟩
  · obtain ⟨hactive, r, sub', hreg', hr, hsubs⟩ := hwired j hj
    rw [Wired, hself]
    refine ⟨hactive, r, sub', hreg', hr, ?_⟩
    rw [← hsubs, List.filter_filter]
    refine List.filter_congr (fun e he => ?_)
    by_cases hej : e.2 = j
    · have hne : e.1 ≠ sub := fun hes => hi (by rw [← hmine e he hes, hej]; exact hj)
      simp [hej, hne]
    · simp [hej]
  · rw [hself]
    exact hreg

theorem keeps_grid_held {α : Type} (hi : ¬ K i) {p : Grid.Engine.Op α} (hp : Managed i p) :
    Keeps h (fun s _ => Held w K i ref s) (onGrid w p) := by
  intro s ω hs
  refine (wp_onGrid p).mpr ?_
  have hgrids : Keeps (gridHandler h w) (fun grid _ => ∀ j, K j → GridActive j grid) p := by
    intro grid ω' hgrid j hj
    exact keeps_managed_other (P := fun g => ∃ state, g = some state ∧ state.status = .active) hp
      (fun he => hi (he ▸ hj)) grid ω' (hgrid j hj)
  refine wp_of_keeps hgrids (fun j hj => (hs.1.2 j hj).1) (fun r grid ω' hactive => ?_)
  obtain ⟨⟨⟨hnum, hfresh, howned⟩, hwired⟩, hreg⟩ := hs
  refine ⟨⟨⟨hnum.setWorker w (fun _ => rfl), ?_, ?_⟩, fun j hj => ?_⟩, ?_⟩
  · rw [withGrid_workers]
    exact hfresh
  · rw [withGrid_workers]
    exact howned
  · obtain ⟨-, r, sub, hreg', hr, hsubs⟩ := hwired j hj
    rw [Wired, withGrid_workers]
    exact ⟨hactive j hj, r, sub, hreg', hr, hsubs⟩
  · rw [withGrid_workers]
    exact hreg

theorem aside_held (hi : ¬ K i) : Aside h w i ref (fun s _ => Held w K i ref s) where
  answer _ _ _ _ hs := hs
  status _ _ status hs := ⟨hs.1.status ref status, hs.2⟩
  connect _ _ hs := hs.connect hi
  drop _ _ _ hsub hs := hs.drop hi hsub
  clear _ _ hs := hs.clear hi
  grid _ hp := keeps_grid_held hi hp

theorem calm_watched : Calm h (fun s _ => Watched w K s) := calm _

theorem calm_held : Calm h (fun s _ => Held w K i ref s) := calm _

theorem wp_build_atHand (hs : Watched w K s) {R : Except Exn Nat → System → W → Prop}
    (herr : ∀ e ω', R (.error e) s ω') (hok : ∀ ref s' ω', AtHand w K row.id ref s' →
      (s'.workers w).subs = (s.workers w).subs → R (.ok ref) s' ω') :
    wp h (buildProcessFromInstance w row) R s ω := by
  refine wp_buildProcess still_true trivial (fun e ω' _ => herr e ω') (fun p ω' _ hp hx hsub => ?_)
  refine hok s.size _ ω' ⟨hs.newProcess p, ?_, ?_⟩ rfl
  · rw [← hp, ← hx]
    exact built_new s p
  · simpa [System.newProcess] using hsub

theorem AtHand.status (hs : AtHand w K i ref s) (status : TradingInstanceStatus) :
    AtHand w K i ref (s.setProcess ref (fun p => { p with status := status })) := by
  refine ⟨hs.1.status ref status, hs.2.1.setProcess ref (fun _ => ⟨rfl, rfl⟩), ?_⟩
  simpa [System.setProcess] using hs.2.2

theorem wp_getOrBuild_held (hs : Watched w K s) (hi : ¬ K row.id) {R : Except Exn Nat → System → W → Prop}
    (herr : ∀ e ω', (s.workers w).registry row.id = none → R (.error e) s ω')
    (hok : ∀ ref s' ω', Held w K row.id ref s' → R (.ok ref) s' ω') : wp h (getOrBuild w row) R s ω := by
  rw [getOrBuild, bind_eq, wp_bind, getProcess, bind_eq, wp_bind, wp_read, andThen_ok, pure_eq, wp_ret, andThen_ok]
  cases hreg : (s.workers w).registry row.id with
  | some ref => exact hok ref s ω ⟨hs, hreg⟩
  | none =>
      rw [bind_eq, wp_bind]
      refine wp_build_atHand hs (fun e ω' => herr e ω' hreg) (fun ref s1 ω1 h1 _ => ?_)
      rw [andThen_ok, bind_eq, wp_bind, register, wp_modify, andThen_ok]
      exact hok ref _ ω1 (h1.register hi)

/-- The part of start before the wiring. -/
def beforeWiring (w : WorkerId) (i : InstanceId) (userId : UUID) : Op (TradingInstance × Nat) := do
  let row ← getInstance i
  validateOwnership row userId
  .lift (validateTransition row.status .running)
  checkDuplicateRunning row
  let acquired ← acquireLock w i
  raiseIf (acquired = false) (locked row "Process is already running or locked by another worker")
  let ref ← buildProcessFromInstance w row
  setProcessStatus ref .running
  register w row.id ref
  return (row, ref)

/-- The part of start from the wiring on. -/
def fromWiring (w : WorkerId) (i : InstanceId) (found : TradingInstance × Nat) : Op TradingInstance := do
  wire w found.1 found.2
  let row ← persistStatus found.1 .running
  setState w i
  return row

theorem start_eq (w : WorkerId) (i : InstanceId) (userId : UUID) :
    start w i userId = beforeWiring w i userId >>= fromWiring w i := by
  simp only [start, beforeWiring, bind_eq, bind_assoc]
  rfl

theorem wp_beforeWiring (hkeyed : Keyed s.rows) (hs : Watched w K s) (hi : ¬ K i) :
    wp h (beforeWiring w i userId) (fun r s' _ => Watched w K s' ∧
      ∀ found, r = .ok found → found.1.id = i ∧ Held w K i found.2 s') s ω := by
  have hfail : ∀ {e : Exn} {s' : System}, Watched w K s' → Watched w K s' ∧
      ∀ found, (Except.error e : Except Exn (TradingInstance × Nat)) = .ok found → found.1.id = i ∧ Held w K i found.2 s' :=
    fun hs' => ⟨hs', fun found he => by cases he⟩
  refine wp_opened still_true trivial (fun _ _ _ => hfail hs) (fun row ω1 _ hrow _ _ => ?_)
  have hid := hkeyed i row hrow
  subst hid
  refine wp_bind_of_keeps (keeps_checkDuplicateRunning calm_watched row) hs (fun _ _ _ h1 => hfail h1) (fun _ s1 ω1 h1 => ?_)
  refine wp_bind_of_keeps (keeps_acquireLock calm_watched (fun _ _ _ hs => hs) w row.id) h1 (fun _ _ _ h2 => hfail h2)
    (fun acquired s2 ω2 h2 => ?_)
  refine wp_bind_of_keeps (J := fun s _ => Watched w K s) (keeps_raiseIf _ _) h2 (fun _ _ _ h3 => hfail h3)
    (fun _ s3 ω3 h3 => ?_)
  rw [bind_eq, wp_bind]
  refine wp_build_atHand h3 (fun e ω' => hfail h3) (fun ref s4 ω4 h4 _ => ?_)
  rw [andThen_ok, bind_eq, wp_bind, setProcessStatus, wp_modify, andThen_ok, bind_eq, wp_bind, register, wp_modify,
    andThen_ok]
  have h5 := (h4.status .running).register hi
  refine ⟨h5.1, fun found he => ?_⟩
  cases he
  exact ⟨rfl, h5⟩

section

variable (hkeyed : Keyed s.rows) (hs : Watched w K s) (hi : ¬ K i)

theorem keeps_persist_held (row : TradingInstance) (status : TradingInstanceStatus) :
    Keeps h (fun s _ => Held w K i ref s) (persistStatus row status) :=
  keeps_persistStatus calm_held (fun _ _ _ hs => hs) row status

include hi

theorem keeps_fromWiring {found : TradingInstance × Nat} (hid : found.1.id = i) :
    Keeps h (fun s _ => Held w K i found.2 s) (fromWiring w i found) := by
  subst hid
  refine keeps_bind (keeps_wire_aside (aside_held hi)) (fun _ => keeps_bind (keeps_persist_held _ _) (fun _ => ?_))
  exact keeps_bind (keeps_setState calm_held w _) (fun _ => keeps_ret _)

theorem keeps_dismantle_watched (hid : row.id = i) : Keeps h (fun s _ => Watched w K s) (dismantle w row) := by
  subst hid
  intro s ω hs
  rw [dismantle, bind_eq, wp_bind, getProcess, bind_eq, wp_bind, wp_read, andThen_ok, pure_eq, wp_ret, andThen_ok]
  cases hreg : (s.workers w).registry row.id with
  | none => exact hs
  | some ref =>
      refine wp_of_keeps (J := fun s _ => Held w K row.id ref s) ?_ ⟨hs, hreg⟩ (fun _ _ _ h1 => h1.1)
      refine keeps_bind (keeps_setProcessStatus_aside (aside_held hi) _) (fun _ => ?_)
      refine keeps_bind (keeps_unwire_aside (aside_held hi)) (fun _ => keeps_read_bind (fun _ => ?_))
      exact keeps_tryCatch (keeps_request calm_held rfl) (fun _ => keeps_ret _)

include hkeyed hs

theorem wp_start_watched : wp h (start w i userId) (fun _ s' _ => Watched w K s') s ω := by
  rw [start_eq, bind_eq, wp_bind]
  refine wp_mono (wp_beforeWiring hkeyed hs hi) ?_
  rintro (e | found) s1 ω1 ⟨h1, hfound⟩
  · exact h1
  · obtain ⟨hid, hheld⟩ := hfound found rfl
    exact wp_of_keeps (keeps_fromWiring hi hid) hheld (fun _ _ _ h2 => h2.1)

theorem wp_pause_watched : wp h (pause w i userId) (fun _ s' _ => Watched w K s') s ω := by
  refine wp_opened still_true trivial (fun _ _ _ => hs) (fun row ω1 _ hrow _ _ => ?_)
  have hid := hkeyed i row hrow
  subst hid
  rw [bind_eq, wp_bind]
  refine wp_getOrBuild_held hs hi (fun _ _ _ => hs) (fun ref s1 ω2 h1 => ?_)
  refine wp_of_keeps (J := fun s _ => Held w K row.id ref s) ?_ h1 (fun _ _ _ h2 => h2.1)
  refine keeps_bind (keeps_unwire_aside (aside_held hi)) (fun _ => ?_)
  refine keeps_bind (keeps_setProcessStatus_aside (aside_held hi) _) (fun _ => keeps_bind (keeps_persist_held _ _) (fun _ => ?_))
  exact keeps_bind (keeps_setState calm_held w _) (fun _ =>
    keeps_bind (keeps_releaseLock calm_held (fun _ _ _ hs => hs) w _) (fun _ => keeps_ret _))

theorem wp_resume_watched : wp h (resume w i userId) (fun _ s' _ => Watched w K s') s ω := by
  refine wp_opened still_true trivial (fun _ _ _ => hs) (fun row ω1 _ hrow _ _ => ?_)
  have hid := hkeyed i row hrow
  subst hid
  refine wp_bind_of_keeps (keeps_releaseLock calm_watched (fun _ _ _ hs => hs) w row.id) hs (fun _ _ _ h1 => h1)
    (fun _ s1 ω2 h1 => ?_)
  refine wp_bind_of_keeps (keeps_acquireLock calm_watched (fun _ _ _ hs => hs) w row.id) h1 (fun _ _ _ h2 => h2)
    (fun acquired s2 ω3 h2 => ?_)
  refine wp_bind_of_keeps (J := fun s _ => Watched w K s) (keeps_raiseIf _ _) h2 (fun _ _ _ h3 => h3) (fun _ s3 ω4 h3 => ?_)
  rw [bind_eq, wp_bind]
  refine wp_getOrBuild_held h3 hi (fun _ _ _ => h3) (fun ref s4 ω5 h4 => ?_)
  refine wp_of_keeps (J := fun s _ => Held w K row.id ref s) ?_ h4 (fun _ _ _ h5 => h5.1)
  refine keeps_bind (keeps_setProcessStatus_aside (aside_held hi) _) (fun _ => keeps_bind (keeps_persist_held _ _) (fun _ => ?_))
  exact keeps_bind (keeps_setState calm_held w _) (fun _ => keeps_ret _)

theorem wp_stop_watched : wp h (stop w i userId) (fun _ s' _ => Watched w K s') s ω := by
  refine wp_opened still_true trivial (fun _ _ _ => hs) (fun row ω1 _ hrow _ _ => ?_)
  have hid := hkeyed i row hrow
  refine wp_of_keeps (J := fun s _ => Watched w K s) ?_ hs (fun _ _ _ h1 => h1)
  refine keeps_bind (keeps_flushStatus calm_watched (fun _ _ _ hs => hs) row _) (fun _ => ?_)
  refine keeps_bind (keeps_dismantle_watched hi hid) (fun _ => ?_)
  refine keeps_bind (keeps_releaseLock calm_watched (fun _ _ _ hs => hs) w i) (fun _ => ?_)
  refine keeps_bind (keeps_modify (fun s _ hs => hs.unregister hi)) (fun _ => ?_)
  exact keeps_bind (keeps_persistStatus calm_watched (fun _ _ _ hs => hs) row _) (fun _ =>
    keeps_bind (keeps_setState calm_watched w i) (fun _ => keeps_ret _))

end

end Utos.Process.Beside
