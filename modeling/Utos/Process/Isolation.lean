import Utos.Process.Agreement

namespace Utos.Process.Isolation

open Coroutine Program Core Core.DomainTypes Core.Exceptions StateMachine Manager Wiring Lifecycle Runs
open Records Moves Recovery Registry Market BlindOrders Beside
open Agreement (target others_of_moved tidy_restart)

variable {W : Type} {h : Handler W Req Ans} {s s' s'' : System} {ω : W} {w : WorkerId} {i j : InstanceId} {ref : Nat}
variable {row : TradingInstance} {userId : UUID}

/-- What the manager keeps for an instance besides its row: the lock, and at each
worker the registered process, the grid and the consumers of its prices. -/
structure View where
  lock : Option WorkerId
  process : WorkerId → Option (Nat × TradingProcess)
  grid : WorkerId → Option GridState
  consumers : WorkerId → List (Nat × InstanceId)

def view (s : System) (j : InstanceId) : View where
  lock := s.locks j
  process x := ((s.workers x).registry j).map (fun ref => (ref, s.processes ref))
  grid x := (s.workers x).grid.grids j
  consumers x := (s.workers x).subs.filter (fun e => e.2 = j)

/-- A step of a worker for an instance, of which the other instances and workers notice nothing. -/
structure Only (w : WorkerId) (i : InstanceId) (s s' : System) : Prop where
  workers : ∀ x, x ≠ w → s'.workers x = s.workers x
  processes : ∀ x j r, (s.workers x).registry j = some r → x ≠ w ∨ j ≠ i → s'.processes r = s.processes r
  locks : ∀ j, j ≠ i → s'.locks j = s.locks j
  registry : ∀ j, j ≠ i → (s'.workers w).registry j = (s.workers w).registry j
  grids : ∀ j, j ≠ i → (s'.workers w).grid.grids j = (s.workers w).grid.grids j
  subs : ∀ j, j ≠ i → (s'.workers w).subs.filter (fun e => e.2 = j) = (s.workers w).subs.filter (fun e => e.2 = j)

theorem Only.trans (h1 : Only w i s s') (h2 : Only w i s' s'') : Only w i s s'' where
  workers x hx := (h2.workers x hx).trans (h1.workers x hx)
  processes x j r hreg hne := by
    have hreg' : (s'.workers x).registry j = some r := by
      by_cases hx : x = w
      · subst hx
        rw [h1.registry j (hne.resolve_left (fun hne => hne rfl)), hreg]
      · rw [h1.workers x hx, hreg]
    exact (h2.processes x j r hreg' hne).trans (h1.processes x j r hreg hne)
  locks j hj := (h2.locks j hj).trans (h1.locks j hj)
  registry j hj := (h2.registry j hj).trans (h1.registry j hj)
  grids j hj := (h2.grids j hj).trans (h1.grids j hj)
  subs j hj := (h2.subs j hj).trans (h1.subs j hj)

theorem Only.view (ho : Only w i s s') (hj : j ≠ i) : view s' j = view s j := by
  have hprocess : ∀ x, ((s'.workers x).registry j).map (fun ref => (ref, s'.processes ref)) =
      ((s.workers x).registry j).map (fun ref => (ref, s.processes ref)) := by
    intro x
    have hreg : (s'.workers x).registry j = (s.workers x).registry j := by
      by_cases hx : x = w
      · rw [hx, ho.registry j hj]
      · rw [ho.workers x hx]
    rw [hreg]
    refine Option.map_congr (fun r hr => ?_)
    rw [ho.processes x j r hr (.inr hj)]
  have hgrid : ∀ x, (s'.workers x).grid.grids j = (s.workers x).grid.grids j := by
    intro x
    by_cases hx : x = w
    · rw [hx, ho.grids j hj]
    · rw [ho.workers x hx]
  have hsubs : ∀ x, (s'.workers x).subs.filter (fun e => e.2 = j) = (s.workers x).subs.filter (fun e => e.2 = j) := by
    intro x
    by_cases hx : x = w
    · rw [hx, ho.subs j hj]
    · rw [ho.workers x hx]
  simp only [Isolation.view, ho.locks j hj, hprocess, hgrid, hsubs]

/-- A worker that the step is not of stays tidy. -/
theorem Only.tidy (ho : Only w i s s') (hnum : Numbered s') {x : WorkerId} (hx : x ≠ w) (hs : Tidy x s) : Tidy x s' := by
  obtain ⟨-, hfresh, howned⟩ := hs
  refine ⟨hnum, ?_, ?_⟩
  · rw [ho.workers x hx]
    exact hfresh
  · rw [ho.workers x hx]
    intro j r sub hreg hr
    rw [ho.processes x j r hreg (.inl hx)] at hr
    exact howned j r sub hreg hr

/-- A process that a worker has built for an instance is nobody else's. -/
theorem ne_of_built (hs : Numbered s) (hb : Built w i ref s) {x : WorkerId} {r : Nat}
    (hreg : (s.workers x).registry j = some r) (hne : x ≠ w ∨ j ≠ i) : r ≠ ref := by
  intro hr
  subst hr
  obtain ⟨-, hj, hx⟩ := hs x j r hreg
  rcases hne with hne | hne
  · exact hne (hx.symm.trans hb.2.2)
  · exact hne (hj.symm.trans hb.2.1)

theorem only_setProcess (hs : Numbered s) (hb : Built w i ref s) (f : TradingProcess → TradingProcess) :
    Only w i s (s.setProcess ref f) where
  workers _ _ := rfl
  processes x j r hreg hne := by simp [System.setProcess, ne_of_built hs hb hreg hne]
  locks _ _ := rfl
  registry _ _ := rfl
  grids _ _ := rfl
  subs _ _ := rfl

theorem only_setWorker {f : Worker → Worker}
    (hregistry : ∀ j, j ≠ i → (f (s.workers w)).registry j = (s.workers w).registry j)
    (hgrids : ∀ j, j ≠ i → (f (s.workers w)).grid.grids j = (s.workers w).grid.grids j)
    (hsubs : ∀ j, j ≠ i →
      (f (s.workers w)).subs.filter (fun e => e.2 = j) = (s.workers w).subs.filter (fun e => e.2 = j)) :
    Only w i s (s.setWorker w f) where
  workers x hx := by simp [System.setWorker, hx]
  processes _ _ _ _ _ := rfl
  locks _ _ := rfl
  registry j hj := by simpa [System.setWorker] using hregistry j hj
  grids j hj := by simpa [System.setWorker] using hgrids j hj
  subs j hj := by simpa [System.setWorker] using hsubs j hj

theorem only_registered (o : Option Nat) : Only w i s (s.registered w i o) :=
  only_setWorker (fun j hj => by simp [hj]) (fun _ _ => rfl) (fun _ _ => rfl)

theorem only_locks (o : Option WorkerId) : Only w i s { s with locks := Function.update s.locks i o } where
  workers _ _ := rfl
  processes _ _ _ _ _ := rfl
  locks j hj := by simp [hj]
  registry _ _ := rfl
  grids _ _ := rfl
  subs _ _ := rfl

theorem only_connect (hs : Numbered s) (hb : Built w i ref s) (o : Option Nat) :
    Only w i s ((s.setWorker w (fun y => subscribed y i)).setProcess ref (fun p => { p with subscriptionId := o })) := by
  have hworker : Only w i s (s.setWorker w (fun y => subscribed y i)) := by
    refine only_setWorker (fun _ _ => rfl) (fun _ _ => rfl) (fun j hj => ?_)
    simp [subscribed, List.filter_append, hj.symm]
  have hnum : Numbered (s.setWorker w (fun y => subscribed y i)) := hs.setWorker w (fun _ => rfl)
  exact hworker.trans (only_setProcess hnum hb _)

/-- The consumer that is dropped is one of the instance. -/
theorem only_drop (hs : Tidy w s) (hreg : (s.workers w).registry i = some ref) {sub : Nat}
    (hsub : (s.processes ref).subscriptionId = some sub) :
    Only w i s (s.setWorker w (fun y => { y with subs := y.subs.filter (fun e => e.1 ≠ sub) })) := by
  refine only_setWorker (fun _ _ => rfl) (fun _ _ => rfl) (fun j hj => ?_)
  rw [List.filter_filter]
  refine List.filter_congr (fun e he => ?_)
  by_cases hej : e.2 = j
  · have hne : e.1 ≠ sub := fun hes => hj (by rw [← (hs.2.2 i ref sub hreg hsub).2 e he hes, hej])
    simp [hej, hne]
  · simp [hej]

theorem wp_grid_only {α : Type} {p : Grid.Engine.Op α} (hp : Managed i p) :
    wp h (onGrid w p) (fun _ s' _ => Only w i s s') s ω := by
  refine (wp_onGrid p).mpr ?_
  have hothers : Keeps (gridHandler h w) (fun grid _ => ∀ j, j ≠ i → grid.grids j = (s.workers w).grid.grids j) p :=
    fun grid ω' hgrid j hj =>
      keeps_managed_other (P := fun g => g = (s.workers w).grid.grids j) hp hj.symm grid ω' (hgrid j hj)
  refine wp_of_keeps hothers (fun _ _ => rfl) (fun r grid ω' hgrid => ?_)
  exact only_setWorker (fun _ _ => rfl) hgrid (fun _ _ => rfl)

section

variable {K : InstanceId → Prop} {V : InstanceId → View}

/-- All workers are tidy, and of the instances that are watched all is as given. -/
def Kept (K : InstanceId → Prop) (V : InstanceId → View) (s : System) : Prop :=
  (∀ x, Tidy x s) ∧ ∀ j, K j → view s j = V j

/-- The same with the process of an instance registered. -/
def KeptWith (K : InstanceId → Prop) (V : InstanceId → View) (w : WorkerId) (i : InstanceId) (ref : Nat)
    (s : System) : Prop := Kept K V s ∧ (s.workers w).registry i = some ref

/-- The same with a new process that is to be registered. -/
def KeptBuilt (K : InstanceId → Prop) (V : InstanceId → View) (w : WorkerId) (i : InstanceId) (ref : Nat)
    (s : System) : Prop := Kept K V s ∧ Built w i ref s ∧ (s.processes ref).subscriptionId = none

theorem calm_kept : Calm h (fun s _ => Kept K V s) := calm _

theorem calm_keptWith : Calm h (fun s _ => KeptWith K V w i ref s) := calm _

theorem Kept.only (hs : Kept K V s) (hi : ¬ K i) (ho : Only w i s s') (hw : Tidy w s') : Kept K V s' := by
  refine ⟨fun x => ?_, fun j hj => ?_⟩
  · by_cases hx : x = w
    · exact hx ▸ hw
    · exact ho.tidy hw.1 hx (hs.1 x)
  · have hji : j ≠ i := fun he => hi (he ▸ hj)
    rw [ho.view hji, hs.2 j hj]

theorem Kept.watched (hs : Kept K V s) (w : WorkerId) : Watched w (fun _ => False) s :=
  ⟨hs.1 w, fun _ hj => hj.elim⟩

theorem KeptWith.held (hs : KeptWith K V w i ref s) : Held w (fun _ => False) i ref s := ⟨hs.1.watched w, hs.2⟩

theorem KeptBuilt.atHand (hs : KeptBuilt K V w i ref s) : AtHand w (fun _ => False) i ref s :=
  ⟨hs.1.watched w, hs.2.1, hs.2.2⟩

theorem KeptWith.only (hs : KeptWith K V w i ref s) (hi : ¬ K i) (ho : Only w i s s')
    (hheld : Held w (fun _ => False) i ref s') : KeptWith K V w i ref s' :=
  ⟨hs.1.only hi ho hheld.1.1, hheld.2⟩

theorem KeptWith.status (hs : KeptWith K V w i ref s) (hi : ¬ K i) (status : TradingInstanceStatus) :
    KeptWith K V w i ref (s.setProcess ref (fun p => { p with status := status })) :=
  hs.only hi (only_setProcess (hs.1.1 w).1 hs.held.built _) ⟨hs.held.1.status ref status, hs.2⟩

theorem aside_kept (hi : ¬ K i) : Aside h w i ref (fun s _ => KeptWith K V w i ref s) where
  answer _ _ _ _ hs := hs
  status _ _ status hs := hs.status hi status
  connect _ _ hs := hs.only hi (only_connect (hs.1.1 w).1 hs.held.built _) (hs.held.connect id)
  drop _ _ _ hsub hs := hs.only hi (only_drop (hs.1.1 w) hs.2 hsub) (hs.held.drop id hsub)
  clear _ _ hs := hs.only hi (only_setProcess (hs.1.1 w).1 hs.held.built _) (hs.held.clear id)
  grid p hp s ω hs := by
    refine wp_mono (wp_and (keeps_grid_held id hp s ω hs.held) (wp_grid_only hp)) ?_
    rintro r s' ω' ⟨hheld, honly⟩
    exact hs.only hi honly hheld

theorem Kept.newProcess (hs : Kept K V s) (p : TradingProcess) : Kept K V (s.newProcess p) := by
  refine ⟨fun x => ((hs.watched x).newProcess p).1, fun j hj => ?_⟩
  rw [← hs.2 j hj]
  have hprocess : ∀ x, ((s.workers x).registry j).map (fun ref => (ref, (s.newProcess p).processes ref)) =
      ((s.workers x).registry j).map (fun ref => (ref, s.processes ref)) := by
    intro x
    refine Option.map_congr (fun r hr => ?_)
    have hne : r ≠ s.size := Nat.ne_of_lt ((hs.1 x).1 x j r hr).1
    simp [System.newProcess, hne]
  exact congrArg (fun process => ({ view s j with process := process } : View)) (funext hprocess)

theorem KeptBuilt.status (hs : KeptBuilt K V w i ref s) (hi : ¬ K i) (status : TradingInstanceStatus) :
    KeptBuilt K V w i ref (s.setProcess ref (fun p => { p with status := status })) := by
  have hhand := hs.atHand.status status
  exact ⟨hs.1.only hi (only_setProcess (hs.1.1 w).1 hs.2.1 _) hhand.1.1, hhand.2⟩

theorem KeptBuilt.register (hs : KeptBuilt K V w i ref s) (hi : ¬ K i) :
    KeptWith K V w i ref (s.registered w i (some ref)) := by
  have hheld := hs.atHand.register id
  exact ⟨hs.1.only hi (only_registered _) hheld.1.1, hheld.2⟩

theorem Kept.unregister (hs : Kept K V s) (hi : ¬ K i) : Kept K V (s.registered w i none) :=
  hs.only hi (only_registered none) ((hs.watched w).unregister id).1

theorem Kept.lock (hs : Kept K V s) (hi : ¬ K i) (o : Option WorkerId) :
    Kept K V { s with locks := Function.update s.locks i o } :=
  hs.only (w := 0) hi (only_locks o) (hs.1 0)

theorem keeps_acquireLock_kept (hi : ¬ K i) : Keeps h (fun s _ => Kept K V s) (acquireLock w i) := by
  refine keeps_bind (keeps_redis calm_kept _ (fun s _ hs => ?_)) (fun _ => keeps_ret _)
  unfold setNx
  split
  · exact hs.lock hi _
  · exact hs

theorem keeps_releaseLock_kept (hi : ¬ K i) : Keeps h (fun s _ => Kept K V s) (releaseLock w i) :=
  keeps_bind (keeps_redis calm_kept _ (fun _ _ hs => hs.lock hi _)) (fun _ => keeps_ret _)

theorem keeps_releaseLock_keptWith (hi : ¬ K i) :
    Keeps h (fun s _ => KeptWith K V w i ref s) (releaseLock w i) :=
  keeps_bind (keeps_redis calm_keptWith _ (fun _ _ hs => ⟨hs.1.lock hi _, hs.2⟩)) (fun _ => keeps_ret _)

theorem wp_build_kept (hs : Kept K V s) {R : Except Exn Nat → System → W → Prop}
    (herr : ∀ e ω', R (.error e) s ω') (hok : ∀ ref s' ω', KeptBuilt K V w row.id ref s' → R (.ok ref) s' ω') :
    wp h (buildProcessFromInstance w row) R s ω := by
  refine wp_buildProcess still_true trivial (fun e ω' _ => herr e ω') (fun p ω' _ hp hx hsub => ?_)
  refine hok s.size _ ω' ⟨hs.newProcess p, ?_, ?_⟩
  · rw [← hp, ← hx]
    exact built_new s p
  · simpa [System.newProcess] using hsub

theorem wp_getOrBuild_kept (hs : Kept K V s) (hi : ¬ K row.id) {R : Except Exn Nat → System → W → Prop}
    (herr : ∀ e ω', R (.error e) s ω') (hok : ∀ ref s' ω', KeptWith K V w row.id ref s' → R (.ok ref) s' ω') :
    wp h (getOrBuild w row) R s ω := by
  rw [getOrBuild, bind_eq, wp_bind, getProcess, bind_eq, wp_bind, wp_read, andThen_ok, pure_eq, wp_ret, andThen_ok]
  cases hreg : (s.workers w).registry row.id with
  | some ref => exact hok ref s ω ⟨hs, hreg⟩
  | none =>
      rw [bind_eq, wp_bind]
      refine wp_build_kept hs (fun e ω' => herr e ω') (fun ref s1 ω1 h1 => ?_)
      rw [andThen_ok, bind_eq, wp_bind, register, wp_modify, andThen_ok]
      exact hok ref _ ω1 (h1.register hi)

theorem keeps_persist_keptWith (row : TradingInstance) (status : TradingInstanceStatus) :
    Keeps h (fun s _ => KeptWith K V w i ref s) (persistStatus row status) :=
  keeps_persistStatus calm_keptWith (fun _ _ _ hs => hs) row status

section

variable (hkeyed : Keyed s.rows) (hs : Kept K V s) (hi : ¬ K i)

include hkeyed hs hi

theorem wp_start_kept : wp h (start w i userId) (fun _ s' _ => Kept K V s') s ω := by
  refine wp_opened still_true trivial (fun _ _ _ => hs) (fun row ω1 _ hrow _ _ => ?_)
  have hid := hkeyed i row hrow
  subst hid
  refine wp_bind_of_keeps (keeps_checkDuplicateRunning calm_kept row) hs (fun _ _ _ h1 => h1) (fun _ s1 ω1 h1 => ?_)
  refine wp_bind_of_keeps (keeps_acquireLock_kept hi) h1 (fun _ _ _ h2 => h2) (fun acquired s2 ω2 h2 => ?_)
  refine wp_bind_of_keeps (J := fun s _ => Kept K V s) (keeps_raiseIf _ _) h2 (fun _ _ _ h3 => h3) (fun _ s3 ω3 h3 => ?_)
  rw [bind_eq, wp_bind]
  refine wp_build_kept h3 (fun e ω' => h3) (fun ref s4 ω4 h4 => ?_)
  rw [andThen_ok, bind_eq, wp_bind, setProcessStatus, wp_modify, andThen_ok, bind_eq, wp_bind, register, wp_modify,
    andThen_ok]
  refine wp_of_keeps (J := fun s _ => KeptWith K V w row.id ref s) ?_ ((h4.status hi .running).register hi)
    (fun _ _ _ h5 => h5.1)
  refine keeps_bind (keeps_wire_aside (aside_kept hi)) (fun _ => keeps_bind (keeps_persist_keptWith _ _) (fun _ => ?_))
  exact keeps_bind (keeps_setState calm_keptWith w _) (fun _ => keeps_ret _)

theorem wp_pause_kept : wp h (pause w i userId) (fun _ s' _ => Kept K V s') s ω := by
  refine wp_opened still_true trivial (fun _ _ _ => hs) (fun row ω1 _ hrow _ _ => ?_)
  have hid := hkeyed i row hrow
  subst hid
  rw [bind_eq, wp_bind]
  refine wp_getOrBuild_kept hs hi (fun _ _ => hs) (fun ref s1 ω2 h1 => ?_)
  refine wp_of_keeps (J := fun s _ => KeptWith K V w row.id ref s) ?_ h1 (fun _ _ _ h2 => h2.1)
  refine keeps_bind (keeps_unwire_aside (aside_kept hi)) (fun _ => ?_)
  refine keeps_bind (keeps_setProcessStatus_aside (aside_kept hi) _) (fun _ => ?_)
  refine keeps_bind (keeps_persist_keptWith _ _) (fun _ => ?_)
  exact keeps_bind (keeps_setState calm_keptWith w _) (fun _ =>
    keeps_bind (keeps_releaseLock_keptWith hi) (fun _ => keeps_ret _))

theorem wp_resume_kept : wp h (resume w i userId) (fun _ s' _ => Kept K V s') s ω := by
  refine wp_opened still_true trivial (fun _ _ _ => hs) (fun row ω1 _ hrow _ _ => ?_)
  have hid := hkeyed i row hrow
  subst hid
  refine wp_bind_of_keeps (keeps_releaseLock_kept hi) hs (fun _ _ _ h1 => h1) (fun _ s1 ω2 h1 => ?_)
  refine wp_bind_of_keeps (keeps_acquireLock_kept hi) h1 (fun _ _ _ h2 => h2) (fun acquired s2 ω3 h2 => ?_)
  refine wp_bind_of_keeps (J := fun s _ => Kept K V s) (keeps_raiseIf _ _) h2 (fun _ _ _ h3 => h3) (fun _ s3 ω4 h3 => ?_)
  rw [bind_eq, wp_bind]
  refine wp_getOrBuild_kept h3 hi (fun _ _ => h3) (fun ref s4 ω5 h4 => ?_)
  refine wp_of_keeps (J := fun s _ => KeptWith K V w row.id ref s) ?_ h4 (fun _ _ _ h5 => h5.1)
  refine keeps_bind (keeps_setProcessStatus_aside (aside_kept hi) _) (fun _ => ?_)
  refine keeps_bind (keeps_persist_keptWith _ _) (fun _ => ?_)
  exact keeps_bind (keeps_setState calm_keptWith w _) (fun _ => keeps_ret _)

theorem wp_stop_kept : wp h (stop w i userId) (fun _ s' _ => Kept K V s') s ω := by
  refine wp_opened still_true trivial (fun _ _ _ => hs) (fun row ω1 _ hrow _ _ => ?_)
  have hid := hkeyed i row hrow
  subst hid
  have hdismantle : Keeps h (fun s _ => Kept K V s) (dismantle w row) := by
    intro s ω hs
    rw [dismantle, bind_eq, wp_bind, getProcess, bind_eq, wp_bind, wp_read, andThen_ok, pure_eq, wp_ret, andThen_ok]
    cases hreg : (s.workers w).registry row.id with
    | none => exact hs
    | some ref =>
        refine wp_of_keeps (J := fun s _ => KeptWith K V w row.id ref s) ?_ ⟨hs, hreg⟩ (fun _ _ _ h1 => h1.1)
        refine keeps_bind (keeps_setProcessStatus_aside (aside_kept hi) _) (fun _ => ?_)
        refine keeps_bind (keeps_unwire_aside (aside_kept hi)) (fun _ => keeps_read_bind (fun _ => ?_))
        exact keeps_tryCatch (keeps_request calm_keptWith rfl) (fun _ => keeps_ret _)
  refine wp_of_keeps (J := fun s _ => Kept K V s) ?_ hs (fun _ _ _ h1 => h1)
  refine keeps_bind (keeps_flushStatus calm_kept (fun _ _ _ hs => hs) row _) (fun _ => ?_)
  refine keeps_bind hdismantle (fun _ => keeps_bind (keeps_releaseLock_kept hi) (fun _ => ?_))
  refine keeps_bind (keeps_modify (fun s _ hs => hs.unregister hi)) (fun _ => ?_)
  exact keeps_bind (keeps_persistStatus calm_kept (fun _ _ _ hs => hs) row _) (fun _ =>
    keeps_bind (keeps_setState calm_kept w _) (fun _ => keeps_ret _))

end

/-- A call keeps what is not of the instance it is about. -/
theorem wp_perform_kept {c : Call} (hkeyed : Keyed s.rows) (hs : Kept K V s) (htarget : target c = some i) (hi : ¬ K i) :
    wp h (perform c) (fun _ s' _ => Kept K V s') s ω := by
  have hrows : ∀ (s : System) (ω : W) rows, Kept K V s → Kept K V { s with rows := rows } := fun _ _ _ hs => hs
  have hone : ∀ {p : Op TradingInstance}, wp h p (fun _ s' _ => Kept K V s') s ω →
      wp h (inSession (one p)) (fun _ s' _ => Kept K V s') s ω := by
    intro p hp
    refine wp_session ?_
    rw [one, bind_eq, wp_bind]
    refine wp_mono hp ?_
    rintro (e | a) s' ω' h'
    · exact ⟨fun _ _ => h', fun a ha => by cases ha⟩
    · exact ⟨fun e he => (by cases he), fun _ _ => ⟨fun _ => h', h'⟩⟩
  cases c with
  | createProcess i' args => exact hone (keeps_createProcess calm_kept hrows i' args s ω hs)
  | prepare i' u => exact hone (keeps_prepare calm_kept hrows i' u s ω hs)
  | start w i' u =>
      cases htarget
      exact hone (wp_start_kept hkeyed hs hi)
  | pause w i' u =>
      cases htarget
      exact hone (wp_pause_kept hkeyed hs hi)
  | resume w i' u =>
      cases htarget
      exact hone (wp_resume_kept hkeyed hs hi)
  | stop w i' u =>
      cases htarget
      exact hone (wp_stop_kept hkeyed hs hi)
  | recover w => cases htarget

theorem wp_restore_kept (hs : KeptBuilt K V w row.id ref s) (hi : ¬ K row.id) :
    wp h (restore w row ref) (fun _ s' _ => Kept K V s') s ω := by
  have hcalm : Calm h (fun s _ => KeptBuilt K V w row.id ref s) := calm _
  have hstatus : ∀ status, Keeps h (fun s _ => KeptBuilt K V w row.id ref s) (setProcessStatus ref status) :=
    fun status => keeps_modify (fun s _ hs => hs.status hi status)
  have hpersist : ∀ status, Keeps h (fun s _ => KeptBuilt K V w row.id ref s) (persistStatus row status) :=
    fun status => keeps_persistStatus hcalm (fun _ _ _ hs => hs) row status
  refine wp_bind_of_keeps (hstatus _) hs (fun _ _ _ h1 => h1.1) (fun _ s1 ω1 h1 => ?_)
  refine wp_bind_of_keeps (hpersist _) h1 (fun _ _ _ h2 => h2.1) (fun _ s2 ω2 h2 => ?_)
  refine wp_bind_of_keeps (hstatus _) h2 (fun _ _ _ h3 => h3.1) (fun _ s3 ω3 h3 => ?_)
  refine wp_bind_of_keeps (hpersist _) h3 (fun _ _ _ h4 => h4.1) (fun _ s4 ω4 h4 => ?_)
  refine wp_bind_of_keeps (keeps_setState hcalm w row.id) h4 (fun _ _ _ h5 => h5.1) (fun _ s5 ω5 h5 => ?_)
  rw [bind_eq, wp_bind, register, wp_modify, andThen_ok]
  exact (h5.register hi).1

end

/-- The rows stand under their own ids, and the workers are tidy. -/
structure Sound (s : System) : Prop where
  keyed : Keyed s.rows
  tidy : ∀ x, Tidy x s

theorem keeps_tidy_recoverInstance (row : TradingInstance) :
    Keeps h (fun s _ => ∀ x, Tidy x s) (recoverInstance w row) := by
  have hJ : Calm h (fun s _ => ∀ x, Tidy x s) := calm _
  refine keeps_bind (keeps_lift _) (fun _ => ?_)
  intro s ω hs
  have hchecks : wp h (recoveryChecks w row) (fun r s' _ => (∀ x, Tidy x s') ∧
      ∀ ref, r = .ok (some ref) → KeptBuilt (fun _ => False) (view s) w row.id ref s') s ω := by
    refine wp_recoveryChecks (J := fun s _ => ∀ x, Tidy x s) hJ (fun _ _ _ hs => hs) (fun ref => calm _)
      (fun _ _ _ h1 => h1.1.1) (fun s1 ω1 h1 => ?_) hs
    -- no instance is watched, so that only the tidiness is left of what is kept
    have hs1 : Kept (fun _ => False) (view s) s1 := ⟨h1, fun _ hj => hj.elim⟩
    refine wp_build_kept hs1 (fun e ω' => ⟨h1, fun _ he => by cases he⟩) (fun ref s2 ω2 h2 => ⟨h2.1.1, fun ref' he => ?_⟩)
    cases he
    exact h2
  rw [bind_eq, wp_bind]
  refine wp_mono hchecks ?_
  rintro (e | fit) s1 ω1 ⟨h1, hfit⟩
  · exact h1
  rw [andThen_ok]
  cases fit with
  | none => exact keeps_persistStatus hJ (fun _ _ _ hs => hs) row .error s1 ω1 h1
  | some ref => exact wp_mono (wp_restore_kept (hfit ref rfl) id) (fun _ _ _ h2 => h2.1)

theorem tidy_step {x : System × W} (hs : Sound x.1) (e : Event W) : ∀ y, Tidy y (Runs.step h x e).1 := by
  cases e with
  | call c =>
      cases htarget : target c with
      | some i =>
          have hkept : Kept (fun _ => False) (view x.1) x.1 := ⟨hs.tidy, fun _ hj => hj.elim⟩
          exact (wp_perform_kept (h := h) (ω := x.2) hs.keyed hkept htarget id).1
      | none =>
          obtain ⟨w, rfl⟩ : ∃ w, c = .recover w := by
            cases c with
            | recover w => exact ⟨w, rfl⟩
            | _ => cases htarget
          exact keeps_inSession (calm _) (fun _ _ _ hs => hs)
            (keeps_recover (calm _) (fun _ _ _ hs => hs) (fun row => keeps_tidy_recoverInstance row)) x.1 x.2 hs.tidy
  | restart w gridUp hubUp =>
      intro y
      have hw := tidy_restart gridUp hubUp (hs.tidy w)
      by_cases hy : y = w
      · exact hy ▸ hw
      · have hworker : (Runs.step h x (.restart w gridUp hubUp)).1.workers y = x.1.workers y := by
          simp [Runs.step, System.setWorker, hy]
        refine ⟨hw.1, ?_, ?_⟩
        · rw [hworker]
          exact (hs.tidy y).2.1
        · rw [hworker]
          exact (hs.tidy y).2.2
  | expire i => exact hs.tidy
  | world ω => exact hs.tidy

theorem Sound.step {x : System × W} (hs : Sound x.1) (e : Event W) : Sound (Runs.step h x e).1 :=
  ⟨keyed_step hs.keyed e, tidy_step hs e⟩

theorem sound_run (events : List (Event W)) (ω : W) : Sound (runEvents h ({}, ω) events).1 := by
  refine foldl_keeps (I := fun x : System × W => Sound x.1) (fun x e hx => hx.step e) events ⟨fun i row hrow => ?_, ?_⟩
  · simp at hrow
  · refine fun x => ⟨fun w' i ref hreg => ?_, fun e he => ?_, fun i ref sub hreg => ?_⟩
    · cases hreg
    · cases he
    · cases hreg

/-- The user in whose name a call is made. -/
def caller : Call → Option UUID
  | .createProcess _ args => some args.userId
  | .prepare _ userId | .start _ _ userId | .pause _ _ userId | .resume _ _ userId | .stop _ _ userId => some userId
  | .recover _ => none

/-- A call of another user, or a change of the outside world. -/
def Foreign (userId : UUID) : Event W → Prop
  | .call c => ∃ other, caller c = some other ∧ other ≠ userId
  | .world _ => True
  | .restart .. | .expire _ => False

/-- The row of an instance if it is one of the user. -/
def bot (userId : UUID) (s : System) (j : InstanceId) : Option TradingInstance :=
  (s.rows.get j).filter (fun row => row.userId = userId)

theorem bot_some : bot userId s j = some row ↔ s.rows.get j = some row ∧ row.userId = userId := by
  simp [bot, Option.filter_eq_some_iff]

theorem bot_none (hrow : s.rows.get j = some row) (hnot : row.userId ≠ userId) : bot userId s j = none := by
  simp [bot, hrow, hnot]

theorem wp_foreign_opened {userId' : UUID} {target : TradingInstanceStatus} {f : TradingInstance → Op TradingInstance}
    (hrow : s.rows.get i = some row) (hne : userId' ≠ row.userId) :
    wp h (do
      let row ← getInstance i
      validateOwnership row userId'
      lift (validateTransition row.status target)
      f row) (fun r s' _ => (∃ e, r = .error e) ∧ s' = s) s ω := by
  refine wp_opened still_true trivial (fun e _ _ => ⟨⟨e, rfl⟩, rfl⟩) (fun row' ω1 _ hrow' howner _ => ?_)
  cases hrow.symm.trans hrow'
  exact absurd howner.symm hne

/-- An id is given to one row only. -/
theorem wp_createProcess_again {args : CreateArgs} (hrow : s.rows.get i = some row) :
    wp h (createProcess i args) (fun r s' _ => (∃ e, r = .error e) ∧ s' = s) s ω := by
  have hJ : Calm h (fun s' (_ : W) => s' = s) := calm _
  refine wp_bind_of_keeps (keeps_checkRecords hJ args) rfl (fun e _ _ h1 => ⟨⟨e, rfl⟩, h1⟩) (fun _ s1 ω1 h1 => ?_)
  refine wp_bind_of_keeps (keeps_request hJ rfl) h1 (fun e _ _ h2 => ⟨⟨e, rfl⟩, h2⟩) (fun _ s2 ω2 h2 => ?_)
  rw [bind_eq, wp_bind, wp_read, andThen_ok]
  refine wp_bind_of_keeps (J := fun s' (_ : W) => s' = s) (keeps_raiseIf _ _) h2 (fun e _ _ h3 => ⟨⟨e, rfl⟩, h3⟩)
    (fun _ s3 ω3 h3 => ?_)
  refine wp_bind_of_keeps (keeps_request hJ rfl) h3 (fun e _ _ h4 => ⟨⟨e, rfl⟩, h4⟩) (fun _ s4 ω4 h4 => ?_)
  subst h4
  rw [wp_attempt, hrow]
  exact ⟨⟨_, rfl⟩, rfl⟩

/-- A call of another user for an instance is refused, and changes nothing. -/
theorem refused {c : Call} {userId' : UUID} (htarget : target c = some i) (hcaller : caller c = some userId')
    (hrow : s.rows.get i = some row) (hne : userId' ≠ row.userId) :
    (∃ e, (outcome h (s, ω) c).1 = .error e) ∧ (outcome h (s, ω) c).2.1 = s := by
  have hone : ∀ {p : Op TradingInstance}, wp h p (fun r s' _ => (∃ e, r = .error e) ∧ s' = s) s ω →
      wp h (inSession (one p)) (fun r s' _ => (∃ e, r = .error e) ∧ s' = s) s ω := by
    intro p hp
    refine wp_session ?_
    rw [one, bind_eq, wp_bind]
    refine wp_mono hp ?_
    rintro r s' ω' ⟨⟨e, rfl⟩, rfl⟩
    exact ⟨fun e' _ => ⟨⟨e', rfl⟩, rfl⟩, fun a ha => by cases ha⟩
  cases c with
  | recover w => cases htarget
  | createProcess i' args =>
      cases htarget
      exact hone (wp_createProcess_again hrow)
  | _ =>
      cases htarget
      cases hcaller
      exact hone (wp_foreign_opened hrow hne)

/-- What a call of another user does to the rows leaves the user's own as they are. -/
theorem bot_of_moved {rows' : Rows} {c : Call} {other : UUID} (hm : Moved s rows' c) (htarget : target c = some i)
    (hcaller : caller c = some other) (hne : other ≠ userId) (hi : bot userId s i = none) (j : InstanceId) :
    (rows'.get j).filter (fun row => row.userId = userId) = bot userId s j := by
  by_cases hj : j = i
  · subst hj
    have hwritten : ∀ {row row' : TradingInstance}, s.rows.get j = some row → Sets s.rows j row' rows' →
        row'.userId = row.userId → (rows'.get j).filter (fun row => row.userId = userId) = none := by
      intro row row' hrow hsets huser
      rw [hsets.get_self, Option.filter_eq_none_iff]
      rintro _ ⟨⟩ hmine
      refine absurd (bot_some.mpr ⟨hrow, huser.symm.trans (of_decide_eq_true hmine)⟩) ?_
      rw [hi]
      simp
    rw [hi]
    cases hm with
    | created hnew hactive hsets =>
        cases htarget
        cases hcaller
        rw [hsets.get_self]
        simpa [newInstance] using hne
    | prepared hrow hedge hsets => cases htarget; exact hwritten hrow hsets rfl
    | started hrow howner hedge hdup hsets => cases htarget; exact hwritten hrow hsets rfl
    | paused hrow hedge hsets => cases htarget; exact hwritten hrow hsets rfl
    | resumed hrow howner hedge hsets => cases htarget; exact hwritten hrow hsets rfl
    | stopped hrow hedge hsets => cases htarget; exact hwritten hrow hsets rfl
  · have hother : rows'.get j = s.rows.get j := by
      refine others_of_moved hm ?_
      rw [htarget]
      exact fun he => hj (Option.some_inj.mp he).symm
    rw [hother, bot]

/-- The bots of the user are as they were in another state, their rows and all that is kept for them. -/
def SameBots (userId : UUID) (s s' : System) : Prop :=
  (∀ j, bot userId s' j = bot userId s j) ∧ ∀ j, bot userId s j ≠ none → view s' j = view s j

theorem sameBots_refl (userId : UUID) (s : System) : SameBots userId s s := ⟨fun _ => rfl, fun _ _ => rfl⟩

theorem SameBots.trans (h1 : SameBots userId s s') (h2 : SameBots userId s' s'') : SameBots userId s s'' := by
  refine ⟨fun j => (h2.1 j).trans (h1.1 j), fun j hj => ?_⟩
  have hj' : bot userId s' j ≠ none := by rwa [h1.1 j]
  exact (h2.2 j hj').trans (h1.2 j hj)

theorem sameBots_step {x : System × W} (hs : Sound x.1) {e : Event W} (he : Foreign userId e) :
    SameBots userId x.1 (Runs.step h x e).1 := by
  cases e with
  | restart w gridUp hubUp => exact he.elim
  | expire i => exact he.elim
  | world ω => exact sameBots_refl userId x.1
  | call c =>
      obtain ⟨other, hcaller, hne⟩ := he
      obtain ⟨i, htarget⟩ : ∃ i, target c = some i := by
        cases c with
        | recover w => cases hcaller
        | _ => exact ⟨_, rfl⟩
      have hrecover : ∀ w, c ≠ .recover w := by
        rintro w rfl
        cases hcaller
      cases hi : bot userId x.1 i with
      | some row =>
          obtain ⟨hrow, howner⟩ := bot_some.mp hi
          subst howner
          have hsame := (refused (h := h) (ω := x.2) htarget hcaller hrow hne).2
          rw [Runs.step, hsame]
          exact sameBots_refl _ _
      | none =>
          refine ⟨fun j => ?_, ?_⟩
          · rcases perform_moves (ω := x.2) (h := h) hs.keyed hrecover with hsame | hm
            · exact congrArg (fun rows : Rows => (rows.get j).filter (fun row => row.userId = userId)) hsame
            · exact bot_of_moved hm htarget hcaller hne hi j
          · have hkept : Kept (fun j => bot userId x.1 j ≠ none) (view x.1) x.1 := ⟨hs.tidy, fun _ _ => rfl⟩
            exact (wp_perform_kept (h := h) (ω := x.2) hs.keyed hkept htarget (fun hmine => hmine hi)).2

theorem sameBots_foldl {x : System × W} (hs : Sound x.1) {later : List (Event W)}
    (hlater : ∀ e ∈ later, Foreign userId e) : SameBots userId x.1 (later.foldl (Runs.step h) x).1 := by
  induction later generalizing x with
  | nil => exact sameBots_refl _ _
  | cons e later ih =>
      have hfirst := sameBots_step (h := h) hs (hlater e List.mem_cons_self)
      exact hfirst.trans (ih (hs.step e) (fun e' he' => hlater e' (List.mem_cons_of_mem e he')))

def after (h : Handler W Req Ans) (ω : W) (events : List (Event W)) : System := (runEvents h ({}, ω) events).1

/-- Whatever has gone before, calls of other users leave the bots of a user as they
are, and a call of another user that names one of them is refused. -/
theorem isolated_run (ω : W) (events later : List (Event W)) (hlater : ∀ e ∈ later, Foreign userId e) :
    SameBots userId (after h ω events) (after h ω (events ++ later)) ∧
      ∀ c ω' i other, target c = some i → bot userId (after h ω (events ++ later)) i ≠ none →
        caller c = some other → other ≠ userId →
        (∃ e, (outcome h (after h ω (events ++ later), ω') c).1 = .error e) ∧
          (outcome h (after h ω (events ++ later), ω') c).2.1 = after h ω (events ++ later) := by
  constructor
  · have hrun : after h ω (events ++ later) = (later.foldl (Runs.step h) (runEvents h ({}, ω) events)).1 :=
      congrArg Prod.fst List.foldl_append
    rw [hrun]
    exact sameBots_foldl (sound_run events ω) hlater
  · intro c ω' i other htarget hmine hcaller hne
    obtain ⟨row, hrow⟩ := Option.ne_none_iff_exists'.mp hmine
    obtain ⟨hget, howner⟩ := bot_some.mp hrow
    exact refused htarget hcaller hget (howner.symm ▸ hne)

/-- Another user starts, stops and creates. -/
def strangers : List (Event Market) :=
  [.call (.start 0 "a" 2), .call (.stop 1 "a" 2), .call (.createProcess "b" { Runs.botArgs 1 with userId := 2 })]

def owned : List (Event Market) := [.call (.createProcess "a" (Runs.botArgs 1)), .call (.prepare "a" 1), .call (.start 0 "a" 1)]

theorem isolated_run_strangers :
    bot 1 (after market Agreement.priced (owned ++ strangers)) "a" = bot 1 (after market Agreement.priced owned) "a" := by
  have hforeign : ∀ e ∈ strangers, Foreign 1 e := by
    intro e he
    rcases List.mem_cons.mp he with rfl | he
    · exact ⟨2, rfl, by decide⟩
    rcases List.mem_cons.mp he with rfl | he
    · exact ⟨2, rfl, by decide⟩
    rw [List.mem_singleton.mp he]
    exact ⟨2, rfl, by decide⟩
  exact (isolated_run Agreement.priced owned strangers hforeign).1.1 "a"

end Utos.Process.Isolation
