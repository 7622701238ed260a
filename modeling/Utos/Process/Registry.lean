import Utos.Process.Recovery

namespace Utos.Process.Registry

open Coroutine Program Core Core.DomainTypes Core.Exceptions StateMachine Manager Wiring Lifecycle Runs Records Recovery

variable {W : Type} {h : Handler W Req Ans} {s : System} {ω : W} {w : WorkerId} {i : InstanceId} {ref : Nat}
variable {row : TradingInstance} {userId : UUID}

/-- The object exists, and is a process of the instance that the worker built. -/
def Built (w : WorkerId) (i : InstanceId) (ref : Nat) (s : System) : Prop :=
  ref < s.size ∧ (s.processes ref).instanceId = i ∧ (s.processes ref).workerId = w

/-- Every registered process has been built by its worker for its instance. -/
def Numbered (s : System) : Prop := ∀ w i ref, (s.workers w).registry i = some ref → Built w i ref s

theorem Built.newProcess (hb : Built w i ref s) (p : TradingProcess) : Built w i ref (s.newProcess p) := by
  obtain ⟨hlt, hi, hw⟩ := hb
  have hne : ref ≠ s.size := Nat.ne_of_lt hlt
  refine ⟨Nat.lt_succ_of_lt hlt, ?_, ?_⟩
  · simpa [System.newProcess, hne] using hi
  · simpa [System.newProcess, hne] using hw

theorem Built.setProcess (hb : Built w i ref s) (ref' : Nat) {f : TradingProcess → TradingProcess}
    (hf : ∀ p : TradingProcess, (f p).instanceId = p.instanceId ∧ (f p).workerId = p.workerId) :
    Built w i ref (s.setProcess ref' f) := by
  obtain ⟨hlt, hi, hw⟩ := hb
  by_cases hr : ref = ref'
  · subst hr
    refine ⟨hlt, ?_, ?_⟩
    · simpa [System.setProcess, (hf _).1] using hi
    · simpa [System.setProcess, (hf _).2] using hw
  · refine ⟨hlt, ?_, ?_⟩
    · simpa [System.setProcess, hr] using hi
    · simpa [System.setProcess, hr] using hw

theorem built_new (s : System) (p : TradingProcess) :
    Built p.workerId p.instanceId s.size (s.newProcess p) :=
  ⟨Nat.lt_succ_self _, by simp [System.newProcess], by simp [System.newProcess]⟩

theorem Numbered.setWorker (hs : Numbered s) (x : WorkerId) {f : Worker → Worker}
    (hf : ∀ y : Worker, (f y).registry = y.registry) : Numbered (s.setWorker x f) := by
  intro w i ref hreg
  refine (hs w i ref ?_ : Built w i ref s)
  by_cases hw : w = x
  · subst hw
    simpa [System.setWorker, hf] using hreg
  · simpa [System.setWorker, hw] using hreg

theorem unlocked_numbered : Unlocked h (fun s _ => Numbered s) where
  toQuiet := quiet_of (fun _ p hs w i ref hreg => (hs w i ref hreg).newProcess p)
    (fun _ ref' _ hf hs w i ref hreg => (hs w i ref hreg).setProcess ref' hf) (fun _ x _ hf hs => hs.setWorker x hf)
  lock _ _ _ hs := hs

/-- The registered processes are numbered, and the object at hand has been built for the instance. -/
abbrev Holding (w : WorkerId) (i : InstanceId) (ref : Nat) : System → W → Prop :=
  fun s _ => Numbered s ∧ Built w i ref s

theorem unlocked_holding : Unlocked h (Holding w i ref) where
  toQuiet := quiet_of (P := fun s => Numbered s ∧ Built w i ref s)
    (fun _ p hs => ⟨fun w i ref hreg => (hs.1 w i ref hreg).newProcess p, hs.2.newProcess p⟩)
    (fun _ ref' _ hf hs => ⟨fun w i ref hreg => (hs.1 w i ref hreg).setProcess ref' hf, hs.2.setProcess ref' hf⟩)
    (fun _ x _ hf hs => ⟨hs.1.setWorker x hf, hs.2⟩)
  lock _ _ _ hs := hs

theorem Numbered.registered (hs : Numbered s) (hb : ∀ r, ref = r → Built w i r s) :
    Numbered (s.registered w i (some ref)) := by
  intro w' i' ref' hreg
  refine (?_ : Built w' i' ref' s)
  by_cases hw : w' = w
  · subst hw
    by_cases hi : i' = i
    · subst hi
      refine hb ref' ?_
      simpa [System.registered, System.setWorker] using hreg
    · exact hs w' i' ref' (by simpa [System.registered, System.setWorker, hi] using hreg)
  · exact hs w' i' ref' (by simpa [System.registered, System.setWorker, hw] using hreg)

theorem keeps_register_holding : Keeps h (Holding w i ref) (register w i ref) :=
  keeps_modify (fun _ _ hs => ⟨hs.1.registered (fun _ hr => hr ▸ hs.2), hs.2⟩)

theorem Numbered.unregistered (hs : Numbered s) : Numbered (s.registered w i none) := by
  intro w' i' ref' hreg
  refine hs w' i' ref' ?_
  by_cases hw : w' = w
  · subst hw
    by_cases hi : i' = i
    · subst hi
      simp [System.registered, System.setWorker] at hreg
    · simpa [System.registered, System.setWorker, hi] using hreg
  · simpa [System.registered, System.setWorker, hw] using hreg

theorem wp_buildProcess {K : W → Prop} (hK : Still h K) (hω : K ω) {R : Except Exn Nat → System → W → Prop}
    (herr : ∀ e ω', K ω' → R (.error e) s ω')
    (hok : ∀ p ω', K ω' → p.instanceId = row.id → p.workerId = w → p.subscriptionId = none →
      R (.ok s.size) (s.newProcess p) ω') : wp h (buildProcessFromInstance w row) R s ω := by
  have hJ := hK.calm (fun s' => s' = s)
  refine wp_bind_of_keeps (keeps_getAccount hJ _) ⟨rfl, hω⟩ (fun e _ ω' hs => hs.1 ▸ herr e ω' hs.2)
    (fun account s1 ω1 h1 => ?_)
  refine wp_bind_of_keeps (J := fun s' ω' => s' = s ∧ K ω') (keeps_validateAccount account) h1
    (fun e _ ω' hs => hs.1 ▸ herr e ω' hs.2) (fun _ s2 ω2 h2 => ?_)
  refine wp_bind_of_keeps (keeps_authenticateAdapter hJ account) h2 (fun e _ ω' hs => hs.1 ▸ herr e ω' hs.2)
    (fun _ s3 ω3 h3 => ?_)
  refine wp_bind_of_keeps (keeps_request hJ rfl) h3 (fun e _ ω' hs => hs.1 ▸ herr e ω' hs.2) (fun _ s4 ω4 h4 => ?_)
  obtain ⟨rfl, hω4⟩ := h4
  exact hok _ ω4 hω4 rfl rfl rfl

theorem wp_build_holding (hs : Numbered s) {R : Except Exn Nat → System → W → Prop}
    (herr : ∀ e s' ω', Numbered s' → R (.error e) s' ω')
    (hok : ∀ ref s' ω', Holding w row.id ref s' ω' → R (.ok ref) s' ω') :
    wp h (buildProcessFromInstance w row) R s ω := by
  refine wp_buildProcess still_true trivial (fun e ω' _ => herr e s ω' hs) (fun p ω' _ hi hw _ => hok _ _ ω' ⟨?_, ?_⟩)
  · exact fun w i ref hreg => (hs w i ref hreg).newProcess p
  · rw [← hi, ← hw]
    exact built_new s p

theorem wp_getOrBuild_holding (hs : Numbered s) {R : Except Exn Nat → System → W → Prop}
    (herr : ∀ e s' ω', Numbered s' → R (.error e) s' ω')
    (hok : ∀ ref s' ω', Holding w row.id ref s' ω' → R (.ok ref) s' ω') :
    wp h (getOrBuild w row) R s ω := by
  rw [getOrBuild, bind_eq, wp_bind, getProcess, bind_eq, wp_bind, wp_read, andThen_ok, pure_eq, wp_ret, andThen_ok]
  cases hreg : (s.workers w).registry row.id with
  | some ref => exact hok ref s ω ⟨hs, hs w row.id ref hreg⟩
  | none =>
      rw [bind_eq, wp_bind]
      refine wp_build_holding hs herr (fun ref s1 ω1 h1 => ?_)
      rw [andThen_ok]
      refine wp_bind_of_keeps keeps_register_holding h1 (fun e s' ω' h' => herr e s' ω' h'.1)
        (fun _ s2 ω2 h2 => hok ref s2 ω2 h2)

theorem keeps_built {α : Type} {f : Nat → Op α} (hf : ∀ ref, Keeps h (Holding w row.id ref) (f ref)) :
    Keeps h (fun s _ => Numbered s) (buildProcessFromInstance w row >>= f) := by
  intro s ω hs
  rw [bind_eq, wp_bind]
  refine wp_build_holding hs (fun _ _ _ h1 => h1) (fun ref s1 ω1 h1 => ?_)
  exact wp_of_keeps (hf ref) h1 (fun _ _ _ h2 => h2.1)

theorem keeps_gotten {α : Type} {f : Nat → Op α} (hf : ∀ ref, Keeps h (Holding w row.id ref) (f ref)) :
    Keeps h (fun s _ => Numbered s) (getOrBuild w row >>= f) := by
  intro s ω hs
  rw [bind_eq, wp_bind]
  refine wp_getOrBuild_holding hs (fun _ _ _ h1 => h1) (fun ref s1 ω1 h1 => ?_)
  exact wp_of_keeps (hf ref) h1 (fun _ _ _ h2 => h2.1)

theorem keeps_numbered_recoverInstance (row : TradingInstance) :
    Keeps h (fun s _ => Numbered s) (recoverInstance w row) := by
  have hJ := unlocked_numbered (h := h)
  refine keeps_bind (keeps_lift _) (fun _ => ?_)
  intro s ω hs
  have hchecks : wp h (recoveryChecks w row)
      (fun r s' ω' => Numbered s' ∧ ∀ ref, r = .ok (some ref) → Holding w row.id ref s' ω') s ω := by
    refine wp_recoveryChecks (J := fun s _ => Numbered s) hJ.toCalm hJ.lock (fun ref => unlocked_holding.toCalm)
      (fun _ _ _ h1 => h1.1) (fun s1 ω1 h1 => ?_) hs
    refine wp_build_holding h1 (fun _ _ _ h2 => ⟨h2, fun _ he => by cases he⟩) (fun ref s2 ω2 h2 => ⟨h2.1, fun ref' he => ?_⟩)
    cases he
    exact h2
  rw [bind_eq, wp_bind]
  refine wp_mono hchecks ?_
  rintro (e | fit) s1 ω1 ⟨h1, hfit⟩
  · exact h1
  rw [andThen_ok]
  cases fit with
  | none => exact keeps_persistStatus hJ.toCalm (fun _ _ _ hs => hs) row .error s1 ω1 h1
  | some ref =>
      have hJ' : Unlocked h (Holding w row.id ref) := unlocked_holding
      refine wp_of_keeps (J := Holding w row.id ref) ?_ (hfit ref rfl) (fun _ _ _ h2 => h2.1)
      refine keeps_bind (keeps_setProcessStatus hJ'.toQuiet ref _) (fun _ => ?_)
      refine keeps_bind (keeps_persistStatus hJ'.toCalm (fun _ _ _ hs => hs) row _) (fun _ => ?_)
      refine keeps_bind (keeps_setProcessStatus hJ'.toQuiet ref _) (fun _ => ?_)
      refine keeps_bind (keeps_persistStatus hJ'.toCalm (fun _ _ _ hs => hs) row _) (fun _ => ?_)
      exact keeps_bind (keeps_setState hJ'.toCalm w row.id) (fun _ =>
        keeps_bind keeps_register_holding (fun _ => keeps_ret _))

theorem keeps_recoverAll {J : System → W → Prop} (hJ : Calm h J)
    (hrows : ∀ s w rows, J s w → J { s with rows := rows } w) (hone : ∀ row, Keeps h J (recoverInstance w row))
    (rows : List TradingInstance) : Keeps h J (recoverAll w rows) := by
  induction rows with
  | nil => exact keeps_ret _
  | cons row rows ih =>
      refine keeps_bind (keeps_tryCatch (keeps_bind (hone row) (fun _ => keeps_ret _)) (fun _ => ?_)) (fun _ =>
        keeps_bind ih (fun _ => keeps_ret _))
      exact keeps_bind (keeps_persistStatus hJ hrows row _) (fun _ => keeps_ret _)

theorem keeps_recover {J : System → W → Prop} (hJ : Calm h J)
    (hrows : ∀ s w rows, J s w → J { s with rows := rows } w) (hone : ∀ row, Keeps h J (recoverInstance w row)) :
    Keeps h J (recover w) := by
  have hstatus : ∀ status, Keeps h J (recoverStatus w status) := fun status =>
    keeps_bind (keeps_getByStatus hJ status) (fun rows => keeps_recoverAll hJ hrows hone rows)
  exact keeps_bind (hstatus _) (fun _ => keeps_bind (hstatus _) (fun _ => keeps_bind (hstatus _) (fun _ => keeps_ret _)))

theorem keeps_one {J : System → W → Prop} {p : Op TradingInstance} (hp : Keeps h J p) : Keeps h J (one p) :=
  keeps_bind hp (fun _ => keeps_ret _)

/-- A property that no step of the manager disturbs. -/
structure Closed (h : Handler W Req Ans) (J : System → W → Prop) : Prop extends AboutRows h J where
  rows : ∀ s w rows, J s w → J { s with rows := rows } w

theorem keeps_recoverInstance {J : System → W → Prop} (hJ : Closed h J) (row : TradingInstance) :
    Keeps h J (recoverInstance w row) := by
  refine keeps_bind (keeps_lift _) (fun _ => keeps_bind (keeps_recoveryChecks hJ.toUnlocked row) (fun fit => ?_))
  cases fit with
  | none => exact keeps_persistStatus hJ.toCalm hJ.rows row .error
  | some ref =>
      refine keeps_bind (keeps_setProcessStatus hJ.toQuiet ref _) (fun _ => ?_)
      refine keeps_bind (keeps_persistStatus hJ.toCalm hJ.rows row _) (fun _ => ?_)
      refine keeps_bind (keeps_setProcessStatus hJ.toQuiet ref _) (fun _ => ?_)
      refine keeps_bind (keeps_persistStatus hJ.toCalm hJ.rows row _) (fun _ => ?_)
      exact keeps_bind (keeps_setState hJ.toCalm w row.id) (fun _ =>
        keeps_bind (keeps_register hJ.toAboutRows w row.id ref) (fun _ => keeps_ret _))

theorem keeps_createProcess {J : System → W → Prop} (hJ : Calm h J)
    (hrows : ∀ s w rows, J s w → J { s with rows := rows } w) (i : InstanceId) (args : CreateArgs) :
    Keeps h J (createProcess i args) := by
  refine keeps_bind (keeps_checkRecords hJ args) (fun _ => ?_)
  refine keeps_bind (keeps_request hJ rfl) (fun _ => keeps_read_bind (fun s => ?_))
  refine keeps_bind (keeps_raiseIf _ _) (fun _ => keeps_bind (keeps_request hJ rfl) (fun _ => ?_))
  refine keeps_attempt (fun s w a s' hs' hs => ?_)
  split at hs'
  · cases hs'
  · cases hs'
    exact hrows s w _ hs

theorem keeps_prepare {J : System → W → Prop} (hJ : Calm h J)
    (hrows : ∀ s w rows, J s w → J { s with rows := rows } w) (i : InstanceId) (userId : UUID) :
    Keeps h J (prepare i userId) := by
  refine keeps_opened hJ (fun row => keeps_bind (keeps_getAccount hJ _) (fun account => ?_))
  refine keeps_bind (keeps_request hJ rfl) (fun _ => keeps_bind (keeps_raiseIf _ _) (fun _ => ?_))
  refine keeps_bind (keeps_validateAccount account) (fun _ => ?_)
  refine keeps_bind (keeps_authenticateAdapter hJ account) (fun _ => ?_)
  exact keeps_bind (keeps_validateSymbol hJ _ _) (fun _ => keeps_persistStatus hJ hrows row _)

theorem keeps_perform {J : System → W → Prop} (hJ : Closed h J) (c : Call) : Keeps h J (perform c) := by
  refine keeps_inSession hJ.toCalm hJ.rows ?_
  cases c with
  | createProcess i args => exact keeps_one (keeps_createProcess hJ.toCalm hJ.rows i args)
  | prepare i userId => exact keeps_one (keeps_prepare hJ.toCalm hJ.rows i userId)
  | start w i userId =>
      refine keeps_one (keeps_opened hJ.toCalm (fun row => ?_))
      refine keeps_bind (keeps_checkDuplicateRunning hJ.toCalm row) (fun _ => ?_)
      refine keeps_bind (keeps_acquireLock hJ.toCalm hJ.lock w i) (fun _ => keeps_bind (keeps_raiseIf _ _) (fun _ => ?_))
      refine keeps_bind (keeps_buildProcess hJ.toQuiet w row) (fun ref => ?_)
      refine keeps_bind (keeps_setProcessStatus hJ.toQuiet ref _) (fun _ => ?_)
      refine keeps_bind (keeps_register hJ.toAboutRows w row.id ref) (fun _ => ?_)
      refine keeps_bind (keeps_wire hJ.toQuiet w row ref) (fun _ => ?_)
      exact keeps_bind (keeps_persistStatus hJ.toCalm hJ.rows row _) (fun _ =>
        keeps_bind (keeps_setState hJ.toCalm w i) (fun _ => keeps_ret _))
  | pause w i userId =>
      refine keeps_one (keeps_opened hJ.toCalm (fun row => ?_))
      refine keeps_bind (keeps_getOrBuild hJ.toAboutRows w row) (fun ref => ?_)
      refine keeps_bind (keeps_unwire hJ.toQuiet w row ref) (fun _ => ?_)
      refine keeps_bind (keeps_setProcessStatus hJ.toQuiet ref _) (fun _ => ?_)
      refine keeps_bind (keeps_persistStatus hJ.toCalm hJ.rows row _) (fun _ => ?_)
      exact keeps_bind (keeps_setState hJ.toCalm w i) (fun _ =>
        keeps_bind (keeps_releaseLock hJ.toCalm hJ.lock w i) (fun _ => keeps_ret _))
  | resume w i userId =>
      refine keeps_one (keeps_opened hJ.toCalm (fun row => ?_))
      refine keeps_bind (keeps_releaseLock hJ.toCalm hJ.lock w i) (fun _ => ?_)
      refine keeps_bind (keeps_acquireLock hJ.toCalm hJ.lock w i) (fun _ => keeps_bind (keeps_raiseIf _ _) (fun _ => ?_))
      refine keeps_bind (keeps_getOrBuild hJ.toAboutRows w row) (fun ref => ?_)
      refine keeps_bind (keeps_setProcessStatus hJ.toQuiet ref _) (fun _ => ?_)
      exact keeps_bind (keeps_persistStatus hJ.toCalm hJ.rows row _) (fun _ =>
        keeps_bind (keeps_setState hJ.toCalm w i) (fun _ => keeps_ret _))
  | stop w i userId =>
      refine keeps_one (keeps_opened hJ.toCalm (fun row => ?_))
      refine keeps_bind (keeps_flushStatus hJ.toCalm hJ.rows row _) (fun _ => ?_)
      refine keeps_bind (keeps_dismantle hJ.toQuiet w row) (fun _ => ?_)
      refine keeps_bind (keeps_releaseLock hJ.toCalm hJ.lock w i) (fun _ => ?_)
      refine keeps_bind (keeps_unregister hJ.toAboutRows w i) (fun _ => ?_)
      exact keeps_bind (keeps_persistStatus hJ.toCalm hJ.rows row _) (fun _ =>
        keeps_bind (keeps_setState hJ.toCalm w i) (fun _ => keeps_ret _))
  | recover w => exact keeps_recover hJ.toCalm hJ.rows (fun row => keeps_recoverInstance hJ row)

theorem keeps_numbered (c : Call) : Keeps h (fun s _ => Numbered s) (perform c) := by
  have hJ := unlocked_numbered (h := h)
  have hrows : ∀ (s : System) (w : W) rows, Numbered s → Numbered { s with rows := rows } := fun _ _ _ hs => hs
  refine keeps_inSession hJ.toCalm hrows ?_
  cases c with
  | createProcess i args => exact keeps_one (keeps_createProcess hJ.toCalm hrows i args)
  | prepare i userId => exact keeps_one (keeps_prepare hJ.toCalm hrows i userId)
  | start w i userId =>
      refine keeps_one (keeps_opened hJ.toCalm (fun row => ?_))
      refine keeps_bind (keeps_checkDuplicateRunning hJ.toCalm row) (fun _ => ?_)
      refine keeps_bind (keeps_acquireLock hJ.toCalm hJ.lock w i) (fun _ => keeps_bind (keeps_raiseIf _ _) (fun _ => ?_))
      refine keeps_built (fun ref => ?_)
      have hJ' : Unlocked h (Holding w row.id ref) := unlocked_holding
      refine keeps_bind (keeps_setProcessStatus hJ'.toQuiet ref _) (fun _ => ?_)
      refine keeps_bind keeps_register_holding (fun _ => keeps_bind (keeps_wire hJ'.toQuiet w row ref) (fun _ => ?_))
      exact keeps_bind (keeps_persistStatus hJ'.toCalm (fun _ _ _ hs => hs) row _) (fun _ =>
        keeps_bind (keeps_setState hJ'.toCalm w i) (fun _ => keeps_ret _))
  | pause w i userId =>
      refine keeps_one (keeps_opened hJ.toCalm (fun row => keeps_gotten (fun ref => ?_)))
      have hJ' : Unlocked h (Holding w row.id ref) := unlocked_holding
      refine keeps_bind (keeps_unwire hJ'.toQuiet w row ref) (fun _ => ?_)
      refine keeps_bind (keeps_setProcessStatus hJ'.toQuiet ref _) (fun _ => ?_)
      refine keeps_bind (keeps_persistStatus hJ'.toCalm (fun _ _ _ hs => hs) row _) (fun _ => ?_)
      exact keeps_bind (keeps_setState hJ'.toCalm w i) (fun _ =>
        keeps_bind (keeps_releaseLock hJ'.toCalm hJ'.lock w i) (fun _ => keeps_ret _))
  | resume w i userId =>
      refine keeps_one (keeps_opened hJ.toCalm (fun row => ?_))
      refine keeps_bind (keeps_releaseLock hJ.toCalm hJ.lock w i) (fun _ => keeps_bind (keeps_acquireLock hJ.toCalm hJ.lock w i) (fun _ => ?_))
      refine keeps_bind (keeps_raiseIf _ _) (fun _ => keeps_gotten (fun ref => ?_))
      have hJ' : Unlocked h (Holding w row.id ref) := unlocked_holding
      refine keeps_bind (keeps_setProcessStatus hJ'.toQuiet ref _) (fun _ => ?_)
      exact keeps_bind (keeps_persistStatus hJ'.toCalm (fun _ _ _ hs => hs) row _) (fun _ =>
        keeps_bind (keeps_setState hJ'.toCalm w i) (fun _ => keeps_ret _))
  | stop w i userId =>
      refine keeps_one (keeps_opened hJ.toCalm (fun row => ?_))
      refine keeps_bind (keeps_flushStatus hJ.toCalm hrows row _) (fun _ => ?_)
      refine keeps_bind (keeps_dismantle hJ.toQuiet w row) (fun _ => keeps_bind (keeps_releaseLock hJ.toCalm hJ.lock w i) (fun _ => ?_))
      refine keeps_bind (keeps_modify (fun s _ hs => Numbered.unregistered hs)) (fun _ => ?_)
      exact keeps_bind (keeps_persistStatus hJ.toCalm hrows row _) (fun _ =>
        keeps_bind (keeps_setState hJ.toCalm w i) (fun _ => keeps_ret _))
  | recover w => exact keeps_recover hJ.toCalm hrows (fun row => keeps_numbered_recoverInstance row)

theorem Numbered.step {x : System × W} (hs : Numbered x.1) (e : Event W) : Numbered (step h x e).1 := by
  cases e with
  | call c => exact keeps_numbered c x.1 x.2 hs
  | restart w gridUp hubUp =>
      intro w' i ref hreg
      refine hs w' i ref ?_
      by_cases hw : w' = w
      · subst hw
        simp [Runs.step, System.setWorker] at hreg
      · simpa [Runs.step, System.setWorker, hw] using hreg
  | expire i => exact hs
  | world ω => exact hs

/-- The states that runs of the manager reach, in whatever world they run. -/
def Reached (s : System) : Prop :=
  ∃ (W : Type) (h : Handler W Req Ans) (ω : W) (events : List (Event W)), (runEvents h ({}, ω) events).1 = s

theorem reached_numbered (hs : Reached s) : Numbered s := by
  obtain ⟨W, h, ω, events, rfl⟩ := hs
  refine foldl_keeps (I := fun x : System × W => Numbered x.1) (fun x e hx => hx.step e) events (fun w i ref hreg => ?_)
  simp at hreg

end Utos.Process.Registry
