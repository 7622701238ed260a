import Utos.Coroutine.Trace
import Utos.Process.Bystanders
import Utos.Process.Lifecycle

namespace Utos.Process.Mutex

open Coroutine Program Core Core.DomainTypes Core.Exceptions StateMachine Manager Wiring Lifecycle Records Registry Bystanders

/-- The worker has a process of the instance registered with status RUNNING. -/
def RunsAt (w : WorkerId) (i : InstanceId) (s : System) : Prop :=
  ∃ ref, (s.workers w).registry i = some ref ∧ (s.processes ref).status = .running

def AtMostOne (s : System) : Prop := ∀ i w w', RunsAt w i s → RunsAt w' i s → w = w'

/-- What a call under way has done about the locks: the lock that it has last
tried to take in its session, and the one that it has just asked to delete. -/
structure Notes where
  tried : Option (WorkerId × InstanceId) := none
  deletes : Option (WorkerId × InstanceId) := none

def note (o : Notes) : Req → Notes
  | .reply (.setNx w i) => { tried := some (w, i) }
  | .send (.setNx _ _) | .commit => {}
  | .send (.del w i) => { o with deletes := some (w, i) }
  | _ => { o with deletes := none }

/-- The lock is free, or it is the worker's own and guards nothing of it. -/
def Deletable (w : WorkerId) (i : InstanceId) (s : System) : Prop :=
  ∀ w', s.locks i = some w' → w' = w ∧ ¬ RunsAt w i s

/-- What a call may be told: Redis is reachable, a lock that is deleted is
deletable, a lock that refuses a recovery is still there when it is read, and a
pause that is about to register a process finds the lock in its worker's hands. -/
def told (c : Call) (s : System) : (q : Req) → Ans q → Prop
  | .send (.del w i), a => (a.executed = true ∧ a.replied = true) ∧ Deletable w i s
  | .send (.get _ i), a => (a.executed = true ∧ a.replied = true) ∧ s.locks i ≠ none
  | .send _, a => a.executed = true ∧ a.replied = true
  | .restoreMemory i, _ => ∀ w userId, c = .pause w i userId → s.locks i = some w
  | _, _ => True

/-- Whoever has a RUNNING process registered holds the lock. -/
structure Guarded (s : System) : Prop where
  keyed : Keyed s.rows
  numbered : Numbered s
  lock : ∀ w i, RunsAt w i s → s.locks i = some w

/-- The terms of a call. It may take free locks and delete the one it has asked
to delete, and counts on a lock that it has tried to take and that its worker holds. -/
def lockTerms (c : Call) : Protocol System Req Ans Notes where
  inv := Guarded
  guar o s s' := Grows s s' ∧
    ∀ i, s'.locks i = s.locks i ∨ s.locks i = none ∨ ∃ w, o.deletes = some (w, i)
  rely o s s' := Grows s s' ∧ ∀ w i, o.tried = some (w, i) → s.locks i = some w → s'.locks i = some w
  asks _ _ _ := True
  spend := note
  told := told c

theorem coherent_lockTerms : Coherent lockTerms where
  inv _ _ _ hs := hs
  refl _ _ s := ⟨grows_refl s, fun _ _ _ h => h⟩
  trans _ _ _ _ _ h h' := ⟨h.1.trans h'.1, fun w i ho hw => h'.2 w i ho (h.2 w i ho hw)⟩
  asks _ _ _ _ _ _ := trivial

theorem Guarded.atMostOne {s : System} (hs : Guarded s) : AtMostOne s :=
  fun i w w' h h' => Option.some_inj.mp ((hs.lock w i h).symm.trans (hs.lock w' i h'))

variable {s s' : System} {w : WorkerId} {i : InstanceId} {ref : Nat} {o : Notes} {c : Call}
variable {row : TradingInstance} {userId : UUID}

theorem built_grows (hb : Built w i ref s) (hg : Grows s s') : Built w i ref s' := by
  obtain ⟨hlt, hi, hw⟩ := hb
  exact ⟨Nat.lt_of_lt_of_le hlt hg.1, (hg.2 ref hlt).1.trans hi, (hg.2 ref hlt).2.trans hw⟩

theorem Guarded.calms (hs : Guarded s) (hc : Calms s s') : Guarded s' := by
  have hnumbered : ∀ {w i ref}, (s'.workers w).registry i = some ref → Built w i ref s :=
    fun hreg => hs.numbered _ _ _ ((congrFun (hc.registry _) _).symm.trans hreg)
  refine ⟨hc.keyed hs.keyed, fun w i ref hreg => built_grows (hnumbered hreg) hc.grows, fun w i hruns => ?_⟩
  obtain ⟨ref, hreg, hstatus⟩ := hruns
  rw [hc.locks]
  exact hs.lock w i ⟨ref, (congrFun (hc.registry w) i).symm.trans hreg, hc.status ref (hnumbered hreg).1 hstatus⟩

/-- A call holds the lock of an instance: its worker has it, and the call has tried to take it. -/
def Holds (w : WorkerId) (i : InstanceId) (o : Notes) (s : System) : Prop := o.tried = some (w, i) ∧ s.locks i = some w

/-- What a call finds after a step in which it has not touched a lock. -/
structure Later (o : Notes) (s s' : System) : Prop where
  guarded : Guarded s'
  grows : Grows s s'
  holds : ∀ w i, Holds w i o s → Holds w i o s'

theorem later_refl (hs : Guarded s) : Later o s s := ⟨hs, grows_refl s, fun _ _ h => h⟩

theorem Later.trans {s'' : System} (h : Later o s s') (h' : Later o s' s'') : Later o s s'' :=
  ⟨h'.guarded, h.grows.trans h'.grows, fun w i hh => h'.holds w i (h.holds w i hh)⟩

theorem later_of_rely (hi : Guarded s') (hr : (lockTerms c).rely o s s') : Later o s s' :=
  ⟨hi, hr.1, fun w i hh => ⟨hh.1, hr.2 w i hh.1 hh.2⟩⟩

theorem under_aloof {α : Type} {p : Op α} {R : Except Exn α → Unit → System → Prop}
    (hp : Under aloofTerms p R () s) (hs : Guarded s) (ho : o.deletes = none) :
    Under (lockTerms c) p (fun r o' s' => o' = o ∧ Later o s s' ∧ R r () s') o s := by
  have hclear : { o with deletes := none } = o := by
    cases o
    cases ho
    rfl
  refine under_of_bare (Later o s) (fun s1 h1 => h1.guarded.keyed) ?_ ?_ ?_ hp (later_refl hs)
  · intro s1 s2 h1 hc
    have h2 := h1.guarded.calms hc
    refine ⟨h2, ⟨hc.grows, fun j => .inl (by rw [hc.locks])⟩, h1.trans ⟨h2, hc.grows, fun w i hh => ?_⟩⟩
    exact ⟨hh.1, (congrFun hc.locks i).trans hh.2⟩
  · rintro s1 q - hq
    refine ⟨trivial, ?_⟩
    cases q with
    | send cmd =>
        cases cmd with
        | setState _ _ => exact hclear
        | _ => exact hq.elim
    | reply cmd =>
        cases cmd with
        | setState _ _ => exact hclear
        | _ => exact hq.elim
    | commit => exact hq.elim
    | _ => exact hclear
  · exact fun s1 s2 h1 h2 hr => h1.trans (later_of_rely h2 hr)

/-- Between its commands to Redis the program keeps to the terms of the call and leaves the invariant intact. -/
def Safe {α : Type} (c : Call) (p : Op α) (o : Notes) (s : System) : Prop :=
  o.deletes = none → Under (lockTerms c) p (fun _ o' s' => Guarded s' ∧ o'.deletes = none) o s

variable {α β : Type}

theorem safe_of_aloof {p : Op α} (hp : Aloof p) (hs : Guarded s) : Safe c p o s :=
  fun ho => under_mono (under_aloof (hp s hs.keyed) hs ho) (fun _ _ _ h => ⟨h.2.1.guarded, h.1 ▸ ho⟩)

theorem safe_bind {p : Op α} {f : α → Op β} {R : Except Exn α → Unit → System → Prop} (hp : Under aloofTerms p R () s)
    (hs : Guarded s) (hf : ∀ a s', Later o s s' → R (.ok a) () s' → Safe c (f a) o s') : Safe c (p >>= f) o s := by
  intro ho
  rw [bind_eq, under_bind]
  refine under_mono (under_aloof hp hs ho) ?_
  rintro (e | a) o' s' ⟨rfl, hlater, hR⟩
  · exact ⟨hlater.guarded, ho⟩
  · exact hf a s' hlater hR ho

theorem safe_bind_aloof {p : Op α} {f : α → Op β} (hp : Aloof p) (hs : Guarded s)
    (hf : ∀ a s', Later o s s' → Safe c (f a) o s') : Safe c (p >>= f) o s :=
  safe_bind (hp s hs.keyed) hs (fun a s' h _ => hf a s' h)

theorem under_redis {R : Except Exn (Option α) → Notes → System → Prop} {cmd : RedisCmd} {exec : System → α × System}
    (hreach : ∀ s1 a, told c s1 (.send cmd) a → a.executed = true ∧ a.replied = true)
    (hexec : ∀ s1 a, Guarded s1 → (lockTerms c).rely (note o (.send cmd)) s s1 → told c s1 (.send cmd) a →
      Guarded (exec s1).2 ∧ (lockTerms c).guar (note o (.send cmd)) s1 (exec s1).2 ∧
        ∀ s2, Guarded s2 → (lockTerms c).rely (note (note o (.send cmd)) (.reply cmd)) (exec s1).2 s2 →
          R (.ok (some (exec s1).1)) (note (note o (.send cmd)) (.reply cmd)) s2) :
    Under (lockTerms c) (redis cmd exec) R o s := by
  rw [redis, bind_eq, under_bind]
  refine ⟨trivial, fun fate s1 htold h1 hr1 => ?_⟩
  rw [under_ret, thenUnder_ok]
  obtain ⟨hexecuted, hreplied⟩ := hreach s1 fate htold
  obtain ⟨hi, hguar, hR⟩ := hexec s1 fate h1 hr1 htold
  rw [if_pos hexecuted, bind_eq, under_bind, under_attempt]
  refine ⟨hi, hguar, ?_⟩
  rw [thenUnder_ok, bind_eq, under_bind]
  refine ⟨trivial, fun u s2 _ h2 hr2 => ?_⟩
  rw [under_ret, thenUnder_ok, if_pos hreplied]
  exact hR s2 h2 hr2

/-- A lock is given to a worker, or freed, where no other has a use for it. -/
theorem Guarded.lock_update (hs : Guarded s) {held : Option WorkerId} (hruns : ∀ w', RunsAt w' i s → held = some w') :
    Guarded { s with locks := Function.update s.locks i held } := by
  refine ⟨hs.keyed, hs.numbered, fun w' j hj => ?_⟩
  by_cases hji : j = i
  · subst hji
    simpa using hruns w' hj
  · simpa [hji] using hs.lock w' j hj

theorem grows_locks (s : System) (locks : InstanceId → Option WorkerId) : Grows s { s with locks := locks } := grows_refl s

theorem setNx_free (hfree : s.locks i = none) :
    setNx w i s = (true, { s with locks := Function.update s.locks i (some w) }) := by rw [setNx, hfree]

theorem setNx_refused {w' : WorkerId} (hheld : s.locks i = some w') : setNx w i s = (false, s) := by rw [setNx, hheld]

theorem under_acquireLock :
    Under (lockTerms c) (acquireLock w i) (fun r o' s' => (∃ b, r = .ok b ∧ (b = true → Holds w i o' s')) ∧
      o'.deletes = none ∧ Guarded s' ∧ Grows s s') o s := by
  rw [acquireLock, bind_eq, under_bind]
  refine under_redis (fun s1 a h => h) (fun s1 a h1 hr1 _ => ?_)
  cases hlock : s1.locks i with
  | none =>
      rw [setNx_free hlock]
      refine ⟨h1.lock_update (fun w' hruns => ?_), ⟨grows_locks s1 _, fun j => ?_⟩, fun s2 h2 hr2 => ?_⟩
      · cases hlock.symm.trans (h1.lock w' i hruns)
      · by_cases hj : j = i
        · subst hj
          exact .inr (.inl hlock)
        · exact .inl (by simp [hj])
      · refine ⟨⟨true, rfl, fun _ => ⟨rfl, hr2.2 w i rfl (by simp)⟩⟩, rfl, h2, ?_⟩
        exact (hr1.1.trans (grows_locks s1 _)).trans hr2.1
  | some w' =>
      rw [setNx_refused hlock]
      refine ⟨h1, ⟨grows_refl s1, fun j => .inl rfl⟩, fun s2 h2 hr2 => ?_⟩
      exact ⟨⟨false, rfl, fun h => by cases h⟩, rfl, h2, hr1.1.trans hr2.1⟩

theorem safe_acquire {f : Bool → Op β}
    (hf : ∀ b o' s', Guarded s' → (b = true → Holds w i o' s') → Safe c (f b) o' s') :
    Safe c (acquireLock w i >>= f) o s := by
  intro _
  rw [bind_eq, under_bind]
  refine under_mono under_acquireLock ?_
  rintro r o' s' ⟨⟨b, rfl, hholds⟩, ho', h', -⟩
  exact hf b o' s' h' hholds ho'

theorem safe_release {f : Unit → Op β} (hf : ∀ s', Guarded s' → Grows s s' → Safe c (f ()) o s') :
    Safe c (releaseLock w i >>= f) o s := by
  intro ho
  have hnote : note (note o (.send (.del w i))) (.reply (.del w i)) = o := by
    cases o
    cases ho
    rfl
  rw [bind_eq, under_bind, releaseLock, bind_eq, under_bind]
  refine under_redis (fun s1 a h => h.1) (fun s1 a h1 hr1 htold => ⟨?_, ?_, fun s2 h2 hr2 => ?_⟩)
  · refine h1.lock_update (fun w' hruns => ?_)
    have hlock := h1.lock w' i hruns
    obtain ⟨rfl, hnot⟩ := htold.2 w' hlock
    exact absurd hruns hnot
  · refine ⟨grows_locks s1 _, fun j => ?_⟩
    by_cases hj : j = i
    · subst hj
      exact .inr (.inr ⟨w, rfl⟩)
    · exact .inl (by simp [hj])
  · rw [hnote]
    exact hf s2 h2 ((hr1.1.trans (grows_locks s1 _)).trans hr2.1) ho

theorem Guarded.setStatus (hs : Guarded s) (hb : Built w i ref s) (hlock : s.locks i = some w)
    (status : TradingInstanceStatus) : Guarded (s.setProcess ref (fun p => { p with status := status })) := by
  have hbuilt : ∀ {w' i' ref'}, Built w' i' ref' s →
      Built w' i' ref' (s.setProcess ref (fun p => { p with status := status })) :=
    fun h => h.setProcess ref (fun _ => ⟨rfl, rfl⟩)
  refine ⟨hs.keyed, fun w' j r hreg => hbuilt (hs.numbered w' j r hreg), fun w' j hruns => ?_⟩
  obtain ⟨r, hreg, hstatus⟩ := hruns
  by_cases hr : r = ref
  · subst hr
    obtain ⟨-, hj, hw⟩ := hs.numbered w' j r hreg
    have hij : i = j := hb.2.1.symm.trans hj
    have hww : w = w' := hb.2.2.symm.trans hw
    subst hij
    subst hww
    exact hlock
  · exact hs.lock w' j ⟨r, hreg, by simpa [System.setProcess, hr] using hstatus⟩

theorem grows_setStatus (s : System) (ref : Nat) (status : TradingInstanceStatus) :
    Grows s (s.setProcess ref (fun p => { p with status := status })) := by
  refine ⟨le_refl _, fun r _ => ?_⟩
  by_cases hr : r = ref
  · subst hr
    simp [System.setProcess]
  · simp [System.setProcess, hr]

theorem Guarded.register (hs : Guarded s) (hb : Built w i ref s) (hlock : s.locks i = some w) :
    Guarded (s.registered w i (some ref)) := by
  refine ⟨hs.keyed, hs.numbered.registered (fun r hr => hr ▸ hb), fun w' j hruns => ?_⟩
  obtain ⟨r, hreg, hstatus⟩ := hruns
  by_cases hwj : w' = w ∧ j = i
  · obtain ⟨rfl, rfl⟩ := hwj
    exact hlock
  · refine hs.lock w' j ⟨r, ?_, hstatus⟩
    by_cases hw : w' = w
    · subst hw
      have hj : j ≠ i := fun hj => hwj ⟨rfl, hj⟩
      simpa [System.registered, System.setWorker, hj] using hreg
    · simpa [System.registered, System.setWorker, hw] using hreg

theorem Guarded.unregister (hs : Guarded s) : Guarded (s.registered w i none) := by
  refine ⟨hs.keyed, hs.numbered.unregistered, fun w' j hruns => ?_⟩
  obtain ⟨r, hreg, hstatus⟩ := hruns
  refine hs.lock w' j ⟨r, ?_, hstatus⟩
  by_cases hw : w' = w
  · subst hw
    by_cases hj : j = i
    · subst hj
      simp [System.registered, System.setWorker] at hreg
    · simpa [System.registered, System.setWorker, hj] using hreg
  · simpa [System.registered, System.setWorker, hw] using hreg

theorem safe_ret (a : α) (hs : Guarded s) : Safe c (.ret a : Op α) o s := fun ho => ⟨hs, ho⟩

theorem safe_modify {g : System → System} {f : Unit → Op β} (hguarded : Guarded (g s)) (hgrows : Grows s (g s))
    (hlocks : (g s).locks = s.locks) (hf : Safe c (f ()) o (g s)) : Safe c (modify g >>= f) o s := by
  intro ho
  rw [bind_eq, under_bind, under_modify]
  exact ⟨hguarded, ⟨hgrows, fun j => .inl (congrFun hlocks j)⟩, hf ho⟩

theorem safe_raiseIf {b : Prop} [Decidable b] {exc : Exn} {f : Unit → Op β} (hs : Guarded s)
    (hf : ¬ b → Safe c (f ()) o s) : Safe c (raiseIf b exc >>= f) o s := by
  unfold raiseIf
  split
  · exact fun ho => ⟨hs, ho⟩
  next hb => exact hf hb

theorem safe_seq {p : Op α} {f : α → Op β} (hp : Safe c p o s) (hf : ∀ a o' s', Guarded s' → Safe c (f a) o' s') :
    Safe c (p >>= f) o s := by
  intro ho
  rw [bind_eq, under_bind]
  refine under_mono (hp ho) ?_
  rintro (e | a) o' s' ⟨h', ho'⟩
  · exact ⟨h', ho'⟩
  · exact hf a o' s' h' ho'

theorem safe_tryCatch {p : Op α} {f : Exn → Op α} (hp : Safe c p o s) (hf : ∀ e o' s', Guarded s' → Safe c (f e) o' s') :
    Safe c (Program.tryCatch p f) o s := by
  intro ho
  rw [under_tryCatch]
  refine under_mono (hp ho) ?_
  rintro (e | a) o' s' ⟨h', ho'⟩
  · exact hf e o' s' h' ho'
  · exact ⟨h', ho'⟩

theorem safe_build {f : Nat → Op β} (hs : Guarded s) (hf : ∀ ref s', Later o s s' → Built w row.id ref s' →
    (∀ w userId, c = .pause w row.id userId → s'.locks row.id = some w) → Safe c (f ref) o s') :
    Safe c (buildProcessFromInstance w row >>= f) o s := by
  rw [buildProcessFromInstance, bind_eq, bind_eq, bind_assoc]
  refine safe_bind_aloof (aloof_getAccount _) hs (fun account s1 h1 => ?_)
  rw [bind_eq, bind_assoc]
  refine safe_bind_aloof (aloof_validateAccount account) h1.guarded (fun _ s2 h2 => ?_)
  rw [bind_eq, bind_assoc]
  refine safe_bind_aloof (aloof_authenticateAdapter account) h2.guarded (fun _ s3 h3 => ?_)
  rw [bind_eq, bind_assoc]
  intro ho
  have hclear : note o (.restoreMemory row.id) = o := by
    cases o
    cases ho
    rfl
  rw [under_bind, under_await]
  refine ⟨trivial, fun a s4 htold h4 hr4 => ?_⟩
  rw [show (lockTerms c).spend o (.restoreMemory row.id) = o from hclear] at hr4 ⊢
  cases a with
  | error e => exact ⟨h4, ho⟩
  | ok u =>
      have hlater : Later o s s4 := ((h1.trans h2).trans h3).trans (later_of_rely (c := c) h4 hr4)
      have hcalms := calms_newProcess s4
        { instanceId := row.id, workerId := w, exchangeName := account.exchangeName, status := row.status }
      have h5 := h4.calms hcalms
      refine ⟨h5, ⟨hcalms.grows, fun j => .inl rfl⟩, hf s4.size _ ?_ (built_new s4 _) htold ho⟩
      exact hlater.trans ⟨h5, hcalms.grows, fun _ _ hh => hh⟩

theorem safe_opened {target : TradingInstanceStatus} {f : TradingInstance → Op β} (hs : Guarded s)
    (hf : ∀ row s', Later o s s' → row.id = i → Safe c (f row) o s') :
    Safe c (do
      let row ← getInstance i
      validateOwnership row userId
      lift (validateTransition row.status target)
      f row) o s := by
  refine safe_bind (under_getInstance i hs.keyed) hs (fun row s1 h1 hid => ?_)
  refine safe_bind_aloof (aloof_raiseIf _ _) h1.guarded (fun _ s2 h2 => ?_)
  refine safe_bind_aloof (steady_lift _) h2.guarded (fun _ s3 h3 => ?_)
  exact hf row s3 ((h1.trans h2).trans h3) (hid row rfl)

theorem Holds.lock (h : Holds w i o s) : s.locks i = some w := h.2

theorem safe_start (hs : Guarded s) : Safe c (start w i userId) o s := by
  refine safe_opened hs (fun row s1 h1 hid => ?_)
  subst hid
  refine safe_bind_aloof (aloof_checkDuplicateRunning row) h1.guarded (fun _ s2 h2 => ?_)
  refine safe_acquire (fun acquired o' s3 h3 hholds => safe_raiseIf h3 (fun hacquired => ?_))
  have h3' := hholds (by simpa using hacquired)
  refine safe_build h3 (fun ref s4 h4 hb _ => ?_)
  have hlock := (h4.holds w row.id h3').lock
  have h5 := h4.guarded.setStatus hb hlock .running
  refine safe_modify h5 (grows_setStatus s4 ref .running) rfl ?_
  have hb' := hb.setProcess ref (f := fun p => { p with status := .running }) (fun _ => ⟨rfl, rfl⟩)
  have h6 := h5.register hb' hlock
  refine safe_modify h6 (grows_refl _) rfl (safe_of_aloof ?_ h6)
  refine steady_bind (aloof_wire w row ref) (fun _ => steady_bind (aloof_persistStatus row .running) (fun _ => ?_))
  exact steady_bind (aloof_setState w row.id) (fun _ => steady_ret _)

theorem safe_getOrBuild {f : Nat → Op β} (hs : Guarded s)
    (hlock : ∀ s', Later o s s' → (∀ w userId, c = .pause w row.id userId → s'.locks row.id = some w) →
      s'.locks row.id = some w)
    (hf : ∀ ref s', Later o s s' → Built w row.id ref s' → Safe c (f ref) o s') :
    Safe c (getOrBuild w row >>= f) o s := by
  rw [getOrBuild, bind_eq, bind_eq, bind_assoc]
  refine safe_bind (R := fun r _ s' => r = .ok ((s'.workers w).registry row.id)) rfl hs (fun found s1 h1 hfound => ?_)
  cases found with
  | some ref => exact hf ref s1 h1 (h1.guarded.numbered w row.id ref (Except.ok.inj hfound).symm)
  | none =>
      simp only
      rw [bind_eq, bind_assoc]
      refine safe_build h1.guarded (fun ref s2 h2 hb htold => ?_)
      have hheld := hlock s2 (h1.trans h2) htold
      have h3 := h2.guarded.register hb hheld
      rw [bind_eq, bind_assoc]
      refine safe_modify h3 (grows_refl _) rfl (hf ref _ ?_ hb)
      exact (h1.trans h2).trans ⟨h3, grows_refl _, fun _ _ hh => hh⟩

theorem safe_pause (hs : Guarded s) :
    Safe (.pause w i userId) (pause w i userId) o s := by
  refine safe_opened hs (fun row s1 h1 hid => ?_)
  subst hid
  refine safe_getOrBuild h1.guarded (fun s2 _ htold => htold w userId rfl) (fun ref s2 h2 _ => ?_)
  refine safe_bind_aloof (aloof_unwire w row ref) h2.guarded (fun _ s3 h3 => ?_)
  refine safe_bind_aloof (aloof_setStatus ref (by decide)) h3.guarded (fun _ s4 h4 => ?_)
  refine safe_bind_aloof (aloof_persistStatus row .paused) h4.guarded (fun row' s5 h5 => ?_)
  refine safe_bind_aloof (aloof_setState w row.id) h5.guarded (fun _ s6 h6 => ?_)
  exact safe_release (fun s7 h7 _ => safe_ret row' h7)

theorem safe_resume (hs : Guarded s) : Safe c (resume w i userId) o s := by
  refine safe_opened hs (fun row s1 h1 hid => ?_)
  subst hid
  refine safe_release (fun s2 h2 _ => safe_acquire (fun acquired o' s3 h3 hholds => ?_))
  refine safe_raiseIf h3 (fun hacquired => ?_)
  have h3' := hholds (by simpa using hacquired)
  refine safe_getOrBuild h3 (fun s4 h4 _ => (h4.holds w row.id h3').lock) (fun ref s4 h4 hb => ?_)
  have h5 := h4.guarded.setStatus hb (h4.holds w row.id h3').lock .running
  refine safe_modify h5 (grows_setStatus s4 ref .running) rfl (safe_of_aloof ?_ h5)
  exact steady_bind (aloof_persistStatus row .running) (fun _ => steady_bind (aloof_setState w row.id) (fun _ => steady_ret _))

theorem safe_stop (hs : Guarded s) : Safe c (stop w i userId) o s := by
  refine safe_opened hs (fun row s1 h1 _ => ?_)
  refine safe_bind_aloof (aloof_flushStatus row .stopping) h1.guarded (fun _ s2 h2 => ?_)
  refine safe_bind_aloof (aloof_dismantle w row) h2.guarded (fun _ s3 h3 => ?_)
  refine safe_release (fun s4 h4 _ => safe_modify h4.unregister (grows_refl _) rfl ?_)
  refine safe_of_aloof ?_ h4.unregister
  exact steady_bind (aloof_persistStatus row .stopped) (fun _ => steady_bind (aloof_setState w i) (fun _ => steady_ret _))

theorem safe_restore (hs : Guarded s) (hb : Built w row.id ref s) (hholds : Holds w row.id o s) :
    Safe c (restore w row ref) o s := by
  have hset : ∀ {status} {f : Unit → Op TradingInstance} {s : System}, Guarded s → Built w row.id ref s →
      Holds w row.id o s → (∀ s', Guarded s' → Built w row.id ref s' → Holds w row.id o s' → Safe c (f ()) o s') →
      Safe c (setProcessStatus ref status >>= f) o s := by
    intro status f s hs hb hh hf
    have hs' := hs.setStatus hb hh.lock status
    exact safe_modify hs' (grows_setStatus s ref status) rfl (hf _ hs' (hb.setProcess ref (fun _ => ⟨rfl, rfl⟩)) hh)
  have hrest : ∀ {α : Type} {p : Op α} {f : α → Op TradingInstance} {s : System}, Aloof p → Guarded s →
      Built w row.id ref s → Holds w row.id o s →
      (∀ a s', Guarded s' → Built w row.id ref s' → Holds w row.id o s' → Safe c (f a) o s') → Safe c (p >>= f) o s :=
    fun hp hs hb hh hf => safe_bind_aloof hp hs (fun a s' h' =>
      hf a s' h'.guarded (built_grows hb h'.grows) (h'.holds w row.id hh))
  refine hset hs hb hholds (fun s1 h1 hb1 hh1 => hrest (aloof_persistStatus row _) h1 hb1 hh1 (fun _ s2 h2 hb2 hh2 => ?_))
  refine hset h2 hb2 hh2 (fun s3 h3 hb3 hh3 => hrest (aloof_persistStatus row _) h3 hb3 hh3 (fun _ s4 h4 hb4 hh4 => ?_))
  refine hrest (aloof_setState w row.id) h4 hb4 hh4 (fun _ s5 h5 hb5 hh5 => ?_)
  exact safe_modify (h5.register hb5 hh5.lock) (grows_refl _) rfl (safe_ret _ (h5.register hb5 hh5.lock))

/-- A recovery goes on only with the lock: one that is refused finds the lock of
another call, and raises. -/
theorem safe_takeOver {f : Unit → Op β}
    (hf : ∀ o' s', Guarded s' → Holds w i o' s' → Safe c (f ()) o' s') : Safe c (takeOver w i >>= f) o s := by
  rw [takeOver, bind_eq, bind_eq, bind_assoc]
  refine safe_acquire (fun acquired o' s1 h1 hholds => ?_)
  cases acquired with
  | true => exact hf o' s1 h1 (hholds rfl)
  | false =>
      intro _
      rw [if_pos rfl, bind_eq, bind_assoc, currentLock, bind_eq, bind_assoc, under_bind]
      refine under_redis (fun s2 a h => h.1) (fun s2 a h2 hr2 htold => ⟨h2, ⟨grows_refl s2, fun j => .inl rfl⟩, ?_⟩)
      intro s3 h3 _
      cases hlock : s2.locks i with
      | none => exact absurd hlock htold.2
      | some w' => exact ⟨h3, rfl⟩

theorem safe_recoverInstance (hs : Guarded s) : Safe c (recoverInstance w row) o s := by
  rw [recoverInstance]
  refine safe_bind_aloof (steady_lift _) hs (fun _ s1 h1 => ?_)
  rw [recoveryChecks, bind_eq, bind_eq, bind_assoc]
  refine safe_takeOver (fun o' s2 h2 hholds => ?_)
  rw [buildFit, bind_eq, bind_assoc]
  refine safe_build h2 (fun ref s3 h3 hb _ => ?_)
  have herror : ∀ {s' : System}, Guarded s' → Safe c (persistStatus row .error) o' s' :=
    fun h' => safe_of_aloof (aloof_persistStatus row .error) h'
  rw [bind_eq, bind_assoc]
  refine safe_bind_aloof (aloof_read (fun _ => steady_ret _)) h3.guarded (fun s' s4 h4 => ?_)
  rw [bind_eq, bind_assoc]
  refine safe_bind_aloof (aloof_await _ trivial) h4.guarded (fun healthy s5 h5 => ?_)
  split
  · exact herror h5.guarded
  · rw [bind_eq, bind_assoc]
    refine safe_bind_aloof (aloof_symbolSupported _ _) h5.guarded (fun supported s6 h6 => ?_)
    cases supported with
    | false => exact herror h6.guarded
    | true =>
        have hlater := ((h3.trans h4).trans h5).trans h6
        have hb6 := built_grows hb ((h4.grows.trans h5.grows).trans h6.grows)
        exact safe_restore h6.guarded hb6 (hlater.holds w row.id hholds)

theorem safe_recoverOne (hs : Guarded s) : Safe c (recoverOne w row) o s := by
  refine safe_tryCatch (safe_seq (safe_recoverInstance hs) (fun _ _ _ h1 => safe_ret _ h1)) (fun e o' s1 h1 => ?_)
  exact safe_of_aloof (steady_bind (aloof_persistStatus row .error) (fun _ => steady_ret _)) h1

theorem safe_recoverAll {rows : List TradingInstance} (hs : Guarded s) : Safe c (recoverAll w rows) o s := by
  induction rows generalizing o s with
  | nil => exact safe_ret _ hs
  | cons row rows ih =>
      refine safe_seq (safe_recoverOne hs) (fun _ _ _ h1 => safe_seq (ih h1) (fun _ _ _ h2 => ?_))
      exact safe_ret _ h2

theorem safe_recover (hs : Guarded s) : Safe c (recover w) o s := by
  have hstatus : ∀ status {o : Notes} {s : System}, Guarded s → Safe c (recoverStatus w status) o s :=
    fun status o s hs => safe_bind_aloof (aloof_getByStatus status) hs (fun _ _ h1 => safe_recoverAll h1.guarded)
  refine safe_seq (hstatus .running hs) (fun _ _ _ h1 => safe_seq (hstatus .paused h1) (fun _ _ _ h2 => ?_))
  exact safe_seq (hstatus .recovering h2) (fun _ _ _ h3 => safe_ret _ h3)

theorem safe_operation (hs : Guarded s) : Safe c (operation c) o s := by
  have hone : ∀ {p : Op TradingInstance}, Safe c p o s → Safe c (one p) o s :=
    fun hp => safe_seq hp (fun _ _ _ h1 => safe_ret _ h1)
  cases c with
  | createProcess i args => exact hone (safe_of_aloof (aloof_createProcess i args) hs)
  | prepare i userId => exact hone (safe_of_aloof (aloof_prepare i userId) hs)
  | start w i userId => exact hone (safe_start hs)
  | pause w i userId => exact hone (safe_pause hs)
  | resume w i userId => exact hone (safe_resume hs)
  | stop w i userId => exact hone (safe_stop hs)
  | recover w => exact safe_recover hs

theorem under_perform (hs : Guarded s) : Under (lockTerms c) (perform c) (fun _ _ _ => True) {} s := by
  refine under_mono ((?_ : Safe c (perform c) {} s) rfl) (fun _ _ _ _ => trivial)
  have hcommit : ∀ {a : List TradingInstance} {o' : Notes} {s' : System},
      Safe c ((.await .commit id : Op Unit) >>= fun _ => .ret a) o' s' := by
    intro a o' s' _
    rw [bind_eq, under_bind, under_await]
    refine ⟨trivial, fun answer s1 _ h1 _ => ?_⟩
    cases answer with
    | error e => exact ⟨h1, rfl⟩
    | ok u => exact ⟨h1, rfl⟩
  refine (safe_tryCatch (safe_seq (safe_operation hs) (fun _ _ _ _ => hcommit)) (fun e o' s1 h1 => ?_) :
    Safe c (Program.tryCatch _ _) {} s)
  have h2 : Guarded { s1 with rows := s.rows } := ⟨hs.keyed, h1.numbered, h1.lock⟩
  exact safe_modify h2 (grows_refl _) rfl (fun ho => ⟨h2, ho⟩)

variable {W : Type}

/-- The calls under way, with what each of them has done about the locks. -/
structure Fleet (W : Type) where
  pool : Pool System W Req Ans Exn (List TradingInstance)
  calls : Nat → Call := fun _ => .recover 0
  notes : Nat → Notes := fun _ => {}

/-- A call is made, its request is answered, it goes on up to its next request or
its end; a lock expires; the outside world changes. What the sessions of the
calls show to one another is left open: the table may be any at any time. -/
inductive Event (W : Type)
  | call (n : Nat) (c : Call)
  | answer (n : Nat)
  | resume (n : Nat)
  | expire (i : InstanceId)
  | table (rows : {rows : Rows // Keyed rows})
  | world (ω : W)

variable (h : Handler W Req Ans)

def asked (x : Fleet W) (n : Nat) : Notes :=
  match x.pool.tasks n with
  | some (.asked q _) => note (x.notes n) q
  | _ => x.notes n

def step (x : Fleet W) : Event W → Fleet W
  | .call n c => match x.pool.tasks n with
      | some _ => x
      | none => { pool := x.pool.start n (perform c), calls := Function.update x.calls n c
                  notes := Function.update x.notes n {} }
  | .answer n => { x with pool := x.pool.act h n, notes := Function.update x.notes n (asked x n) }
  | .resume n => { x with pool := x.pool.resume n }
  | .expire i => { x with pool := { x.pool with
      store := { x.pool.store with locks := Function.update x.pool.store.locks i none } } }
  | .table rows => { x with pool := { x.pool with store := { x.pool.store with rows := rows.1 } } }
  | .world ω => { x with pool := { x.pool with world := ω } }

variable {h}

/-- A call under way has tried to take the lock, and has neither committed nor turned to another since. -/
def Tries (x : Fleet W) (n : Nat) (w : WorkerId) (i : InstanceId) : Prop :=
  ∃ t o, x.pool.tasks n = some t ∧ t.owns note (x.notes n) = some o ∧ o.tried = some (w, i)

/-- The condition. A call goes on only with what it may be told, and deletes no
lock that another call counts on. A lock expires only when it guards nothing. -/
def Meets (x : Fleet W) : Event W → Prop
  | .resume n => ∀ q a k, x.pool.tasks n = some (.answered q a k) → told (x.calls n) x.pool.store q a ∧
      ∀ w i, q = .send (.del w i) → x.pool.store.locks i = some w → ∀ m, m ≠ n → ¬ Tries x m w i
  | .expire i => ∀ w, x.pool.store.locks i = some w → ¬ RunsAt w i x.pool.store ∧ ∀ m, ¬ Tries x m w i
  | _ => True

/-- A DEL that a call goes on with finds the lock free or its worker's own. -/
def DeletesOwn (x : Fleet W) : Event W → Prop
  | .resume n => ∀ w i a k, x.pool.tasks n = some (.answered (.send (.del w i)) a k) →
      ∀ w', x.pool.store.locks i = some w' → w' = w
  | _ => True

/-- The invariant of a run. -/
structure Sound (x : Fleet W) : Prop where
  guarded : Guarded x.pool.store
  standing : x.pool.Standing lockTerms x.calls x.notes
  noted : ∀ n q a k, x.pool.tasks n = some (.answered q a k) → ∃ o, x.notes n = note o q

theorem wrote_locks {s s' : System} {w' : WorkerId} (hwrote : (lockTerms c).Wrote o s s') (hheld : s.locks i = some w')
    (hdeletes : ∀ w, o.deletes ≠ some (w, i)) : s'.locks i = some w' ∧ Grows s s' := by
  induction hwrote with
  | refl => exact ⟨hheld, grows_refl s⟩
  | tail _ hstep ih =>
      refine ⟨?_, ih.2.trans hstep.1⟩
      rcases hstep.2 i with hsame | hfree | ⟨w, hw⟩
      · exact hsame.trans ih.1
      · cases hfree.symm.trans ih.1
      · exact absurd hw (hdeletes w)

theorem wrote_grows {s s' : System} (hwrote : (lockTerms c).Wrote o s s') : Grows s s' := by
  induction hwrote with
  | refl => exact grows_refl s
  | tail _ hstep ih => exact ih.trans hstep.1

theorem deletes_note {q : Req} {w : WorkerId} (hnote : (note o q).deletes = some (w, i)) : q = .send (.del w i) := by
  cases q with
  | send cmd =>
      cases cmd with
      | del w' i' =>
          cases hnote
          rfl
      | _ => cases hnote
  | reply cmd =>
      cases cmd with
      | _ => cases hnote
  | _ => cases hnote

variable {x : Fleet W} {n : Nat}

theorem Sound.call (hs : Sound x) (c : Call) : Sound (step h x (.call n c)) := by
  simp only [step]
  cases hfree : x.pool.tasks n with
  | some t => exact hs
  | none =>
      have hidle : x.pool.Standing lockTerms (Function.update x.calls n c) (Function.update x.notes n {}) := by
        refine ⟨hs.standing.inv, fun j t ht => ?_⟩
        have hj : j ≠ n := by
          rintro rfl
          cases hfree.symm.trans ht
        rw [Function.update_of_ne hj, Function.update_of_ne hj]
        exact hs.standing.tasks j t ht
      have hstanding : (x.pool.start n (perform c)).Standing lockTerms (Function.update x.calls n c)
          (Function.update x.notes n {}) := by
        refine hidle.start coherent_lockTerms ?_ (fun hwrote j t o _ _ _ => ⟨wrote_grows hwrote, fun w i _ hheld => ?_⟩)
        · rw [Function.update_self, Function.update_self]
          exact under_perform hs.guarded
        · rw [Function.update_self, Function.update_self] at hwrote
          exact (wrote_locks hwrote hheld (fun w' hdeletes => by cases hdeletes)).1
      refine ⟨hstanding.inv (.recover 0), hstanding, fun m q a k ht => ?_⟩
      obtain ⟨hm, ht'⟩ := Pool.start_answered ht
      obtain ⟨o, ho⟩ := hs.noted m q a k ht'
      exact ⟨o, (Function.update_of_ne hm _ _).trans ho⟩

theorem Sound.answer (hs : Sound x) : Sound (step h x (.answer n)) := by
  by_cases hasked : ∃ q k, x.pool.tasks n = some (.asked q k)
  · obtain ⟨q, k, ht⟩ := hasked
    have hnotes : asked x n = note (x.notes n) q := by rw [asked, ht]
    have hstanding := hs.standing.act (h := h) ht
    have htasks : (x.pool.act h n).tasks =
        Function.update x.pool.tasks n (some (.answered q (h x.pool.world q).1 k)) := by rw [Pool.act_asked ht]
    have hstore : (x.pool.act h n).store = x.pool.store := by rw [Pool.act_asked ht]
    refine ⟨?_, ?_, fun m q' a k' hm => ?_⟩
    · exact hstore ▸ hs.guarded
    · simp only [step, hnotes]
      exact hstanding
    · simp only [step, htasks, hnotes] at hm ⊢
      by_cases hmn : m = n
      · subst hmn
        rw [Function.update_self] at hm ⊢
        cases hm
        exact ⟨_, rfl⟩
      · rw [Function.update_of_ne hmn] at hm ⊢
        exact hs.noted m q' a k' hm
  · have hact : x.pool.act h n = x.pool := Pool.act_not_asked (fun q k ht => hasked ⟨q, k, ht⟩)
    have hnotes : asked x n = x.notes n := by
      unfold asked
      split
      next q k ht => exact absurd ⟨q, k, ht⟩ hasked
      next => rfl
    simp only [step, hact, hnotes, Function.update_eq_self]
    exact hs

theorem Sound.resume (hs : Sound x) (hmeets : Meets x (.resume n)) : Sound (step h x (.resume n)) := by
  by_cases hanswered : ∃ q a k, x.pool.tasks n = some (.answered q a k)
  · obtain ⟨q, answer, rest, htask⟩ := hanswered
    obtain ⟨htold, hothers⟩ := hmeets q answer rest htask
    obtain ⟨o', hnote⟩ := hs.noted n q answer rest htask
    have hstanding : (x.pool.resume n).Standing lockTerms x.calls x.notes := by
      refine hs.standing.resume coherent_lockTerms (fun q a k ht => (hmeets q a k ht).1) (fun hwrote j t o hj ht ho => ?_)
      refine ⟨wrote_grows hwrote, fun w i htried hheld => (wrote_locks hwrote hheld (fun w' hdeletes => ?_)).1⟩
      -- the one lock that the call may delete is counted on by no other
      rw [hnote] at hdeletes
      have hq := deletes_note hdeletes
      subst hq
      obtain ⟨rfl, -⟩ := htold.2 w hheld
      exact hothers w i rfl hheld j hj ⟨t, o, ht, ho, htried⟩
    have hstart : x.pool.resume n = x.pool.start n (rest answer) := Pool.resume_answered htask
    refine ⟨hstanding.inv (.recover 0), hstanding, fun m q a k ht => ?_⟩
    have ht' : (x.pool.start n (rest answer)).tasks m = some (.answered q a k) := hstart ▸ ht
    exact hs.noted m q a k (Pool.start_answered ht').2
  · have hidle : x.pool.resume n = x.pool := Pool.resume_not_answered (fun q a k ht => hanswered ⟨q, a, k, ht⟩)
    simp only [step, hidle]
    exact hs

theorem Sound.step {e : Event W} (hs : Sound x) (hmeets : Meets x e) : Sound (Mutex.step h x e) := by
  cases e with
  | call n c => exact hs.call c
  | answer n => exact hs.answer
  | resume n => exact hs.resume hmeets
  | expire i =>
      have hruns : ∀ w, RunsAt w i x.pool.store → (none : Option WorkerId) = some w :=
        fun w hw => absurd hw (hmeets w (hs.guarded.lock w i hw)).1
      have hguarded := hs.guarded.lock_update hruns
      refine ⟨hguarded, hs.standing.disturb coherent_lockTerms (fun _ => hguarded) (fun j t o ht ho => ?_), hs.noted⟩
      refine ⟨grows_locks _ _, fun w i' htried hheld => ?_⟩
      by_cases hi : i' = i
      · subst hi
        exact absurd ⟨t, o, ht, ho, htried⟩ ((hmeets w hheld).2 j)
      · simpa [hi] using hheld
  | table rows =>
      have hguarded : Guarded { x.pool.store with rows := rows.1 } := ⟨rows.2, hs.guarded.numbered, hs.guarded.lock⟩
      refine ⟨hguarded, hs.standing.disturb coherent_lockTerms (fun _ => hguarded) (fun j t o _ _ => ?_), hs.noted⟩
      exact ⟨grows_refl _, fun _ _ _ hheld => hheld⟩
  | world ω => exact ⟨hs.guarded, ⟨hs.standing.inv, hs.standing.tasks⟩, hs.noted⟩

/-- In a run in which every event meets the condition, at most one worker has a
RUNNING process of an instance registered, and no call deletes the lock of another worker. -/
theorem atMostOne_of_allMeet (ω : W) {events : List (Event W)}
    (hmeets : AllMeet (step h) Meets { pool := { store := {}, world := ω } } events) :
    AtMostOne (events.foldl (step h) { pool := { store := {}, world := ω } }).pool.store ∧
      AllMeet (step h) DeletesOwn { pool := { store := {}, world := ω } } events := by
  have hsound : Sound ({ pool := { store := {}, world := ω } } : Fleet W) := by
    have hguarded : Guarded ({} : System) := by
      refine ⟨fun i row hrow => ?_, fun w i ref hreg => ?_, fun w i hruns => ?_⟩
      · simp at hrow
      · cases hreg
      · obtain ⟨ref, hreg, -⟩ := hruns
        cases hreg
    exact ⟨hguarded, ⟨fun _ => hguarded, fun _ _ ht => by cases ht⟩, fun _ _ _ _ ht => by cases ht⟩
  refine ⟨(foldl_of_allMeet (I := Sound) (fun x e hs he => hs.step he) hsound hmeets).guarded.atMostOne, ?_⟩
  refine allMeet_mono (fun x e he => ?_) hmeets
  cases e with
  | resume n => exact fun w i a k ht w' hheld => ((he _ a k ht).1.2 w' hheld).1
  | _ => exact trivial

/-- A call that runs to its end while the others rest. -/
def whole (n : Nat) (c : Call) : List (Event Unit) :=
  .call n c :: (List.replicate 20 [Event.answer n, .resume n]).flatten

def started : List (Event Unit) :=
  whole 0 (.createProcess "a" (Runs.botArgs 1)) ++ whole 1 (.prepare "a" 1) ++ whole 2 (.start 0 "a" 1)

def idle : Fleet Unit := { pool := { store := {}, world := () } }

/-- What may be told of anything but the release of a lock. -/
def plain (c : Call) : (q : Req) → Ans q → Bool
  | .send (.del _ _), _ | .send (.get _ _), _ => false
  | .send _, a => a.executed && a.replied
  | .restoreMemory _, _ => match c with
      | .pause .. => false
      | _ => true
  | _, _ => true

def plainEvent (x : Fleet Unit) : Event Unit → Bool
  | .resume n => match x.pool.tasks n with
      | some (.answered q a _) => plain (x.calls n) q a
      | _ => true
  | .expire _ => false
  | _ => true

def plainly (x : Fleet Unit) : List (Event Unit) → Bool
  | [] => true
  | e :: es => plainEvent x e && plainly (step Runs.unwired x e) es

theorem told_of_plain {q : Req} {a : Ans q} {s : System} (hplain : plain c q a = true) :
    told c s q a ∧ ∀ w i, q ≠ .send (.del w i) := by
  cases q with
  | send cmd =>
      cases cmd with
      | del _ _ | get _ _ => cases hplain
      | setNx _ _ | setState _ _ => exact ⟨Bool.and_eq_true_iff.mp hplain, fun _ _ h => by cases h⟩
  | restoreMemory i =>
      refine ⟨fun w userId hc => ?_, fun _ _ h => by cases h⟩
      subst hc
      cases hplain
  | _ => exact ⟨trivial, fun _ _ h => by cases h⟩

theorem meets_of_plainEvent {x : Fleet Unit} {e : Event Unit} (he : plainEvent x e = true) : Meets x e := by
  cases e with
  | resume n =>
      intro q a k ht
      have hplain : plain (x.calls n) q a = true := by
        rw [plainEvent, ht] at he
        exact he
      obtain ⟨htold, hnot⟩ := told_of_plain (s := x.pool.store) hplain
      exact ⟨htold, fun w i hq => absurd hq (hnot w i)⟩
  | expire i => cases he
  | _ => exact trivial

theorem meets_of_plainly {x : Fleet Unit} {es : List (Event Unit)} (hes : plainly x es = true) :
    AllMeet (step Runs.unwired) Meets x es := by
  induction es generalizing x with
  | nil => exact trivial
  | cons e es ih =>
      obtain ⟨he, hrest⟩ := Bool.and_eq_true_iff.mp hes
      exact ⟨meets_of_plainEvent he, ih hrest⟩

theorem atMostOne_of_allMeet_started :
    AtMostOne (started.foldl (step Runs.unwired) idle).pool.store ∧
      AllMeet (step Runs.unwired) DeletesOwn idle started :=
  atMostOne_of_allMeet () (meets_of_plainly (by decide +kernel))

/-- A pause that comes to another worker deletes the lock, and lets that worker resume the bot. -/
theorem pause_elsewhere_frees_lock :
    ¬ AtMostOne ((started ++ whole 3 (.pause 1 "a" 1) ++ whole 4 (.resume 1 "a" 1)).foldl (step Runs.unwired)
      idle).pool.store := by
  intro h
  have h0 : RunsAt 0 "a" ((started ++ whole 3 (.pause 1 "a" 1) ++ whole 4 (.resume 1 "a" 1)).foldl (step Runs.unwired)
      idle).pool.store := ⟨0, by decide +kernel, by decide +kernel⟩
  have h1 : RunsAt 1 "a" ((started ++ whole 3 (.pause 1 "a" 1) ++ whole 4 (.resume 1 "a" 1)).foldl (step Runs.unwired)
      idle).pool.store := ⟨1, by decide +kernel, by decide +kernel⟩
  exact absurd (h "a" 0 1 h0 h1) (by decide)

end Utos.Process.Mutex
