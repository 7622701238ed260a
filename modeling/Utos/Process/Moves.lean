import Utos.Process.Records
import Utos.Process.Lifecycle

namespace Utos.Process.Moves

open Coroutine Program Core Core.DomainTypes Core.Exceptions StateMachine Manager Wiring Lifecycle Runs Records

variable {W : Type} {h : Handler W Req Ans}

/-- What a call that commits has done to the table; recover apart. -/
inductive Moved (s : System) (rows' : Rows) : Call → Prop
  | created {i : InstanceId} {args : CreateArgs} (hnew : s.rows.get i = none)
      (hactive : activeWith s args.symbol args.exchangeAccountId = [])
      (hsets : Sets s.rows i (newInstance i args) rows') : Moved s rows' (.createProcess i args)
  | prepared {i : InstanceId} {userId : UUID} {row : TradingInstance} (hrow : s.rows.get i = some row)
      (hedge : .ready ∈ transitions row.status) (hsets : Sets s.rows i (row.withStatus .ready) rows') :
      Moved s rows' (.prepare i userId)
  | started {w : WorkerId} {i : InstanceId} {userId : UUID} {row : TradingInstance}
      (hrow : s.rows.get i = some row) (howner : row.userId = userId) (hedge : .running ∈ transitions row.status)
      (hdup : ∀ other ∈ rowsWith s .running, duplicates row other = false)
      (hsets : Sets s.rows i (row.withStatus .running) rows') : Moved s rows' (.start w i userId)
  | paused {w : WorkerId} {i : InstanceId} {userId : UUID} {row : TradingInstance} (hrow : s.rows.get i = some row)
      (hedge : .paused ∈ transitions row.status) (hsets : Sets s.rows i (row.withStatus .paused) rows') :
      Moved s rows' (.pause w i userId)
  | resumed {w : WorkerId} {i : InstanceId} {userId : UUID} {row : TradingInstance}
      (hrow : s.rows.get i = some row) (howner : row.userId = userId) (hedge : .running ∈ transitions row.status)
      (hsets : Sets s.rows i (row.withStatus .running) rows') : Moved s rows' (.resume w i userId)
  | stopped {w : WorkerId} {i : InstanceId} {userId : UUID} {row : TradingInstance} (hrow : s.rows.get i = some row)
      (hedge : .stopping ∈ transitions row.status)
      (hsets : Sets s.rows i ((row.withStatus .stopping).withStatus .stopped) rows') : Moved s rows' (.stop w i userId)

variable {s : System} {ω : W} {w : WorkerId} {i : InstanceId} {userId : UUID} {row : TradingInstance}

theorem wp_unmoved {α β : Type} {rows : Rows} {p : Op α} {f : α → Op β} {Post : β → System → W → Prop}
    (hp : Keeps h (fun s _ => s.rows = rows) p) (hs : s.rows = rows)
    (hf : ∀ a s' ω', s'.rows = rows → wp h (f a) (onOk Post) s' ω') : wp h (p >>= f) (onOk Post) s ω :=
  wp_bind_of_keeps hp hs (fun _ _ _ _ => trivial) hf

/-- The end of the operations: a status is persisted, and what follows leaves the table alone. -/
theorem wp_persist_last {β : Type} {status : TradingInstanceStatus} {f : TradingInstance → Op β}
    {s1 : System} {P : Rows → Prop} (hrow : s1.rows.get row.id = some row)
    (hf : ∀ a, Keeps h (fun s _ => s.rows = s1.rows.set row.id (row.withStatus status)) (f a))
    (hP : P (s1.rows.set row.id (row.withStatus status))) :
    wp h (persistStatus row status >>= f) (onOk fun _ s' _ => P s'.rows) s1 ω := by
  rw [bind_eq, wp_bind]
  refine wp_persistStatus hrow rfl (fun _ _ => trivial) ?_
  rintro (e | a) ω' -
  · exact trivial
  · rw [andThen_ok]
    refine wp_of_keeps (hf a) (s := persisted s1 (row.withStatus status)) rfl ?_
    rintro (e | b) s' ω'' hs'
    · exact trivial
    · rw [onOk_ok, hs']
      exact hP

theorem start_moves (hkeyed : Keyed s.rows) :
    wp h (start w i userId) (onOk fun _ s' _ => Moved s s'.rows (.start w i userId)) s ω := by
  have hJ := aboutRows (h := h) (fun rows => rows = s.rows)
  refine wp_opened still_true trivial (fun _ _ _ => trivial) (fun row ω1 _ hrow howner hedge => ?_)
  have hid := hkeyed i row hrow
  rw [bind_eq, wp_bind]
  refine wp_checkDuplicateRunning (fun _ _ => trivial) (fun ω2 hdup => ?_)
  rw [andThen_ok]
  refine wp_unmoved (keeps_acquireLock hJ.toCalm hJ.lock w i) rfl (fun acquired s1 ω3 h1 => ?_)
  refine wp_unmoved (keeps_raiseIf _ _) h1 (fun _ s2 ω4 h2 => ?_)
  refine wp_unmoved (keeps_buildProcess hJ.toQuiet w row) h2 (fun ref s3 ω5 h3 => ?_)
  refine wp_unmoved (keeps_setProcessStatus hJ.toQuiet ref _) h3 (fun _ s4 ω6 h4 => ?_)
  refine wp_unmoved (keeps_register hJ w row.id ref) h4 (fun _ s5 ω7 h5 => ?_)
  refine wp_unmoved (keeps_wire hJ.toQuiet w row ref) h5 (fun _ s6 ω8 h6 => ?_)
  refine wp_persist_last (P := fun rows => Moved s rows (.start w i userId)) (by rw [h6, hid, hrow]) (fun a => ?_) ?_
  · exact keeps_bind (keeps_setState (aboutRows (fun rows => rows = _)).toCalm w i) (fun _ => keeps_ret _)
  · rw [h6, hid]
    exact .started hrow howner hedge hdup (sets_set _ _ _)

theorem pause_moves (hkeyed : Keyed s.rows) :
    wp h (pause w i userId) (onOk fun _ s' _ => Moved s s'.rows (.pause w i userId)) s ω := by
  have hJ := aboutRows (h := h) (fun rows => rows = s.rows)
  refine wp_opened still_true trivial (fun _ _ _ => trivial) (fun row ω1 _ hrow howner hedge => ?_)
  have hid := hkeyed i row hrow
  refine wp_unmoved (keeps_getOrBuild hJ w row) rfl (fun ref s1 ω2 h1 => ?_)
  refine wp_unmoved (keeps_unwire hJ.toQuiet w row ref) h1 (fun _ s2 ω3 h2 => ?_)
  refine wp_unmoved (keeps_setProcessStatus hJ.toQuiet ref _) h2 (fun _ s3 ω4 h3 => ?_)
  refine wp_persist_last (P := fun rows => Moved s rows (.pause w i userId)) (by rw [h3, hid, hrow]) (fun a => ?_) ?_
  · have hJ' := aboutRows (h := h) (fun rows => rows = s3.rows.set row.id (row.withStatus .paused))
    exact keeps_bind (keeps_setState hJ'.toCalm w i) (fun _ => keeps_bind (keeps_releaseLock hJ'.toCalm hJ'.lock w i) (fun _ => keeps_ret _))
  · rw [h3, hid]
    exact .paused hrow hedge (sets_set _ _ _)

theorem resume_moves (hkeyed : Keyed s.rows) :
    wp h (resume w i userId) (onOk fun _ s' _ => Moved s s'.rows (.resume w i userId)) s ω := by
  have hJ := aboutRows (h := h) (fun rows => rows = s.rows)
  refine wp_opened still_true trivial (fun _ _ _ => trivial) (fun row ω1 _ hrow howner hedge => ?_)
  have hid := hkeyed i row hrow
  refine wp_unmoved (keeps_releaseLock hJ.toCalm hJ.lock w i) rfl (fun _ s1 ω2 h1 => ?_)
  refine wp_unmoved (keeps_acquireLock hJ.toCalm hJ.lock w i) h1 (fun acquired s2 ω3 h2 => ?_)
  refine wp_unmoved (keeps_raiseIf _ _) h2 (fun _ s3 ω4 h3 => ?_)
  refine wp_unmoved (keeps_getOrBuild hJ w row) h3 (fun ref s4 ω5 h4 => ?_)
  refine wp_unmoved (keeps_setProcessStatus hJ.toQuiet ref _) h4 (fun _ s5 ω6 h5 => ?_)
  refine wp_persist_last (P := fun rows => Moved s rows (.resume w i userId)) (by rw [h5, hid, hrow]) (fun a => ?_) ?_
  · exact keeps_bind (keeps_setState (aboutRows (fun rows => rows = _)).toCalm w i) (fun _ => keeps_ret _)
  · rw [h5, hid]
    exact .resumed hrow howner hedge (sets_set _ _ _)

theorem stop_moves (hkeyed : Keyed s.rows) :
    wp h (stop w i userId) (onOk fun _ s' _ => Moved s s'.rows (.stop w i userId)) s ω := by
  refine wp_opened still_true trivial (fun _ _ _ => trivial) (fun row ω1 _ hrow howner hedge => ?_)
  have hid := hkeyed i row hrow
  have hflush : wp h (flushStatus row .stopping)
      (onOk fun _ s' _ => s'.rows = s.rows.set i (row.withStatus .stopping)) s ω1 := by
    refine wp_flushStatus (fun e => trivial) ?_
    simp [hid, hrow]
  rw [bind_eq, wp_bind]
  refine wp_mono hflush ?_
  rintro (e | u) s1 ω2 h1
  · exact trivial
  · have hJ := aboutRows (h := h) (fun rows => rows = s.rows.set i (row.withStatus .stopping))
    rw [andThen_ok]
    refine wp_unmoved (keeps_dismantle hJ.toQuiet w row) h1 (fun _ s2 ω3 h2 => ?_)
    refine wp_unmoved (keeps_releaseLock hJ.toCalm hJ.lock w i) h2 (fun _ s3 ω4 h3 => ?_)
    refine wp_unmoved (keeps_unregister hJ w i) h3 (fun _ s4 ω5 h4 => ?_)
    have hstopping : s4.rows.get i = some (row.withStatus .stopping) := by rw [h4, Dict.get_set_self]
    rw [bind_eq, wp_bind]
    have hcur : s4.rows.get row.id = some (row.withStatus .stopping) := by rw [hid, hstopping]
    refine wp_persistStatus hcur rfl (fun _ _ => trivial) ?_
    rintro (e | a) ω6 -
    · exact trivial
    · rw [andThen_ok]
      have hJ' := aboutRows (h := h)
        (fun rows => rows = s4.rows.set row.id ((row.withStatus .stopping).withStatus .stopped))
      refine wp_unmoved (keeps_setState hJ'.toCalm w i) rfl (fun _ s5 ω7 h5 => ?_)
      refine .stopped hrow hedge ?_
      change Sets s.rows i _ s5.rows
      rw [h5, hid, h4]
      exact (sets_set _ _ _).again (sets_set _ _ _)

theorem prepare_moves (hkeyed : Keyed s.rows) :
    wp h (prepare i userId) (onOk fun _ s' _ => Moved s s'.rows (.prepare i userId)) s ω := by
  have hJ := aboutRows (h := h) (fun rows => rows = s.rows)
  refine wp_opened still_true trivial (fun _ _ _ => trivial) (fun row ω1 _ hrow howner hedge => ?_)
  have hid := hkeyed i row hrow
  refine wp_unmoved (keeps_getAccount hJ.toCalm _) rfl (fun account s1 ω2 h1 => ?_)
  refine wp_unmoved (keeps_request hJ.toCalm rfl) h1 (fun active s2 ω3 h2 => ?_)
  refine wp_unmoved (keeps_raiseIf _ _) h2 (fun _ s3 ω4 h3 => ?_)
  refine wp_unmoved (keeps_validateAccount account) h3 (fun _ s4 ω5 h4 => ?_)
  refine wp_unmoved (keeps_authenticateAdapter hJ.toCalm account) h4 (fun _ s5 ω6 h5 => ?_)
  refine wp_unmoved (keeps_validateSymbol hJ.toCalm _ _) h5 (fun _ s6 ω7 h6 => ?_)
  refine wp_persistStatus (by rw [h6, hid, hrow]) rfl (fun _ _ => trivial) ?_
  rintro (e | a) ω8 -
  · exact trivial
  · refine .prepared hrow hedge ?_
    change Sets s.rows i _ (s6.rows.set row.id _)
    rw [h6, hid]
    exact sets_set _ _ _

theorem createProcess_moves {args : CreateArgs} :
    wp h (createProcess i args) (onOk fun _ s' _ => Moved s s'.rows (.createProcess i args)) s ω := by
  have hJ := aboutRows (h := h) (fun rows => rows = s.rows)
  refine wp_unmoved (keeps_checkRecords hJ.toCalm args) rfl (fun _ s1 ω1 h1 => ?_)
  refine wp_unmoved (keeps_request hJ.toCalm rfl) h1 (fun _ s2 ω2 h2 => ?_)
  rw [bind_eq, wp_bind, wp_read, andThen_ok, bind_eq, wp_bind]
  refine wp_raiseIf _ _ (fun _ => trivial) (fun hactive => ?_)
  rw [andThen_ok]
  refine wp_unmoved (keeps_request hJ.toCalm rfl) h2 (fun _ s3 ω3 h3 => ?_)
  have hactive' : activeWith s args.symbol args.exchangeAccountId = [] := by
    rw [activeWith, ← h2]
    exact not_not.mp hactive
  rw [wp_attempt, h3]
  cases hnew : s.rows.get i with
  | some row => exact trivial
  | none => exact .created hnew hactive' (sets_set _ _ _)

theorem wp_one {p : Op TradingInstance} {Post : System → W → Prop} (hp : wp h p (onOk fun _ => Post) s ω) :
    wp h (one p) (onOk fun _ => Post) s ω := by
  rw [one, bind_eq, wp_bind]
  refine wp_mono hp ?_
  rintro (e | a) s' ω' hPost
  · exact trivial
  · exact hPost

theorem operation_moves {c : Call} (hkeyed : Keyed s.rows) (hc : ∀ w, c ≠ .recover w) :
    wp h (operation c) (onOk fun _ s' _ => Moved s s'.rows c) s ω := by
  cases c with
  | createProcess i args => exact wp_one createProcess_moves
  | prepare i userId => exact wp_one (prepare_moves hkeyed)
  | start w i userId => exact wp_one (start_moves hkeyed)
  | pause w i userId => exact wp_one (pause_moves hkeyed)
  | resume w i userId => exact wp_one (resume_moves hkeyed)
  | stop w i userId => exact wp_one (stop_moves hkeyed)
  | recover w => exact absurd rfl (hc w)

/-- A call in its session moves the table as its operation does if it returns, and not at all if it raises. -/
theorem wp_perform {c : Call} (hkeyed : Keyed s.rows) (hc : ∀ w, c ≠ .recover w) :
    wp h (perform c) (fun r s' _ => (∀ e, r = .error e → s'.rows = s.rows) ∧ ∀ a, r = .ok a → Moved s s'.rows c)
      s ω := by
  refine wp_inSession (wp_mono (operation_moves hkeyed hc) ?_)
  intro r s' ω' hr
  refine ⟨fun e _ => ⟨fun _ _ => rfl, fun a ha => (by cases ha)⟩, fun a _ ha => ⟨fun e he => (by cases he), fun _ _ => ?_⟩⟩
  subst ha
  exact hr

/-- A call in its session has moved the table as its operation does, or not at all. -/
theorem perform_moves {c : Call} (hkeyed : Keyed s.rows) (hc : ∀ w, c ≠ .recover w) :
    (outcome h (s, ω) c).2.1.rows = s.rows ∨ Moved s (outcome h (s, ω) c).2.1.rows c := by
  have hwp : wp h (perform c) (fun _ s' _ => s'.rows = s.rows ∨ Moved s s'.rows c) s ω := by
    refine wp_inSession (wp_mono (operation_moves hkeyed hc) ?_)
    intro r s' ω' hr
    refine ⟨fun e _ => .inl rfl, fun a _ ha => ?_⟩
    subst ha
    exact .inr hr
  exact hwp

end Utos.Process.Moves
