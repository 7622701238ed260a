import Utos.Process.Moves

namespace Utos.Process.Recovery

open Coroutine Program Core Core.DomainTypes Core.Exceptions StateMachine Manager Wiring Lifecycle Runs Records Moves

variable {W : Type} {h : Handler W Req Ans} {s : System} {ω : W} {w : WorkerId} {row : TradingInstance}

/-- The rows agree in all that is not written again after the creation. -/
def SameBot (row row' : TradingInstance) : Prop := { row' with status := row.status, history := row.history } = row

theorem SameBot.withStatus {row' : TradingInstance} (hrow : SameBot row row') (status : TradingInstanceStatus) :
    SameBot row (row'.withStatus status) := hrow

theorem SameBot.id_eq {row' : TradingInstance} (hrow : SameBot row row') : row'.id = row.id := by
  rw [SameBot] at hrow
  have hid := congrArg TradingInstance.id hrow
  exact hid

/-- At most the one row has been written, and only its status. -/
def Touched (rows : Rows) (row : TradingInstance) (rows' : Rows) : Prop :=
  ∃ cur, Sets rows row.id cur rows' ∧ SameBot row cur

theorem touched_refl {rows : Rows} (hrow : rows.get row.id = some row) : Touched rows row rows := by
  refine ⟨row, fun j => ?_, rfl⟩
  split
  next hj => rw [hj, hrow]
  next => rfl

theorem Touched.persisted {rows : Rows} {cur : TradingInstance} (hsets : Sets rows row.id cur s.rows)
    (hsame : SameBot row cur) (status : TradingInstanceStatus) :
    Sets rows row.id (cur.withStatus status) (persisted s (cur.withStatus status)).rows := by
  refine hsets.again ?_
  have hid : (cur.withStatus status).id = row.id := hsame.id_eq
  rw [← hid]
  exact sets_set _ _ _

theorem wp_persist_touched {rows : Rows} {status : TradingInstanceStatus}
    {R : Except Exn TradingInstance → System → W → Prop} (hs : Touched rows row s.rows)
    (herr : ∀ e s' ω', Touched rows row s'.rows → R (.error e) s' ω')
    (hok : ∀ cur s' ω', Sets rows row.id (cur.withStatus status) s'.rows → SameBot row cur →
      R (.ok (cur.withStatus status)) s' ω') : wp h (persistStatus row status) R s ω := by
  obtain ⟨cur, hsets, hsame⟩ := hs
  refine wp_persistStatus hsets.get_self hsame.id_eq (fun e ω' => herr e s ω' ⟨cur, hsets, hsame⟩) ?_
  have hwritten := Touched.persisted hsets hsame status
  rintro (e | a) ω' ha
  · exact herr e _ ω' ⟨_, hwritten, hsame.withStatus status⟩
  · rw [ha a rfl]
    exact hok cur _ ω' hwritten hsame

theorem keeps_takeOver {J : System → W → Prop} (hJ : Calm h J)
    (hlock : ∀ s w locks, J s w → J { s with locks := locks } w) (i : InstanceId) : Keeps h J (takeOver w i) := by
  refine keeps_bind (keeps_acquireLock hJ hlock w i) (fun acquired => ?_)
  split
  · refine keeps_bind (keeps_currentLock hJ w i) (fun held => ?_)
    cases held with
    | none => exact keeps_ret _
    | some other => exact keeps_raise _
  · exact keeps_ret _

/-- The checks keep what the lock does not disturb, and hand on what is known of the process they build. -/
theorem wp_recoveryChecks {J : System → W → Prop} {J' : Nat → System → W → Prop} (hJ : Calm h J)
    (hlock : ∀ s w locks, J s w → J { s with locks := locks } w) (hJ' : ∀ ref, Calm h (J' ref))
    (hdown : ∀ ref s ω, J' ref s ω → J s ω)
    (hbuild : ∀ s ω, J s ω → wp h (buildProcessFromInstance w row)
      (fun r s' ω' => J s' ω' ∧ ∀ ref, r = .ok ref → J' ref s' ω') s ω) (hs : J s ω) :
    wp h (recoveryChecks w row) (fun r s' ω' => J s' ω' ∧ ∀ ref, r = .ok (some ref) → J' ref s' ω') s ω := by
  rw [recoveryChecks, bind_eq]
  refine wp_bind_of_keeps (keeps_takeOver hJ hlock row.id) hs (fun _ _ _ h1 => ⟨h1, fun _ he => by cases he⟩)
    (fun _ s1 ω1 h1 => ?_)
  rw [buildFit, bind_eq, wp_bind]
  refine wp_mono (hbuild s1 ω1 h1) ?_
  rintro (e | ref) s2 ω2 ⟨h2, hbuilt⟩
  · exact ⟨h2, fun _ he => by cases he⟩
  rw [andThen_ok, bind_eq, wp_bind, wp_read, andThen_ok]
  refine wp_bind_of_keeps (keeps_request (hJ' ref) rfl) (hbuilt ref rfl)
    (fun _ _ _ h3 => ⟨hdown _ _ _ h3, fun _ he => by cases he⟩) (fun healthy s3 ω3 h3 => ?_)
  split
  · exact ⟨hdown _ _ _ h3, fun _ he => by cases he⟩
  · refine wp_bind_of_keeps (keeps_symbolSupported (hJ' ref) _ _) h3
      (fun _ _ _ h4 => ⟨hdown _ _ _ h4, fun _ he => by cases he⟩) (fun supported s4 ω4 h4 => ⟨hdown _ _ _ h4, fun ref' he => ?_⟩)
    cases supported <;> cases he
    exact h4

theorem keeps_recoveryChecks {J : System → W → Prop} (hJ : Unlocked h J) (row : TradingInstance) :
    Keeps h J (recoveryChecks w row) := by
  intro s ω hs
  refine wp_mono (wp_recoveryChecks (J := J)  hJ.toCalm hJ.lock (fun _ => hJ.toCalm)
    (fun _ _ _ h1 => h1) (fun s ω h1 => ?_) hs) (fun _ _ _ h1 => h1.1)
  exact wp_of_keeps (keeps_buildProcess hJ.toQuiet w row) h1 (fun _ _ _ h2 => ⟨h2, fun _ _ => h2⟩)

/-- What a recovery makes of the status of a row. -/
def Ended (row row' : TradingInstance) : Prop :=
  SameBot row row' ∧ (row'.status = .error ∨
    row'.status = row.status ∧ (row.status = .running ∨ row.status = .paused))

theorem finalStatus_eq {status : TradingInstanceStatus} (hstatus : .recovering ∈ transitions status) :
    finalStatus status = status ∧ (status = .running ∨ status = .paused) := by
  revert hstatus
  cases status <;> simp [transitions, finalStatus]

/-- The end of a recovery, and where it may stop before. -/
def Restoring (rows : Rows) (row : TradingInstance) : Except Exn TradingInstance → System → W → Prop
  | .ok _, s', _ => ∃ row', Sets rows row.id row' s'.rows ∧ Ended row row'
  | .error _, s', _ => Touched rows row s'.rows

theorem wp_restore {rows : Rows} {ref : Nat} (hedge : .recovering ∈ transitions row.status)
    (hs : Touched rows row s.rows) : wp h (restore w row ref) (Restoring rows row) s ω := by
  have hJ := aboutRows (h := h) (fun rows' => Touched rows row rows')
  obtain ⟨hfinal, hstatus⟩ := finalStatus_eq hedge
  refine wp_bind_of_keeps (keeps_setProcessStatus hJ.toQuiet ref _) hs (fun _ _ _ h1 => h1) (fun _ s1 ω1 h1 => ?_)
  rw [bind_eq, wp_bind]
  refine wp_persist_touched h1 (fun _ _ _ h2 => h2) (fun cur s2 ω2 hsets hsame => ?_)
  rw [andThen_ok]
  refine wp_bind_of_keeps (keeps_setProcessStatus hJ.toQuiet ref _) ⟨_, hsets, hsame.withStatus _⟩ (fun _ _ _ h3 => h3)
    (fun _ s3 ω3 h3 => ?_)
  rw [bind_eq, wp_bind]
  refine wp_persist_touched h3 (fun _ _ _ h4 => h4) (fun cur' s4 ω4 hsets' hsame' => ?_)
  rw [andThen_ok]
  have hJ' := aboutRows (h := h) (fun rows' => ∃ row', Sets rows row.id row' rows' ∧ Ended row row')
  have hended : Ended row (cur'.withStatus (finalStatus row.status)) :=
    ⟨hsame'.withStatus _, .inr ⟨hfinal, hstatus⟩⟩
  have htouched : ∀ s' : System, (∃ row', Sets rows row.id row' s'.rows ∧ Ended row row') →
      Touched rows row s'.rows := by
    rintro s' ⟨row', hrow', hend⟩
    exact ⟨row', hrow', hend.1⟩
  refine wp_bind_of_keeps (keeps_setState hJ'.toCalm w _) ⟨_, hsets', hended⟩ (fun _ s' _ h5 => htouched s' h5)
    (fun _ s5 ω5 h5 => ?_)
  refine wp_bind_of_keeps (keeps_register hJ' w row.id ref) h5 (fun _ s' _ h6 => htouched s' h6) (fun _ s6 ω6 h6 => ?_)
  exact h6

theorem wp_recoverInstance (hrow : s.rows.get row.id = some row) :
    wp h (recoverInstance w row) (Restoring s.rows row) s ω := by
  have hJ := aboutRows (h := h) (fun rows' => Touched s.rows row rows')
  have hs := touched_refl hrow
  rw [recoverInstance, bind_eq, wp_bind]
  refine wp_validate (fun _ => hs) (fun hedge => ?_)
  rw [andThen_ok]
  refine wp_bind_of_keeps (keeps_recoveryChecks hJ.toUnlocked row) hs (fun _ _ _ h1 => h1) (fun fit s1 ω1 h1 => ?_)
  cases fit with
  | none =>
      exact wp_persist_touched (R := Restoring s.rows row) h1 (fun _ _ _ h2 => h2)
        (fun cur s2 ω2 hsets hsame => ⟨_, hsets, hsame.withStatus _, .inl rfl⟩)
  | some ref => exact wp_restore hedge h1

theorem wp_recoverOne (hrow : s.rows.get row.id = some row) :
    wp h (recoverOne w row) (onOk fun _ s' _ => ∃ row', Sets s.rows row.id row' s'.rows ∧ Ended row row') s ω := by
  rw [recoverOne, tryCatch_eq, wp_tryCatch, bind_eq, wp_bind]
  refine wp_mono (wp_recoverInstance hrow) ?_
  rintro (e | a) s1 ω1 h1
  · rw [andThen_error, orElse_error, bind_eq, wp_bind]
    refine wp_persist_touched h1 (fun _ _ _ _ => trivial) (fun cur s2 ω2 hsets hsame => ?_)
    exact ⟨_, hsets, hsame.withStatus _, .inl rfl⟩
  · exact h1

/-- What recover makes of the table: the rows it deals with come to their end, the others stay. -/
def Restarted (rows rows' : Rows) : Prop :=
  ∀ i, rows'.get i = rows.get i ∨ ∃ row row', rows.get i = some row ∧ rows'.get i = some row' ∧ Ended row row'

theorem restarted_refl (rows : Rows) : Restarted rows rows := fun _ => .inl rfl

theorem SameBot.trans {row' row'' : TradingInstance} (hrow : SameBot row row') (hrow' : SameBot row' row'') :
    SameBot row row'' := by
  rw [SameBot] at hrow hrow'
  rw [← hrow, ← hrow']
  rfl

theorem Ended.trans {row' row'' : TradingInstance} (hend : Ended row row') (hend' : Ended row' row'') :
    Ended row row'' := by
  refine ⟨hend.1.trans hend'.1, ?_⟩
  rcases hend'.2 with herr | ⟨hsame, hlive⟩
  · exact .inl herr
  · rcases hend.2 with herr | ⟨hsame', hlive'⟩
    · exact .inl (hsame.trans herr)
    · exact .inr ⟨hsame.trans hsame', hlive'⟩

theorem Restarted.trans {rows rows' rows'' : Rows} (hr : Restarted rows rows') (hr' : Restarted rows' rows'') :
    Restarted rows rows'' := by
  intro i
  rcases hr' i with hsame' | ⟨row, row', hrow, hrow', hend⟩
  · rcases hr i with hsame | ⟨row, row', hrow, hrow', hend⟩
    · exact .inl (hsame'.trans hsame)
    · exact .inr ⟨row, row', hrow, hsame'.trans hrow', hend⟩
  · rcases hr i with hsame | ⟨row0, row1, hrow0, hrow1, hend0⟩
    · exact .inr ⟨row, row', hsame ▸ hrow, hrow', hend⟩
    · rw [hrow1] at hrow
      cases hrow
      exact .inr ⟨row0, row', hrow0, hrow', hend0.trans hend⟩

theorem Ended.restarted {rows rows' : Rows} {row' : TradingInstance} (hrow : rows.get row.id = some row)
    (hsets : Sets rows row.id row' rows') (hend : Ended row row') : Restarted rows rows' := by
  intro i
  by_cases hi : i = row.id
  · subst hi
    exact .inr ⟨row, row', hrow, hsets.get_self, hend⟩
  · left
    rw [hsets i, if_neg hi]

theorem rowsWith_nodup (hkeyed : Keyed s.rows) (status : TradingInstanceStatus) :
    ((rowsWith s status).map TradingInstance.id).Nodup := by
  have hids : (s.rows.entries.map Prod.snd).map TradingInstance.id = s.rows.entries.map Prod.fst := by
    rw [List.map_map]
    exact List.map_congr_left (fun e he => hkeyed e.1 e.2 (Dict.get_of_mem he))
  have hsub : List.Sublist ((rowsWith s status).map TradingInstance.id) (s.rows.entries.map Prod.fst) := by
    rw [← hids]
    exact List.filter_sublist.map _
  exact List.Nodup.sublist hsub s.rows.nodup

theorem rowsWith_current (hkeyed : Keyed s.rows) {status : TradingInstanceStatus}
    (hrow : row ∈ rowsWith s status) : s.rows.get row.id = some row := by
  obtain ⟨i, hget, -⟩ := mem_rowsWith.mp hrow
  rw [hkeyed i row hget, hget]

theorem wp_recoverAll {rows : List TradingInstance} (hnodup : (rows.map TradingInstance.id).Nodup)
    (hrows : ∀ row ∈ rows, s.rows.get row.id = some row) :
    wp h (recoverAll w rows) (onOk fun _ s' _ => Restarted s.rows s'.rows) s ω := by
  induction rows generalizing s ω with
  | nil => exact restarted_refl _
  | cons row rows ih =>
      rw [List.map_cons, List.nodup_cons] at hnodup
      have hrow := hrows row List.mem_cons_self
      rw [recoverAll, bind_eq, wp_bind]
      refine wp_mono (wp_recoverOne hrow) ?_
      rintro (e | a) s1 ω1 h1
      · exact trivial
      · obtain ⟨row', hsets, hend⟩ := h1
        have hrest : ∀ other ∈ rows, s1.rows.get other.id = some other := by
          intro other hother
          have hne : other.id ≠ row.id := fun he => hnodup.1 (he ▸ List.mem_map_of_mem hother)
          rw [hsets, if_neg hne]
          exact hrows other (List.mem_cons_of_mem row hother)
        rw [andThen_ok, bind_eq, wp_bind]
        refine wp_mono (ih hnodup.2 hrest) ?_
        rintro (e | others) s2 ω2 h2
        · exact trivial
        · exact (hend.restarted hrow hsets).trans h2

theorem Restarted.keyed {rows rows' : Rows} (hkeyed : Keyed rows) (hr : Restarted rows rows') : Keyed rows' := by
  intro i row' hrow'
  rcases hr i with hsame | ⟨row, row'', hrow, hrow'', hend⟩
  · exact hkeyed i row' (hsame ▸ hrow')
  · rw [hrow'] at hrow''
    cases hrow''
    exact hend.1.id_eq.trans (hkeyed i row hrow)

theorem wp_recoverStatus (hkeyed : Keyed s.rows) (status : TradingInstanceStatus) :
    wp h (recoverStatus w status) (onOk fun _ s' _ => Restarted s.rows s'.rows) s ω := by
  rw [recoverStatus, bind_eq, wp_bind]
  refine wp_getByStatus (fun _ _ => trivial) (fun ω1 => ?_)
  exact wp_recoverAll (rowsWith_nodup hkeyed status) (fun row hrow => rowsWith_current hkeyed hrow)

theorem recover_restarts (hkeyed : Keyed s.rows) :
    wp h (recover w) (onOk fun _ s' _ => Restarted s.rows s'.rows) s ω := by
  rw [recover, bind_eq, wp_bind]
  refine wp_mono (wp_recoverStatus hkeyed .running) ?_
  rintro (e | running) s1 ω1 h1
  · exact trivial
  rw [andThen_ok, bind_eq, wp_bind]
  have hkeyed1 := Restarted.keyed hkeyed h1
  refine wp_mono (wp_recoverStatus hkeyed1 .paused) ?_
  rintro (e | paused) s2 ω2 h2
  · exact trivial
  rw [andThen_ok, bind_eq, wp_bind]
  refine wp_mono (wp_recoverStatus (Restarted.keyed hkeyed1 h2) .recovering) ?_
  rintro (e | recovering) s3 ω3 h3
  · exact trivial
  · exact (Restarted.trans h1 h2).trans h3

theorem perform_restarts (hkeyed : Keyed s.rows) :
    Restarted s.rows (outcome h (s, ω) (.recover w)).2.1.rows := by
  have hwp : wp h (perform (.recover w)) (fun _ s' _ => Restarted s.rows s'.rows) s ω := by
    refine wp_inSession (wp_mono (recover_restarts hkeyed) ?_)
    intro r s' ω' hr
    refine ⟨fun e _ => restarted_refl _, fun a _ ha => ?_⟩
    subst ha
    exact hr
  exact hwp

theorem keyed_of_moved {rows' : Rows} {c : Call} (hkeyed : Keyed s.rows) (hm : Moved s rows' c) : Keyed rows' := by
  have hold : ∀ {i} {row row' : TradingInstance}, Sets s.rows i row' rows' → s.rows.get i = some row →
      row'.id = row.id → Keyed rows' :=
    fun hsets hrow hid => hkeyed.sets (hid.trans (hkeyed _ _ hrow)) hsets
  cases hm with
  | created hnew hactive hsets => exact Keyed.sets hkeyed (rfl : (newInstance _ _).id = _) hsets
  | prepared hrow hedge hsets => exact hold hsets hrow rfl
  | started hrow howner hedge hdup hsets => exact hold hsets hrow rfl
  | paused hrow hedge hsets => exact hold hsets hrow rfl
  | resumed hrow howner hedge hsets => exact hold hsets hrow rfl
  | stopped hrow hedge hsets => exact hold hsets hrow rfl

/-- The rows stand under their own ids after every event. -/
theorem keyed_step {x : System × W} (hkeyed : Keyed x.1.rows) (e : Runs.Event W) :
    Keyed (Runs.step h x e).1.rows := by
  cases e with
  | call c =>
      by_cases hc : ∀ w, c ≠ .recover w
      · rcases perform_moves (ω := x.2) (h := h) hkeyed hc with hsame | hm
        · exact hsame ▸ hkeyed
        · exact keyed_of_moved hkeyed hm
      · obtain ⟨w, rfl⟩ : ∃ w, c = .recover w := by simpa using hc
        exact (perform_restarts hkeyed).keyed hkeyed
  | restart w gridUp hubUp => exact hkeyed
  | expire i => exact hkeyed
  | world ω => exact hkeyed

end Utos.Process.Recovery
