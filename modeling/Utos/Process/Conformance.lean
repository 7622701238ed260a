import Utos.Process.Recovery

namespace Utos.Process.Conformance

open Coroutine Program Core Core.DomainTypes Core.Exceptions StateMachine Manager Lifecycle Runs Records Moves Recovery

variable {W : Type} {h : Handler W Req Ans} {w : WorkerId} {row : TradingInstance} {rows : List TradingInstance}
variable {s : System} {ω : W}

/-- Two consecutive statuses of a row. -/
def Follows (newer older : TradingInstanceStatus) : Prop := newer = older ∨ newer ∈ transitions older

/-- The persisted statuses of a row, the newest first, follow one another as the state machine has it. -/
structure Conforms (row : TradingInstance) : Prop where
  head : row.history.head? = some row.status
  chain : row.history.IsChain Follows

/-- A property of the rows a recover call finds, each with the state in which its turn comes. -/
def EachTurn (h : Handler W Req Ans) (w : WorkerId) (P : TradingInstance → System → W → Prop) :
    List TradingInstance → System → W → Prop
  | [], _, _ => True
  | row :: rows, s, ω => P row s ω ∧ wp h (recoverOne w row) (onOk fun _ => EachTurn h w P rows) s ω

/-- The turns of one of the three loops, and what holds after it. -/
def StatusTurns (h : Handler W Req Ans) (w : WorkerId) (P : TradingInstance → System → W → Prop)
    (status : TradingInstanceStatus) (next : System → W → Prop) (s : System) (ω : W) : Prop :=
  wp h (getByStatus status)
    (onOk fun rows s ω => EachTurn h w P rows s ω ∧ wp h (recoverAll w rows) (onOk fun _ => next) s ω) s ω

def RecoverTurns (h : Handler W Req Ans) (w : WorkerId) (P : TradingInstance → System → W → Prop) :
    System → W → Prop :=
  StatusTurns h w P .running (StatusTurns h w P .paused (StatusTurns h w P .recovering (fun _ _ => True)))

/-- The lock, the account, the health check and the symbol check of an instance all succeed. -/
def Checked (h : Handler W Req Ans) (w : WorkerId) (row : TradingInstance) (s : System) (ω : W) : Prop :=
  ∃ ref, (run h (recoveryChecks w row) s ω).1 = .ok (some ref)

def found (status : TradingInstanceStatus) : Prop := status = .running ∨ status = .paused ∨ status = .recovering

/-- What recover should return, and the rows it should leave. -/
structure Recovered (h : Handler W Req Ans) (w : WorkerId) (x : System × W) (result : List TradingInstance)
    (rows' : Rows) : Prop where
  exactly : ∀ i, i ∈ result.map TradingInstance.id ↔ ∃ row row', x.1.rows.get i = some row ∧ found row.status ∧
    rows'.get i = some row' ∧ (row'.status = .running ∨ row'.status = .paused)
  restored : RecoverTurns h w (fun row s ω => Checked h w row s ω →
    ∃ row', rows'.get row.id = some row' ∧ row'.status = finalStatus row.status) x.1 x.2

/-- An instance found RUNNING or PAUSED fails a check with an exception; one
found RECOVERING does not pass all of them. -/
def Fails (h : Handler W Req Ans) (w : WorkerId) (row : TradingInstance) (s : System) (ω : W) : Prop :=
  if row.status = .recovering then ¬ Checked h w row s ω
  else ∃ e, (run h (recoveryChecks w row) s ω).1 = .error e

def Meets (h : Handler W Req Ans) (x : System × W) : Event W → Prop
  | .call (.recover w) => RecoverTurns h w (Fails h w) x.1 x.2
  | _ => True

theorem Conforms.withStatus {status : TradingInstanceStatus} (hrow : Conforms row)
    (hedge : status ∈ transitions row.status) : Conforms (row.withStatus status) := by
  refine ⟨rfl, ?_⟩
  obtain ⟨hhead, hchain⟩ := hrow
  simp only [TradingInstance.withStatus]
  cases hh : row.history with
  | nil => simp
  | cons older rest =>
      rw [hh] at hhead hchain
      cases hhead
      exact List.isChain_cons_cons.mpr ⟨.inr hedge, hchain⟩

theorem not_checked_of_fails (hf : Fails h w row s ω) : ¬ Checked h w row s ω := by
  unfold Fails at hf
  split at hf
  · exact hf
  · rintro ⟨ref, hok⟩
    obtain ⟨e, herr⟩ := hf
    rw [hok] at herr
    cases herr

theorem eachTurn_mono {P P' : TradingInstance → System → W → Prop} (hP : ∀ row s ω, P row s ω → P' row s ω)
    (hrows : EachTurn h w P rows s ω) : EachTurn h w P' rows s ω := by
  induction rows generalizing s ω with
  | nil => trivial
  | cons row rows ih =>
      refine ⟨hP row s ω hrows.1, wp_mono hrows.2 ?_⟩
      rintro (e | a) s' ω' hrest
      · trivial
      · exact ih hrest

theorem statusTurns_mono {P P' : TradingInstance → System → W → Prop} {status : TradingInstanceStatus}
    {next next' : System → W → Prop} (hP : ∀ row s ω, P row s ω → P' row s ω) (hnext : ∀ s ω, next s ω → next' s ω)
    (hs : StatusTurns h w P status next s ω) : StatusTurns h w P' status next' s ω := by
  refine wp_mono hs ?_
  rintro (e | rows) s1 ω1 h1
  · trivial
  · refine ⟨eachTurn_mono hP h1.1, wp_mono h1.2 ?_⟩
    rintro (e | a) s2 ω2 h2
    · trivial
    · exact hnext s2 ω2 h2

theorem recoverTurns_mono {P P' : TradingInstance → System → W → Prop} (hP : ∀ row s ω, P row s ω → P' row s ω)
    (hs : RecoverTurns h w P s ω) : RecoverTurns h w P' s ω :=
  statusTurns_mono hP (fun _ _ => statusTurns_mono hP (fun _ _ => statusTurns_mono hP (fun _ _ h' => h'))) hs

theorem wp_recoverOne_fails (hrow : s.rows.get row.id = some row) (hf : Fails h w row s ω) :
    wp h (recoverOne w row)
      (onOk fun res s' _ => res = none ∧ Sets s.rows row.id (row.withStatus .error) s'.rows) s ω := by
  have hJ := aboutRows (h := h) (fun rows => rows = s.rows)
  have hraises : wp h (recoverInstance w row) (fun r s' _ => s'.rows = s.rows ∧ ∃ e, r = .error e) s ω := by
    rw [recoverInstance, bind_eq, wp_bind]
    refine wp_validate (fun e => ⟨rfl, e, rfl⟩) (fun hedge => ?_)
    have hkind : row.status ≠ .recovering := by
      rintro he
      rw [he] at hedge
      simp [transitions] at hedge
    obtain ⟨e, he⟩ := (if_neg hkind).mp hf
    have hchecks : wp h (recoveryChecks w row) (fun r s' _ => s'.rows = s.rows ∧ r = .error e) s ω :=
      ⟨keeps_recoveryChecks hJ.toUnlocked row s ω rfl, he⟩
    rw [andThen_ok, bind_eq, wp_bind]
    refine wp_mono hchecks ?_
    rintro r s1 ω1 ⟨h1, rfl⟩
    exact ⟨h1, e, rfl⟩
  rw [recoverOne, tryCatch_eq, wp_tryCatch, bind_eq, wp_bind]
  refine wp_mono hraises ?_
  rintro r s1 ω1 ⟨h1, e, rfl⟩
  rw [andThen_error, orElse_error, bind_eq, wp_bind]
  refine wp_persistStatus (h1 ▸ hrow) rfl (fun _ _ => trivial) ?_
  rintro (e | a) ω2 -
  · exact trivial
  · refine ⟨rfl, ?_⟩
    change Sets s.rows row.id _ (s1.rows.set row.id _)
    rw [h1]
    exact sets_set _ _ _

/-- The rows of one status have been given up. -/
def GivenUp (P : TradingInstanceStatus → Prop) [DecidablePred P] (rows rows' : Rows) : Prop :=
  ∀ i, rows'.get i = (rows.get i).map (fun row => if P row.status then row.withStatus .error else row)

/-- The listed rows have been given up, and no others. -/
def Dropped (rows : List TradingInstance) (before after : Rows) : Prop :=
  ∀ i, after.get i = if i ∈ rows.map TradingInstance.id then (before.get i).map (fun row => row.withStatus .error)
    else before.get i

theorem wp_recoverAll_fails (hnodup : (rows.map TradingInstance.id).Nodup)
    (hrows : ∀ row ∈ rows, s.rows.get row.id = some row) (hf : EachTurn h w (Fails h w) rows s ω) :
    wp h (recoverAll w rows) (onOk fun res s' _ => res = [] ∧ Dropped rows s.rows s'.rows) s ω := by
  induction rows generalizing s ω with
  | nil => exact ⟨rfl, fun i => (if_neg (by simp)).symm⟩
  | cons row rows ih =>
      rw [List.map_cons, List.nodup_cons] at hnodup
      have hrow := hrows row List.mem_cons_self
      rw [recoverAll, bind_eq, wp_bind]
      refine wp_mono (wp_and (wp_recoverOne_fails hrow hf.1) hf.2) ?_
      rintro (e | a) s1 ω1 ⟨h1, hrest⟩
      · exact trivial
      · obtain ⟨rfl, hsets⟩ := h1
        have hcurrent : ∀ other ∈ rows, s1.rows.get other.id = some other := by
          intro other hother
          have hne : other.id ≠ row.id := fun he => hnodup.1 (he ▸ List.mem_map_of_mem hother)
          rw [hsets, if_neg hne]
          exact hrows other (List.mem_cons_of_mem row hother)
        rw [andThen_ok, bind_eq, wp_bind]
        refine wp_mono (ih hnodup.2 hcurrent hrest) ?_
        rintro (e | others) s2 ω2 h2
        · exact trivial
        · obtain ⟨rfl, hget⟩ := h2
          refine ⟨rfl, fun i => ?_⟩
          change s2.rows.get i = _
          rw [hget i, hsets i]
          by_cases hi : i = row.id
          · subst hi
            rw [if_neg hnodup.1, if_pos rfl, if_pos (by simp), hrow]
            rfl
          · simp only [List.map_cons, List.mem_cons, hi, false_or, if_false]

theorem mem_ids {status : TradingInstanceStatus} (hkeyed : Keyed s.rows) {i : InstanceId} :
    i ∈ (rowsWith s status).map TradingInstance.id ↔ ∃ row, s.rows.get i = some row ∧ row.status = status := by
  simp only [List.mem_map, mem_rowsWith]
  constructor
  · rintro ⟨row, ⟨j, hrow, hstatus⟩, rfl⟩
    exact ⟨row, (hkeyed j row hrow).symm ▸ hrow, hstatus⟩
  · rintro ⟨row, hrow, hstatus⟩
    exact ⟨row, ⟨i, hrow, hstatus⟩, hkeyed i row hrow⟩

theorem wp_recoverStatus_fails (hkeyed : Keyed s.rows) {status : TradingInstanceStatus}
    {next : System → W → Prop} (hf : StatusTurns h w (Fails h w) status next s ω) :
    wp h (recoverStatus w status)
      (onOk fun res s' ω' => res = [] ∧ GivenUp (fun st => st = status) s.rows s'.rows ∧ next s' ω') s ω := by
  rw [recoverStatus, bind_eq, wp_bind]
  have hquery : wp h (getByStatus status) (fun r s' _ => s' = s ∧ ∀ rows, r = .ok rows → rows = rowsWith s status) s ω :=
    wp_getByStatus (fun e _ => ⟨rfl, fun rows hr => by cases hr⟩) (fun _ => ⟨rfl, fun rows hr => by cases hr; rfl⟩)
  refine wp_mono (wp_and hquery hf) ?_
  rintro (e | rows) s1 ω1 ⟨⟨rfl, hrows⟩, h1⟩
  · exact trivial
  · cases hrows rows rfl
    rw [andThen_ok]
    have hall := wp_recoverAll_fails (rowsWith_nodup hkeyed status)
      (fun row hrow => rowsWith_current hkeyed hrow) h1.1
    refine wp_mono (wp_and hall h1.2) ?_
    rintro (e | res) s2 ω2 ⟨h2, hnext⟩
    · exact trivial
    · refine ⟨h2.1, fun i => ?_, hnext⟩
      rw [h2.2 i]
      cases hrow : s1.rows.get i with
      | none => simp
      | some row =>
          by_cases hstatus : row.status = status
          · rw [if_pos ((mem_ids hkeyed).mpr ⟨row, hrow, hstatus⟩)]
            simp [hstatus]
          · rw [if_neg]
            · simp [hstatus]
            · rintro hmem
              obtain ⟨row', hrow', hstatus'⟩ := (mem_ids hkeyed).mp hmem
              rw [hrow] at hrow'
              cases hrow'
              exact hstatus hstatus'

instance : DecidablePred found := fun _ => inferInstanceAs (Decidable (_ ∨ _ ∨ _))

theorem givenUp_three {rows rows1 rows2 rows3 : Rows} (h1 : GivenUp (fun st => st = .running) rows rows1)
    (h2 : GivenUp (fun st => st = .paused) rows1 rows2) (h3 : GivenUp (fun st => st = .recovering) rows2 rows3) :
    GivenUp found rows rows3 := by
  intro i
  rw [h3 i, h2 i, h1 i]
  cases rows.get i with
  | none => rfl
  | some row =>
      simp only [Option.map_some, Option.some.injEq, found]
      cases hstatus : row.status <;> simp [hstatus, TradingInstance.withStatus]

theorem GivenUp.keyed {P : TradingInstanceStatus → Prop} [DecidablePred P] {rows rows' : Rows}
    (hkeyed : Keyed rows) (hg : GivenUp P rows rows') : Keyed rows' := by
  intro i row' hrow'
  rw [hg i] at hrow'
  obtain ⟨row, hrow, rfl⟩ := Option.map_eq_some_iff.mp hrow'
  have hid := hkeyed i row hrow
  split <;> exact hid

/-- A recover call whose instances all fail their checks gives them all up. -/
theorem recover_fails (hkeyed : Keyed s.rows) (hf : RecoverTurns h w (Fails h w) s ω) :
    wp h (recover w) (onOk fun res s' _ => res = [] ∧ GivenUp found s.rows s'.rows) s ω := by
  rw [recover, bind_eq, wp_bind]
  refine wp_mono (wp_recoverStatus_fails hkeyed hf) ?_
  rintro (e | running) s1 ω1 h1
  · exact trivial
  obtain ⟨rfl, hg1, hf1⟩ := h1
  rw [andThen_ok, bind_eq, wp_bind]
  refine wp_mono (wp_recoverStatus_fails (hg1.keyed hkeyed) hf1) ?_
  rintro (e | paused) s2 ω2 h2
  · exact trivial
  obtain ⟨rfl, hg2, hf2⟩ := h2
  rw [andThen_ok, bind_eq, wp_bind]
  refine wp_mono (wp_recoverStatus_fails (hg2.keyed (hg1.keyed hkeyed)) hf2) ?_
  rintro (e | recovering) s3 ω3 h3
  · exact trivial
  obtain ⟨rfl, hg3, -⟩ := h3
  exact ⟨rfl, givenUp_three hg1 hg2 hg3⟩

theorem perform_fails (hkeyed : Keyed s.rows) (hf : RecoverTurns h w (Fails h w) s ω) :
    ((outcome h (s, ω) (.recover w)).2.1.rows = s.rows ∨ GivenUp found s.rows (outcome h (s, ω) (.recover w)).2.1.rows) ∧
      ∀ result, (outcome h (s, ω) (.recover w)).1 = .ok result →
        Recovered h w (s, ω) result (outcome h (s, ω) (.recover w)).2.1.rows := by
  have hwp : wp h (perform (.recover w)) (fun r s' _ => (s'.rows = s.rows ∨ GivenUp found s.rows s'.rows) ∧
      ∀ result, r = .ok result → result = [] ∧ GivenUp found s.rows s'.rows) s ω := by
    refine wp_inSession (wp_mono (recover_fails hkeyed hf) ?_)
    intro r s' ω' hr
    refine ⟨fun e _ => ⟨.inl rfl, fun result he => by cases he⟩, fun a _ ha => ?_⟩
    subst ha
    refine ⟨.inr hr.2, fun result he => ?_⟩
    cases he
    exact hr
  refine ⟨hwp.1, fun result hresult => ?_⟩
  obtain ⟨rfl, hgiven⟩ := hwp.2 result hresult
  have hg : GivenUp found s.rows (outcome h (s, ω) (.recover w)).2.1.rows := hgiven
  refine ⟨fun i => ⟨fun hi => by simp at hi, ?_⟩, ?_⟩
  · rintro ⟨row, row', hrow, hfound, hrow', hstatus⟩
    rw [hg i, hrow, Option.map_some, if_pos hfound] at hrow'
    cases hrow'
    simp [TradingInstance.withStatus] at hstatus
  · exact recoverTurns_mono (fun row s ω hfails hchecked => absurd hchecked (not_checked_of_fails hfails)) hf

/-- The invariant of a run. -/
structure Sound (rows : Rows) : Prop where
  keyed : Keyed rows
  conforms : ∀ i row, rows.get i = some row → Conforms row

theorem Sound.sets {rows rows' : Rows} {i : InstanceId} {row' : TradingInstance} (hs : Sound rows)
    (hsets : Sets rows i row' rows') (hid : row'.id = i) (hrow' : Conforms row') : Sound rows' := by
  refine ⟨hs.keyed.sets hid hsets, fun j row hj => ?_⟩
  rw [hsets j] at hj
  split at hj
  · cases hj
    exact hrow'
  · exact hs.conforms j row hj

theorem Sound.moved {rows' : Rows} {c : Call} (hs : Sound s.rows) (hm : Moved s rows' c) : Sound rows' := by
  have hone : ∀ {i row status}, s.rows.get i = some row → status ∈ transitions row.status →
      Sets s.rows i (row.withStatus status) rows' → Sound rows' := by
    intro i row status hrow hedge hsets
    have hid : row.id = i := hs.keyed i row hrow
    exact hs.sets hsets hid ((hs.conforms i row hrow).withStatus hedge)
  cases hm with
  | created hnew hactive hsets => exact hs.sets hsets rfl ⟨rfl, by simp [newInstance]⟩
  | prepared hrow hedge hsets => exact hone hrow hedge hsets
  | started hrow howner hedge hdup hsets => exact hone hrow hedge hsets
  | paused hrow hedge hsets => exact hone hrow hedge hsets
  | resumed hrow howner hedge hsets => exact hone hrow hedge hsets
  | @stopped w i userId row hrow hedge hsets =>
      have hid : row.id = i := hs.keyed i row hrow
      refine hs.sets hsets hid (((hs.conforms i row hrow).withStatus hedge).withStatus ?_)
      simp [TradingInstance.withStatus, transitions]

theorem Sound.givenUp {rows rows' : Rows} (hs : Sound rows) (hg : GivenUp found rows rows') : Sound rows' := by
  refine ⟨hg.keyed hs.keyed, fun i row' hrow' => ?_⟩
  rw [hg i] at hrow'
  obtain ⟨row, hrow, rfl⟩ := Option.map_eq_some_iff.mp hrow'
  split
  next hfound =>
    refine (hs.conforms i row hrow).withStatus ?_
    rcases hfound with hst | hst | hst <;> simp [hst, transitions]
  next => exact hs.conforms i row hrow

theorem Sound.step {x : System × W} {e : Event W} (hs : Sound x.1.rows) (hmeets : Meets h x e) :
    Sound (step h x e).1.rows := by
  cases e with
  | call c =>
      by_cases hc : ∀ w, c ≠ .recover w
      · rcases perform_moves (ω := x.2) (h := h) hs.keyed hc with hsame | hm
        · exact hsame ▸ hs
        · exact hs.moved hm
      · obtain ⟨w, rfl⟩ : ∃ w, c = .recover w := by simpa using hc
        rcases (perform_fails hs.keyed hmeets).1 with hsame | hg
        · exact hsame ▸ hs
        · exact hs.givenUp hg
  | restart w gridUp hubUp => exact hs
  | expire i => exact hs
  | world ω => exact hs

theorem sound_run {x : System × W} (hstart : x.1.rows = ∅) {events : List (Event W)}
    (hmeets : AllMeet (step h) (Meets h) x events) : Sound (runEvents h x events).1.rows := by
  have hsound : Sound x.1.rows := by
    rw [hstart]
    constructor
    · intro i row hrow
      simp at hrow
    · intro i row hrow
      simp at hrow
  exact foldl_of_allMeet (I := fun x => Sound x.1.rows) (fun x e hs he => hs.step he) hsound hmeets

/-- In a run in which no recovery passes its checks, every persisted status
follows the one before, and recover returns what it left RUNNING or PAUSED and
restores what passes the checks. -/
theorem conforms_of_allMeet {x : System × W} (hstart : x.1.rows = ∅) {events : List (Event W)}
    (hmeets : AllMeet (step h) (Meets h) x events) :
    (∀ i row, (runEvents h x events).1.rows.get i = some row → Conforms row) ∧
      ∀ before w after, events = before ++ .call (.recover w) :: after → ∀ result,
        (outcome h (runEvents h x before) (.recover w)).1 = .ok result →
          Recovered h w (runEvents h x before) result (outcome h (runEvents h x before) (.recover w)).2.1.rows := by
  refine ⟨(sound_run hstart hmeets).conforms, ?_⟩
  rintro before w after rfl result hresult
  obtain ⟨hbefore, hhere, -⟩ := allMeet_append.mp hmeets
  exact (perform_fails (sound_run hstart hbefore).keyed hhere).2 result hresult

/-- A bot is started, and its worker is restarted while its lock is held. -/
def restarted : List (Event Unit) :=
  [.call (.createProcess "a" (botArgs 1)), .call (.prepare "a" 1), .call (.start 0 "a" 1), .restart 0 true true]

theorem conforms_of_allMeet_locked :
    (∀ i row, (runEvents unwired ({}, ()) (restarted ++ [.call (.recover 1)])).1.rows.get i = some row →
      Conforms row) ∧
      ∀ before w after, restarted ++ [.call (.recover 1)] = before ++ .call (.recover w) :: after → ∀ result,
        (outcome unwired (runEvents unwired ({}, ()) before) (.recover w)).1 = .ok result →
          Recovered unwired w (runEvents unwired ({}, ()) before) result
            (outcome unwired (runEvents unwired ({}, ()) before) (.recover w)).2.1.rows :=
  conforms_of_allMeet rfl ⟨trivial, trivial, trivial, trivial,
    ⟨⟨⟨_, rfl⟩, trivial⟩, ⟨trivial, ⟨trivial, trivial⟩⟩⟩, trivial⟩

/-- Once the lock has expired the recovery goes through, and RUNNING is persisted right after RECOVERING. -/
theorem recover_skips_recovered :
    ¬ ∀ i row, (runEvents unwired ({}, ()) (restarted ++ [.expire "a", .call (.recover 1)])).1.rows.get i = some row →
      Conforms row := by
  intro h
  have hchain := (h "a" (((((newInstance "a" (botArgs 1)).withStatus .ready).withStatus .running).withStatus
    .recovering).withStatus .running) (by decide +kernel)).chain
  simp [TradingInstance.withStatus, newInstance, Follows, transitions] at hchain

end Utos.Process.Conformance
