import Utos.Coroutine.Trace
import Utos.Services.CacheFills

namespace Utos.Services.StrategyModeStore

open Coroutine Program Core.DomainTypes Core.Exceptions

def Shows (modes : List ModeDict) (mode : String) (value : ℚ) : Prop :=
  (modes.find? (·.mode = mode)).map (·.tpRangeMax) = some value

def committedValue (rows : List StrategyMode) (mode : String) : Option ℚ :=
  (rows.find? (·.mode = mode)).map (·.tpRangeMax)

/-- Whatever a read can come to see of a mode is the value that is committed. -/
structure Current (P : Calls) (mode : String) (value : ℚ) : Prop where
  committed : committedValue P.world.rows mode = some value
  selected : Shows (loadFromDb (P.world.rows.filter (·.isActive))) mode value
  cached : ∀ modes, P.store.cache = some modes → Shows modes mode value
  stored : ∀ task modes, stores (P.tasks task) = some modes → Shows modes mode value

/-- When an update is committed, the cache and the loads that have their rows show the value that
becomes committed, and so do the active rows; when an update drops the cache, no read that is
owed a value has filled it and ends its session. -/
def Meets (x : State) : Event → Prop
  | .commit task =>
      match x.pool.tasks task, x.pool.world.pending task with
      | some (.done (.ok (.updated (some _)))), some (mode, fields) =>
          ∃ value, Current (x.commit task mode fields).pool mode value
      | _, _ => True
  | .resume task =>
      Invalidates (x.pool.tasks task) → ∀ i mode, x.expected i = some mode → ¬ Closing (x.pool.tasks i)
  | _ => True

variable {P : Calls} {x : State} {mode : String} {value : ℚ} {s : Store} {q : Request} {k : Answer q → Op Value} {i : Nat}
variable {conclude : Option (List ModeDict) → Except Exn Value}

section commit

variable (other : String) (fields : Fields)

theorem find?_committed (hne : other ≠ mode) (rows : List StrategyMode) :
    (rows.map (fun sm => if sm.mode = other then fields.assign sm else sm)).find? (·.mode = mode) =
      rows.find? (·.mode = mode) := by
  induction rows with
  | nil => rfl
  | cons sm rows ih =>
      by_cases hsm : sm.mode = other
      · have hassign : (fields.assign sm).mode ≠ mode := fun h => hne (hsm.symm.trans h)
        rw [List.map_cons, if_pos hsm, List.find?_cons_of_neg (by simpa using hassign), ih,
          List.find?_cons_of_neg (by simpa [hsm] using hne)]
      · rw [List.map_cons, if_neg hsm, List.find?_cons, List.find?_cons, ih]

theorem filter_committed (rows : List StrategyMode) :
    (rows.map (fun sm => if sm.mode = other then fields.assign sm else sm)).filter (·.isActive) =
      (rows.filter (·.isActive)).map (fun sm => if sm.mode = other then fields.assign sm else sm) := by
  rw [List.filter_map]
  congr 2
  funext sm
  simp only [Function.comp_apply]
  split <;> rfl

theorem shows_loadFromDb (rows : List StrategyMode) (hrows : rows ≠ []) :
    Shows (loadFromDb rows) mode value ↔ committedValue rows mode = some value := by
  rw [Shows, loadFromDb, if_neg hrows, List.find?_map, Option.map_map]
  rfl

/-- The commit of another mode changes nothing that a read sees of a mode. -/
theorem shows_committed (hne : other ≠ mode) (rows : List StrategyMode) :
    Shows (loadFromDb (rows.map (fun sm => if sm.mode = other then fields.assign sm else sm))) mode value ↔
      Shows (loadFromDb rows) mode value := by
  by_cases hrows : rows = []
  · subst hrows
    rfl
  · rw [shows_loadFromDb _ (by simpa using hrows), shows_loadFromDb _ hrows, committedValue, committedValue,
      find?_committed other fields hne]

end commit

theorem Current.start {p : Op Value} (hc : Current P mode value)
    (hstretch : Stretch (P.tasks i) P.store (p.advance P.store)) : Current (P.start i p) mode value := by
  refine ⟨hc.committed, hc.selected, fun modes hmodes => ?_, fun task modes hmodes => ?_⟩
  · rcases hstretch.cached modes hmodes with hcache | hstores
    · exact hc.cached modes hcache
    · exact hc.stored i modes hstores
  · by_cases htask : task = i
    · subst htask
      rw [Pool.start_tasks_self] at hmodes
      exact hc.stored task modes (hstretch.stored modes hmodes)
    · rw [Pool.start_tasks_of_ne P p htask] at hmodes
      exact hc.stored task modes hmodes

@[simp] theorem database_rows (failure : Option Exn) (db : Database) (q : Request) :
    (database failure db q).2.rows = db.rows := by
  cases q <;> cases failure <;> rfl

/-- A request that is answered, and is not one of a load that fails, binds nobody to anything but
what is committed. -/
theorem Current.act {failure : Option Exn} (hc : Current P mode value) (htask : P.tasks i = some (.asked q k))
    (hreach : q.loads = true → failure = none) : Current (P.act (database failure) i) mode value := by
  rw [Pool.act_asked htask]
  have hrows := database_rows failure P.world q
  refine ⟨hrows.symm ▸ hc.committed, hrows.symm ▸ hc.selected, hc.cached, fun task modes hmodes => ?_⟩
  by_cases hi : task = i
  · subst hi
    simp only [Function.update_self] at hmodes
    cases q with
    | acquire | selectMode | flush | refresh => cases hmodes
    | select =>
        obtain rfl := hreach rfl
        cases hmodes
        exact hc.selected
    | close failed =>
        obtain rfl := hreach rfl
        cases failed with
        | false => cases hmodes
        | true => exact hc.stored task modes (by rw [htask]; exact hmodes)
  · simp only [Function.update_of_ne hi] at hmodes
    exact hc.stored task modes hmodes

theorem tpConclusion_of_shows {m : String} {modes : List ModeDict} (hshows : Shows modes (upper m) value) :
    tpConclusion m (some modes) = .ok (.tpRangeMax value) := by
  obtain ⟨sm, hsm, rfl⟩ := Option.map_eq_some_iff.mp hshows
  simp only [tpConclusion, tpRangeMaxIn, hsm, Except.map]

/-- A read that is owed the committed value: the cache that it has filled is still filled when it
ends its session, and it returns the value. -/
structure Owed (P : Calls) (i : Nat) (m : String) : Prop where
  started : P.tasks i ≠ none
  shaped : Shaped (Reading (tpConclusion m)) (P.tasks i)
  filled : Closing (P.tasks i) → P.store.cache ≠ none
  seen : ∀ r, P.tasks i = some (.done r) →
    ∃ value, committedValue P.world.rows (upper m) = some value ∧ r = .ok (.tpRangeMax value)

structure Inv (x : State) : Prop where
  shaped : ∀ i, (∃ conclude, Shaped (Reading conclude) (x.pool.tasks i)) ∨ Shaped Updating (x.pool.tasks i)
  current : ∀ mode, x.promised mode = true → ∃ value, Current x.pool mode value
  owed : ∀ i mode, x.expected i = some mode → x.promised mode = true ∧ ∃ m, upper m = mode ∧ Owed x.pool i m

theorem Owed.of_reads {m : String} {p : Op Value} (hc : Current P (upper m) value)
    (hreads : Reads (tpConclusion m) (P.tasks i) P.store (p.advance P.store))
    (hfilled : Closing (P.tasks i) → P.store.cache ≠ none) : Owed (P.start i p) i m := by
  have htask := P.start_tasks_self i p
  refine ⟨?_, ?_, ?_, fun r hr => ?_⟩
  · rw [htask]
    exact Option.some_ne_none _
  · rw [htask]
    exact hreads.shaped
  · rw [htask]
    exact hreads.closing
  · rw [htask] at hr
    obtain ⟨hresult, hdropped⟩ := hreads.ended r (Option.some.inj hr)
    have hsome : (p.advance P.store).2.cache ≠ none := fun hnone => hreads.keeps (hfilled (hdropped hnone)) hnone
    obtain ⟨modes, hmodes⟩ := Option.ne_none_iff_exists'.mp hsome
    refine ⟨value, hc.committed, ?_⟩
    rw [hresult, hmodes]
    exact tpConclusion_of_shows ((hc.start hreads.stretch).cached modes hmodes)

theorem Inv.filled (hx : Inv x) (hmode : x.expected i = some mode) (hclosing : Closing (x.pool.tasks i)) :
    x.pool.store.cache ≠ none := by
  obtain ⟨-, m, -, howed⟩ := hx.owed i mode hmode
  exact howed.filled hclosing

/-- A task is started, or goes on. -/
theorem Inv.start (hx : Inv x) {p : Op Value} {e : Option String}
    (hstretch : Stretch (x.pool.tasks i) x.pool.store (p.advance x.pool.store))
    (hshaped : (∃ conclude, Shaped (Reading conclude) (some (p.advance x.pool.store).1)) ∨
      Shaped Updating (some (p.advance x.pool.store).1))
    (hkeeps : ∀ j mode, j ≠ i → x.expected j = some mode → Closing (x.pool.tasks j) →
      (p.advance x.pool.store).2.cache ≠ none)
    (howed : ∀ mode, e = some mode → x.promised mode = true ∧ ∃ m, upper m = mode ∧ Owed (x.pool.start i p) i m) :
    Inv { x with pool := x.pool.start i p, expected := Function.update x.expected i e } := by
  refine ⟨fun j => ?_, fun mode hmode => ?_, fun j mode hmode => ?_⟩
  · by_cases hj : j = i
    · rw [hj, Pool.start_tasks_self]
      exact hshaped
    · dsimp only
      rw [Pool.start_tasks_of_ne _ p hj]
      exact hx.shaped j
  · obtain ⟨value, hc⟩ := hx.current mode hmode
    exact ⟨value, hc.start hstretch⟩
  · by_cases hj : j = i
    · subst hj
      dsimp only at hmode
      rw [Function.update_self] at hmode
      exact howed mode hmode
    · dsimp only at hmode
      rw [Function.update_of_ne hj] at hmode
      obtain ⟨hpromised, m, hm, hj'⟩ := hx.owed j mode hmode
      have htask := Pool.start_tasks_of_ne x.pool p hj
      exact ⟨hpromised, m, hm, htask ▸ hj'.started, htask ▸ hj'.shaped, htask ▸ hkeeps j mode hj hmode, htask ▸ hj'.seen⟩

theorem shaped_act (failure : Option Exn) {goesOn : (q : Request) → (Answer q → Op Value) → Prop}
    (htask : P.tasks i = some (.asked q k)) (j : Nat) (hshaped : Shaped goesOn (P.tasks j)) :
    Shaped goesOn ((P.act (database failure) i).tasks j) := by
  rw [Pool.act_asked htask]
  by_cases hj : j = i
  · subst hj
    dsimp only
    rw [Function.update_self]
    rw [htask] at hshaped
    exact hshaped
  · dsimp only
    rw [Function.update_of_ne hj]
    exact hshaped

theorem Owed.act {failure : Option Exn} {j : Nat} {m : String} (howed : Owed P j m) (htask : P.tasks i = some (.asked q k)) :
    Owed (P.act (database failure) i) j m := by
  have hshaped := shaped_act failure htask j howed.shaped
  rw [Pool.act_asked htask] at hshaped ⊢
  by_cases hj : j = i
  · subst hj
    refine ⟨?_, hshaped, fun hclosing => howed.filled ?_, fun r hr => ?_⟩
    · dsimp only
      rw [Function.update_self]
      exact Option.some_ne_none _
    · dsimp only at hclosing
      rw [Function.update_self] at hclosing
      rw [htask]
      cases q with
      | close failed => cases failed <;> exact hclosing
      | acquire | select | selectMode | flush | refresh => cases hclosing
    · dsimp only at hr
      rw [Function.update_self] at hr
      cases hr
  · refine ⟨?_, hshaped, fun hclosing => howed.filled ?_, fun r hr => ?_⟩
    · dsimp only
      rw [Function.update_of_ne hj]
      exact howed.started
    · dsimp only at hclosing
      rwa [Function.update_of_ne hj] at hclosing
    · dsimp only at hr ⊢
      rw [Function.update_of_ne hj] at hr
      rw [database_rows]
      exact howed.seen r hr

theorem Inv.shaped_act (hx : Inv x) (failure : Option Exn) (htask : x.pool.tasks i = some (.asked q k)) (j : Nat) :
    (∃ conclude, Shaped (Reading conclude) ((x.pool.act (database failure) i).tasks j)) ∨
      Shaped Updating ((x.pool.act (database failure) i).tasks j) := by
  refine (hx.shaped j).imp ?_ (StrategyModeStore.shaped_act failure htask j)
  rintro ⟨conclude, hshaped⟩
  exact ⟨conclude, StrategyModeStore.shaped_act failure htask j hshaped⟩

theorem Inv.act {failure : Option Exn} (hx : Inv x) (htask : x.pool.tasks i = some (.asked q k))
    (hreach : q.loads = true → failure = none) : Inv { x with pool := x.pool.act (database failure) i } := by
  refine ⟨hx.shaped_act failure htask, fun mode hmode => ?_, fun j mode hmode => ?_⟩
  · obtain ⟨value, hc⟩ := hx.current mode hmode
    exact ⟨value, hc.act htask hreach⟩
  · obtain ⟨hpromised, m, hm, howed⟩ := hx.owed j mode hmode
    exact ⟨hpromised, m, hm, howed.act htask⟩

theorem Inv.enter (hx : Inv x) (task : Nat) : Inv (step x (.enter task)) := by
  have hlocked : Inv { x with pool := { x.pool with store := { x.pool.store with locked := true } } } := by
    refine ⟨hx.shaped, fun mode hmode => ?_, fun j mode hmode => ?_⟩
    · obtain ⟨value, hc⟩ := hx.current mode hmode
      exact ⟨value, hc.committed, hc.selected, hc.cached, hc.stored⟩
    · obtain ⟨hpromised, m, hm, howed⟩ := hx.owed j mode hmode
      exact ⟨hpromised, m, hm, howed.started, howed.shaped, howed.filled, howed.seen⟩
  simp only [step]
  split
  next k htask _ => exact hlocked.act htask (fun _ => rfl)
  next => exact hx

/-- When a load fails nobody is owed anything any more. -/
theorem Inv.fail {failure : Option Exn} (hx : Inv x) (htask : x.pool.tasks i = some (.asked q k)) :
    Inv { pool := x.pool.act (database failure) i } :=
  ⟨hx.shaped_act failure htask, fun mode hmode => (by cases hmode), fun j mode hmode => (by cases hmode)⟩

theorem Inv.answer (hx : Inv x) (task : Nat) (failure : Option Exn) : Inv (step x (.answer task failure)) := by
  cases htask : x.pool.tasks task with
  | none => simpa only [step, htask] using hx
  | some t =>
      cases t with
      | answered q a k => simpa only [step, htask] using hx
      | done r => simpa only [step, htask] using hx
      | asked q k =>
          by_cases hfails : q.loads = true ∧ failure.isSome = true
          · have hstep : step x (.answer task failure) = { pool := x.pool.act (database failure) task } := by
              cases q with
              | acquire => cases hfails.1
              | select | close | selectMode | flush | refresh => simp only [step, htask, hfails, and_self, if_true]
            rw [hstep]
            exact hx.fail htask
          · have hreach : q.loads = true → failure = none := by
              intro hloads
              exact Option.not_isSome_iff_eq_none.mp (fun hsome => hfails ⟨hloads, hsome⟩)
            cases q with
            | acquire => simpa only [step, htask] using hx
            | select | close | selectMode | flush | refresh =>
                simp only [step, htask, hfails, if_false]
                exact hx.act htask hreach

theorem Inv.call (hx : Inv x) (task : Nat) (c : Call) : Inv (step x (.call task c)) := by
  cases htask : x.pool.tasks task with
  | some t => simpa only [step, htask, Option.isNone_some, Bool.false_eq_true, if_false] using hx
  | none =>
      simp only [step, htask, Option.isNone_none, if_true]
      cases c with
      | loadStrategyModes =>
          have hreads : Reads (fun modes => .ok (.modes modes)) none x.pool.store _ := reads_loadStrategyModes x.pool.store
          exact hx.start (htask ▸ hreads.stretch) (.inl ⟨_, hreads.shaped⟩)
            (fun j mode _ hmode hclosing => hreads.keeps (hx.filled hmode hclosing)) (fun mode hmode => (by cases hmode))
      | getTpRangeMax m =>
          rw [program_getTpRangeMax]
          have hreads : Reads (tpConclusion m) none x.pool.store _ := reads_loadStrategyModes x.pool.store
          refine hx.start (htask ▸ hreads.stretch) (.inl ⟨_, hreads.shaped⟩)
            (fun j mode _ hmode hclosing => hreads.keeps (hx.filled hmode hclosing)) (fun mode hmode => ?_)
          by_cases hpromised : x.promised (upper m) = true
          · rw [expectation, if_pos hpromised] at hmode
            cases hmode
            obtain ⟨value, hc⟩ := hx.current _ hpromised
            refine ⟨hpromised, m, rfl, .of_reads hc (htask ▸ hreads) (fun hclosing => ?_)⟩
            rw [htask] at hclosing
            cases hclosing
          · rw [expectation, if_neg hpromised] at hmode
            cases hmode
      | updateStrategyModeWithSession m fields =>
          have hupdates := updates_updateStrategyModeWithSession task m fields x.pool.store
          refine hx.start (htask ▸ hupdates.stretch) (.inr hupdates.shaped) (fun j mode _ hmode hclosing => ?_)
            (fun mode hmode => (by cases hmode))
          rw [hupdates.keeps id]
          exact hx.filled hmode hclosing

theorem Inv.resume (hx : Inv x) (task : Nat) (hmeets : Meets x (.resume task)) : Inv (step x (.resume task)) := by
  by_cases hanswered : ∃ q a k, x.pool.tasks task = some (.answered q a k)
  case neg =>
    have hidle : step x (.resume task) = x := by
      rw [step, Pool.resume_not_answered (fun q a k htask => hanswered ⟨q, a, k, htask⟩)]
    rw [hidle]
    exact hx
  obtain ⟨q, a, k, htask⟩ := hanswered
  have hstep : step x (.resume task) = { x with
      pool := x.pool.start task (k a), expected := Function.update x.expected task (x.expected task) } := by
    rw [step, Pool.resume_answered htask, Function.update_eq_self]
  rw [hstep]
  rcases hx.shaped task with ⟨conclude, hreading⟩ | hupdating
  · rw [htask] at hreading
    have hreads := hreading.reads a x.pool.store
    refine hx.start (htask ▸ hreads.stretch) (.inl ⟨conclude, hreads.shaped⟩)
      (fun j mode _ hmode hclosing => hreads.keeps (hx.filled hmode hclosing)) (fun mode hmode => ?_)
    obtain ⟨hpromised, m, rfl, howed⟩ := hx.owed task mode hmode
    obtain ⟨value, hc⟩ := hx.current _ hpromised
    have hread := howed.shaped
    rw [htask] at hread
    exact ⟨hpromised, m, rfl, .of_reads hc (htask ▸ hread.reads a x.pool.store) howed.filled⟩
  · rw [htask] at hupdating
    have hupdates := hupdating.updates a x.pool.store
    refine hx.start (htask ▸ hupdates.stretch) (.inr hupdates.shaped) (fun j mode _ hmode hclosing => ?_)
      (fun mode hmode => ?_)
    · rw [hupdates.keeps (fun hinvalidates => hmeets (htask ▸ hinvalidates) j mode hmode hclosing)]
      exact hx.filled hmode hclosing
    · obtain ⟨-, m, -, howed⟩ := hx.owed task mode hmode
      have hread := howed.shaped
      rw [htask] at hread
      cases hread <;> cases hupdating

/-- The commit of another mode leaves a mode as it was. -/
theorem Current.commit (hc : Current x.pool mode value) (task : Nat) {other : String} (fields : Fields) (hne : other ≠ mode) :
    Current (x.commit task other fields).pool mode value := by
  refine ⟨?_, ?_, hc.cached, hc.stored⟩
  · rw [← hc.committed, committedValue, committedValue]
    exact congrArg _ (find?_committed other fields hne _)
  · simp only [State.commit, Database.committed, filter_committed]
    exact (shows_committed other fields hne _).mpr hc.selected

theorem Inv.commit (hx : Inv x) (task : Nat) (hmeets : Meets x (.commit task)) : Inv (step x (.commit task)) := by
  simp only [step]
  simp only [Meets] at hmeets
  split
  next other fields htask hpending =>
    rw [htask, hpending] at hmeets
    refine ⟨hx.shaped, fun mode hmode => ?_, fun j mode hmode => ?_⟩
    · by_cases hmode' : mode = other
      · subst hmode'
        exact hmeets
      · simp only [State.commit, Function.update_of_ne hmode'] at hmode
        obtain ⟨value, hc⟩ := hx.current mode hmode
        exact ⟨value, hc.commit task fields (Ne.symm hmode')⟩
    · obtain ⟨hmode, hne⟩ := Option.filter_eq_some_iff.mp hmode
      obtain ⟨hpromised, m, rfl, howed⟩ := hx.owed j mode hmode
      have hne : upper m ≠ other := of_decide_eq_true hne
      refine ⟨?_, m, rfl, howed.started, howed.shaped, howed.filled, fun r hr => ?_⟩
      · simp only [State.commit, Function.update_of_ne hne]
        exact hpromised
      · obtain ⟨value, hc⟩ := hx.current _ hpromised
        obtain ⟨value', hvalue', hr⟩ := howed.seen r hr
        cases hc.committed.symm.trans hvalue'
        exact ⟨value, (hc.commit task fields (Ne.symm hne)).committed, hr⟩
  next => exact hx

theorem inv_opened (rows : List StrategyMode) : Inv (opened rows) :=
  ⟨fun _ => .inr trivial, fun mode hmode => (by cases hmode), fun i mode hmode => (by cases hmode)⟩

theorem Inv.step (hx : Inv x) (event : Event) (hmeets : Meets x event) : Inv (StrategyModeStore.step x event) := by
  cases event with
  | call task c => exact hx.call task c
  | enter task => exact hx.enter task
  | answer task failure => exact hx.answer task failure
  | resume task => exact hx.resume task hmeets
  | commit task => exact hx.commit task hmeets

theorem Inv.seen (hx : Inv x) : Seen x := by
  intro task mode r hmode htask
  obtain ⟨-, m, rfl, howed⟩ := hx.owed task mode hmode
  obtain ⟨value, hvalue, hr⟩ := howed.seen r htask
  obtain ⟨sm, hsm, rfl⟩ := Option.map_eq_some_iff.mp hvalue
  exact ⟨sm, hsm, hr⟩

/-- The lock is taken by a load that has not ended. -/
def Held (x : State) : Prop := x.pool.store.locked = true → ∃ i, Holds (x.pool.tasks i)

theorem Held.start (hheld : Held x) {p : Op Value} (expected : Nat → Option String)
    (hstretch : Stretch (x.pool.tasks i) x.pool.store (p.advance x.pool.store)) :
    Held { x with pool := x.pool.start i p, expected } := by
  intro hlocked
  rcases hstretch.held hlocked with hholds | ⟨hbefore, hnot⟩
  · exact ⟨i, (x.pool.start_tasks_self i p).symm ▸ hholds⟩
  · obtain ⟨j, hj⟩ := hheld hbefore
    have hne : j ≠ i := by
      rintro rfl
      exact hnot hj
    exact ⟨j, (x.pool.start_tasks_of_ne p hne).symm ▸ hj⟩

theorem holds_act (failure : Option Exn) (htask : P.tasks i = some (.asked q k)) {j : Nat} (hholds : Holds (P.tasks j)) :
    Holds ((P.act (database failure) i).tasks j) := by
  rw [Pool.act_asked htask]
  by_cases hj : j = i
  · subst hj
    rw [htask] at hholds
    dsimp only
    rw [Function.update_self]
    cases q with
    | select | close => trivial
    | acquire | selectMode | flush | refresh => cases hholds
  · dsimp only
    rw [Function.update_of_ne hj]
    exact hholds

theorem Held.act (hheld : Held x) (failure : Option Exn) (htask : x.pool.tasks i = some (.asked q k))
    (promised : String → Bool) (expected : Nat → Option String) : Held { pool := x.pool.act (database failure) i, promised, expected } := by
  intro hlocked
  have hstore : (x.pool.act (database failure) i).store = x.pool.store := by rw [Pool.act_asked htask]
  dsimp only at hlocked
  rw [hstore] at hlocked
  obtain ⟨j, hj⟩ := hheld hlocked
  exact ⟨j, holds_act failure htask hj⟩

theorem stretch_program (c : Call) (task : Nat) (s : Store) : Stretch none s ((c.program task).advance s) := by
  cases c with
  | loadStrategyModes =>
      have hreads : Reads (fun modes => .ok (.modes modes)) none s _ := reads_loadStrategyModes s
      exact hreads.stretch
  | getTpRangeMax m =>
      rw [program_getTpRangeMax]
      exact (reads_loadStrategyModes s).stretch
  | updateStrategyModeWithSession m fields => exact (updates_updateStrategyModeWithSession task m fields s).stretch

theorem Held.step (hheld : Held x) (hx : Inv x) (event : Event) : Held (StrategyModeStore.step x event) := by
  cases event with
  | call task c =>
      cases htask : x.pool.tasks task with
      | some t => simpa only [StrategyModeStore.step, htask, Option.isNone_some, Bool.false_eq_true, if_false] using hheld
      | none =>
          simp only [StrategyModeStore.step, htask, Option.isNone_none, if_true]
          exact hheld.start _ (htask ▸ stretch_program c task x.pool.store)
  | enter task =>
      simp only [StrategyModeStore.step]
      split
      next k htask _ =>
        intro _
        refine ⟨task, ?_⟩
        have htask : ({ x.pool with store := { x.pool.store with locked := true } } : Calls).tasks task =
            some (.asked .acquire k) := htask
        dsimp only
        rw [Pool.act_tasks_self (database none) htask]
        trivial
      next => exact hheld
  | answer task failure =>
      simp only [StrategyModeStore.step]
      split
      next => exact hheld
      next request k _ htask =>
        split
        · exact hheld.act failure htask _ _
        · exact hheld.act failure htask _ _
      next => exact hheld
  | resume task =>
      by_cases hanswered : ∃ q a k, x.pool.tasks task = some (.answered q a k)
      case neg => rwa [StrategyModeStore.step, Pool.resume_not_answered (fun q a k htask => hanswered ⟨q, a, k, htask⟩)]
      obtain ⟨q, a, k, htask⟩ := hanswered
      rw [StrategyModeStore.step, Pool.resume_answered htask]
      refine hheld.start _ (htask ▸ ?_)
      have hshaped := hx.shaped task
      rw [htask] at hshaped
      rcases hshaped with ⟨conclude, hreading⟩ | hupdating
      · exact (hreading.reads a x.pool.store).stretch
      · exact (hupdating.updates a x.pool.store).stretch
  | commit task =>
      simp only [StrategyModeStore.step]
      split
      next => exact hheld
      next => exact hheld

/-- What has become of the calls when one has been run to its end. -/
structure Ended (x x' : State) (i : Nat) : Prop where
  done : ∃ r, x'.pool.tasks i = some (.done r)
  free : x'.pool.store.locked = false
  others : ∀ j, j ≠ i → x'.pool.tasks j = x.pool.tasks j
  expected : x'.expected = x.expected

/-- A call can be run to its end, under the condition and without a failure. -/
def CanEnd (x : State) (i : Nat) : Prop := ∃ events, AllMeet step Meets x events ∧ Ended x (events.foldl step x) i

theorem CanEnd.of_step (event : Event) (h : CanEnd (step x event) i) (hmeets : Meets x event)
    (hothers : ∀ j, j ≠ i → (step x event).pool.tasks j = x.pool.tasks j)
    (hexpected : (step x event).expected = x.expected) : CanEnd x i := by
  obtain ⟨events, hevents, hended⟩ := h
  refine ⟨event :: events, ⟨hmeets, hevents⟩, hended.done, hended.free, fun j hj => ?_, hended.expected.trans hexpected⟩
  exact (hended.others j hj).trans (hothers j hj)

theorem CanEnd.of_resume {a : Answer q} (htask : x.pool.tasks i = some (.answered q a k))
    (hkeeps : q.loads = true ∨ q = .acquire) (h : CanEnd { x with pool := x.pool.start i (k a) } i) : CanEnd x i := by
  have hstep : step x (.resume i) = { x with pool := x.pool.start i (k a) } := by
    rw [step, Pool.resume_answered htask]
  refine CanEnd.of_step (.resume i) (hstep ▸ h) ?_ ?_ ?_
  · intro hinvalidates
    rw [htask] at hinvalidates
    cases q with
    | refresh => simp [Request.loads] at hkeeps
    | acquire | select | close | selectMode | flush => cases hinvalidates
  · rw [hstep]
    exact fun j hj => Pool.start_tasks_of_ne _ _ hj
  · rw [hstep]

theorem CanEnd.of_answer (htask : x.pool.tasks i = some (.asked q k)) (hloads : q.loads = true)
    (h : CanEnd { x with pool := x.pool.act (database none) i } i) : CanEnd x i := by
  have hstep : step x (.answer i none) = { x with pool := x.pool.act (database none) i } := by
    cases q with
    | acquire | selectMode | flush | refresh => cases hloads
    | select | close => simp only [step, htask, Option.isSome_none, Bool.false_eq_true, and_false, if_false]
  refine CanEnd.of_step (.answer i none) (hstep ▸ h) trivial ?_ ?_
  · rw [hstep, Pool.act_asked htask]
    exact fun j hj => Function.update_of_ne hj ..
  · rw [hstep]

theorem canEnd_closed {failed : Bool} {answer : Except Exn Unit} (htask : x.pool.tasks i =
    some (.answered (.close failed) answer (fun answer => reading conclude (closed failed answer)))) : CanEnd x i := by
  have htasks := x.pool.start_tasks_self i (reading conclude (closed failed answer))
  obtain ⟨cache, hadvance⟩ := advance_closed conclude failed answer x.pool.store
  rw [hadvance] at htasks
  have hlocked : ((reading conclude (closed failed answer)).advance x.pool.store).2.locked = false := by rw [hadvance]
  exact CanEnd.of_resume htask (.inl rfl) ⟨[], trivial, ⟨_, htasks⟩, hlocked, fun _ _ => rfl, rfl⟩

theorem canEnd_closing {failed : Bool} (htask : x.pool.tasks i =
    some (.asked (.close failed) (fun answer => reading conclude (closed failed answer)))) : CanEnd x i := by
  have hact := Pool.act_tasks_self (database none) htask
  exact CanEnd.of_answer htask rfl (canEnd_closed hact)

theorem canEnd_selected {answer : Except Exn (List StrategyMode)} (htask : x.pool.tasks i =
    some (.answered .select answer (fun answer => reading conclude (selected answer)))) : CanEnd x i := by
  refine CanEnd.of_resume htask (.inl rfl) ?_
  cases answer with
  | ok rows => exact canEnd_closing (Function.update_self ..)
  | error exc => exact canEnd_closing (Function.update_self ..)

theorem canEnd_selecting (htask : x.pool.tasks i = some (.asked .select (fun answer => reading conclude (selected answer)))) :
    CanEnd x i := by
  have hact := Pool.act_tasks_self (database none) htask
  exact CanEnd.of_answer htask rfl (canEnd_selected hact)

theorem canEnd_entered {answer : Unit} (htask : x.pool.tasks i =
    some (.answered .acquire answer (fun _ => reading conclude underLock))) : CanEnd x i := by
  refine CanEnd.of_resume htask (.inr rfl) ?_
  have htasks := x.pool.start_tasks_self i (reading conclude underLock)
  cases hcache : x.pool.store.cache with
  | none =>
      rw [advance_underLock_none hcache] at htasks
      exact canEnd_selecting htasks
  | some modes =>
      have hlocked : ((reading conclude underLock).advance x.pool.store).2.locked = false := by
        rw [advance_underLock_some hcache]
      rw [advance_underLock_some hcache] at htasks
      exact ⟨[], trivial, ⟨_, htasks⟩, hlocked, fun _ _ => rfl, rfl⟩

theorem canEnd_waiting (htask : x.pool.tasks i = some (.asked .acquire (fun _ => reading conclude underLock)))
    (hfree : x.pool.store.locked = false) : CanEnd x i := by
  have hstep : step x (.enter i) = { x with
      pool := ({ x.pool with store := { x.pool.store with locked := true } } : Calls).act (database none) i } := by
    simp only [step, htask, hfree]
  have htask : ({ x.pool with store := { x.pool.store with locked := true } } : Calls).tasks i =
      some (.asked .acquire (fun _ => reading conclude underLock)) := htask
  have hact := Pool.act_tasks_self (database none) htask
  refine CanEnd.of_step (.enter i) (hstep ▸ canEnd_entered hact) trivial ?_ ?_
  · rw [hstep, Pool.act_asked htask]
    exact fun j hj => Function.update_of_ne hj ..
  · rw [hstep]

/-- A load that has taken the lock can be run to its end. -/
theorem Inv.canEnd (hx : Inv x) (hholds : Holds (x.pool.tasks i)) : CanEnd x i := by
  have hshaped := hx.shaped i
  cases htask : x.pool.tasks i with
  | none =>
      rw [htask] at hholds
      cases hholds
  | some t =>
      rw [htask] at hholds hshaped
      cases t with
      | done r => cases hholds
      | asked q k =>
          rcases hshaped with ⟨conclude, hreading⟩ | hupdating
          · cases hreading with
            | acquire => cases hholds
            | select => exact canEnd_selecting htask
            | close failed => exact canEnd_closing htask
          · cases hupdating <;> cases hholds
      | answered q a k =>
          rcases hshaped with ⟨conclude, hreading⟩ | hupdating
          · cases hreading with
            | acquire => exact canEnd_entered htask
            | select => exact canEnd_selected htask
            | close failed => exact canEnd_closed htask
          · cases hupdating <;> cases hholds

/-- A read that is owed a value is not stuck: without a failure it can go on until it ends. -/
def Returns (x : State) : Prop :=
  ∀ task mode, x.expected task = some mode → ∃ events, AllMeet step Meets x events ∧
    (events.foldl step x).expected task = some mode ∧ ∃ r, (events.foldl step x).pool.tasks task = some (.done r)

theorem returns_of_canEnd {task : Nat} (hend : CanEnd x task) (hmode : x.expected task = some mode) :
    ∃ events, AllMeet step Meets x events ∧ (events.foldl step x).expected task = some mode ∧
      ∃ r, (events.foldl step x).pool.tasks task = some (.done r) := by
  obtain ⟨events, hmeets, hended⟩ := hend
  exact ⟨events, hmeets, (congrFun hended.expected task).trans hmode, hended.done⟩

theorem Inv.returns (hx : Inv x) (hheld : Held x) : Returns x := by
  intro task mode hmode
  obtain ⟨-, m, -, howed⟩ := hx.owed task mode hmode
  have hshaped := howed.shaped
  have hrest : Holds (x.pool.tasks task) → _ := fun hholds => returns_of_canEnd (hx.canEnd hholds) hmode
  cases htask : x.pool.tasks task with
  | none => exact absurd htask howed.started
  | some t =>
      rw [htask] at hshaped hrest
      cases t with
      | done r => exact ⟨[], trivial, hmode, r, htask⟩
      | answered q a k => cases hshaped <;> exact hrest trivial
      | asked q k =>
          cases hshaped with
          | select => exact hrest trivial
          | close failed => exact hrest trivial
          | acquire =>
              by_cases hlocked : x.pool.store.locked = true
              · -- The load that has the lock is run to its end first.
                obtain ⟨j, hj⟩ := hheld hlocked
                have hne : task ≠ j := by
                  rintro rfl
                  rw [htask] at hj
                  cases hj
                obtain ⟨events, hmeets, hended⟩ := hx.canEnd hj
                have hwaiting := canEnd_waiting ((hended.others task hne).trans htask) hended.free
                obtain ⟨rest, hrest, hreturns⟩ := returns_of_canEnd hwaiting ((congrFun hended.expected task).trans hmode)
                refine ⟨events ++ rest, allMeet_append.mpr ⟨hmeets, hrest⟩, ?_⟩
                rw [List.foldl_append]
                exact hreturns
              · exact returns_of_canEnd (canEnd_waiting htask (Bool.eq_false_iff.mpr hlocked)) hmode

/-- A read returns what the cache has, committed or not. -/
theorem read_cached {task : Nat} {m : String} {modes : List ModeDict} (htask : x.pool.tasks task = none)
    (hcache : x.pool.store.cache = some modes) :
    (step x (.call task (.getTpRangeMax m))).pool.tasks task = some (.done (tpConclusion m (some modes))) := by
  simp only [step, htask, Option.isNone_none, if_true, program_getTpRangeMax]
  rw [Pool.start_tasks_self, advance_loadStrategyModes_some hcache, hcache]

/-- A read whose session ends after an update has dropped the cache raises a TypeError. -/
theorem read_dropped {task : Nat} {m : String} (htask : x.pool.tasks task =
      some (.answered (.close false) (.ok ()) (fun answer => reading (tpConclusion m) (closed false answer))))
    (hcache : x.pool.store.cache = none) :
    (step x (.resume task)).pool.tasks task =
      some (.done (.error (.other "TypeError" "'NoneType' object is not iterable"))) := by
  rw [step, Pool.resume_answered htask]
  dsimp only
  rw [Pool.start_tasks_self, advance_closed_ok, hcache]
  rfl

/-- In every run whose commits and invalidations find nothing older than what is committed, the
reads that are started after a commit return what is committed. -/
theorem committed_seen (rows : List StrategyMode) (events : List Event) (hmeets : AllMeet step Meets (opened rows) events) :
    Seen (events.foldl step (opened rows)) ∧ Returns (events.foldl step (opened rows)) := by
  obtain ⟨hx, hheld⟩ := foldl_of_allMeet (I := fun x => Inv x ∧ Held x)
    (fun _ event hx hmeets => ⟨hx.1.step event hmeets, hx.2.step hx.1 event⟩) ⟨inv_opened rows, fun h => (by cases h)⟩ hmeets
  exact ⟨hx.seen, hx.returns hheld⟩

section runs

def hyperRow : StrategyMode := { mode := "A", label := "Hyper", tpRangeMax := 3 / 10, riskLevel := "Very Aggressive" }

/-- An update of mode A up to its end, which its caller has not committed yet. -/
def updateHyper : List Event :=
  [.call 0 (.updateStrategyModeWithSession "A" { tpRangeMax := some (1 / 2) }), .answer 0 none, .resume 0, .answer 0 none,
    .resume 0, .answer 0 none, .resume 0]

/-- A read that finds the cache dropped. -/
def readHyper (task : Nat) : List Event :=
  [.call task (.getTpRangeMax "A"), .answer task none, .resume task, .answer task none, .resume task]

theorem committed_seen_hyper : Seen ((updateHyper ++ .commit 0 :: readHyper 1).foldl step (opened [hyperRow])) ∧
    Returns ((updateHyper ++ .commit 0 :: readHyper 1).foldl step (opened [hyperRow])) := by
  have hupdate : AllMeet step Meets (opened [hyperRow]) updateHyper := by
    refine ⟨trivial, trivial, fun h => (by cases h), trivial, fun h => (by cases h), trivial, fun _ i mode hmode => ?_,
      trivial⟩
    cases i <;> cases hmode
  have hread : AllMeet step Meets (step (updateHyper.foldl step (opened [hyperRow])) (.commit 0)) (readHyper 1) :=
    ⟨trivial, trivial, fun h => (by cases h), trivial, fun h => (by cases h), trivial⟩
  refine committed_seen [hyperRow] _ (allMeet_append.mpr ⟨hupdate, ⟨1 / 2, ?_, ?_, ?_, ?_⟩, hread⟩)
  · decide +kernel
  · rw [Shows]
    decide +kernel
  · intro modes hmodes
    cases hmodes
  · intro task modes hmodes
    cases task <;> cases hmodes

/-- A read between the end of an update and its commit, and one after the commit. -/
def readBetween : List Event := updateHyper ++ readHyper 1 ++ [.commit 0, .call 2 (.getTpRangeMax "A")]

/-- An update drops the cache before its caller commits; what is read in between is cached, and the
committed value is not seen. -/
theorem stale_read : ¬ ∀ (rows : List StrategyMode) (events : List Event), Seen (events.foldl step (opened rows)) := by
  intro hseen
  obtain ⟨sm, hsm, hr⟩ := hseen [hyperRow] readBetween 2 "A" (.ok (.tpRangeMax (3 / 10))) (by decide +kernel) rfl
  have hcommitted : committedValue (readBetween.foldl step (opened [hyperRow])).pool.world.rows "A" = some (1 / 2) := by
    decide +kernel
  rw [committedValue, hsm] at hcommitted
  have hread : 3 / 10 = sm.tpRangeMax := Value.tpRangeMax.inj (Except.ok.inj hr)
  have hvalue : (3 / 10 : ℚ) = 1 / 2 := hread.trans (Option.some.inj hcommitted)
  exact absurd hvalue (by decide +kernel)

end runs

end Utos.Services.StrategyModeStore
