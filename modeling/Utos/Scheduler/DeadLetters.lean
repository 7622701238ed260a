import Utos.Core.Dict
import Utos.Core.Exceptions
import Utos.Core.Json
import Utos.Coroutine.Flight
import Utos.Coroutine.Trace

namespace Utos.Scheduler.DeadLetters

open Core Core.Exceptions Coroutine Program

structure DeadLetterEntry where
  eventType : String
  data : Dict String Json
  metadata : Dict String Json
  reason : String
  createdAt : ℚ
  replayCount : Nat := 0

structure Metrics where
  entriesAdded : Nat := 0
  entriesReplayed : Nat := 0
  entriesReplaySucceeded : Nat := 0
  entriesReplayFailed : Nat := 0
  entriesCleared : Nat := 0
  deriving DecidableEq, Repr

/-- The id of an entry is the number of those that were added before it. The last field is read by no
operation: the entries of which a replay has returned True. -/
structure DeadLetterQueue where
  entries : Dict Nat DeadLetterEntry := ∅
  hasReplayHandler : Bool := false
  metrics : Metrics := {}
  removed : List Nat := []

/-- A call of the replay handler. -/
structure Request where
  id : Nat
  entry : DeadLetterEntry

/-- It returns, or raises an exception with a text. -/
abbrev Answer : Request → Type := fun _ => Except String Bool

abbrev Operation (α : Type) := Program DeadLetterQueue Request Answer Exn α

section

variable (q : DeadLetterQueue)

def add (eventType : String) (data : Dict String Json) (reason : String) (metadata : Option (Dict String Json))
    (now : ℚ) : DeadLetterQueue :=
  { q with
    entries := q.entries.set q.metrics.entriesAdded
      { eventType, data, metadata := metadata.getD ∅, reason, createdAt := now }
    metrics := { q.metrics with entriesAdded := q.metrics.entriesAdded + 1 } }

def getAll : List DeadLetterEntry := q.entries.entries.map Prod.snd

def getByEventType (eventType : String) : List DeadLetterEntry := (getAll q).filter (·.eventType = eventType)

def getById (id : Nat) : Option DeadLetterEntry := q.entries.get id

def clear : DeadLetterQueue :=
  { q with
    entries := ∅
    metrics := { q.metrics with entriesCleared := q.metrics.entriesCleared + q.entries.entries.length } }

def DeadLetterEntry.counted (entry : DeadLetterEntry) : DeadLetterEntry :=
  { entry with replayCount := entry.replayCount + 1 }

/-- entry.replay_count += 1; entries_replayed += 1 -/
def count (id : Nat) (entry : DeadLetterEntry) : DeadLetterQueue :=
  { q with
    entries := q.entries.set id entry.counted
    metrics := { q.metrics with entriesReplayed := q.metrics.entriesReplayed + 1 } }

def succeed (id : Nat) : DeadLetterQueue :=
  { q with
    entries := q.entries.pop id
    metrics := { q.metrics with entriesReplaySucceeded := q.metrics.entriesReplaySucceeded + 1 }
    removed := q.removed ++ [id] }

def fail : DeadLetterQueue :=
  { q with metrics := { q.metrics with entriesReplayFailed := q.metrics.entriesReplayFailed + 1 } }

end

/-- What follows the call of the handler. -/
def settle (id : Nat) (outcome : Except String Bool) : Operation Bool :=
  .get (fun q => match outcome with
    | .ok true => match q.entries.get id with
      | some _ => .put (succeed q id) (.ret true)
      -- the del raises a KeyError, which is caught like what the handler raises
      | none => .put (fail q) (.ret false)
    | .ok false => .put (fail q) (.ret false)
    | .error _ => .put (fail q) (.ret false))

def replay (id : Nat) : Operation Bool :=
  .get (fun q => match q.entries.get id with
    | none => .ret false
    | some entry => .put (count q id entry)
        (if q.hasReplayHandler then .call ⟨id, entry.counted⟩ (settle id) else .ret false))

/-- The calls of the handler that have ended. -/
abbrev Log := List (Nat × Except String Bool)

abbrev Queue := Pool DeadLetterQueue Log Request Answer Exn Bool

/-- Calls of the methods, those that the handler makes while it runs among them, each replay with a name
of its own; and the handler that returns or raises to a replay. -/
inductive Event
  | add (eventType : String) (data : Dict String Json) (reason : String) (metadata : Option (Dict String Json)) (now : ℚ)
  | clear
  | replay (caller : Nat) (id : Nat)
  | answer (caller : Nat) (outcome : Except String Bool)

def handles (outcome : Except String Bool) : Handler Log Request Answer :=
  fun log q => (outcome, log ++ [(q.id, outcome)])

def step (P : Queue) : Event → Queue
  | .add eventType data reason metadata now => { P with store := add P.store eventType data reason metadata now }
  | .clear => { P with store := clear P.store }
  | .replay caller id =>
      if (P.tasks caller).isNone then P.start caller (DeadLetters.replay id) else P
  | .answer caller outcome => (P.act (handles outcome) caller).resume caller

/-- DeadLetterQueue.__init__ -/
def opening (hasReplayHandler : Bool) : Queue := { store := { hasReplayHandler }, world := [] }

/-- How often the handler has been done with an entry. -/
def handled (log : Log) (id : Nat) : Nat := log.countP (fun e => e.1 = id)

/-- What the three getters hand out are the entries that have an id. -/
theorem mem_getByEventType {q : DeadLetterQueue} {eventType : String} {entry : DeadLetterEntry} :
    entry ∈ getByEventType q eventType ↔ (∃ id, getById q id = some entry) ∧ entry.eventType = eventType := by
  simp [getByEventType, getAll, getById, Dict.mem_iff_get]

/-- The accounts of the queue, with the entries that the handler is at work on. -/
structure Accounts (F : Multiset Nat) (log : Log) (q : DeadLetterQueue) : Prop where
  known : ∀ id entry, q.entries.get id = some entry → id < q.metrics.entriesAdded
  working : ∀ id ∈ F, id < q.metrics.entriesAdded
  logged : ∀ e ∈ log, e.1 < q.metrics.entriesAdded
  added : q.metrics.entriesAdded =
    q.entries.entries.length + q.metrics.entriesReplaySucceeded + q.metrics.entriesCleared
  settled : log.length = q.metrics.entriesReplaySucceeded + q.metrics.entriesReplayFailed
  replayed : q.hasReplayHandler = true → q.metrics.entriesReplayed = log.length + F.card
  counts : q.hasReplayHandler = true → ∀ id entry, q.entries.get id = some entry →
    entry.replayCount = handled log id + F.count id
  waiting : ∀ id entry, q.entries.get id = some entry → (id, .ok true) ∉ log
  once : q.removed.Nodup
  removed : q.removed.length = q.metrics.entriesReplaySucceeded
  gone : ∀ id ∈ q.removed, id < q.metrics.entriesAdded ∧ q.entries.get id = none ∧ (id, .ok true) ∈ log

variable {F : Multiset Nat} {log : Log} {q : DeadLetterQueue} {id other : Nat} {entry : DeadLetterEntry}
variable {outcome : Except String Bool}

theorem handled_concat : handled (log ++ [(id, outcome)]) other = handled log other + if id = other then 1 else 0 := by
  simp [handled, List.countP_append]

theorem length_set_of_get (h : q.entries.get id = some entry) (entry' : DeadLetterEntry) :
    (q.entries.set id entry').entries.length = q.entries.entries.length := by
  rw [(Dict.perm_set ..).length_eq, (Dict.perm_of_get h).length_eq, List.length_cons, List.length_cons]

theorem length_pop (h : q.entries.get id = some entry) :
    q.entries.entries.length = (q.entries.pop id).entries.length + 1 := by
  rw [(Dict.perm_of_get h).length_eq, List.length_cons]

namespace Accounts

theorem add (h : Accounts F log q) (eventType : String) (data : Dict String Json) (reason : String)
    (metadata : Option (Dict String Json)) (now : ℚ) :
    Accounts F log (add q eventType data reason metadata now) := by
  have hnew : q.entries.get q.metrics.entriesAdded = none := by
    cases hget : q.entries.get q.metrics.entriesAdded with
    | none => rfl
    | some entry => exact absurd (h.known _ entry hget) (lt_irrefl _)
  have hlog : handled log q.metrics.entriesAdded = 0 :=
    List.countP_eq_zero.mpr (fun e he => by simpa using (h.logged e he).ne)
  have hF : F.count q.metrics.entriesAdded = 0 :=
    Multiset.count_eq_zero.mpr (fun hmem => lt_irrefl _ (h.working _ hmem))
  refine ⟨fun id entry hget => ?_, fun id hid => ?_, fun e he => ?_, ?_, h.settled, h.replayed, fun hhandler id entry hget => ?_,
    fun id entry hget hmem => ?_, h.once, h.removed, fun id hid => ?_⟩
  · simp only [DeadLetters.add, Dict.get_set] at hget
    split at hget
    next hid => exact hid ▸ Nat.lt_succ_self _
    next => exact Nat.lt_succ_of_lt (h.known id entry hget)
  · exact Nat.lt_succ_of_lt (h.working id hid)
  · exact Nat.lt_succ_of_lt (h.logged e he)
  · have hadded := h.added
    simp only [DeadLetters.add, Dict.entries_set_of_get_none _ hnew, List.length_append, List.length_singleton]
    omega
  · simp only [DeadLetters.add, Dict.get_set] at hget
    split at hget
    next hid =>
      subst hid
      cases hget
      rw [hlog, hF]
    next => exact h.counts hhandler id entry hget
  · simp only [DeadLetters.add, Dict.get_set] at hget
    split at hget
    next hid => exact absurd (h.logged _ hmem) (by simp [hid])
    next => exact h.waiting id entry hget hmem
  · obtain ⟨hlt, hnone, hmem⟩ := h.gone id hid
    refine ⟨Nat.lt_succ_of_lt hlt, ?_, hmem⟩
    simp only [DeadLetters.add, Dict.get_set, if_neg hlt.ne]
    exact hnone

theorem clear (h : Accounts F log q) : Accounts F log (clear q) := by
  have hempty : ∀ id entry, (DeadLetters.clear q).entries.get id ≠ some entry := fun id entry hget => by
    simp [DeadLetters.clear] at hget
  refine ⟨fun id entry hget => absurd hget (hempty id entry), h.working, h.logged, ?_, h.settled, h.replayed,
    fun _ id entry hget => absurd hget (hempty id entry), fun id entry hget => absurd hget (hempty id entry), h.once,
    h.removed, fun id hid => ⟨(h.gone id hid).1, rfl, (h.gone id hid).2.2⟩⟩
  have hadded := h.added
  have hnil : (DeadLetters.clear q).entries.entries.length = 0 := rfl
  rw [hnil]
  simp only [DeadLetters.clear]
  omega

/-- The replay is counted, and handed to the handler if there is one. -/
theorem count (h : Accounts F log q) (hget : q.entries.get id = some entry) (hhandler : q.hasReplayHandler = true) :
    Accounts (id ::ₘ F) log (count q id entry) := by
  have hold : ∀ other entry', (DeadLetters.count q id entry).entries.get other = some entry' →
      ∃ old, q.entries.get other = some old ∧ entry'.replayCount = old.replayCount + if id = other then 1 else 0 := by
    intro other entry' hget'
    simp only [DeadLetters.count, Dict.get_set] at hget'
    split at hget'
    next hid =>
      cases hget'
      exact ⟨entry, hid ▸ hget, by simp [DeadLetterEntry.counted, hid]⟩
    next hid => exact ⟨entry', hget', by simp [Ne.symm hid]⟩
  refine ⟨fun other entry' hget' => ?_, fun other hother => ?_, h.logged, ?_, h.settled, fun _ => ?_,
    fun _ other entry' hget' => ?_, fun other entry' hget' => ?_, h.once, h.removed, fun other hother => ?_⟩
  · obtain ⟨old, hold, -⟩ := hold other entry' hget'
    exact h.known other old hold
  · rcases Multiset.mem_cons.mp hother with rfl | hother
    · exact h.known _ entry hget
    · exact h.working other hother
  · have hlength := length_set_of_get hget entry.counted
    have hadded := h.added
    simp only [DeadLetters.count, hlength]
    exact hadded
  · have hreplayed := h.replayed hhandler
    simp only [DeadLetters.count, Multiset.card_cons]
    omega
  · obtain ⟨old, hold, hcount⟩ := hold other entry' hget'
    rw [hcount, h.counts hhandler other old hold, Multiset.count_cons]
    simp only [eq_comm (a := id), add_assoc]
  · obtain ⟨old, hold, -⟩ := hold other entry' hget'
    exact h.waiting other old hold
  · obtain ⟨hlt, hnone, hmem⟩ := h.gone other hother
    refine ⟨hlt, ?_, hmem⟩
    have hne : other ≠ id := by
      rintro rfl
      cases hnone.symm.trans hget
    simp only [DeadLetters.count, Dict.get_set, if_neg hne]
    exact hnone

/-- Without a handler the replay is counted, and that is all. -/
theorem count_silent (h : Accounts F log q) (hget : q.entries.get id = some entry)
    (hhandler : q.hasReplayHandler = false) : Accounts F log (DeadLetters.count q id entry) := by
  have hold : ∀ other entry', (DeadLetters.count q id entry).entries.get other = some entry' →
      ∃ old, q.entries.get other = some old := by
    intro other entry' hget'
    simp only [DeadLetters.count, Dict.get_set] at hget'
    split at hget'
    next hid => exact ⟨entry, hid ▸ hget⟩
    next => exact ⟨entry', hget'⟩
  have hno : ∀ {P : Prop}, (DeadLetters.count q id entry).hasReplayHandler = true → P := by
    intro P htrue
    cases hhandler.symm.trans htrue
  refine ⟨fun other entry' hget' => ?_, h.working, h.logged, ?_, h.settled, hno, hno, fun other entry' hget' => ?_,
    h.once, h.removed, fun other hother => ?_⟩
  · obtain ⟨old, hold⟩ := hold other entry' hget'
    exact h.known other old hold
  · have hlength := length_set_of_get hget entry.counted
    have hadded := h.added
    simp only [DeadLetters.count, hlength]
    exact hadded
  · obtain ⟨old, hold⟩ := hold other entry' hget'
    exact h.waiting other old hold
  · obtain ⟨hlt, hnone, hmem⟩ := h.gone other hother
    refine ⟨hlt, ?_, hmem⟩
    have hne : other ≠ id := by
      rintro rfl
      cases hnone.symm.trans hget
    simp only [DeadLetters.count, Dict.get_set, if_neg hne]
    exact hnone

/-- A replay that fails, or whose entry is gone. -/
theorem fail (h : Accounts (id ::ₘ F) log q)
    (hgone : outcome = .ok true → q.entries.get id = none) :
    Accounts F (log ++ [(id, outcome)]) (fail q) := by
  refine ⟨h.known, fun other hother => h.working other (Multiset.mem_cons_of_mem hother), fun e he => ?_, h.added, ?_,
    fun hhandler => ?_, fun hhandler other entry hget => ?_, fun other entry hget hmem => ?_, h.once, h.removed,
    fun other hother => ?_⟩
  · rcases List.mem_append.mp he with he | he
    · exact h.logged e he
    · rw [List.mem_singleton.mp he]
      exact h.working id (Multiset.mem_cons_self id F)
  · have hsettled := h.settled
    simp only [DeadLetters.fail, List.length_append, List.length_singleton]
    omega
  · have hreplayed := h.replayed hhandler
    rw [Multiset.card_cons] at hreplayed
    simp only [DeadLetters.fail, List.length_append, List.length_singleton]
    omega
  · have hcounts := h.counts hhandler other entry hget
    rw [Multiset.count_cons] at hcounts
    rw [handled_concat, hcounts]
    simp only [eq_comm (a := id)]
    omega
  · rcases List.mem_append.mp hmem with hmem | hmem
    · exact h.waiting other entry hget hmem
    · cases List.mem_singleton.mp hmem
      cases (hgone rfl).symm.trans hget
  · obtain ⟨hlt, hnone, hmem⟩ := h.gone other hother
    exact ⟨hlt, hnone, List.mem_append_left _ hmem⟩

theorem succeed (h : Accounts (id ::ₘ F) log q) (hget : q.entries.get id = some entry) :
    Accounts F (log ++ [(id, .ok true)]) (succeed q id) := by
  have hold : ∀ {other entry'}, (DeadLetters.succeed q id).entries.get other = some entry' →
      other ≠ id ∧ q.entries.get other = some entry' := by
    intro other entry' hget'
    simp only [DeadLetters.succeed, Dict.get_pop] at hget'
    split at hget'
    next => cases hget'
    next hne => exact ⟨hne, hget'⟩
  have hnotRemoved : id ∉ q.removed := fun hmem => by cases (h.gone id hmem).2.1.symm.trans hget
  refine ⟨fun other entry' hget' => h.known other entry' (hold hget').2,
    fun other hother => h.working other (Multiset.mem_cons_of_mem hother), fun e he => ?_, ?_, ?_, fun hhandler => ?_,
    fun hhandler other entry' hget' => ?_, fun other entry' hget' hmem => ?_, ?_, ?_, fun other hother => ?_⟩
  · rcases List.mem_append.mp he with he | he
    · exact h.logged e he
    · rw [List.mem_singleton.mp he]
      exact h.known id entry hget
  · have hlength := length_pop hget
    have hadded := h.added
    simp only [DeadLetters.succeed]
    omega
  · have hsettled := h.settled
    simp only [DeadLetters.succeed, List.length_append, List.length_singleton]
    omega
  · have hreplayed := h.replayed hhandler
    rw [Multiset.card_cons] at hreplayed
    simp only [DeadLetters.succeed, List.length_append, List.length_singleton]
    omega
  · obtain ⟨hne, hget'⟩ := hold hget'
    have hcounts := h.counts hhandler other entry' hget'
    rw [Multiset.count_cons_of_ne hne] at hcounts
    rw [handled_concat, hcounts, if_neg hne.symm, add_zero]
  · obtain ⟨hne, hget'⟩ := hold hget'
    rcases List.mem_append.mp hmem with hmem | hmem
    · exact h.waiting other entry' hget' hmem
    · cases List.mem_singleton.mp hmem
      exact hne rfl
  · exact List.nodup_append'.mpr ⟨h.once, List.nodup_singleton id, by simpa using hnotRemoved⟩
  · have hremoved := h.removed
    simp only [DeadLetters.succeed, List.length_append, List.length_singleton]
    omega
  · rcases List.mem_append.mp hother with hother | hother
    · obtain ⟨hlt, hnone, hmem⟩ := h.gone other hother
      refine ⟨hlt, ?_, List.mem_append_left _ hmem⟩
      simp only [DeadLetters.succeed, Dict.get_pop, hnone, ite_self]
    · cases List.mem_singleton.mp hother
      refine ⟨h.known id entry hget, ?_, List.mem_append_right _ (List.mem_singleton_self _)⟩
      simp [DeadLetters.succeed, Dict.get_pop]

end Accounts

/-- A replay that waits for the handler has its entry in flight. -/
def flight : Flight DeadLetterQueue Log Request Answer (Multiset Nat) Exn Bool where
  holds q m := m = {q.id}
  inv := Accounts
  answers h := ∃ outcome, h = handles outcome

theorem lands_settle (h : Accounts (id ::ₘ F) log q) :
    Lands flight (settle id outcome) (fun _ => Accounts) F (log ++ [(id, outcome)]) q := by
  change Lands flight (match outcome with
    | .ok true => match q.entries.get id with
      | some _ => .put (succeed q id) (.ret true)
      | none => .put (fail q) (.ret false)
    | .ok false => .put (fail q) (.ret false)
    | .error _ => .put (fail q) (.ret false)) (fun _ => Accounts) F _ q
  split
  · split
    next entry hget => exact h.succeed hget
    next hnone => exact h.fail (fun _ => hnone)
  · exact h.fail (fun htrue => by cases htrue)
  · exact h.fail (fun htrue => by cases htrue)

theorem balances_replay (id : Nat) : Balances flight (replay id) := by
  intro F log q h
  change Lands flight (match q.entries.get id with
    | none => .ret false
    | some entry => .put (count q id entry)
        (if q.hasReplayHandler then .call ⟨id, entry.counted⟩ (settle id) else .ret false)) (fun _ => Accounts) F log q
  cases hget : q.entries.get id with
  | none => exact h
  | some entry =>
      simp only [Lands]
      split
      next hhandler =>
        refine ⟨{id}, rfl, h.count hget hhandler, ?_⟩
        rintro _ ⟨outcome, rfl⟩ F' log' q' h'
        exact lands_settle h'
      next hhandler => exact h.count_silent hget (Bool.eq_false_iff.mpr hhandler)

def Sound (P : Queue) : Prop := ∃ own, Balanced flight own P

theorem Sound.step {P : Queue} (h : Sound P) (e : Event) : Sound (step P e) := by
  obtain ⟨own, hP⟩ := h
  cases e with
  | add eventType data reason metadata now =>
      exact ⟨own, hP.store (fun F hF => Accounts.add hF eventType data reason metadata now)⟩
  | clear => exact ⟨own, hP.store (fun F hF => Accounts.clear hF)⟩
  | replay caller id =>
      simp only [DeadLetters.step]
      split
      next hfresh => exact hP.start_balances (Option.isNone_iff_eq_none.mp hfresh) (fun _ => trivial) (balances_replay id)
      next => exact ⟨own, hP⟩
  | answer caller outcome => exact hP.answer ⟨outcome, rfl⟩

theorem sound_opening (hasReplayHandler : Bool) : Sound (opening hasReplayHandler) := by
  refine ⟨0, Balanced.idle ⟨fun _ _ hget => ?_, fun _ hmem => ?_, fun _ hmem => ?_, rfl, rfl, fun _ => rfl,
    fun _ _ _ hget => ?_, fun _ _ hget => ?_, List.nodup_nil, rfl, fun _ hmem => ?_⟩⟩
  · cases hget
  · cases hmem
  · cases hmem
  · cases hget
  · cases hget
  · cases hmem

/-- However adding, clearing and replaying take turns, the replays that the handler makes while it runs
among them, the queue keeps its accounts with the entries that the handler is at work on. -/
theorem accounts_run (hasReplayHandler : Bool) (es : List Event) :
    ∃ F, (es.foldl step (opening hasReplayHandler)).InFlight flight.holds F ∧
      Accounts F (es.foldl step (opening hasReplayHandler)).world (es.foldl step (opening hasReplayHandler)).store := by
  have hsound : Sound (es.foldl step (opening hasReplayHandler)) :=
    foldl_keeps (fun P e hP => hP.step e) es (sound_opening hasReplayHandler)
  obtain ⟨own, hP⟩ := hsound
  exact hP.inFlight

end Utos.Scheduler.DeadLetters
