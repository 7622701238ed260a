import Utos.Coroutine.Trace
import Utos.Streams.SubscriptionManager
import Mathlib.Data.List.Nodup

namespace Utos.Streams.Deduplication

open Coroutine Program Core.DomainTypes Core.Exceptions SubscriptionManager

variable {γ : Type}

/-- How far a call has come: it has no stream yet, or has one that it did not
put into the map yet; it is about to close a stream, or has closed it. -/
inductive Stage
  | waiting (key : LogicalKey) (consumerId : ConsumerId)
  | arrived (key : LogicalKey) (consumerId : ConsumerId) (wsSubId : WsSubId)
  | closing (wsSubId : WsSubId)
  | closed
  | done

/-- The tasks of the two operations by their stages. -/
inductive Shape : Task (Manager γ) (Request γ) (Answer γ) Exn (Option ConsumerId) → Stage → Prop
  | waiting (exchange symbol channel : String) (callback : γ) (consumerId : ConsumerId) :
      Shape (.asked (.subscribeFn exchange symbol channel callback) (fun a =>
        .bind (.lift (id a)) (install (logicalKey exchange symbol channel) consumerId callback)))
        (.waiting (logicalKey exchange symbol channel) consumerId)
  | arrived (exchange symbol channel : String) (callback : γ) (consumerId : ConsumerId) (wsSubId : WsSubId) :
      Shape (.answered (.subscribeFn exchange symbol channel callback) (.ok wsSubId) (fun a =>
        .bind (.lift (id a)) (install (logicalKey exchange symbol channel) consumerId callback)))
        (.arrived (logicalKey exchange symbol channel) consumerId wsSubId)
  | closing (wsSubId : WsSubId) :
      Shape (.asked (.unsubscribeFn wsSubId) (fun a => .bind (.lift (id a)) (fun _ => .ret none))) (.closing wsSubId)
  | closed (wsSubId : WsSubId) :
      Shape (.answered (.unsubscribeFn wsSubId) (.ok ()) (fun a => .bind (.lift (id a)) (fun _ => .ret none))) .closed
  | done (r : Except Exn (Option ConsumerId)) : Shape (.done r) .done

def liveIn (live : List (ConsumerId × LogicalKey)) (key : LogicalKey) : List ConsumerId :=
  (live.filter (fun consumer => consumer.2 = key)).map Prod.fst

/-- The task is a subscribe call whose entry is not in the map yet. -/
def Opens (stages : Nat → Option Stage) (i : Nat) (key : LogicalKey) (c : ConsumerId) : Prop :=
  stages i = some (.waiting key c) ∨ ∃ ws, stages i = some (.arrived key c ws)

/-- A stream is held by the entry of its key, or by the call it was opened for. -/
def Held (m : Manager γ) (stages : Nat → Option Stage) (ws : WsSubId) (key : LogicalKey) : Prop :=
  (∃ entry, m.logical key = some entry ∧ entry.wsSubId = ws) ∨ ∃ i c, stages i = some (.arrived key c ws)

structure Fits (consumers : List ConsumerId) (entry : Entry γ) : Prop where
  refcount : entry.refcount = consumers.length
  callbacks : entry.callbacks.map Prod.fst = consumers
  used : consumers ≠ []

/-- The consumers and the entries. -/
structure Counted (m : Manager γ) (live : List (ConsumerId × LogicalKey)) (stages : Nat → Option Stage) : Prop where
  consumers : ∀ c key, (c, key) ∈ live ↔ m.consumerMap c = some key
  issued : ∀ c key, (c, key) ∈ live → c < m.issued
  nodup : (live.map Prod.fst).Nodup
  fits : ∀ key entry, m.logical key = some entry → Fits (liveIn live key) entry
  missing : ∀ key, m.logical key = none → liveIn live key = [] ∨ ∃ i c, Opens stages i key c
  opening : ∀ i key c, Opens stages i key c → m.logical key = none ∧ liveIn live key = [c]
  alone : ∀ i j key c d, Opens stages i key c → Opens stages j key d → i = j

/-- The open streams. -/
structure Owned (m : Manager γ) (w : Upstream) (stages : Nat → Option Stage) : Prop where
  nodup : (w.opened.map Prod.fst).Nodup
  next : ∀ ws key, (ws, key) ∈ w.opened → ws < w.next
  held : ∀ ws key, Held m stages ws key → (ws, key) ∈ w.opened
  owner : ∀ ws key, (ws, key) ∈ w.opened → Held m stages ws key ∨ ∃ i, stages i = some (.closing ws)
  closing : ∀ i ws, stages i = some (.closing ws) → ws < w.next ∧ ∀ key, ¬ Held m stages ws key

/-- The invariant of a run. -/
structure Sound (x : State γ) (stages : Nat → Option Stage) : Prop where
  shapes : ∀ i t, x.pool.tasks i = some t → ∃ s, stages i = some s ∧ Shape t s
  staged : ∀ i s, stages i = some s → ∃ t, x.pool.tasks i = some t ∧ Shape t s
  started : ∀ i, x.started ≤ i → stages i = none
  counted : Counted x.pool.store x.live stages
  owned : Owned x.pool.store x.pool.world stages

/-- The key has an entry or no consumer; a known consumer's key has an entry. -/
def Meets (x : State γ) : Event γ → Prop
  | .subscribe exchange symbol channel _ =>
      x.pool.store.logical (logicalKey exchange symbol channel) = none →
        ∀ c, x.pool.store.consumerMap c ≠ some (logicalKey exchange symbol channel)
  | .unsubscribe c => ∀ key, x.pool.store.consumerMap c = some key → x.pool.store.logical key ≠ none
  | .act _ => True
  | .resume _ => True

section

variable {live : List (ConsumerId × LogicalKey)} {key key' : LogicalKey} {c : ConsumerId} {stages : Nat → Option Stage}
variable {m : Manager γ} {w : Upstream} {i : Nat} {s : Stage}

@[simp] theorem mem_liveIn : c ∈ liveIn live key ↔ (c, key) ∈ live := by
  simp [liveIn]

theorem liveIn_append_self : liveIn (live ++ [(c, key)]) key = liveIn live key ++ [c] := by
  simp [liveIn]

theorem liveIn_append_of_ne (h : key' ≠ key) : liveIn (live ++ [(c, key)]) key' = liveIn live key' := by
  simp [liveIn, Ne.symm h]

theorem liveIn_filter : liveIn (live.filter (fun consumer => consumer.1 ≠ c)) key = (liveIn live key).filter (· ≠ c) := by
  rw [liveIn, liveIn, List.filter_filter, List.filter_map, List.filter_filter]
  congr 1
  apply List.filter_congr
  intro consumer _
  simp [Bool.and_comm]

theorem nodup_liveIn (h : (live.map Prod.fst).Nodup) : (liveIn live key).Nodup :=
  h.sublist (List.filter_sublist.map Prod.fst)

theorem length_filter_ne {l : List Nat} (hl : l.Nodup) (hc : c ∈ l) : (l.filter (· ≠ c)).length + 1 = l.length := by
  have herase : l.filter (· ≠ c) = l.erase c := by
    rw [hl.erase_eq_filter]
    apply List.filter_congr
    intro a _
    by_cases ha : a = c <;> simp [ha]
  have hpos := List.length_pos_of_mem hc
  rw [herase, List.length_erase_of_mem hc]
  omega

theorem opens_update {s : Stage} {j : Nat} : Opens (Function.update stages i (some s)) j key c ↔
    j = i ∧ (s = .waiting key c ∨ ∃ ws, s = .arrived key c ws) ∨ j ≠ i ∧ Opens stages j key c := by
  by_cases hj : j = i
  · subst hj
    simp [Opens]
  · simp [Opens, hj]

theorem opens_update_idle (hs : ∀ key c, s ≠ .waiting key c ∧ ∀ ws, s ≠ .arrived key c ws)
    (hi : ∀ key c, ¬ Opens stages i key c) {j : Nat} :
    Opens (Function.update stages i (some s)) j key c ↔ Opens stages j key c := by
  rw [opens_update]
  constructor
  · rintro (⟨-, hw | ⟨ws, ha⟩⟩ | ⟨-, ho⟩)
    · exact absurd hw (hs key c).1
    · exact absurd ha ((hs key c).2 ws)
    · exact ho
  · exact fun ho => .inr ⟨fun hj => hi key c (hj ▸ ho), ho⟩

theorem not_opens_none (hi : stages i = none) (key : LogicalKey) (c : ConsumerId) : ¬ Opens stages i key c := by
  simp [Opens, hi]

theorem counted_congr {stages' : Nat → Option Stage} (hm : Counted m live stages)
    (ho : ∀ j key c, Opens stages' j key c ↔ Opens stages j key c) : Counted m live stages' := by
  refine ⟨hm.consumers, hm.issued, hm.nodup, hm.fits, fun key hkey => ?_, fun i key c h => ?_, fun i j key c d h h' => ?_⟩
  · simpa only [ho] using hm.missing key hkey
  · exact hm.opening i key c ((ho i key c).mp h)
  · exact hm.alone i j key c d ((ho _ _ _).mp h) ((ho _ _ _).mp h')

theorem consumers_register (hm : Counted m live stages) (key : LogicalKey) (d : ConsumerId) (key' : LogicalKey) :
    (d, key') ∈ live ++ [(m.issued, key)] ↔ (m.register key).consumerMap d = some key' := by
  rw [List.mem_append, List.mem_singleton, hm.consumers]
  by_cases hd : d = m.issued
  · subst hd
    have hnone : m.consumerMap m.issued ≠ some key' := fun h =>
      lt_irrefl _ (hm.issued _ _ ((hm.consumers _ _).mpr h))
    simp [Manager.register, hnone, eq_comm]
  · simp [Manager.register, hd]

theorem issued_register (hm : Counted m live stages) (key : LogicalKey) (d : ConsumerId) (key' : LogicalKey)
    (hd : (d, key') ∈ live ++ [(m.issued, key)]) : d < (m.register key).issued := by
  rcases List.mem_append.mp hd with hold | hnew
  · exact Nat.lt_succ_of_lt (hm.issued d key' hold)
  · cases List.mem_singleton.mp hnew
    exact Nat.lt_succ_self _

theorem nodup_register (hm : Counted m live stages) (key : LogicalKey) :
    ((live ++ [(m.issued, key)]).map Prod.fst).Nodup := by
  rw [List.map_append, List.nodup_append]
  refine ⟨hm.nodup, by simp, fun a ha b hb hab => ?_⟩
  obtain ⟨⟨d, key'⟩, hd, rfl⟩ := List.mem_map.mp ha
  simp only [List.map_cons, List.map_nil, List.mem_singleton] at hb
  exact absurd (hab.trans hb) (Nat.ne_of_lt (hm.issued d key' hd))

theorem fits_join {consumers : List ConsumerId} {entry : Entry γ} (hf : Fits consumers entry) (callback : γ) :
    Fits (consumers ++ [c]) (entry.join c callback) := by
  refine ⟨?_, ?_, by simp⟩
  · simp [Entry.join, hf.refcount]
  · simp [Entry.join, hf.callbacks]

theorem fits_leave {consumers : List ConsumerId} {entry : Entry γ} (hf : Fits consumers entry) (hnodup : consumers.Nodup)
    (hc : c ∈ consumers) (hmore : ¬ (entry.leave c).refcount ≤ 0) :
    Fits (consumers.filter (· ≠ c)) (entry.leave c) := by
  have hlength := length_filter_ne hnodup hc
  have hcount := hf.refcount
  simp only [Entry.leave] at hmore ⊢
  refine ⟨?_, ?_, ?_⟩
  · simp only
    omega
  · rw [← hf.callbacks, List.filter_map]
    rfl
  · intro hnil
    rw [hnil] at hlength
    simp only [List.length_nil] at hlength
    omega

theorem counted_join (hm : Counted m live stages) (hi : stages i = none) {entry : Entry γ}
    (hentry : m.logical key = some entry) (callback : γ) :
    Counted ((m.register key).put key (some (entry.join m.issued callback))) (live ++ [(m.issued, key)])
      (Function.update stages i (some .done)) := by
  have hopens : ∀ j key' d, Opens (Function.update stages i (some .done)) j key' d ↔ Opens stages j key' d :=
    fun j key' d => opens_update_idle (by simp) (not_opens_none hi)
  refine counted_congr ⟨consumers_register hm key, issued_register hm key, nodup_register hm key, ?_, ?_, ?_, hm.alone⟩ hopens
  · intro key' entry' hentry'
    by_cases hkey : key' = key
    · subst hkey
      simp only [Manager.put, Function.update_self, Option.some.injEq] at hentry'
      subst hentry'
      rw [liveIn_append_self]
      exact fits_join (hm.fits key' entry hentry) callback
    · simp only [Manager.put, Function.update_of_ne hkey] at hentry'
      rw [liveIn_append_of_ne hkey]
      exact hm.fits key' entry' hentry'
  · intro key' hkey'
    have hne : key' ≠ key := by
      rintro rfl
      simp [Manager.put] at hkey'
    simp only [Manager.put, Function.update_of_ne hne] at hkey'
    rw [liveIn_append_of_ne hne]
    exact hm.missing key' hkey'
  · intro j key' d ho
    have hopen := hm.opening j key' d ho
    have hne : key' ≠ key := by
      rintro rfl
      rw [hentry] at hopen
      cases hopen.1
    rw [liveIn_append_of_ne hne]
    refine ⟨?_, hopen.2⟩
    simp only [Manager.put, Function.update_of_ne hne]
    exact hopen.1

theorem counted_begin (hm : Counted m live stages) (hi : stages i = none) (hkey : m.logical key = none)
    (hfirst : ∀ d, m.consumerMap d ≠ some key) :
    Counted (m.register key) (live ++ [(m.issued, key)]) (Function.update stages i (some (.waiting key m.issued))) := by
  have hlive : liveIn live key = [] := by
    apply List.eq_nil_iff_forall_not_mem.mpr
    intro d hd
    exact hfirst d ((hm.consumers d key).mp (mem_liveIn.mp hd))
  have hnone : ∀ j d, ¬ Opens stages j key d := by
    intro j d ho
    have hopen := (hm.opening j key d ho).2
    rw [hlive] at hopen
    cases hopen
  have hold : ∀ {j key' d}, Opens stages j key' d →
      Opens (Function.update stages i (some (.waiting key m.issued))) j key' d := by
    intro j key' d ho
    refine opens_update.mpr (.inr ⟨?_, ho⟩)
    rintro rfl
    exact not_opens_none hi key' d ho
  refine ⟨consumers_register hm key, issued_register hm key, nodup_register hm key, ?_, ?_, ?_, ?_⟩
  · intro key' entry hentry
    have hne : key' ≠ key := by
      rintro rfl
      exact absurd (hkey.symm.trans hentry) (by simp)
    rw [liveIn_append_of_ne hne]
    exact hm.fits key' entry hentry
  · intro key' hkey'
    by_cases hne : key' = key
    · subst hne
      exact .inr ⟨i, m.issued, opens_update.mpr (.inl ⟨rfl, .inl rfl⟩)⟩
    · rw [liveIn_append_of_ne hne]
      exact (hm.missing key' hkey').imp id (fun ⟨j, d, ho⟩ => ⟨j, d, hold ho⟩)
  · intro j key' d ho
    rcases opens_update.mp ho with ⟨-, hw | ⟨ws, ha⟩⟩ | ⟨-, ho'⟩
    · cases hw
      exact ⟨hkey, by rw [liveIn_append_self, hlive, List.nil_append]⟩
    · cases ha
    · have hne : key' ≠ key := by
        rintro rfl
        exact hnone j d ho'
      rw [liveIn_append_of_ne hne]
      exact hm.opening j key' d ho'
  · intro j k key' d d' ho ho'
    rcases opens_update.mp ho with ⟨hj, hw | ⟨ws, ha⟩⟩ | ⟨hj, ho1⟩
    · cases hw
      rcases opens_update.mp ho' with ⟨hk, -⟩ | ⟨-, ho2⟩
      · rw [hj, hk]
      · exact absurd ho2 (hnone k d')
    · cases ha
    · rcases opens_update.mp ho' with ⟨-, hw | ⟨ws, ha⟩⟩ | ⟨-, ho2⟩
      · cases hw
        exact absurd ho1 (hnone j d)
      · cases ha
      · exact hm.alone j k key' d d' ho1 ho2

/-- The map of consumers after an unsubscribe call. -/
def Manager.drop (m : Manager γ) (c : ConsumerId) : Manager γ :=
  { m with consumerMap := Function.update m.consumerMap c none }

theorem consumers_drop (hm : Counted m live stages) (c d : ConsumerId) (key : LogicalKey) :
    (d, key) ∈ live.filter (fun consumer => consumer.1 ≠ c) ↔ (Manager.drop m c).consumerMap d = some key := by
  rw [List.mem_filter, hm.consumers]
  by_cases hd : d = c
  · subst hd
    simp [Manager.drop]
  · simp [Manager.drop, hd]

theorem liveIn_drop_of_ne (hm : Counted m live stages) (hc : m.consumerMap c = some key) (hne : key' ≠ key) :
    liveIn (live.filter (fun consumer => consumer.1 ≠ c)) key' = liveIn live key' := by
  rw [liveIn_filter, List.filter_eq_self]
  intro d hd
  have hd' := (hm.consumers d key').mp (mem_liveIn.mp hd)
  have hdc : d ≠ c := by
    rintro rfl
    exact hne (Option.some.inj (hd'.symm.trans hc))
  simpa using hdc

theorem counted_drop {m' : Manager γ} (hm : Counted m live stages) (hc : m.consumerMap c = some key)
    (hmap : m'.consumerMap = (Manager.drop m c).consumerMap) (hissued : m'.issued = m.issued)
    (hother : ∀ key', key' ≠ key → m'.logical key' = m.logical key') (hentry : m.logical key ≠ none)
    (hfits : ∀ entry, m'.logical key = some entry → Fits ((liveIn live key).filter (· ≠ c)) entry)
    (hlast : m'.logical key = none → (liveIn live key).filter (· ≠ c) = []) :
    Counted m' (live.filter (fun consumer => consumer.1 ≠ c)) stages := by
  refine ⟨fun d key' => ?_, fun d key' hd => ?_, ?_, fun key' entry h => ?_, fun key' h => ?_, fun j key' d ho => ?_, hm.alone⟩
  · rw [hmap]
    exact consumers_drop hm c d key'
  · rw [hissued]
    exact hm.issued d key' (List.mem_of_mem_filter hd)
  · exact hm.nodup.sublist (List.filter_sublist.map Prod.fst)
  · by_cases hne : key' = key
    · subst hne
      rw [liveIn_filter]
      exact hfits entry h
    · rw [liveIn_drop_of_ne hm hc hne]
      exact hm.fits key' entry (hother key' hne ▸ h)
  · by_cases hne : key' = key
    · subst hne
      rw [liveIn_filter]
      exact .inl (hlast h)
    · rw [liveIn_drop_of_ne hm hc hne]
      exact hm.missing key' (hother key' hne ▸ h)
  · have hopen := hm.opening j key' d ho
    have hne : key' ≠ key := by
      rintro rfl
      exact hentry hopen.1
    rw [liveIn_drop_of_ne hm hc hne, hother key' hne]
    exact hopen

theorem counted_install (hm : Counted m live stages) {ws : WsSubId} (hi : stages i = some (.arrived key c ws)) (callback : γ) :
    Counted (m.put key (some { wsSubId := ws, refcount := 1, callbacks := [(c, callback)] })) live
      (Function.update stages i (some .done)) := by
  have hopen := hm.opening i key c (.inr ⟨ws, hi⟩)
  have hopens : ∀ {j key' d}, Opens (Function.update stages i (some .done)) j key' d → j ≠ i ∧ Opens stages j key' d := by
    intro j key' d ho
    rcases opens_update.mp ho with ⟨-, hw | ⟨ws, ha⟩⟩ | h
    · cases hw
    · cases ha
    · exact h
  refine ⟨hm.consumers, hm.issued, hm.nodup, ?_, ?_, ?_, fun j k key' d d' ho ho' =>
    hm.alone j k key' d d' (hopens ho).2 (hopens ho').2⟩
  · intro key' entry hentry
    by_cases hne : key' = key
    · subst hne
      simp only [Manager.put, Function.update_self, Option.some.injEq] at hentry
      subst hentry
      rw [hopen.2]
      exact ⟨rfl, rfl, by simp⟩
    · simp only [Manager.put, Function.update_of_ne hne] at hentry
      exact hm.fits key' entry hentry
  · intro key' hkey'
    have hne : key' ≠ key := by
      rintro rfl
      simp [Manager.put] at hkey'
    simp only [Manager.put, Function.update_of_ne hne] at hkey'
    refine (hm.missing key' hkey').imp id (fun ⟨j, d, ho⟩ => ⟨j, d, opens_update.mpr (.inr ⟨?_, ho⟩)⟩)
    rintro rfl
    rcases ho with hw | ⟨ws', ha⟩
    · cases hi.symm.trans hw
    · cases hi.symm.trans ha
      exact hne rfl
  · intro j key' d ho
    obtain ⟨hj, ho'⟩ := hopens ho
    have hne : key' ≠ key := by
      rintro rfl
      exact hj (hm.alone j i key' d c ho' (.inr ⟨ws, hi⟩))
    simp only [Manager.put, Function.update_of_ne hne]
    exact hm.opening j key' d ho'

variable {m' : Manager γ} {stages' : Nat → Option Stage} {ws ws' : WsSubId}

theorem exists_update_iff {P : Stage → Prop} (hi : ∀ s', stages i = some s' → ¬ P s') (hs : ¬ P s) :
    (∃ j s', Function.update stages i (some s) j = some s' ∧ P s') ↔ ∃ j s', stages j = some s' ∧ P s' := by
  constructor
  · rintro ⟨j, s', hj, hP⟩
    by_cases hji : j = i
    · subst hji
      rw [Function.update_self] at hj
      cases hj
      exact absurd hP hs
    · rw [Function.update_of_ne hji] at hj
      exact ⟨j, s', hj, hP⟩
  · rintro ⟨j, s', hj, hP⟩
    have hji : j ≠ i := by
      rintro rfl
      exact hi s' hj hP
    exact ⟨j, s', by rwa [Function.update_of_ne hji], hP⟩

def IsArrived (key : LogicalKey) (ws : WsSubId) (s : Stage) : Prop := ∃ c, s = .arrived key c ws

theorem held_iff : Held m stages ws key ↔
    (∃ entry, m.logical key = some entry ∧ entry.wsSubId = ws) ∨ ∃ j s, stages j = some s ∧ IsArrived key ws s := by
  constructor
  · rintro (h | ⟨j, c, hj⟩)
    · exact .inl h
    · exact .inr ⟨j, _, hj, c, rfl⟩
  · rintro (h | ⟨j, s, hj, c, rfl⟩)
    · exact .inl h
    · exact .inr ⟨j, c, hj⟩

theorem closing_iff : (∃ j, stages j = some (.closing ws)) ↔ ∃ j s, stages j = some s ∧ s = .closing ws := by simp

theorem owned_congr (ho : Owned m w stages) (hheld : ∀ ws key, Held m' stages' ws key ↔ Held m stages ws key)
    (hclosing : ∀ ws, (∃ j, stages' j = some (.closing ws)) ↔ ∃ j, stages j = some (.closing ws)) :
    Owned m' w stages' := by
  refine ⟨ho.nodup, ho.next, fun ws key h => ho.held ws key ((hheld ws key).mp h), fun ws key h => ?_, fun j ws h => ?_⟩
  · exact (ho.owner ws key h).imp (hheld ws key).mpr (hclosing ws).mpr
  · obtain ⟨k, hk⟩ := (hclosing ws).mp ⟨j, h⟩
    exact ⟨(ho.closing k ws hk).1, fun key hh => (ho.closing k ws hk).2 key ((hheld ws key).mp hh)⟩

theorem owned_idle (ho : Owned m w stages) (hlogical : ∀ key, (m'.logical key).map Entry.wsSubId =
      (m.logical key).map Entry.wsSubId)
    (hi : ∀ s', stages i = some s' → (∀ key ws, ¬ IsArrived key ws s') ∧ ∀ ws, s' ≠ .closing ws)
    (hs : (∀ key ws, ¬ IsArrived key ws s) ∧ ∀ ws, s ≠ .closing ws) :
    Owned m' w (Function.update stages i (some s)) := by
  refine owned_congr ho (fun ws key => ?_) (fun ws => ?_)
  · rw [held_iff, held_iff, exists_update_iff (fun s' hs' => (hi s' hs').1 key ws) (hs.1 key ws)]
    have hentry : ∀ m : Manager γ, (∃ entry, m.logical key = some entry ∧ entry.wsSubId = ws) ↔
        (m.logical key).map Entry.wsSubId = some ws := fun m => Option.map_eq_some_iff.symm
    rw [hentry, hentry, hlogical]
  · rw [closing_iff, closing_iff, exists_update_iff (fun s' hs' => (hi s' hs').2 ws) (hs.2 ws)]

/-- The subscribe call passes its stream on to the entry. -/
theorem owned_install (hm : Counted m live stages) (ho : Owned m w stages) (hi : stages i = some (.arrived key c ws))
    (callback : γ) :
    Owned (m.put key (some { wsSubId := ws, refcount := 1, callbacks := [(c, callback)] })) w
      (Function.update stages i (some .done)) := by
  have hnone := (hm.opening i key c (.inr ⟨ws, hi⟩)).1
  have hkeep : ∀ j s', j ≠ i → (Function.update stages i (some .done) j = some s' ↔ stages j = some s') := by
    intro j s' hj
    rw [Function.update_of_ne hj]
  refine owned_congr ho (fun ws' key' => ?_) (fun ws' => ?_)
  · constructor
    · rintro (⟨entry, hentry, rfl⟩ | ⟨j, d, hj⟩)
      · by_cases hne : key' = key
        · subst hne
          simp only [Manager.put, Function.update_self, Option.some.injEq] at hentry
          subst hentry
          exact .inr ⟨i, c, hi⟩
        · simp only [Manager.put, Function.update_of_ne hne] at hentry
          exact .inl ⟨entry, hentry, rfl⟩
      · have hji : j ≠ i := by
          rintro rfl
          simp at hj
        exact .inr ⟨j, d, (hkeep j _ hji).mp hj⟩
    · rintro (⟨entry, hentry, rfl⟩ | ⟨j, d, hj⟩)
      · have hne : key' ≠ key := by
          rintro rfl
          exact absurd (hnone.symm.trans hentry) (by simp)
        exact .inl ⟨entry, by simpa only [Manager.put, Function.update_of_ne hne] using hentry, rfl⟩
      · by_cases hji : j = i
        · subst hji
          cases hi.symm.trans hj
          exact .inl ⟨⟨ws, 1, [(c, callback)]⟩, by simp [Manager.put], rfl⟩
        · exact .inr ⟨j, d, (hkeep j _ hji).mpr hj⟩
  · rw [closing_iff, closing_iff]
    refine exists_update_iff (fun s' hs' => ?_) (by simp)
    cases hi.symm.trans hs'
    simp

theorem owned_close (ho : Owned m w stages) (hm : Counted m live stages) (hi : stages i = none) {entry : Entry γ}
    (hentry : m.logical key = some entry) (hlogical : m'.logical = Function.update m.logical key none) :
    Owned m' w (Function.update stages i (some (.closing entry.wsSubId))) := by
  have hheld : ∀ ws key', Held m' (Function.update stages i (some (.closing entry.wsSubId))) ws key' →
      key' ≠ key ∧ Held m stages ws key' := by
    rintro ws key' (⟨entry', hentry', rfl⟩ | ⟨j, d, hj⟩)
    · have hne : key' ≠ key := by
        rintro rfl
        simp [hlogical] at hentry'
      rw [hlogical, Function.update_of_ne hne] at hentry'
      exact ⟨hne, .inl ⟨entry', hentry', rfl⟩⟩
    · have hji : j ≠ i := by
        rintro rfl
        simp at hj
      rw [Function.update_of_ne hji] at hj
      refine ⟨?_, .inr ⟨j, d, hj⟩⟩
      rintro rfl
      exact absurd ((hm.opening j key' d (.inr ⟨ws, hj⟩)).1.symm.trans hentry) (by simp)
  have hopen : (entry.wsSubId, key) ∈ w.opened := ho.held _ _ (.inl ⟨entry, hentry, rfl⟩)
  refine ⟨ho.nodup, ho.next, fun ws key' h => ho.held ws key' (hheld ws key' h).2, fun ws key' h => ?_, fun j ws hj => ?_⟩
  · rcases ho.owner ws key' h with (⟨entry', hentry', rfl⟩ | ⟨j, d, hj⟩) | ⟨j, hj⟩
    · by_cases hne : key' = key
      · subst hne
        cases hentry.symm.trans hentry'
        exact .inr ⟨i, Function.update_self _ _ _⟩
      · exact .inl (.inl ⟨entry', by rwa [hlogical, Function.update_of_ne hne], rfl⟩)
    · have hji : j ≠ i := by
        rintro rfl
        exact absurd (hi.symm.trans hj) (by simp)
      exact .inl (.inr ⟨j, d, by rwa [Function.update_of_ne hji]⟩)
    · have hji : j ≠ i := by
        rintro rfl
        exact absurd (hi.symm.trans hj) (by simp)
      exact .inr ⟨j, by rwa [Function.update_of_ne hji]⟩
  · by_cases hji : j = i
    · subst hji
      rw [Function.update_self] at hj
      cases hj
      refine ⟨ho.next _ _ hopen, fun key' h => ?_⟩
      -- a stream has one key, and the entry of this one is gone
      obtain ⟨hne, hold⟩ := hheld _ _ h
      have hsame := List.inj_on_of_nodup_map ho.nodup (ho.held _ _ hold) hopen rfl
      exact hne (congrArg Prod.snd hsame)
    · rw [Function.update_of_ne hji] at hj
      exact ⟨(ho.closing j ws hj).1, fun key' h => (ho.closing j ws hj).2 key' (hheld ws key' h).2⟩

theorem owned_answer (ho : Owned m w stages) (hi : stages i = some (.waiting key c)) :
    Owned m { opened := w.opened ++ [(w.next, key)], next := w.next + 1 }
      (Function.update stages i (some (.arrived key c w.next))) := by
  have hheld : ∀ ws key', Held m (Function.update stages i (some (.arrived key c w.next))) ws key' ↔
      Held m stages ws key' ∨ ws = w.next ∧ key' = key := by
    intro ws key'
    constructor
    · rintro (h | ⟨j, d, hj⟩)
      · exact .inl (.inl h)
      · by_cases hji : j = i
        · subst hji
          rw [Function.update_self] at hj
          cases hj
          exact .inr ⟨rfl, rfl⟩
        · rw [Function.update_of_ne hji] at hj
          exact .inl (.inr ⟨j, d, hj⟩)
    · rintro ((h | ⟨j, d, hj⟩) | ⟨rfl, rfl⟩)
      · exact .inl h
      · refine .inr ⟨j, d, ?_⟩
        rw [Function.update_of_ne]
        · exact hj
        · rintro rfl
          cases hi.symm.trans hj
      · exact .inr ⟨i, c, Function.update_self _ _ _⟩
  have hclosing : ∀ ws, (∃ j, Function.update stages i (some (.arrived key c w.next)) j = some (.closing ws)) ↔
      ∃ j, stages j = some (.closing ws) := by
    intro ws
    rw [closing_iff, closing_iff]
    refine exists_update_iff (fun s' hs' => ?_) (by simp)
    cases hi.symm.trans hs'
    simp
  refine ⟨?_, fun ws key' h => ?_, fun ws key' h => ?_, fun ws key' h => ?_, fun j ws hj => ?_⟩
  · rw [List.map_append, List.nodup_append]
    refine ⟨ho.nodup, by simp, fun a ha b hb hab => ?_⟩
    obtain ⟨⟨ws, key'⟩, hws, rfl⟩ := List.mem_map.mp ha
    simp only [List.map_cons, List.map_nil, List.mem_singleton] at hb
    exact absurd (hab.trans hb) (Nat.ne_of_lt (ho.next ws key' hws))
  · rcases List.mem_append.mp h with hold | hnew
    · exact Nat.lt_succ_of_lt (ho.next ws key' hold)
    · cases List.mem_singleton.mp hnew
      exact Nat.lt_succ_self _
  · rcases (hheld ws key').mp h with hold | ⟨rfl, rfl⟩
    · exact List.mem_append_left _ (ho.held ws key' hold)
    · exact List.mem_append_right _ (List.mem_singleton_self _)
  · rcases List.mem_append.mp h with hold | hnew
    · exact (ho.owner ws key' hold).imp (fun h => (hheld ws key').mpr (.inl h)) (hclosing ws).mpr
    · cases List.mem_singleton.mp hnew
      exact .inl ((hheld _ _).mpr (.inr ⟨rfl, rfl⟩))
  · obtain ⟨k, hk⟩ := (hclosing ws).mp ⟨j, hj⟩
    obtain ⟨hlt, hfree⟩ := ho.closing k ws hk
    refine ⟨Nat.lt_succ_of_lt hlt, fun key' h => ?_⟩
    rcases (hheld ws key').mp h with hold | ⟨rfl, -⟩
    · exact hfree key' hold
    · exact lt_irrefl _ hlt

theorem owned_closed (ho : Owned m w stages) (hi : stages i = some (.closing ws)) :
    Owned m { w with opened := w.opened.filter (fun stream => stream.1 ≠ ws) }
      (Function.update stages i (some .closed)) := by
  have hheld : ∀ ws' key, Held m (Function.update stages i (some .closed)) ws' key ↔ Held m stages ws' key := by
    intro ws' key
    rw [held_iff, held_iff]
    refine or_congr Iff.rfl (exists_update_iff (fun s' hs' => ?_) (by simp [IsArrived]))
    cases hi.symm.trans hs'
    simp [IsArrived]
  have hother : ∀ j ws', Function.update stages i (some .closed) j = some (.closing ws') → stages j = some (.closing ws') := by
    intro j ws' hj
    have hji : j ≠ i := by
      rintro rfl
      simp at hj
    rwa [Function.update_of_ne hji] at hj
  obtain ⟨-, hfree⟩ := ho.closing i ws hi
  refine ⟨ho.nodup.sublist (List.filter_sublist.map Prod.fst), fun ws' key h => ho.next ws' key (List.mem_of_mem_filter h),
    fun ws' key h => ?_, fun ws' key h => ?_, fun j ws' hj => ?_⟩
  · have hold := (hheld ws' key).mp h
    refine List.mem_filter.mpr ⟨ho.held ws' key hold, ?_⟩
    have hne : ws' ≠ ws := by
      rintro rfl
      exact hfree key hold
    simpa using hne
  · obtain ⟨hmem, hne⟩ := List.mem_filter.mp h
    refine (ho.owner ws' key hmem).imp (hheld ws' key).mpr (fun ⟨j, hj⟩ => ⟨j, ?_⟩)
    rw [Function.update_of_ne]
    · exact hj
    · rintro rfl
      cases hi.symm.trans hj
      simp at hne
  · obtain ⟨hlt, hfree'⟩ := ho.closing j ws' (hother j ws' hj)
    exact ⟨hlt, fun key h => hfree' key ((hheld ws' key).mp h)⟩

end

section

variable {x : State γ} {stages : Nat → Option Stage} {i : Nat} {s : Stage}

theorem advance_subscribe_hit {m : Manager γ} {exchange symbol channel : String} (callback : γ) {entry : Entry γ}
    (h : m.logical (logicalKey exchange symbol channel) = some entry) :
    (SubscriptionManager.subscribe exchange symbol channel callback).advance m =
      (.done (.ok (some m.issued)), (m.register (logicalKey exchange symbol channel)).put
        (logicalKey exchange symbol channel) (some (entry.join m.issued callback))) := by
  simp only [SubscriptionManager.subscribe, Program.advance, h]

theorem advance_subscribe_miss {m : Manager γ} {exchange symbol channel : String} (callback : γ)
    (h : m.logical (logicalKey exchange symbol channel) = none) :
    (SubscriptionManager.subscribe exchange symbol channel callback).advance m =
      (.asked (.subscribeFn exchange symbol channel callback) (fun a =>
        .bind (.lift (id a)) (install (logicalKey exchange symbol channel) m.issued callback)),
        m.register (logicalKey exchange symbol channel)) := by
  simp only [SubscriptionManager.subscribe, Program.advance, h]
  rfl

theorem advance_install {m : Manager γ} {key : LogicalKey} {c : ConsumerId} {callback : γ} {ws : WsSubId} :
    (Program.bind (.lift (id (.ok ws))) (install key c callback)).advance m =
      (.done (.ok (some c)), m.put key (some { wsSubId := ws, refcount := 1, callbacks := [(c, callback)] })) := rfl

theorem advance_unsubscribe_unknown {m : Manager γ} {c : ConsumerId} (h : m.consumerMap c = none) :
    (SubscriptionManager.unsubscribe c).advance m = (.done (.ok none), m) := by
  simp only [SubscriptionManager.unsubscribe, Program.advance, h]

theorem advance_unsubscribe_leave {m : Manager γ} {c : ConsumerId} {key : LogicalKey} {entry : Entry γ}
    (h : m.consumerMap c = some key) (hentry : m.logical key = some entry) (hmore : ¬ (entry.leave c).refcount ≤ 0) :
    (SubscriptionManager.unsubscribe c).advance m =
      (.done (.ok none), (Manager.drop m c).put key (some (entry.leave c))) := by
  simp only [SubscriptionManager.unsubscribe, Program.advance, h, hentry, hmore, if_false]
  rfl

theorem advance_unsubscribe_close {m : Manager γ} {c : ConsumerId} {key : LogicalKey} {entry : Entry γ}
    (h : m.consumerMap c = some key) (hentry : m.logical key = some entry) (hlast : (entry.leave c).refcount ≤ 0) :
    (SubscriptionManager.unsubscribe c).advance m =
      (.asked (.unsubscribeFn entry.wsSubId) (fun a => .bind (.lift (id a)) (fun _ => .ret none)),
        (Manager.drop m c).put key none) := by
  simp only [SubscriptionManager.unsubscribe, Program.advance, h, hentry, hlast, if_true]
  rfl

theorem sound_move (hx : Sound x stages) (x' : State γ)
    {t : Task (Manager γ) (Request γ) (Answer γ) Exn (Option ConsumerId)} (ht : Shape t s)
    (htasks : x'.pool.tasks = Function.update x.pool.tasks i (some t)) (hstarted : ∀ j, x'.started ≤ j → x.started ≤ j ∧ j ≠ i)
    (hcounted : Counted x'.pool.store x'.live (Function.update stages i (some s)))
    (howned : Owned x'.pool.store x'.pool.world (Function.update stages i (some s))) :
    Sound x' (Function.update stages i (some s)) := by
  refine ⟨fun j t' hj => ?_, fun j s' hj => ?_, fun j hj => ?_, hcounted, howned⟩
  · rw [htasks] at hj
    by_cases hji : j = i
    · subst hji
      rw [Function.update_self] at hj ⊢
      cases hj
      exact ⟨s, rfl, ht⟩
    · rw [Function.update_of_ne hji] at hj ⊢
      exact hx.shapes j t' hj
  · rw [htasks]
    by_cases hji : j = i
    · subst hji
      rw [Function.update_self] at hj ⊢
      cases hj
      exact ⟨t, rfl, ht⟩
    · rw [Function.update_of_ne hji] at hj ⊢
      exact hx.staged j s' hj
  · obtain ⟨hle, hne⟩ := hstarted j hj
    rw [Function.update_of_ne hne]
    exact hx.started j hle

theorem started_lt (hx : Sound x stages) (hi : stages i = some s) : ∀ j, x.started ≤ j → x.started ≤ j ∧ j ≠ i := by
  intro j hj
  refine ⟨hj, ?_⟩
  rintro rfl
  exact absurd ((hx.started j hj).symm.trans hi) (by simp)

theorem started_succ (x : State γ) : ∀ j, x.started + 1 ≤ j → x.started ≤ j ∧ j ≠ x.started := by
  intro j hj
  omega

theorem sound_subscribe (hx : Sound x stages) {exchange symbol channel : String} {callback : γ}
    (hmeets : Meets x (.subscribe exchange symbol channel callback)) :
    ∃ stages', Sound (step x (.subscribe exchange symbol channel callback)) stages' := by
  have hnone := hx.started x.started (le_refl _)
  cases hentry : x.pool.store.logical (logicalKey exchange symbol channel) with
  | some entry =>
      have hadvance := advance_subscribe_hit callback hentry
      refine ⟨_, sound_move hx (step x (.subscribe exchange symbol channel callback))
        (.done (.ok (some x.pool.store.issued))) ?_ (started_succ x) ?_ ?_⟩
      · simp only [step, Pool.start, hadvance]
      · simp only [step, Pool.start, hadvance]
        exact counted_join hx.counted hnone hentry callback
      · simp only [step, Pool.start, hadvance]
        refine owned_idle hx.owned (fun key => ?_) (by simp [hnone]) (by simp [IsArrived])
        by_cases hkey : key = logicalKey exchange symbol channel
        · subst hkey
          simp [Manager.put, hentry, Entry.join]
        · simp [Manager.put, Manager.register, hkey]
  | none =>
      have hadvance := advance_subscribe_miss callback hentry
      refine ⟨_, sound_move hx (step x (.subscribe exchange symbol channel callback))
        (.waiting exchange symbol channel callback x.pool.store.issued) ?_ (started_succ x) ?_ ?_⟩
      · simp only [step, Pool.start, hadvance]
      · simp only [step, Pool.start, hadvance]
        exact counted_begin hx.counted hnone hentry (hmeets hentry)
      · simp only [step, Pool.start, hadvance]
        exact owned_idle hx.owned (fun _ => rfl) (by simp [hnone]) (by simp [IsArrived])

theorem sound_unsubscribe (hx : Sound x stages) {c : ConsumerId} (hmeets : Meets x (.unsubscribe c)) :
    ∃ stages', Sound (step x (.unsubscribe c)) stages' := by
  have hnone := hx.started x.started (le_refl _)
  have hopens : ∀ s : Stage, (∀ key d, s ≠ .waiting key d ∧ ∀ ws, s ≠ .arrived key d ws) → ∀ j key d,
      Opens (Function.update stages x.started (some s)) j key d ↔ Opens stages j key d :=
    fun s hs j key d => opens_update_idle hs (not_opens_none hnone)
  cases hmap : x.pool.store.consumerMap c with
  | none =>
      have hadvance := advance_unsubscribe_unknown hmap
      have hlive : x.live.filter (fun consumer => consumer.1 ≠ c) = x.live := by
        rw [List.filter_eq_self]
        rintro ⟨d, key⟩ hd
        have hd' := (hx.counted.consumers d key).mp hd
        have hne : d ≠ c := by
          rintro rfl
          exact absurd (hmap.symm.trans hd') (by simp)
        simpa using hne
      refine ⟨_, sound_move hx (step x (.unsubscribe c)) (.done (.ok none)) ?_ (started_succ x) ?_ ?_⟩
      · simp only [step, Pool.start, hadvance]
      · simp only [step, Pool.start, hadvance, hlive]
        exact counted_congr hx.counted (hopens .done (by simp))
      · simp only [step, Pool.start, hadvance]
        exact owned_idle hx.owned (fun _ => rfl) (by simp [hnone]) (by simp [IsArrived])
  | some key =>
      cases hentry : x.pool.store.logical key with
      | none => exact absurd hentry (hmeets key hmap)
      | some entry =>
          have hfits := hx.counted.fits key entry hentry
          have hnodup : (liveIn x.live key).Nodup := nodup_liveIn hx.counted.nodup
          have hmem : c ∈ liveIn x.live key := mem_liveIn.mpr ((hx.counted.consumers c key).mpr hmap)
          have hdefined : x.pool.store.logical key ≠ none := by simp [hentry]
          by_cases hlast : (entry.leave c).refcount ≤ 0
          · have hadvance := advance_unsubscribe_close hmap hentry hlast
            have hlength := length_filter_ne hnodup hmem
            have hcount := hfits.refcount
            refine ⟨_, sound_move hx (step x (.unsubscribe c)) (.closing entry.wsSubId) ?_ (started_succ x) ?_ ?_⟩
            · simp only [step, Pool.start, hadvance]
            · simp only [step, Pool.start, hadvance]
              refine counted_congr (counted_drop hx.counted hmap rfl rfl (fun key' hne => ?_) hdefined ?_ (fun _ => ?_))
                (hopens (.closing entry.wsSubId) (by simp))
              · simp [Manager.put, Manager.drop, hne]
              · simp [Manager.put]
              · simp only [Entry.leave] at hlast
                apply List.eq_nil_of_length_eq_zero
                omega
            · simp only [step, Pool.start, hadvance]
              exact owned_close hx.owned hx.counted hnone hentry rfl
          · have hadvance := advance_unsubscribe_leave hmap hentry hlast
            refine ⟨_, sound_move hx (step x (.unsubscribe c)) (.done (.ok none)) ?_ (started_succ x) ?_ ?_⟩
            · simp only [step, Pool.start, hadvance]
            · simp only [step, Pool.start, hadvance]
              refine counted_congr (counted_drop hx.counted hmap rfl rfl (fun key' hne => ?_) hdefined
                (fun entry' hentry' => ?_) (fun h => ?_)) (hopens .done (by simp))
              · simp [Manager.put, Manager.drop, hne]
              · simp only [Manager.put, Function.update_self, Option.some.injEq] at hentry'
                subst hentry'
                exact fits_leave hfits hnodup hmem hlast
              · simp [Manager.put] at h
            · simp only [step, Pool.start, hadvance]
              refine owned_idle hx.owned (fun key' => ?_) (by simp [hnone]) (by simp [IsArrived])
              by_cases hne : key' = key
              · subst hne
                simp [Manager.put, hentry, Entry.leave]
              · simp [Manager.put, Manager.drop, hne]

theorem opens_arrived {key : LogicalKey} {c : ConsumerId} {ws : WsSubId} (hi : stages i = some (.waiting key c)) (j : Nat)
    (key' : LogicalKey) (d : ConsumerId) :
    Opens (Function.update stages i (some (.arrived key c ws))) j key' d ↔ Opens stages j key' d := by
  rw [opens_update]
  constructor
  · rintro (⟨rfl, hw | ⟨ws', ha⟩⟩ | ⟨-, ho⟩)
    · cases hw
    · cases ha
      exact .inl hi
    · exact ho
  · intro ho
    by_cases hj : j = i
    · subst hj
      rcases ho with hw | ⟨ws', ha⟩
      · cases hi.symm.trans hw
        exact .inl ⟨rfl, .inr ⟨ws, rfl⟩⟩
      · cases hi.symm.trans ha
    · exact .inr ⟨hj, ho⟩

theorem sound_act (hx : Sound x stages) (i : Nat) : ∃ stages', Sound (step x (.act i)) stages' := by
  cases hi : x.pool.tasks i with
  | none =>
      have hsame : step x (.act i) = x := by simp only [step, Pool.act, hi]
      exact ⟨stages, hsame.symm ▸ hx⟩
  | some t =>
      obtain ⟨s, hs, hshape⟩ := hx.shapes i t hi
      cases hshape with
      | done r | closed ws | arrived exchange symbol channel callback c ws =>
          have hsame : step x (.act i) = x := by simp only [step, Pool.act, hi]
          exact ⟨stages, hsame.symm ▸ hx⟩
      | waiting exchange symbol channel callback c =>
          refine ⟨_, sound_move hx (step x (.act i))
            (.arrived exchange symbol channel callback c x.pool.world.next) ?_ (fun j hj => started_lt hx hs j hj) ?_ ?_⟩
          · simp only [step, Pool.act, hi, upstream]
          · simp only [step, Pool.act, hi]
            exact counted_congr hx.counted (opens_arrived hs)
          · simp only [step, Pool.act, hi, upstream]
            exact owned_answer hx.owned hs
      | closing ws =>
          refine ⟨_, sound_move hx (step x (.act i)) (.closed ws) ?_ (fun j hj => started_lt hx hs j hj) ?_ ?_⟩
          · simp only [step, Pool.act, hi, upstream]
          · simp only [step, Pool.act, hi]
            exact counted_congr hx.counted (fun j key d => opens_update_idle (by simp) (fun key c ho => by
              simp [Opens, hs] at ho))
          · simp only [step, Pool.act, hi, upstream]
            exact owned_closed hx.owned hs

theorem sound_resume (hx : Sound x stages) (i : Nat) : ∃ stages', Sound (step x (.resume i)) stages' := by
  cases hi : x.pool.tasks i with
  | none =>
      have hsame : step x (.resume i) = x := by simp only [step, Pool.resume, hi]
      exact ⟨stages, hsame.symm ▸ hx⟩
  | some t =>
      obtain ⟨s, hs, hshape⟩ := hx.shapes i t hi
      cases hshape with
      | done r | waiting exchange symbol channel callback c | closing ws =>
          have hsame : step x (.resume i) = x := by simp only [step, Pool.resume, hi]
          exact ⟨stages, hsame.symm ▸ hx⟩
      | arrived exchange symbol channel callback c ws =>
          refine ⟨_, sound_move hx (step x (.resume i)) (.done (.ok (some c))) ?_ (fun j hj => started_lt hx hs j hj) ?_ ?_⟩
          · simp only [step, Pool.resume, hi, Pool.start, advance_install]
          · simp only [step, Pool.resume, hi, Pool.start, advance_install]
            exact counted_install hx.counted hs callback
          · simp only [step, Pool.resume, hi, Pool.start, advance_install]
            exact owned_install hx.counted hx.owned hs callback
      | closed ws =>
          refine ⟨_, sound_move hx (step x (.resume i)) (.done (.ok none)) ?_ (fun j hj => started_lt hx hs j hj) ?_ ?_⟩
          · simp only [step, Pool.resume, hi, Pool.start]
            rfl
          · simp only [step, Pool.resume, hi, Pool.start]
            exact counted_congr hx.counted (fun j key d => opens_update_idle (by simp) (fun key c ho => by
              simp [Opens, hs] at ho))
          · simp only [step, Pool.resume, hi, Pool.start]
            exact owned_idle hx.owned (fun _ => rfl) (by simp [hs, IsArrived]) (by simp [IsArrived])

theorem sound_step (hx : ∃ stages, Sound x stages) {e : Event γ} (hmeets : Meets x e) : ∃ stages, Sound (step x e) stages := by
  obtain ⟨stages, hx⟩ := hx
  cases e with
  | subscribe exchange symbol channel callback => exact sound_subscribe hx hmeets
  | unsubscribe c => exact sound_unsubscribe hx hmeets
  | act i => exact sound_act hx i
  | resume i => exact sound_resume hx i

theorem sound_start : Sound ({} : State γ) (fun _ => none) where
  shapes _ _ h := by cases h
  staged _ _ h := by cases h
  started _ _ := rfl
  counted := {
    consumers := fun c key => by simp
    issued := fun _ _ h => by cases h
    nodup := List.nodup_nil
    fits := fun _ _ h => by cases h
    missing := fun key _ => .inl rfl
    opening := fun _ _ _ h => by simp [Opens] at h
    alone := fun _ _ _ _ _ h => by simp [Opens] at h }
  owned := {
    nodup := List.nodup_nil
    next := fun _ _ h => by cases h
    held := fun _ _ h => by simp [Held] at h
    owner := fun _ _ h => by cases h
    closing := fun _ _ h => by cases h }

/-- Where no call is under way every stream is held by the entry of its key. -/
theorem opened_iff_of_quiescent (hx : Sound x stages) (hq : Quiescent x) (ws : WsSubId) (key : LogicalKey) :
    (ws, key) ∈ x.pool.world.opened ↔ ∃ entry, x.pool.store.logical key = some entry ∧ entry.wsSubId = ws := by
  have hdone : ∀ i s, stages i = some s → s = .done := by
    intro i s hs
    obtain ⟨t, ht, hshape⟩ := hx.staged i s hs
    obtain ⟨r, rfl⟩ := hq i t ht
    cases hshape
    rfl
  constructor
  · intro hopen
    rcases hx.owned.owner ws key hopen with (h | ⟨i, c, hi⟩) | ⟨i, hi⟩
    · exact h
    · cases hdone i _ hi
    · cases hdone i _ hi
  · exact fun h => hx.owned.held ws key (.inl h)

theorem mem_openOf {ws : WsSubId} {key : LogicalKey} : ws ∈ x.openOf key ↔ (ws, key) ∈ x.pool.world.opened := by
  simp [State.openOf]

theorem deduplicated_of_quiescent (hx : Sound x stages) (hq : Quiescent x) : Deduplicated x := by
  intro key
  have hlive : x.liveOf key = liveIn x.live key := rfl
  cases hentry : x.pool.store.logical key with
  | none =>
      have hnone : x.liveOf key = [] := by
        rcases hx.counted.missing key hentry with h | ⟨i, c, ho⟩
        · exact h
        · have hs : ∃ s, stages i = some s ∧ s ≠ .done := by
            rcases ho with hw | ⟨ws, ha⟩
            · exact ⟨_, hw, by simp⟩
            · exact ⟨_, ha, by simp⟩
          obtain ⟨s, hs, hne⟩ := hs
          obtain ⟨t, ht, hshape⟩ := hx.staged i s hs
          obtain ⟨r, rfl⟩ := hq i t ht
          cases hshape
          exact absurd rfl hne
      rw [if_pos hnone]
      apply List.eq_nil_iff_forall_not_mem.mpr
      intro ws hws
      obtain ⟨entry, h, -⟩ := (opened_iff_of_quiescent hx hq ws key).mp (mem_openOf.mp hws)
      exact absurd (hentry.symm.trans h) (by simp)
  | some entry =>
      have hfits := hx.counted.fits key entry hentry
      rw [if_neg (hlive ▸ hfits.used)]
      refine ⟨entry, rfl, ?_, hfits.refcount, fun c hc => ?_⟩
      · have hall : ∀ ws ∈ x.openOf key, ws = entry.wsSubId := by
          intro ws hws
          obtain ⟨entry', h, rfl⟩ := (opened_iff_of_quiescent hx hq ws key).mp (mem_openOf.mp hws)
          cases hentry.symm.trans h
          rfl
        have hmem : entry.wsSubId ∈ x.openOf key :=
          mem_openOf.mpr ((opened_iff_of_quiescent hx hq _ key).mpr ⟨entry, hentry, rfl⟩)
        have hnodup : (x.openOf key).Nodup := hx.owned.nodup.sublist (List.filter_sublist.map Prod.fst)
        have hrep := List.eq_replicate_of_mem hall
        have hone : (x.openOf key).length = 1 := by
          rw [hrep] at hnodup
          have hle := List.nodup_replicate.mp hnodup
          have hpos := List.length_pos_of_mem hmem
          omega
        rw [hrep, hone]
        rfl
      · rw [hlive, ← hfits.callbacks] at hc
        obtain ⟨⟨d, callback⟩, hcallback, rfl⟩ := List.mem_map.mp hc
        exact ⟨callback, hcallback⟩

/-- Streams are deduplicated at every quiescent point of a run whose calls all meet the condition. -/
theorem deduplicated_of_allMeet {events : List (Event γ)} (hmeets : AllMeet step Meets {} events) :
    AllMeet step (fun x e => Quiescent (step x e) → Deduplicated (step x e)) {} events := by
  refine allMeet_of_keeps (I := fun x => ∃ stages, Sound x stages) (fun x e hx he => ?_) ⟨_, sound_start⟩ hmeets
  have hstep := sound_step hx he
  refine ⟨fun hq => ?_, hstep⟩
  obtain ⟨stages, hsound⟩ := hstep
  exact deduplicated_of_quiescent hsound hq

end

/-- The second consumer comes after the first stream is open. -/
def oneByOne : List (Event Unit) :=
  [.subscribe "binance" "btcusdt" "ticker" (), .act 0, .resume 0, .subscribe "Binance" "BTCUSDT" "ticker" ()]

theorem deduplicated_of_allMeet_oneByOne :
    AllMeet step (fun x e => Quiescent (step x e) → Deduplicated (step x e)) {} oneByOne :=
  deduplicated_of_allMeet ⟨fun _ c h => (by cases h), trivial, trivial, fun h => absurd h (by decide +kernel), trivial⟩

/-- Two consumers come before the first stream is open: each opens one, and the entry counts one consumer. -/
def together : List (Event Unit) :=
  [.subscribe "binance" "btcusdt" "ticker" (), .subscribe "binance" "btcusdt" "ticker" (), .act 0, .act 1, .resume 0,
    .resume 1]

theorem together_opens_two :
    ¬ AllMeet step (fun x e => Quiescent (step x e) → Deduplicated (step x e)) {} together := by
  rintro ⟨-, -, -, -, -, hlast, -⟩
  have hquiet : Quiescent (together.foldl step {}) := by
    intro i t ht
    rcases i with _ | _ | i
    · exact ⟨.ok (some 0), by cases ht; rfl⟩
    · exact ⟨.ok (some 1), by cases ht; rfl⟩
    · cases ht
  have hdedup := hlast hquiet (logicalKey "binance" "btcusdt" "ticker")
  have hlive : (together.foldl step {}).liveOf (logicalKey "binance" "btcusdt" "ticker") = [0, 1] := by decide +kernel
  have hopen : (together.foldl step {}).openOf (logicalKey "binance" "btcusdt" "ticker") = [0, 1] := by decide +kernel
  have hne : ¬ (together.foldl step {}).liveOf (logicalKey "binance" "btcusdt" "ticker") = [] := by simp [hlive]
  obtain ⟨entry, -, hone, -⟩ := (if_neg hne ▸ hdedup : _)
  have hlength := congrArg List.length (hopen.symm.trans hone)
  simp at hlength

end Utos.Streams.Deduplication
