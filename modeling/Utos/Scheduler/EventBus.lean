import Mathlib.Data.Rat.Defs
import Utos.Core.Dict
import Utos.Core.Json
import Utos.Coroutine.Flight
import Utos.Coroutine.Trace

namespace Utos.Scheduler.Bus

open Core Coroutine Program Core.Exceptions

/-- _Subscriber; a handler is known by a number. -/
structure Subscriber where
  id : Nat
  handler : Nat
  deriving DecidableEq, Repr

structure EventData where
  eventType : String
  eventId : Nat
  timestamp : ℚ
  data : Dict String Json
  metadata : Dict String Json

structure Metrics where
  eventsPublished : Nat := 0
  eventsDelivered : Nat := 0
  subscribersAdded : Nat := 0
  subscribersRemoved : Nat := 0
  deriving DecidableEq, Repr

/-- A bus, the time, and how many uuids were drawn, for events and for subscribers; the number of a
draw stands for the uuid. -/
structure EventBus where
  clock : ℚ := 0
  made : Nat := 0
  subscribers : Dict String (List Subscriber) := ∅
  metrics : Metrics := {}

/-- What is awaited: a handler, which returns or raises an exception with a text. -/
inductive Request
  | handler (sub : Subscriber) (event : EventData)

abbrev Answer : Request → Type
  | .handler .. => Except String Unit

abbrev Operation (α : Type) := Program EventBus Request Answer Exn α

namespace EventBus

variable (b : EventBus)

def subscribersOf (eventType : String) : List Subscriber := (b.subscribers.get eventType).getD []

def subscribe (eventType : String) (handler : Nat) : EventBus :=
  { b with
    made := b.made + 1
    subscribers := b.subscribers.set eventType (b.subscribersOf eventType ++ [⟨b.made, handler⟩])
    metrics := { b.metrics with subscribersAdded := b.metrics.subscribersAdded + 1 } }

/-- The first list that has the subscriber, and the first place where it has it. -/
def unsubscribe (id : Nat) : Bool × EventBus :=
  match b.subscribers.entries.find? (fun entry => entry.2.any (fun sub => sub.id == id)) with
  | none => (false, b)
  | some (eventType, subs) =>
      (true, { b with
        subscribers := b.subscribers.set eventType (subs.eraseP (fun sub => sub.id == id))
        metrics := { b.metrics with subscribersRemoved := b.metrics.subscribersRemoved + 1 } })

def announce : EventBus :=
  { b with made := b.made + 1, metrics := { b.metrics with eventsPublished := b.metrics.eventsPublished + 1 } }

def delivered : EventBus :=
  { b with metrics := { b.metrics with eventsDelivered := b.metrics.eventsDelivered + 1 } }

end EventBus

/-- The loop of publish; an exception of a handler is caught, and the next one gets its turn. -/
def deliver (event : EventData) : List Subscriber → Operation Unit
  | [] => .ret ()
  | sub :: rest => .call (.handler sub event) (fun
      | .ok () => .get (fun b => .put b.delivered (deliver event rest))
      | .error _ => deliver event rest)

def publish (eventType : String) (data : Dict String Json) (metadata : Option (Dict String Json)) : Operation Nat :=
  .get (fun b =>
    let event : EventData := ⟨eventType, b.made, b.clock, data, metadata.getD ∅⟩
    .put b.announce (.bind (deliver event (b.subscribersOf eventType)) (fun _ => .ret event.eventId)))

/-- What has been seen: the events with those who had subscribed when each was published, and the
handlers that have ended, with whether they returned. -/
structure History where
  published : List (Nat × List Subscriber) := []
  ended : List (Nat × Subscriber × Bool) := []

/-- The subscribers whose handlers have ended for an event, in this order. -/
def History.handed (history : History) (eventId : Nat) : List Subscriber :=
  (history.ended.filter (fun entry => entry.1 = eventId)).map (fun entry => entry.2.1)

def History.returned (history : History) : List (Nat × Subscriber × Bool) := history.ended.filter (fun entry => entry.2.2)

def ends (outcome : Except String Unit) : Handler History Request Answer
  | history, .handler sub event => (outcome, { history with
      ended := history.ended ++ [(event.eventId, sub, match outcome with | .ok _ => true | .error _ => false)] })

abbrev Buses := Pool EventBus History Request Answer Exn Nat

/-- What happens to a bus. A handler may itself publish, subscribe and unsubscribe before it ends. -/
inductive Event
  | subscribe (eventType : String) (handler : Nat)
  | unsubscribe (id : Nat)
  | tick (now : ℚ)
  | publish (caller : Nat) (eventType : String) (data : Dict String Json) (metadata : Option (Dict String Json))
  | answer (caller : Nat) (outcome : Except String Unit)

def step (P : Buses) : Event → Buses
  | .subscribe eventType handler => { P with store := P.store.subscribe eventType handler }
  | .unsubscribe id => { P with store := (P.store.unsubscribe id).2 }
  | .tick now => { P with store := { P.store with clock := now } }
  | .publish caller eventType data metadata =>
      if (P.tasks caller).isNone then
        let history := { P.world with
          published := P.world.published ++ [(P.store.made, P.store.subscribersOf eventType)] }
        { P with world := history }.start caller (Bus.publish eventType data metadata)
      else P
  | .answer caller outcome => (P.act (ends outcome) caller).resume caller

def opening : Buses := { store := {}, world := {} }

/-- The subscribers of all event types. -/
def EventBus.all (b : EventBus) : List Subscriber := b.subscribers.entries.flatMap Prod.snd

/-- What is in flight are the events that are not handed to all yet, with those still to come, of whom
the first has its turn. -/
abbrev Pending := Multiset (Nat × List Subscriber)

/-- Every event goes to those who had subscribed when it was published, each once and in their order,
and to nobody else, whatever their handlers do. -/
structure Delivered (F : Pending) (history : History) (b : EventBus) : Prop where
  published : b.metrics.eventsPublished = history.published.length
  delivered : b.metrics.eventsDelivered = history.returned.length
  subscribed : b.metrics.subscribersAdded = b.metrics.subscribersRemoved + b.all.length
  drawn : ∀ sub ∈ b.all, sub.id < b.made
  once : (b.all.map Subscriber.id).Nodup
  events : ∀ entry ∈ history.published, entry.1 < b.made ∧ (entry.2.map Subscriber.id).Nodup
  distinct : (history.published.map Prod.fst).Nodup
  waiting : (F.map Prod.fst).Nodup ∧ ∀ entry ∈ F, entry.1 ∈ history.published.map Prod.fst
  handed : ∀ entry ∈ history.published, (entry.1 ∉ F.map Prod.fst ∧ entry.2 = history.handed entry.1) ∨
    ∃ rest, (entry.1, rest) ∈ F ∧ entry.2 = history.handed entry.1 ++ rest
  nobodyElse : ∀ entry ∈ history.ended, entry.1 ∈ history.published.map Prod.fst

variable {F : Pending} {history : History} {b : EventBus} {event : EventData} {sub : Subscriber} {rest : List Subscriber}

theorem all_perm (b : EventBus) (eventType : String) : b.all.Perm
    (b.subscribersOf eventType ++ (b.subscribers.pop eventType).entries.flatMap Prod.snd) := by
  unfold EventBus.all EventBus.subscribersOf
  cases hsubs : b.subscribers.get eventType with
  | none => rw [Dict.entries_pop_of_get_none hsubs, Option.getD_none, List.nil_append]
  | some subs =>
      refine ((Dict.perm_of_get hsubs).flatMap_right _).trans ?_
      rw [List.flatMap_cons, Option.getD_some]

theorem all_set_perm (d : Dict String (List Subscriber)) (eventType : String) (subs : List Subscriber) :
    ((d.set eventType subs).entries.flatMap Prod.snd).Perm (subs ++ (d.pop eventType).entries.flatMap Prod.snd) := by
  refine ((Dict.perm_set d eventType subs).flatMap_right _).trans ?_
  rw [List.flatMap_cons]

theorem all_subscribe (b : EventBus) (eventType : String) (handler : Nat) :
    (b.subscribe eventType handler).all.Perm (⟨b.made, handler⟩ :: b.all) := by
  refine (all_set_perm b.subscribers eventType _).trans ?_
  refine List.Perm.trans ?_ ((all_perm b eventType).symm.cons _)
  rw [List.append_assoc, List.singleton_append]
  exact List.perm_middle

theorem unsubscribe_cases (b : EventBus) (id : Nat) : (b.unsubscribe id).2 = b ∨
    ∃ sub, b.all.Perm (sub :: (b.unsubscribe id).2.all) ∧ ∃ subscribers, (b.unsubscribe id).2 = { b with
      subscribers
      metrics := { b.metrics with subscribersRemoved := b.metrics.subscribersRemoved + 1 } } := by
  unfold EventBus.unsubscribe
  split
  next => exact .inl rfl
  next eventType subs hfind =>
    have hany := List.find?_some hfind
    change subs.any (fun sub => sub.id == id) = true at hany
    obtain ⟨sub, hmem, hsub⟩ := List.any_eq_true.mp hany
    obtain ⟨found, before, after, -, -, hsplit, herase⟩ :=
      List.exists_of_eraseP (p := fun sub : Subscriber => sub.id == id) hmem hsub
    have hsubs : b.subscribersOf eventType = subs := by
      rw [EventBus.subscribersOf, Dict.get_of_mem (List.mem_of_find?_eq_some hfind), Option.getD_some]
    refine .inr ⟨found, ?_, _, rfl⟩
    refine (all_perm b eventType).trans ?_
    refine List.Perm.trans ?_ ((all_set_perm b.subscribers eventType _).symm.cons found)
    rw [hsubs, herase, hsplit, ← List.cons_append]
    exact List.perm_middle.append_right _

namespace Delivered

theorem subscribe (h : Delivered F history b) (eventType : String) (handler : Nat) :
    Delivered F history (b.subscribe eventType handler) := by
  have hall := all_subscribe b eventType handler
  refine ⟨h.published, h.delivered, ?_, fun sub hsub => ?_, ?_, fun entry hentry => ?_, h.distinct, h.waiting, h.handed,
    h.nobodyElse⟩
  · have hsubscribed := h.subscribed
    rw [hall.length_eq, List.length_cons]
    simp only [EventBus.subscribe]
    omega
  · rcases List.mem_cons.mp (hall.subset hsub) with rfl | hsub
    · exact Nat.lt_succ_self _
    · exact Nat.lt_succ_of_lt (h.drawn sub hsub)
  · rw [(hall.map Subscriber.id).nodup_iff, List.map_cons, List.nodup_cons]
    refine ⟨fun hmem => ?_, h.once⟩
    obtain ⟨sub, hsub, heq⟩ := List.mem_map.mp hmem
    exact absurd (h.drawn sub hsub) heq.ge.not_gt
  · exact ⟨Nat.lt_succ_of_lt (h.events entry hentry).1, (h.events entry hentry).2⟩

theorem unsubscribe (h : Delivered F history b) (id : Nat) : Delivered F history (b.unsubscribe id).2 := by
  rcases unsubscribe_cases b id with heq | ⟨sub, hall, subscribers, heq⟩
  · rwa [heq]
  · rw [heq] at hall ⊢
    refine ⟨h.published, h.delivered, ?_, fun other hother => ?_, ?_, h.events, h.distinct, h.waiting, h.handed,
      h.nobodyElse⟩
    · rw [h.subscribed, hall.length_eq, List.length_cons, add_right_comm, add_assoc]
    · exact h.drawn other (hall.symm.subset (List.mem_cons_of_mem sub hother))
    · have honce := h.once
      rw [(hall.map Subscriber.id).nodup_iff, List.map_cons, List.nodup_cons] at honce
      exact honce.2

theorem handed_fresh (h : Delivered F history b) : history.handed b.made = [] := by
  rw [History.handed, List.map_eq_nil_iff]
  apply List.filter_eq_nil_iff.mpr
  intro entry hentry heq
  obtain ⟨published, hpublished, hid⟩ := List.mem_map.mp (h.nobodyElse entry hentry)
  have hlt := (h.events published hpublished).1
  rw [hid, of_decide_eq_true heq] at hlt
  exact absurd hlt (lt_irrefl _)

theorem announce (h : Delivered F history b) (eventType : String) :
    Delivered ((b.made, b.subscribersOf eventType) ::ₘ F)
      { history with published := history.published ++ [(b.made, b.subscribersOf eventType)] } b.announce := by
  have hfresh : b.made ∉ history.published.map Prod.fst := fun hmem => by
    obtain ⟨entry, hentry, heq⟩ := List.mem_map.mp hmem
    exact absurd (h.events entry hentry).1 heq.ge.not_gt
  have hmore : ∀ id, id ∈ history.published.map Prod.fst →
      id ∈ (history.published ++ [(b.made, b.subscribersOf eventType)]).map Prod.fst := by
    intro id hid
    rw [List.map_append]
    exact List.mem_append_left _ hid
  refine ⟨?_, h.delivered, h.subscribed, fun sub hsub => Nat.lt_succ_of_lt (h.drawn sub hsub), h.once,
    fun entry hentry => ?_, ?_, ⟨?_, fun entry hentry => ?_⟩, fun entry hentry => ?_,
    fun entry hentry => hmore _ (h.nobodyElse entry hentry)⟩
  · simp only [EventBus.announce, List.length_append, List.length_singleton, h.published]
  · rcases List.mem_append.mp hentry with hentry | hentry
    · exact ⟨Nat.lt_succ_of_lt (h.events entry hentry).1, (h.events entry hentry).2⟩
    · rw [List.mem_singleton.mp hentry]
      refine ⟨Nat.lt_succ_self _, ?_⟩
      have honce := h.once
      rw [((all_perm b eventType).map Subscriber.id).nodup_iff, List.map_append] at honce
      exact (List.nodup_append.mp honce).1
  · rw [List.map_append, List.map_singleton]
    refine List.nodup_append.mpr ⟨h.distinct, List.nodup_singleton _, fun x hx y hy heq => hfresh ?_⟩
    have hmade : y = b.made := List.mem_singleton.mp hy
    rwa [heq, hmade] at hx
  · rw [Multiset.map_cons, Multiset.nodup_cons]
    refine ⟨fun hmem => ?_, h.waiting.1⟩
    obtain ⟨entry, hentry, heq⟩ := Multiset.mem_map.mp hmem
    have hmade : entry.1 = b.made := heq
    exact hfresh (hmade ▸ h.waiting.2 entry hentry)
  · rcases Multiset.mem_cons.mp hentry with rfl | hentry
    · rw [List.map_append]
      exact List.mem_append_right _ (List.mem_singleton_self _)
    · exact hmore _ (h.waiting.2 entry hentry)
  · rcases List.mem_append.mp hentry with hentry | hentry
    · rcases h.handed entry hentry with ⟨hnone, hall⟩ | ⟨rest, hmem, hsplit⟩
      · refine .inl ⟨fun hmem => ?_, hall⟩
        rcases Multiset.mem_cons.mp (Multiset.map_cons Prod.fst _ F ▸ hmem) with heq | hmem
        · exact absurd (h.events entry hentry).1 (Eq.ge heq).not_gt
        · exact hnone hmem
      · exact .inr ⟨rest, Multiset.mem_cons_of_mem hmem, hsplit⟩
    · rw [List.mem_singleton.mp hentry]
      refine .inr ⟨_, Multiset.mem_cons_self _ _, ?_⟩
      have hnone : history.handed b.made = [] := h.handed_fresh
      exact (congrArg (· ++ b.subscribersOf eventType) hnone).symm

theorem waiting_cons {id : Nat} {subs : List Subscriber} (h : Delivered ((id, subs) ::ₘ F) history b) :
    id ∉ F.map Prod.fst ∧ (F.map Prod.fst).Nodup := by
  have hnodup := h.waiting.1
  rwa [Multiset.map_cons, Multiset.nodup_cons] at hnodup

/-- What is left of an event is what is in flight of it. -/
theorem rest_unique {id : Nat} {subs : List Subscriber} (h : Delivered ((id, subs) ::ₘ F) history b)
    (hrest : (id, rest) ∈ (id, subs) ::ₘ F) : rest = subs := by
  rcases Multiset.mem_cons.mp hrest with heq | hmem
  · exact congrArg Prod.snd heq
  · exact absurd (Multiset.mem_map_of_mem Prod.fst hmem) h.waiting_cons.1

/-- An event has been handed to all. -/
theorem finish {id : Nat} (h : Delivered ((id, []) ::ₘ F) history b) : Delivered F history b := by
  refine ⟨h.published, h.delivered, h.subscribed, h.drawn, h.once, h.events, h.distinct,
    ⟨h.waiting_cons.2, fun entry hentry => h.waiting.2 entry (Multiset.mem_cons_of_mem hentry)⟩,
    fun entry hentry => ?_, h.nobodyElse⟩
  by_cases heq : entry.1 = id
  · refine .inl ⟨heq ▸ h.waiting_cons.1, ?_⟩
    rcases h.handed entry hentry with ⟨hnone, hall⟩ | ⟨rest, hmem, hsplit⟩
    · exact hall
    · rw [heq] at hmem
      rwa [h.rest_unique hmem, List.append_nil] at hsplit
  · rcases h.handed entry hentry with ⟨hnone, hall⟩ | ⟨rest, hmem, hsplit⟩
    · exact .inl ⟨fun hmem => hnone (Multiset.map_cons Prod.fst _ F ▸ Multiset.mem_cons_of_mem hmem), hall⟩
    · refine .inr ⟨rest, ?_, hsplit⟩
      rcases Multiset.mem_cons.mp hmem with hsame | hmem
      · exact absurd (congrArg Prod.fst hsame) heq
      · exact hmem

theorem handed_append (history : History) (id other : Nat) (sub : Subscriber) (ok : Bool) :
    ({ history with ended := history.ended ++ [(id, sub, ok)] } : History).handed other =
      if other = id then history.handed other ++ [sub] else history.handed other := by
  simp only [History.handed, List.filter_append, List.map_append]
  by_cases h : id = other
  · subst h
    simp
  · simp [h, Ne.symm h]

/-- A handler has ended, and the next subscriber has its turn. -/
theorem next {id : Nat} (h : Delivered ((id, sub :: rest) ::ₘ F) history b) {b' : EventBus} {ok : Bool}
    (hb' : b' = if ok then b.delivered else b) :
    Delivered ((id, rest) ::ₘ F) { history with ended := history.ended ++ [(id, sub, ok)] } b' := by
  have hid : id ∈ history.published.map Prod.fst := h.waiting.2 _ (Multiset.mem_cons_self _ _)
  have hids : ∀ subs : List Subscriber, ((id, subs) ::ₘ F).map Prod.fst = id ::ₘ F.map Prod.fst :=
    fun subs => Multiset.map_cons _ _ _
  have hsame : b'.made = b.made ∧ b'.all = b.all ∧ b'.metrics = { b.metrics with
      eventsDelivered := b.metrics.eventsDelivered + if ok then 1 else 0 } := by
    cases ok <;> subst hb' <;> exact ⟨rfl, rfl, rfl⟩
  obtain ⟨hmade, hall, hmetrics⟩ := hsame
  refine ⟨by rw [hmetrics]; exact h.published, ?_, by rw [hmetrics, hall]; exact h.subscribed,
    by rw [hmade, hall]; exact h.drawn, by rw [hall]; exact h.once, by rw [hmade]; exact h.events, h.distinct,
    ⟨?_, fun entry hentry => ?_⟩, fun entry hentry => ?_, fun entry hentry => ?_⟩
  · rw [hmetrics, History.returned, List.filter_append, List.length_append]
    cases ok <;> exact congrArg (· + _) h.delivered
  · rw [hids, Multiset.nodup_cons]
    exact h.waiting_cons
  · rcases Multiset.mem_cons.mp hentry with rfl | hentry
    · exact hid
    · exact h.waiting.2 entry (Multiset.mem_cons_of_mem hentry)
  · rw [handed_append]
    by_cases heq : entry.1 = id
    · rw [if_pos heq]
      rcases h.handed entry hentry with ⟨hnone, -⟩ | ⟨rest', hmem, hsplit⟩
      · exact absurd (by rw [hids, heq]; exact Multiset.mem_cons_self _ _) hnone
      · rw [heq] at hmem
        rw [h.rest_unique hmem] at hsplit
        refine .inr ⟨rest, heq ▸ Multiset.mem_cons_self _ _, ?_⟩
        rw [hsplit, List.append_assoc, List.singleton_append]
    · rw [if_neg heq]
      rcases h.handed entry hentry with ⟨hnone, hall⟩ | ⟨rest', hmem, hsplit⟩
      · exact .inl ⟨hids rest ▸ hids (sub :: rest) ▸ hnone, hall⟩
      · refine .inr ⟨rest', Multiset.mem_cons_of_mem ?_, hsplit⟩
        rcases Multiset.mem_cons.mp hmem with hsame | hmem
        · exact absurd (congrArg Prod.fst hsame) heq
        · exact hmem
  · rcases List.mem_append.mp hentry with hentry | hentry
    · exact h.nobodyElse entry hentry
    · rw [List.mem_singleton.mp hentry]
      exact hid

end Delivered

def holds : Request → Pending → Prop
  | .handler sub event, held => ∃ rest, held = {(event.eventId, sub :: rest)}

def flight : Flight EventBus History Request Answer Pending Exn Nat where
  holds := holds
  inv := Delivered
  answers h := ∃ outcome, h = ends outcome

/-- The loop holds its event with those whose turn is still to come. -/
theorem lands_deliver (hinv : Delivered ((event.eventId, rest) ::ₘ F) history b) :
    Lands flight (deliver event rest) (fun r F history b => r.isOk ∧ Delivered F history b) F history b := by
  induction rest generalizing F history b with
  | nil => exact ⟨rfl, hinv.finish⟩
  | cons sub rest ih =>
      refine ⟨_, ⟨rest, rfl⟩, hinv, ?_⟩
      rintro h ⟨outcome, rfl⟩ F' history' b' hinv'
      cases outcome with
      | ok => exact ih (@Delivered.next _ _ _ _ _ _ hinv' _ true rfl)
      | error error => exact ih (@Delivered.next _ _ _ _ _ _ hinv' _ false rfl)

theorem balanced_step {P : Buses} (h : ∃ own, Balanced flight own P) (e : Event) : ∃ own, Balanced flight own (step P e) := by
  obtain ⟨own, hP⟩ := h
  cases e with
  | subscribe eventType handler => exact ⟨own, hP.store (fun F h => h.subscribe eventType handler)⟩
  | unsubscribe id => exact ⟨own, hP.store (fun F h => h.unsubscribe id)⟩
  | tick now =>
      refine ⟨own, hP.store (fun F h => ?_)⟩
      exact ⟨h.published, h.delivered, h.subscribed, h.drawn, h.once, h.events, h.distinct, h.waiting, h.handed, h.nobodyElse⟩
  | publish caller eventType data metadata =>
      simp only [step, Option.isNone_iff_eq_none]
      split
      next hfresh =>
        refine hP.start hfresh (fun F h => lands_bind (lands_mono (lands_deliver (h.announce eventType)) ?_))
        rintro (e | a) F' history b ⟨hok, hinv⟩
        · cases hok
        · exact ⟨trivial, hinv⟩
      next => exact ⟨own, hP⟩
  | answer caller outcome => exact hP.answer ⟨outcome, rfl⟩

/-- In every run, with publications that overlap, and handlers that raise, publish, subscribe and
unsubscribe. -/
theorem delivered_run (es : List Event) : ∃ F, (es.foldl step opening).InFlight holds F ∧
    Delivered F (es.foldl step opening).world (es.foldl step opening).store := by
  have hopening : ∃ own, Balanced flight own opening := by
    refine ⟨0, Balanced.idle ⟨rfl, rfl, rfl, ?_, List.nodup_nil, ?_, List.nodup_nil, ⟨Multiset.nodup_zero, ?_⟩, ?_, ?_⟩⟩
    · exact fun sub hsub => absurd hsub List.not_mem_nil
    · exact fun entry hentry => absurd hentry List.not_mem_nil
    · exact fun entry hentry => absurd hentry (Multiset.notMem_zero entry)
    · exact fun entry hentry => absurd hentry List.not_mem_nil
    · exact fun entry hentry => absurd hentry List.not_mem_nil
  obtain ⟨own, hP⟩ := foldl_keeps (I := fun P : Buses => ∃ own, Balanced flight own P) (fun P e h => balanced_step h e) es hopening
  exact hP.inFlight

end Utos.Scheduler.Bus
