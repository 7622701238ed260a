import Utos.Streams.Connection
import Utos.Coroutine.Trace

namespace Utos.Streams.OneConnection

open Coroutine Program Core.Exceptions Messages Connection

variable {γ μ α β : Type}

/-- The messages that the receive tasks have still to read. -/
def waiting (x : State γ μ) : List μ :=
  x.manager.loops.flatMap (fun loop => match loop with
    | .created => (x.manager.ws.map x.net.inbox).getD []
    | .reading s => x.net.inbox s
    | .ended => [])

/-- One socket is open at most, one receive task is under way at most, and every
message that the exchange has sent is heard once by every callback, in order, or
has still to be read. -/
structure OneLive (x : State γ μ) : Prop where
  sockets : ∀ s s', x.net.isOpen s = true → x.net.isOpen s' = true → s = s'
  loops : ∀ (i j : Nat) (l l' : Loop), x.manager.loops[i]? = some l → x.manager.loops[j]? = some l' →
    l ≠ .ended → l' ≠ .ended → i = j
  once : x.heard ++ calls x.manager.callbacks (waiting x) = calls x.manager.callbacks x.published

/-- The task was given a socket and has yet to take it up. -/
def Holds (x : State γ μ) (i : Nat) (s : SocketId) : Prop :=
  ∃ url k, x.pool.tasks i = some (.answered (.open url) (.ok s) k)

/-- No socket is open or about to be taken up, and no receive task is under way. -/
def Vacant (x : State γ μ) : Prop :=
  (∀ s, x.net.isOpen s = false) ∧ (∀ l ∈ x.manager.loops, l = .ended) ∧ ∀ i s, ¬ Holds x i s

/-- The condition on the events: a connect attempt opens a socket only where there is none. -/
def Meets (x : State γ μ) : Event μ → Prop
  | .act task .succeeds => ∀ url k, x.pool.tasks task = some (.asked (.open url) k) → Vacant x
  | _ => True

/-- What a coroutine other than the receive tasks leaves alone. -/
structure Quiet (m m' : Manager γ) : Prop where
  ws : m'.ws = m.ws
  loops : m'.loops = m.loops
  callbacks : m'.callbacks = m.callbacks
  running : m.running = true → m'.running = true

theorem Quiet.refl (m : Manager γ) : Quiet m m := ⟨rfl, rfl, rfl, id⟩

theorem Quiet.trans {m m' m'' : Manager γ} (h : Quiet m m') (h' : Quiet m' m'') : Quiet m m'' :=
  ⟨h'.ws.trans h.ws, h'.loops.trans h.loops, h'.callbacks.trans h.callbacks, fun hr => h'.running (h.running hr)⟩

/-- The socket that an answer hands over. -/
def handed : (q : Request) → Answer q → Option SocketId
  | .open _, .ok s => some s
  | .open _, .error _ => none
  | .acquire, _ => none
  | .send .., _ => none
  | .sleep _, _ => none

/-- A send goes over the socket of the manager. -/
def Over (m : Manager γ) : Request → Prop
  | .send s _ => m.ws = some s
  | _ => True

/-- What the rest of a connect call does, having been handed a socket or not:
it takes up the socket at once, and is quiet apart from that. -/
def Obeys : Option SocketId → Operation γ α → Manager γ → Prop
  | h, .ret _, _ => h = none
  | h, .raise _, _ => h = none
  | h, .get k, m => Obeys h (k m) m
  | none, .put m' k, m => Quiet m m' ∧ Obeys none k m'
  | some s, .put m' k, m => m' = m.take s ∧ Obeys none k m'
  | h, .call q k, m => h = none ∧ m.running = true ∧ Over m q ∧
      ∀ a m', m'.running = true → Obeys (handed q a) (k a) m'

theorem obeys_bind {h : Option SocketId} {p : Operation γ α} {f : α → Operation γ β} {m : Manager γ}
    (hrun : m.running = true) (hp : Obeys h p m) (hf : ∀ a m', m'.running = true → Obeys none (f a) m') :
    Obeys h (Program.bind p f) m := by
  induction p generalizing h m with
  | ret a =>
      cases hp
      exact hf a m hrun
  | raise e => exact hp
  | get k ih => exact ih m hrun hp
  | put m' k ih =>
      cases h with
      | none => exact ⟨hp.1, ih (hp.1.running hrun) hp.2⟩
      | some s =>
          obtain ⟨rfl, hp⟩ := hp
          exact ⟨rfl, ih hrun hp⟩
  | call q k ih => exact ⟨hp.1, hp.2.1, hp.2.2.1, fun a m' hm' => ih a hm' (hp.2.2.2 a m' hm')⟩

theorem obeys_tryCatch {h : Option SocketId} {p : Operation γ α} {f : Exn → Operation γ α} {m : Manager γ}
    (hrun : m.running = true) (hp : Obeys h p m) (hf : ∀ e m', m'.running = true → Obeys none (f e) m') :
    Obeys h (Program.tryCatch p f) m := by
  induction p generalizing h m with
  | ret a => exact hp
  | raise e =>
      cases hp
      exact hf e m hrun
  | get k ih => exact ih m hrun hp
  | put m' k ih =>
      cases h with
      | none => exact ⟨hp.1, ih (hp.1.running hrun) hp.2⟩
      | some s =>
          obtain ⟨rfl, hp⟩ := hp
          exact ⟨rfl, ih hrun hp⟩
  | call q k ih => exact ⟨hp.1, hp.2.1, hp.2.2.1, fun a m' hm' => ih a hm' (hp.2.2.2 a m' hm')⟩

theorem obeys_lift (r : Except Exn α) (m : Manager γ) : Obeys none (.lift r) m := by
  cases r <;> rfl

theorem obeys_forEach {xs : List β} {f : β → Operation γ Unit} {m : Manager γ} (hrun : m.running = true)
    (hf : ∀ x m', m'.running = true → Obeys none (f x) m') : Obeys none (.forEach xs f) m := by
  induction xs generalizing m with
  | nil => rfl
  | cons x xs ih => exact obeys_bind hrun (hf x m hrun) (fun _ m' hm' => ih hm')

theorem obeys_send {m : Manager γ} (hrun : m.running = true) (message : Message) : Obeys none (send message) m := by
  rw [send, Obeys]
  split
  next => rfl
  next ws hws => exact ⟨rfl, hrun, hws, fun a m' _ => obeys_lift a m'⟩

theorem obeys_acquire {m : Manager γ} (hrun : m.running = true) : Obeys none acquire m := by
  show Obeys none (if m.hasRateLimiter then .await .acquire id else .ret ()) m
  split
  · exact ⟨rfl, hrun, trivial, fun a m' _ => obeys_lift a m'⟩
  · rfl

theorem obeys_resubscribe {m : Manager γ} (hrun : m.running = true) (targetUrl : String) :
    Obeys none (resubscribe targetUrl) m :=
  obeys_forEach hrun (fun message _ hm => obeys_send hm message)

theorem obeys_attemptOnce {m : Manager γ} (hrun : m.running = true) (targetUrl : String) :
    Obeys none (attemptOnce targetUrl) m := by
  refine obeys_bind hrun (obeys_acquire hrun) (fun _ m1 hm1 => ⟨rfl, hm1, trivial, fun a m2 hm2 => ?_⟩)
  cases a with
  | error e => rfl
  | ok s =>
      have hm3 : (m2.take s).running = true := hm2
      have hrest : Obeys none (.bind (resubscribe targetUrl) (fun _ => .ret true)) (m2.take s) :=
        obeys_bind hm3 (obeys_resubscribe hm3 targetUrl) (fun _ _ _ => rfl)
      exact ⟨rfl, hrest⟩

theorem obeys_attempts {m : Manager γ} (hrun : m.running = true) (policy : RetryPolicy) (targetUrl : String)
    (ns : List Nat) : Obeys none (attempts policy targetUrl ns) m := by
  induction ns generalizing m with
  | nil => rfl
  | cons n ns ih =>
      refine obeys_tryCatch hrun (obeys_attemptOnce hrun targetUrl) (fun e m1 hm1 => ?_)
      split
      · exact ⟨rfl, hm1, trivial, fun _ m2 hm2 => ih hm2⟩
      · rfl

theorem obeys_connect (m : Manager γ) (url : Option String) : Obeys none (connect url) m := by
  show Obeys none (if m.target url = "" then .raise (.other "ValueError" "WebSocket URL is required")
    else .put { m with url := m.target url, running := true }
      (attempts m.retryPolicy (m.target url) (List.range' 1 m.retryPolicy.maxRetries))) m
  split
  · rfl
  · exact ⟨⟨rfl, rfl, rfl, fun _ => rfl⟩, obeys_attempts rfl _ _ _⟩

theorem obeys_reconnect (m : Manager γ) : Obeys none reconnect m := by
  show Obeys none (if m.running = false ∨ m.url = "" then .ret false else connect (some m.url)) m
  split
  · rfl
  · exact obeys_connect m _

/-- The task of a connect call, or a _reconnect. -/
abbrev Connecting (γ : Type) := Task (Manager γ) Request Answer Exn Bool

def Behaves : Connecting γ → Prop
  | .asked q k => ∀ a m, m.running = true → Obeys (handed q a) (k a) m
  | .answered q a k => ∀ m, m.running = true → Obeys (handed q a) (k a) m
  | .done _ => True

def taken (m : Manager γ) : Option SocketId → Manager γ
  | none => m
  | some s => m.take s

/-- A stretch of a connect call from one request to the next. -/
structure Stretch (h : Option SocketId) (m m' : Manager γ) (t : Connecting γ) : Prop where
  quiet : Quiet (taken m h) m'
  behaves : Behaves t
  asks : ∀ q k, t = .asked q k → m'.running = true ∧ Over m' q
  answers : ∀ q a k, t ≠ .answered q a k

theorem advance_obeys {h : Option SocketId} {p : Operation γ Bool} {m : Manager γ} (hp : Obeys h p m) :
    Stretch h m (p.advance m).2 (p.advance m).1 := by
  induction p generalizing h m with
  | ret a | raise e =>
      cases hp
      exact ⟨.refl m, trivial, fun _ _ ht => (by cases ht), fun _ _ _ ht => (by cases ht)⟩
  | get k ih => exact ih m hp
  | put m' k ih =>
      cases h with
      | none =>
          have hrest := ih hp.2
          exact ⟨hp.1.trans hrest.quiet, hrest.behaves, hrest.asks, hrest.answers⟩
      | some s =>
          obtain ⟨rfl, hp⟩ := hp
          have hrest := ih hp
          exact ⟨hrest.quiet, hrest.behaves, hrest.asks, hrest.answers⟩
  | call q k ih =>
      obtain ⟨rfl, hrun, hover, hrest⟩ := hp
      refine ⟨.refl m, hrest, fun q' k' ht => ?_, fun _ _ _ ht => (by cases ht)⟩
      cases ht
      exact ⟨hrun, hover⟩

/-- What is true of every state of a run. -/
structure Known (x : State γ μ) : Prop where
  fresh : ∀ s, x.net.opened ≤ s → x.net.isOpen s = false ∧ x.net.sent s = []
  ws : ∀ s, x.manager.ws = some s → s < x.net.opened
  held : ∀ i s, Holds x i s → s < x.net.opened
  sends : ∀ i s message k, x.pool.tasks i = some (.asked (.send s message) k) → s < x.net.opened
  behave : ∀ i t, x.pool.tasks i = some t → Behaves t
  running : ∀ i t, x.pool.tasks i = some t → (∀ r, t ≠ .done r) → x.manager.running = true
  loops : x.manager.loops ≠ [] → x.manager.running = true
  started : ∀ i t, x.pool.tasks i = some t → i < x.started

/-- No socket is open, and all that was sent is heard. -/
structure Idle (x : State γ μ) : Prop where
  closed : ∀ s, x.net.isOpen s = false
  empty : ∀ s, x.net.inbox s = []
  ended : ∀ l ∈ x.manager.loops, l = .ended
  unheld : ∀ i s, ¬ Holds x i s
  heard : x.heard = calls x.manager.callbacks x.published

/-- Task i was given socket s and has yet to take it up. -/
structure Held (x : State γ μ) (i : Nat) (s : SocketId) : Prop where
  only : ∀ s', x.net.isOpen s' = true → s' = s
  empty : ∀ s', x.net.inbox s' = []
  ended : ∀ l ∈ x.manager.loops, l = .ended
  holds : ∀ j s', Holds x j s' ↔ j = i ∧ s' = s
  unsent : x.net.sent s = []
  ws : x.manager.ws ≠ some s
  sends : ∀ j message k, x.pool.tasks j ≠ some (.asked (.send s message) k)
  heard : x.heard = calls x.manager.callbacks x.published

/-- Receive task l reads socket s, or is going to. -/
structure Live (x : State γ μ) (l : Nat) (s : SocketId) : Prop where
  only : ∀ s', x.net.isOpen s' = true → s' = s
  empty : ∀ s', s' ≠ s → x.net.inbox s' = []
  reads : x.manager.loops[l]? = some .created ∨ x.manager.loops[l]? = some (.reading s)
  ended : ∀ (j : Nat) (l' : Loop), x.manager.loops[j]? = some l' → j ≠ l → l' = .ended
  unheld : ∀ i s, ¬ Holds x i s
  ws : x.manager.ws = some s
  heard : x.heard ++ calls x.manager.callbacks (x.net.inbox s) = calls x.manager.callbacks x.published

inductive Phase (x : State γ μ) : Prop
  | idle (h : Idle x)
  | held (i : Nat) (s : SocketId) (h : Held x i s)
  | live (l : Nat) (s : SocketId) (h : Live x l s)

theorem calls_append (callbacks : List γ) (ms ms' : List μ) :
    calls callbacks (ms ++ ms') = calls callbacks ms ++ calls callbacks ms' := by
  simp [calls]

theorem waiting_of_ended {x : State γ μ} (h : ∀ l ∈ x.manager.loops, l = .ended) : waiting x = [] := by
  rw [waiting, List.flatMap_eq_nil_iff]
  intro l hl
  rw [h l hl]

theorem flatMap_of_single {f : α → List β} {xs : List α} {l : Nat} {a : α} (hl : xs[l]? = some a)
    (hothers : ∀ (j : Nat) (b : α), xs[j]? = some b → j ≠ l → f b = []) : xs.flatMap f = f a := by
  induction xs generalizing l with
  | nil => simp at hl
  | cons x xs ih =>
      rw [List.flatMap_cons]
      cases l with
      | zero =>
          have hrest : xs.flatMap f = [] := by
            rw [List.flatMap_eq_nil_iff]
            intro b hb
            obtain ⟨j, hj⟩ := List.mem_iff_getElem?.mp hb
            exact hothers (j + 1) b (by simpa using hj) (by simp)
          have hx : x = a := by simpa using hl
          rw [hrest, hx, List.append_nil]
      | succ l =>
          have hx : f x = [] := hothers 0 x (by simp) (by simp)
          rw [hx, List.nil_append]
          refine ih (by simpa using hl) (fun j b hj hne => hothers (j + 1) b (by simpa using hj) ?_)
          omega

theorem Live.waiting_eq {x : State γ μ} {l : Nat} {s : SocketId} (h : Live x l s) :
    waiting x = x.net.inbox s := by
  rcases h.reads with hl | hl
  · rw [waiting, flatMap_of_single hl (fun j l' hj hne => by rw [h.ended j l' hj hne])]
    simp [h.ws]
  · rw [waiting, flatMap_of_single hl (fun j l' hj hne => by rw [h.ended j l' hj hne])]

theorem Phase.oneLive {x : State γ μ} (h : Phase x) : OneLive x := by
  cases h with
  | idle h =>
      refine ⟨fun s _ hs _ => ?_, fun i _ l _ hi _ hl _ => ?_, ?_⟩
      · rw [h.closed s] at hs
        cases hs
      · exact absurd (h.ended l (List.mem_of_getElem? hi)) hl
      · rw [waiting_of_ended h.ended, h.heard]
        exact List.append_nil _
  | held i s h =>
      refine ⟨fun s1 s2 h1 h2 => (h.only s1 h1).trans (h.only s2 h2).symm, fun i _ l _ hi _ hl _ => ?_, ?_⟩
      · exact absurd (h.ended l (List.mem_of_getElem? hi)) hl
      · rw [waiting_of_ended h.ended, h.heard]
        exact List.append_nil _
  | live l s h =>
      refine ⟨fun s1 s2 h1 h2 => (h.only s1 h1).trans (h.only s2 h2).symm, fun i j a b hi hj ha hb => ?_, ?_⟩
      · have hil : i = l := by_contra (fun hne => ha (h.ended i a hi hne))
        have hjl : j = l := by_contra (fun hne => hb (h.ended j b hj hne))
        exact hil.trans hjl.symm
      · rw [h.waiting_eq]
        exact h.heard

/-- A coroutine has had its turn. -/
structure Turn (x x' : State γ μ) (i : Nat) (h : Option SocketId) : Prop where
  net : x'.net = x.net
  published : x'.published = x.published
  heard : x'.heard = x.heard
  started : x.started ≤ x'.started ∧ i < x'.started
  stretch : ∃ t, Stretch h x.manager x'.manager t ∧ x'.pool.tasks = Function.update x.pool.tasks i (some t)

variable {x x' : State γ μ} {i j : Nat} {s : SocketId} {h : Option SocketId}

theorem Turn.cases (ht : Turn x x' i h) : ∃ t, Stretch h x.manager x'.manager t ∧
    ∀ j t', x'.pool.tasks j = some t' ↔ j = i ∧ t' = t ∨ j ≠ i ∧ x.pool.tasks j = some t' := by
  obtain ⟨t, hs, htasks⟩ := ht.stretch
  refine ⟨t, hs, fun j t' => ?_⟩
  rw [htasks]
  by_cases hj : j = i
  · subst hj
    simp [eq_comm]
  · simp [hj]

theorem Turn.holds (ht : Turn x x' i h) : Holds x' j s ↔ j ≠ i ∧ Holds x j s := by
  obtain ⟨t, hs, htasks⟩ := ht.cases
  constructor
  · rintro ⟨url, k, hj⟩
    rcases (htasks j _).mp hj with ⟨-, hans⟩ | ⟨hne, hold⟩
    · exact absurd hans.symm (hs.answers _ _ _)
    · exact ⟨hne, url, k, hold⟩
  · rintro ⟨hne, url, k, hj⟩
    exact ⟨url, k, (htasks j _).mpr (.inr ⟨hne, hj⟩)⟩

theorem Turn.sends {s : SocketId} (ht : Turn x x' i h) {message : Message} {k : Except Exn Unit → Operation γ Bool}
    (hj : x'.pool.tasks j = some (.asked (.send s message) k)) :
    x'.manager.ws = some s ∨ x.pool.tasks j = some (.asked (.send s message) k) := by
  obtain ⟨t, hs, htasks⟩ := ht.cases
  rcases (htasks j _).mp hj with ⟨-, hask⟩ | ⟨-, hold⟩
  · exact .inl (hs.asks _ _ hask.symm).2
  · exact .inr hold

theorem Turn.quiet (ht : Turn x x' i h) : Quiet (taken x.manager h) x'.manager := by
  obtain ⟨t, hs, -⟩ := ht.stretch
  exact hs.quiet

@[simp] theorem taken_running (m : Manager γ) (h : Option SocketId) : (taken m h).running = m.running := by
  cases h <;> rfl

theorem Known.turn (hx : Known x) (ht : Turn x x' i h) (hh : ∀ s, h = some s → Holds x i s) : Known x' := by
  obtain ⟨t, hs, htasks⟩ := ht.cases
  have hrun : x.manager.running = true → x'.manager.running = true := fun hr =>
    hs.quiet.running ((taken_running _ _).trans hr)
  have hws : ∀ s, x'.manager.ws = some s → s < x.net.opened := by
    intro s hw
    rw [hs.quiet.ws] at hw
    cases h with
    | none => exact hx.ws s hw
    | some s' =>
        cases hw
        exact hx.held i s (hh s rfl)
  constructor
  · rw [ht.net]
    exact hx.fresh
  · rw [ht.net]
    exact hws
  · rw [ht.net]
    exact fun j s hj => hx.held j s (ht.holds.mp hj).2
  · rw [ht.net]
    exact fun j s message k hj => (ht.sends hj).elim (hws s) (hx.sends j s message k)
  · intro j t' hj
    rcases (htasks j t').mp hj with ⟨-, rfl⟩ | ⟨-, hold⟩
    · exact hs.behaves
    · exact hx.behave j t' hold
  · intro j t' hj hdone
    rcases (htasks j t').mp hj with ⟨-, rfl⟩ | ⟨-, hold⟩
    · cases t' with
      | asked q k => exact (hs.asks q k rfl).1
      | answered q a k => exact absurd rfl (hs.answers q a k)
      | done r => exact absurd rfl (hdone r)
    · exact hrun (hx.running j t' hold hdone)
  · intro hne
    cases h with
    | none => exact hrun (hx.loops (fun hnil => hne (hs.quiet.loops.trans hnil)))
    | some s =>
        obtain ⟨url, k, hk⟩ := hh s rfl
        exact hrun (hx.running i _ hk (fun r hr => by cases hr))
  · intro j t' hj
    rcases (htasks j t').mp hj with ⟨rfl, -⟩ | ⟨-, hold⟩
    · exact ht.started.2
    · exact (hx.started j t' hold).trans_le ht.started.1

theorem Phase.turn (hp : Phase x) (ht : Turn x x' i none) (hi : ∀ s, ¬ Holds x i s) : Phase x' := by
  have hq := ht.quiet
  have hunheld : (∀ j s, ¬ Holds x j s) → ∀ j s, ¬ Holds x' j s := fun hn j s hj => hn j s (ht.holds.mp hj).2
  cases hp with
  | idle hp =>
      refine .idle ⟨?_, ?_, ?_, hunheld hp.unheld, ?_⟩
      · rw [ht.net]
        exact hp.closed
      · rw [ht.net]
        exact hp.empty
      · rw [hq.loops]
        exact hp.ended
      · rw [ht.heard, ht.published, hq.callbacks]
        exact hp.heard
  | held l s hp =>
      have hne : l ≠ i := fun heq => hi s (heq ▸ (hp.holds l s).mpr ⟨rfl, rfl⟩)
      refine .held l s ⟨?_, ?_, ?_, fun j s' => ?_, ?_, ?_, fun j message k hj => ?_, ?_⟩
      · rw [ht.net]
        exact hp.only
      · rw [ht.net]
        exact hp.empty
      · rw [hq.loops]
        exact hp.ended
      · rw [ht.holds, hp.holds]
        exact ⟨fun hj => hj.2, fun hj => ⟨fun heq => hne (hj.1.symm.trans heq), hj⟩⟩
      · rw [ht.net]
        exact hp.unsent
      · rw [hq.ws]
        exact hp.ws
      · rcases ht.sends hj with hws | hold
        · exact hp.ws (hq.ws.symm.trans hws)
        · exact hp.sends j message k hold
      · rw [ht.heard, ht.published, hq.callbacks]
        exact hp.heard
  | live l s hp =>
      refine .live l s ⟨?_, ?_, ?_, ?_, hunheld hp.unheld, ?_, ?_⟩
      · rw [ht.net]
        exact hp.only
      · rw [ht.net]
        exact hp.empty
      · rw [hq.loops]
        exact hp.reads
      · rw [hq.loops]
        exact hp.ended
      · rw [hq.ws]
        exact hp.ws
      · rw [ht.heard, ht.published, hq.callbacks, ht.net]
        exact hp.heard

theorem Phase.take (hp : Phase x) (ht : Turn x x' i (some s)) (hi : Holds x i s) : Phase x' := by
  have hq := ht.quiet
  cases hp with
  | idle hp => exact absurd hi (hp.unheld i s)
  | live l s' hp => exact absurd hi (hp.unheld i s)
  | held i' s' hp =>
      obtain ⟨rfl, rfl⟩ := (hp.holds i s).mp hi
      have hloops : x'.manager.loops = x.manager.loops ++ [.created] := hq.loops
      have hws : x'.manager.ws = some s := hq.ws
      refine .live x.manager.loops.length s ⟨?_, ?_, ?_, fun j l' hj hne => ?_, fun j s' hj => ?_, hws, ?_⟩
      · rw [ht.net]
        exact hp.only
      · rw [ht.net]
        exact fun s' _ => hp.empty s'
      · rw [hloops]
        exact .inl (by simp)
      · rw [hloops, List.getElem?_append] at hj
        split at hj
        next hlt => exact hp.ended l' (List.mem_of_getElem? hj)
        next hge =>
          have hpos : 1 ≤ j - x.manager.loops.length := by omega
          rw [List.getElem?_eq_none hpos] at hj
          cases hj
      · obtain ⟨hne, hold⟩ := ht.holds.mp hj
        exact hne ((hp.holds j s').mp hold).1
      · have hcallbacks : x'.manager.callbacks = x.manager.callbacks := hq.callbacks
        rw [ht.heard, ht.published, ht.net, hcallbacks, hp.empty s, hp.heard]
        exact List.append_nil _

theorem network_cases (outcome : Outcome) (w : Network μ) (q : Request) :
    (handed q (network outcome w q).1 = none ∧ ((network outcome w q).2 = w ∨
        ∃ s message, q = .send s message ∧ (network outcome w q).2 = w.transmit s message)) ∨
      ∃ url, q = .open url ∧ outcome = .succeeds ∧ handed q (network outcome w q).1 = some w.opened ∧
        (network outcome w q).2 = w.openNext := by
  cases q with
  | acquire => cases outcome <;> exact .inl ⟨rfl, .inl rfl⟩
  | sleep n => exact .inl ⟨rfl, .inl rfl⟩
  | «open» url =>
      cases outcome with
      | succeeds => exact .inr ⟨url, rfl, rfl, rfl, rfl⟩
      | fails e => exact .inl ⟨rfl, .inl rfl⟩
  | send s message =>
      cases outcome with
      | fails e => exact .inl ⟨rfl, .inl rfl⟩
      | succeeds =>
          by_cases hopen : w.isOpen s = true
          · exact .inl ⟨rfl, .inr ⟨s, message, rfl, by simp only [network, hopen, if_true]⟩⟩
          · exact .inl ⟨rfl, .inl (by simp only [network, hopen]; rfl)⟩

/-- A request of task i has been answered. -/
structure Answered (x x' : State γ μ) (i : Nat) (h : Option SocketId) : Prop where
  manager : x'.manager = x.manager
  published : x'.published = x.published
  heard : x'.heard = x.heard
  started : x'.started = x.started
  task : ∃ q a k, x.pool.tasks i = some (.asked q k) ∧ handed q a = h ∧
    x'.pool.tasks = Function.update x.pool.tasks i (some (.answered q a k))

theorem handed_eq_some {q : Request} {a : Answer q} (h : handed q a = some s) :
    ∃ url, (⟨q, a⟩ : (q : Request) × Answer q) = ⟨.open url, .ok s⟩ := by
  cases q with
  | «open» url =>
      cases a with
      | error e => cases h
      | ok s' =>
          cases h
          exact ⟨url, rfl⟩
  | acquire | send s' message | sleep n => cases h

theorem Answered.holds (ha : Answered x x' i h) : Holds x' j s ↔ j = i ∧ h = some s ∨ Holds x j s := by
  obtain ⟨q, a, k, hask, rfl, htasks⟩ := ha.task
  by_cases hj : j = i
  · subst hj
    have hold : ¬ Holds x j s := by
      rintro ⟨url, k', hk'⟩
      rw [hask] at hk'
      cases hk'
    simp only [Holds, htasks, Function.update_self, Option.some.injEq, true_and]
    constructor
    · rintro ⟨url, k', hk'⟩
      cases hk'
      exact .inl rfl
    · rintro (hh | hh)
      · obtain ⟨url, heq⟩ := handed_eq_some hh
        cases heq
        exact ⟨url, k, rfl⟩
      · exact absurd hh hold
  · simp [Holds, htasks, hj]

theorem Known.answered (hx : Known x) (ha : Answered x x' i h) (hopened : x.net.opened ≤ x'.net.opened)
    (hfresh : ∀ s, x'.net.opened ≤ s → x'.net.isOpen s = false ∧ x'.net.sent s = [])
    (hh : ∀ s, h = some s → s < x'.net.opened) : Known x' := by
  have hholds : ∀ j s, Holds x' j s → s < x'.net.opened := by
    intro j s hj
    rcases ha.holds.mp hj with ⟨-, hs⟩ | hold
    · exact hh s hs
    · exact (hx.held j s hold).trans_le hopened
  obtain ⟨q, a, k, hask, -, htasks⟩ := ha.task
  have hold : ∀ j t, x'.pool.tasks j = some t → t = .answered q a k ∧ j = i ∨ x.pool.tasks j = some t := by
    intro j t hj
    rw [htasks] at hj
    by_cases hji : j = i
    · subst hji
      rw [Function.update_self, Option.some.injEq] at hj
      exact .inl ⟨hj.symm, rfl⟩
    · rw [Function.update_of_ne hji] at hj
      exact .inr hj
  refine ⟨hfresh, ?_, hholds, ?_, ?_, ?_, ?_, ?_⟩
  · rw [ha.manager]
    exact fun s hs => (hx.ws s hs).trans_le hopened
  · intro j s message k' hj
    rcases hold j _ hj with ⟨ht, -⟩ | hj
    · cases ht
    · exact (hx.sends j s message k' hj).trans_le hopened
  · intro j t hj
    rcases hold j t hj with ⟨rfl, -⟩ | hj
    · exact hx.behave i _ hask a
    · exact hx.behave j t hj
  · intro j t hj hdone
    rw [ha.manager]
    rcases hold j t hj with ⟨rfl, -⟩ | hj
    · exact hx.running i _ hask (fun r hr => by cases hr)
    · exact hx.running j t hj hdone
  · rw [ha.manager]
    exact hx.loops
  · intro j t hj
    rw [ha.started]
    rcases hold j t hj with ⟨-, rfl⟩ | hj
    · exact hx.started j _ hask
    · exact hx.started j t hj

theorem Phase.answered (hp : Phase x) (ha : Answered x x' i none) (hopen : x'.net.isOpen = x.net.isOpen)
    (hinbox : x'.net.inbox = x.net.inbox)
    (hsent : ∀ s, (∀ message k, x.pool.tasks i ≠ some (.asked (.send s message) k)) →
      x'.net.sent s = x.net.sent s) : Phase x' := by
  have hholds : ∀ j s, Holds x' j s ↔ Holds x j s := fun j s => by simp [ha.holds]
  cases hp with
  | idle hp =>
      refine .idle ⟨?_, ?_, ?_, fun j s hj => hp.unheld j s ((hholds j s).mp hj), ?_⟩
      · rw [hopen]
        exact hp.closed
      · rw [hinbox]
        exact hp.empty
      · rw [ha.manager]
        exact hp.ended
      · rw [ha.heard, ha.published, ha.manager]
        exact hp.heard
  | held l s hp =>
      refine .held l s ⟨?_, ?_, ?_, fun j s' => (hholds j s').trans (hp.holds j s'), ?_, ?_, ?_, ?_⟩
      · rw [hopen]
        exact hp.only
      · rw [hinbox]
        exact hp.empty
      · rw [ha.manager]
        exact hp.ended
      · rw [hsent s (hp.sends i)]
        exact hp.unsent
      · rw [ha.manager]
        exact hp.ws
      · obtain ⟨q, a, k, hask, -, htasks⟩ := ha.task
        intro j message k'
        rw [htasks]
        by_cases hj : j = i
        · subst hj
          simp
        · rw [Function.update_of_ne hj]
          exact hp.sends j message k'
      · rw [ha.heard, ha.published, ha.manager]
        exact hp.heard
  | live l s hp =>
      refine .live l s ⟨?_, ?_, ?_, ?_, fun j s' hj => hp.unheld j s' ((hholds j s').mp hj), ?_, ?_⟩
      · rw [hopen]
        exact hp.only
      · rw [hinbox]
        exact hp.empty
      · rw [ha.manager]
        exact hp.reads
      · rw [ha.manager]
        exact hp.ended
      · rw [ha.manager]
        exact hp.ws
      · rw [ha.heard, ha.published, ha.manager, hinbox]
        exact hp.heard

theorem Phase.idle_of_vacant (hp : Phase x) (hv : Vacant x) : Idle x := by
  obtain ⟨-, hended, hunheld⟩ := hv
  cases hp with
  | idle hp => exact hp
  | held l s hp => exact absurd ((hp.holds l s).mpr ⟨rfl, rfl⟩) (hunheld l s)
  | live l s hp =>
      rcases hp.reads with hl | hl
      · cases hended _ (List.mem_of_getElem? hl)
      · cases hended _ (List.mem_of_getElem? hl)

theorem Phase.opened (hx : Known x) (hp : Idle x) (ha : Answered x x' i (some x.net.opened))
    (hnet : x'.net = x.net.openNext) : Phase x' := by
  have hfresh := hx.fresh x.net.opened le_rfl
  refine .held i x.net.opened ⟨fun s' hs' => ?_, ?_, ?_, fun j s' => ?_, ?_, ?_, ?_, ?_⟩
  · by_contra hne
    rw [hnet, Network.openNext] at hs'
    simp only [Function.update_of_ne hne] at hs'
    rw [hp.closed s'] at hs'
    cases hs'
  · rw [hnet]
    exact hp.empty
  · rw [ha.manager]
    exact hp.ended
  · rw [ha.holds, Option.some.injEq]
    constructor
    · rintro (⟨hj, hs⟩ | hold)
      · exact ⟨hj, hs.symm⟩
      · exact absurd hold (hp.unheld j s')
    · rintro ⟨hj, hs⟩
      exact .inl ⟨hj, hs.symm⟩
  · rw [hnet]
    exact hfresh.2
  · rw [ha.manager]
    exact fun hws => lt_irrefl _ (hx.ws _ hws)
  · obtain ⟨q, a, k, hask, -, htasks⟩ := ha.task
    intro j message k'
    rw [htasks]
    by_cases hj : j = i
    · subst hj
      simp
    · rw [Function.update_of_ne hj]
      exact fun hsend => lt_irrefl _ (hx.sends j _ message k' hsend)
  · rw [ha.heard, ha.published, ha.manager]
    exact hp.heard

/-- Between the events of a run whose events all meet the condition. -/
structure Fine (x : State γ μ) : Prop where
  known : Known x
  phase : Phase x

theorem act_of_asked {q : Request} {k : Answer q → Operation γ Bool} (outcome : Outcome)
    (hask : x.pool.tasks i = some (.asked q k)) :
    Answered x (step x (.act i outcome)) i (handed q (network outcome x.net q).1) ∧
      (step x (.act i outcome)).net = (network outcome x.net q).2 := by
  have hstep : step x (.act i outcome) = { x with pool := x.pool.act (network outcome) i } := rfl
  rw [hstep, Pool.act_asked hask]
  exact ⟨⟨rfl, rfl, rfl, rfl, q, _, k, hask, rfl, rfl⟩, rfl⟩

theorem act_of_not_asked (outcome : Outcome) (hno : ∀ q k, x.pool.tasks i ≠ some (.asked q k)) :
    step x (.act i outcome) = x := by
  simp only [step, Pool.act_not_asked hno]

theorem Fine.act (hx : Fine x) {outcome : Outcome} (hm : Meets x (.act i outcome)) :
    Fine (step x (.act i outcome)) := by
  by_cases hask : ∃ q k, x.pool.tasks i = some (.asked q k)
  · obtain ⟨q, k, hask⟩ := hask
    obtain ⟨ha, hnet⟩ := act_of_asked outcome hask
    set x' := step x (.act i outcome)
    rcases network_cases outcome x.net q with ⟨hnone, hsame | ⟨s, message, rfl, hsend⟩⟩ | ⟨url, rfl, rfl, hsome, hopen⟩
    · rw [hnone] at ha
      rw [hsame] at hnet
      refine ⟨hx.known.answered ha (by rw [hnet]) ?_ (fun s hs => by cases hs), hx.phase.answered ha ?_ ?_ ?_⟩
      · rw [hnet]
        exact hx.known.fresh
      · rw [hnet]
      · rw [hnet]
      · exact fun s _ => by rw [hnet]
    · rw [hnone] at ha
      rw [hsend] at hnet
      have hsent : ∀ s', s' ≠ s → x'.net.sent s' = x.net.sent s' := by
        intro s' hne
        simp only [hnet, Network.transmit, Function.update_of_ne hne]
      have hlt := hx.known.sends i s message k hask
      refine ⟨hx.known.answered ha ?_ ?_ (fun s hs => by cases hs), hx.phase.answered ha ?_ ?_ ?_⟩
      · rw [hnet]
        exact le_rfl
      · intro s' hs'
        have hold : x.net.opened ≤ s' := by
          rw [hnet] at hs'
          exact hs'
        rw [hsent s' (hlt.trans_le hold).ne', hnet]
        exact hx.known.fresh s' hold
      · rw [hnet]
        rfl
      · rw [hnet]
        rfl
      · intro s' hs'
        exact hsent s' (fun heq => hs' message k (heq ▸ hask))
    · have hidle := hx.phase.idle_of_vacant (hm url k hask)
      rw [hsome] at ha
      rw [hopen] at hnet
      have hnext : x'.net.opened = x.net.opened + 1 := by rw [hnet]; rfl
      refine ⟨hx.known.answered ha (by omega) (fun s hs => ?_) (fun s hs => ?_), .opened hx.known hidle ha hnet⟩
      · have hold : x.net.opened ≤ s := by omega
        have hne : s ≠ x.net.opened := by omega
        rw [hnet, Network.openNext]
        simp only [Function.update_of_ne hne]
        exact hx.known.fresh s hold
      · cases hs
        rw [hnext]
        exact Nat.lt_succ_self _
  · rw [act_of_not_asked outcome (fun q k h => hask ⟨q, k, h⟩)]
    exact hx

theorem Fine.turn (hx : Fine x) (ht : Turn x x' i none) (hi : ∀ s, ¬ Holds x i s) : Fine x' :=
  ⟨hx.known.turn ht (fun s hs => by cases hs), hx.phase.turn ht hi⟩

theorem Fine.run (hx : Fine x) {p : Operation γ Bool} {m : Manager γ} (hq : Quiet x.manager m)
    (hp : Obeys none p m) : Fine ((x.setManager m).run p) := by
  have hs := advance_obeys hp
  have ht : Turn x ((x.setManager m).run p) x.started none :=
    ⟨rfl, rfl, rfl, ⟨Nat.le_succ _, Nat.lt_succ_self _⟩, _, ⟨hq.trans hs.quiet, hs.behaves, hs.asks, hs.answers⟩, rfl⟩
  refine hx.turn ht (fun s hs => ?_)
  obtain ⟨url, k, hk⟩ := hs
  exact lt_irrefl _ (hx.known.started _ _ hk)

theorem Fine.resume (hx : Fine x) (i : Nat) : Fine (step x (.resume i)) := by
  by_cases hans : ∃ q a k, x.pool.tasks i = some (.answered q a k)
  · obtain ⟨q, a, k, hans⟩ := hans
    have hrun : x.manager.running = true := hx.known.running i _ hans (fun r hr => by cases hr)
    have hs := advance_obeys (hx.known.behave i _ hans x.manager hrun)
    have hresume : step x (.resume i) = { x with pool := x.pool.start i (k a) } := by
      simp only [step, Pool.resume, hans]
    have ht : Turn x (step x (.resume i)) i (handed q a) := by
      rw [hresume]
      exact ⟨rfl, rfl, rfl, ⟨le_rfl, hx.known.started i _ hans⟩, _, hs, rfl⟩
    cases hh : handed q a with
    | none =>
        rw [hh] at ht
        refine hx.turn ht (fun s hs => ?_)
        obtain ⟨url, k', hk'⟩ := hs
        rw [hans] at hk'
        cases hk'
        cases hh
    | some s =>
        have hholds : Holds x i s := by
          obtain ⟨url, heq⟩ := handed_eq_some hh
          cases heq
          exact ⟨url, k, hans⟩
        rw [hh] at ht
        exact ⟨hx.known.turn ht (fun s' hs' => by cases hs'; exact hholds), hx.phase.take ht hholds⟩
  · have hresume : x.pool.resume i = x.pool := Pool.resume_not_answered (fun q a k ht => hans ⟨q, a, k, ht⟩)
    simp only [step, hresume]
    exact hx

/-- What the receive tasks and the exchange leave alone. -/
structure Aside (x x' : State γ μ) : Prop where
  tasks : x'.pool.tasks = x.pool.tasks
  started : x'.started = x.started
  ws : x'.manager.ws = x.manager.ws
  callbacks : x'.manager.callbacks = x.manager.callbacks
  running : x'.manager.running = x.manager.running
  length : x'.manager.loops.length = x.manager.loops.length
  opened : x'.net.opened = x.net.opened
  sent : x'.net.sent = x.net.sent
  closes : ∀ s, x'.net.isOpen s = true → x.net.isOpen s = true

theorem Aside.holds (ha : Aside x x') : Holds x' j s ↔ Holds x j s := by
  simp only [Holds, ha.tasks]

theorem Known.aside (hx : Known x) (ha : Aside x x') : Known x' := by
  constructor
  · rw [ha.opened, ha.sent]
    intro s hs
    obtain ⟨hclosed, hsent⟩ := hx.fresh s hs
    refine ⟨?_, hsent⟩
    by_contra hopen
    rw [ha.closes s (by simpa using hopen)] at hclosed
    cases hclosed
  · rw [ha.ws, ha.opened]
    exact hx.ws
  · rw [ha.opened]
    exact fun j s hj => hx.held j s (ha.holds.mp hj)
  · rw [ha.tasks, ha.opened]
    exact hx.sends
  · rw [ha.tasks]
    exact hx.behave
  · rw [ha.tasks, ha.running]
    exact hx.running
  · rw [ha.running]
    intro hne
    refine hx.loops (fun hnil => hne ?_)
    rw [← List.length_eq_zero_iff, ha.length, hnil, List.length_nil]
  · rw [ha.tasks, ha.started]
    exact hx.started

theorem Phase.still (hp : Phase x) (ha : Aside x x') (hloops : x'.manager.loops = x.manager.loops)
    (hinbox : x'.net.inbox = x.net.inbox) (hheard : x'.heard = x.heard) (hpublished : x'.published = x.published) :
    Phase x' := by
  cases hp with
  | idle hp =>
      refine .idle ⟨fun s => ?_, ?_, ?_, fun j s hj => hp.unheld j s (ha.holds.mp hj), ?_⟩
      · by_contra hopen
        rw [← Bool.not_eq_true] at hopen
        have hold := ha.closes s (not_not.mp hopen)
        rw [hp.closed s] at hold
        cases hold
      · rw [hinbox]
        exact hp.empty
      · rw [hloops]
        exact hp.ended
      · rw [hheard, hpublished, ha.callbacks]
        exact hp.heard
  | held i s hp =>
      refine .held i s ⟨fun s' hs' => hp.only s' (ha.closes s' hs'), ?_, ?_, fun j s' => ha.holds.trans (hp.holds j s'),
        ?_, ?_, ?_, ?_⟩
      · rw [hinbox]
        exact hp.empty
      · rw [hloops]
        exact hp.ended
      · rw [ha.sent]
        exact hp.unsent
      · rw [ha.ws]
        exact hp.ws
      · rw [ha.tasks]
        exact hp.sends
      · rw [hheard, hpublished, ha.callbacks]
        exact hp.heard
  | live l s hp =>
      refine .live l s ⟨fun s' hs' => hp.only s' (ha.closes s' hs'), ?_, ?_, ?_,
        fun j s hj => hp.unheld j s (ha.holds.mp hj), ?_, ?_⟩
      · rw [hinbox]
        exact hp.empty
      · rw [hloops]
        exact hp.reads
      · rw [hloops]
        exact hp.ended
      · rw [ha.ws]
        exact hp.ws
      · rw [hheard, hpublished, ha.callbacks, hinbox]
        exact hp.heard

theorem Phase.of_loop (hp : Phase x) {l : Nat} {loop : Loop} (hl : x.manager.loops[l]? = some loop)
    (hne : loop ≠ .ended) : ∃ s, Live x l s := by
  cases hp with
  | idle hp => exact absurd (hp.ended loop (List.mem_of_getElem? hl)) hne
  | held i s hp => exact absurd (hp.ended loop (List.mem_of_getElem? hl)) hne
  | live l' s hp =>
      by_cases heq : l = l'
      · subst heq
        exact ⟨s, hp⟩
      · exact absurd (hp.ended l loop hl heq) hne

theorem ended_set {x : State γ μ} {l : Nat} (hx : Live x l s) (loop : Loop) {j : Nat} {l' : Loop}
    (hj : (x.manager.loops.set l loop)[j]? = some l') (hne : j ≠ l) : l' = .ended := by
  rw [List.getElem?_set_ne (Ne.symm hne)] at hj
  exact hx.ended j l' hj hne

theorem Fine.begin (hx : Fine x) {l : Nat} (hl : x.manager.loops[l]? = some .created) :
    Fine (Connection.begin x l) := by
  obtain ⟨s, hlive⟩ := hx.phase.of_loop hl (by simp)
  have hfree : Loop.reading s ∉ x.manager.loops := by
    intro hmem
    obtain ⟨j, hj⟩ := List.mem_iff_getElem?.mp hmem
    by_cases hjl : j = l
    · subst hjl
      rw [hl] at hj
      cases hj
    · cases hlive.ended j _ hj hjl
  have hbegin : Connection.begin x l = x.setManager (x.manager.setLoop l (.reading s)) := by
    unfold Connection.begin
    rw [hlive.ws]
    simp only [hfree, if_false]
  have hlt := (List.getElem?_eq_some_iff.mp hl).1
  rw [hbegin]
  constructor
  · exact hx.known.aside ⟨rfl, rfl, rfl, rfl, rfl, List.length_set, rfl, rfl, fun _ h => h⟩
  · refine .live l s ⟨hlive.only, hlive.empty, .inr ?_, fun j l' hj => ended_set hlive _ hj, hlive.unheld, hlive.ws,
      hlive.heard⟩
    exact List.getElem?_set_self hlt

theorem Live.reading (h : Live x i s) {s' : SocketId} (hl : x.manager.loops[i]? = some (.reading s')) : s' = s := by
  rcases h.reads with hr | hr
  · rw [hl] at hr
    cases hr
  · rw [hl] at hr
    cases hr
    rfl

theorem Fine.receive (hx : Fine x) {l : Nat} {s : SocketId} (hl : x.manager.loops[l]? = some (.reading s)) :
    Fine (Connection.receive x l s) := by
  obtain ⟨s', hlive⟩ := hx.phase.of_loop hl (by simp)
  cases hlive.reading hl
  unfold Connection.receive
  split
  next => exact hx
  next message rest hinbox =>
    have hrun : x.manager.running = true := hx.known.loops (fun hnil => by simp [hnil] at hl)
    have hrun' : (x.setNet (x.net.receive s)).manager.running = true := hrun
    simp only [hrun', if_true]
    constructor
    · exact hx.known.aside ⟨rfl, rfl, rfl, rfl, rfl, rfl, rfl, rfl, fun _ h => h⟩
    · refine .live l s ⟨hlive.only, fun s' hne => ?_, hlive.reads, hlive.ended, hlive.unheld, hlive.ws, ?_⟩
      · have hold := hlive.empty s' hne
        simp only [State.net, State.setNet, Network.receive, Function.update_of_ne hne] at hold ⊢
        exact hold
      · have hheard := hlive.heard
        have hrest : (x.net.receive s).inbox s = rest := by
          simp only [Network.receive, Function.update_self, hinbox, List.tail_cons]
        have hcalls := calls_append x.manager.callbacks [message] rest
        rw [hinbox, ← List.singleton_append, hcalls, ← List.append_assoc] at hheard
        simp only [State.net, State.manager, State.setNet] at hheard hrest ⊢
        rw [hrest]
        exact hheard

theorem Fine.finish (hx : Fine x) {l : Nat} {s : SocketId} (hl : x.manager.loops[l]? = some (.reading s))
    (hclosed : x.net.isOpen s = false) (hempty : x.net.inbox s = []) :
    Fine (x.setManager (x.manager.endLoop l)) := by
  obtain ⟨s', hlive⟩ := hx.phase.of_loop hl (by simp)
  cases hlive.reading hl
  constructor
  · exact hx.known.aside ⟨rfl, rfl, rfl, rfl, rfl, List.length_set, rfl, rfl, fun _ h => h⟩
  · refine .idle ⟨fun s' => ?_, fun s' => ?_, fun l' hl' => ?_, hlive.unheld, ?_⟩
    · by_contra hopen
      have hs' := hlive.only s' (Bool.of_not_eq_false hopen)
      subst hs'
      exact hopen hclosed
    · by_cases hs' : s' = s
      · subst hs'
        exact hempty
      · exact hlive.empty s' hs'
    · obtain ⟨j, hj⟩ := List.mem_iff_getElem?.mp hl'
      by_cases hjl : j = l
      · subst hjl
        have hset : (x.manager.loops.set j .ended)[j]? = some .ended :=
          List.getElem?_set_self (List.getElem?_eq_some_iff.mp hl).1
        exact Option.some.inj (hj.symm.trans hset)
      · exact ended_set hlive _ hj hjl
    · have hheard := hlive.heard
      have hnil : calls x.manager.callbacks ([] : List μ) = [] := rfl
      rw [hempty, hnil, List.append_nil] at hheard
      exact hheard

theorem Fine.publish (hx : Fine x) (stream : Message) (message : μ) :
    Fine (step x (.publish stream message)) := by
  have haside : Aside x (step x (.publish stream message)) :=
    ⟨rfl, rfl, rfl, rfl, rfl, rfl, rfl, rfl, fun _ h => h⟩
  refine ⟨hx.known.aside haside, ?_⟩
  have hrange : ∀ s, x.net.carries stream s = true → s < x.net.opened := by
    intro s hs
    by_contra hge
    have hfresh := (hx.known.fresh s (not_lt.mp hge)).2
    simp [Network.carries, hfresh] at hs
  by_cases hsome : ∃ s, x.net.carries stream s = true
  · obtain ⟨s0, hs0⟩ := hsome
    have hopen : ∀ s, x.net.carries stream s = true → x.net.isOpen s = true := fun s hs =>
      (Bool.and_eq_true_iff.mp hs).1
    have hpublished : (step x (.publish stream message)).published = x.published ++ [message] := by
      refine if_pos (List.any_eq_true.mpr ⟨s0, ?_, hs0⟩)
      exact List.mem_range.mpr (hrange s0 hs0)
    cases hx.phase with
    | idle hp =>
        have hclosed := hp.closed s0
        rw [hopen s0 hs0] at hclosed
        cases hclosed
    | held i s hp =>
        cases hp.only s0 (hopen s0 hs0)
        simp [Network.carries, hp.unsent] at hs0
    | live l s hp =>
        obtain rfl : s = s0 := (hp.only s0 (hopen s0 hs0)).symm
        refine .live l s ⟨hp.only, fun s' hne => ?_, hp.reads, hp.ended, hp.unheld, hp.ws, ?_⟩
        · have hnot : x.net.carries stream s' ≠ true := fun h => hne (hp.only s' (hopen s' h))
          exact (if_neg hnot).trans (hp.empty s' hne)
        · have hinbox : (step x (.publish stream message)).net.inbox s = x.net.inbox s ++ [message] := if_pos hs0
          have hcalls : calls x.manager.callbacks (x.published ++ [message]) =
              calls x.manager.callbacks x.published ++ calls x.manager.callbacks [message] := calls_append _ _ _
          rw [hpublished, hinbox]
          show x.heard ++ calls x.manager.callbacks (x.net.inbox s ++ [message]) =
            calls x.manager.callbacks (x.published ++ [message])
          rw [hcalls, calls_append, ← List.append_assoc, hp.heard]
  · have hnone : ∀ s, x.net.carries stream s = false := fun s => Bool.not_eq_true _ ▸ fun h => hsome ⟨s, h⟩
    refine hx.phase.still haside rfl ?_ rfl ?_
    · funext s
      exact if_neg (by simp [hnone s])
    · exact if_neg (by simp [hnone])

theorem Fine.step (hx : Fine x) (e : Event μ) (hm : Meets x e) : Fine (step x e) := by
  cases e with
  | connect url => exact hx.run (.refl _) (obeys_connect _ url)
  | reconnect =>
      simp only [Connection.step]
      split
      · exact hx
      · exact hx.run ⟨rfl, rfl, rfl, id⟩ (obeys_reconnect _)
  | act i outcome => exact hx.act hm
  | resume i => exact hx.resume i
  | begin l =>
      simp only [Connection.step]
      split
      next hl => exact hx.begin hl
      next => exact hx
  | receive l =>
      simp only [Connection.step]
      split
      next s hl => exact hx.receive hl
      next => exact hx
  | finish l =>
      simp only [Connection.step]
      split
      next s hl =>
        split
        next hend => exact hx.finish hl hend.1 hend.2
        next => exact hx
      next => exact hx
  | publish stream message => exact hx.publish stream message
  | close s =>
      have haside : Aside x (Connection.step x (.close s)) := by
        refine ⟨rfl, rfl, rfl, rfl, rfl, rfl, rfl, rfl, fun s' hs' => ?_⟩
        by_cases hne : s' = s
        · subst hne
          simp [Connection.step, Network.close, State.setNet, State.net] at hs'
        · simpa [Connection.step, Network.close, State.setNet, State.net, hne] using hs'
      exact ⟨hx.known.aside haside, hx.phase.still haside rfl rfl rfl rfl⟩

theorem fine_start (m : Manager γ) : Fine (State.start m : State γ μ) := by
  have hnone : ∀ i s, ¬ Holds (State.start m : State γ μ) i s := by
    rintro i s ⟨url, k, hk⟩
    cases hk
  constructor
  · refine ⟨fun _ _ => ⟨rfl, rfl⟩, fun s hs => ?_, fun i s hi => absurd hi (hnone i s), fun i s message k hk => ?_,
      fun i t ht => ?_, fun i t ht => ?_, fun hne => absurd rfl hne, fun i t ht => ?_⟩
    · cases hs
    · cases hk
    · cases ht
    · cases ht
    · cases ht
  · exact .idle ⟨fun _ => rfl, fun _ => rfl, fun l hl => (by cases hl), hnone, rfl⟩

/-- In every run in which a connect attempt opens a socket only where there is none. -/
theorem oneLive_of_allMeet (m : Manager γ) (es : List (Event μ)) (hes : AllMeet step Meets (State.start m) es) :
    OneLive (es.foldl step (State.start m)) :=
  (foldl_of_allMeet (I := Fine) (fun _ e hx hm => hx.step e hm) (fine_start m) hes).phase.oneLive

/-- The task waits for websockets.connect. -/
def opening (x : State γ μ) (i : Nat) : Bool :=
  match x.pool.tasks i with
  | some (.asked (.open _) _) => true
  | _ => false

theorem meets_act_of_not_opening {outcome : Outcome} (h : opening x i = false) : Meets x (.act i outcome) := by
  cases outcome with
  | fails e => trivial
  | succeeds =>
      intro url k hk
      simp [opening, hk] at h

def ticker : Message := .params "SUBSCRIBE" ["btcusdt@ticker"] 1

def depth : Message := .params "SUBSCRIBE" ["btcusdt@depth"] 2

/-- A manager that remembers two subscriptions and has one callback. -/
def market : Manager Unit :=
  { url := "wss://stream", callbacks := [()], subscriptions := fun _ => [ticker, depth] }

/-- One connect call that succeeds, and a message. -/
def connected : List (Event Nat) :=
  [.connect none, .act 0 .succeeds, .resume 0, .begin 0, .act 0 .succeeds, .resume 0, .act 0 .succeeds, .resume 0,
   .publish ticker 7, .receive 0]

theorem oneLive_of_allMeet_connected : OneLive (connected.foldl step (State.start market)) := by
  refine oneLive_of_allMeet market connected ⟨trivial, fun url k _ => ⟨fun _ => rfl, fun l hl => ?_, ?_⟩, trivial,
    trivial, meets_act_of_not_opening (by decide +kernel), trivial, meets_act_of_not_opening (by decide +kernel),
    trivial, trivial, trivial, trivial⟩
  · cases hl
  · rintro i s ⟨url', k', hk'⟩
    by_cases hi : i = 0
    · subst hi
      cases hk'
    · have hnone : ((State.start market : State Unit Nat).run (connect none)).pool.tasks i = none :=
        Function.update_of_ne hi _ _
      exact absurd (hnone.symm.trans hk') (by simp)

/-- The first socket is closed before the subscriptions are sent. The connect
call waits to try again, and the end of the receive task starts a _reconnect. -/
def resubscriptionFails : List (Event Nat) :=
  [.connect none, .act 0 .succeeds, .resume 0, .begin 0, .close 0, .act 0 .succeeds, .resume 0,
   .finish 0, .reconnect, .act 1 .succeeds, .resume 1, .begin 1,
   .act 0 .succeeds, .resume 0, .act 0 .succeeds, .resume 0, .begin 2,
   .act 1 .succeeds, .resume 1, .act 1 .succeeds, .resume 1, .act 0 .succeeds, .resume 0, .act 0 .succeeds, .resume 0,
   .publish ticker 7, .receive 1, .receive 2]

theorem resubscriptionFails_twice :
    (resubscriptionFails.foldl step (State.start market)).published = [7] ∧
      (resubscriptionFails.foldl step (State.start market)).heard = [((), 7), ((), 7)] ∧
      ¬ OneLive (resubscriptionFails.foldl step (State.start market)) := by
  refine ⟨by decide +kernel, by decide +kernel, fun h => ?_⟩
  have hsame := h.sockets 1 2 (by decide +kernel) (by decide +kernel)
  cases hsame

end Utos.Streams.OneConnection
