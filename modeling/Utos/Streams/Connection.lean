import Utos.Coroutine.Pool
import Utos.Core.Exceptions
import Utos.Streams.Messages

namespace Utos.Streams.Connection

open Coroutine Core.Exceptions Messages

/-- The sockets are numbered in the order they were opened in. -/
abbrev SocketId := Nat

/-- What has become of a task that runs _receive_loop. -/
inductive Loop
  | created
  | reading (socket : SocketId)
  | ended
  deriving DecidableEq, Repr

structure RetryPolicy where
  maxRetries : Nat := 5
  retryable : Exn → Bool := fun _ => true

def RetryPolicy.shouldRetry (policy : RetryPolicy) (attempt : Nat) (e : Exn) : Bool :=
  decide (attempt < policy.maxRetries) && policy.retryable e

/-- A WebSocketManager with the receive tasks it has created and the number of
_reconnect tasks that have yet to start. -/
structure Manager (γ : Type) where
  url : String := ""
  retryPolicy : RetryPolicy := {}
  hasRateLimiter : Bool := false
  ws : Option SocketId := none
  callbacks : List γ := []
  running : Bool := false
  subscriptions : String → List Message := fun _ => []
  loops : List Loop := []
  reconnects : Nat := 0

inductive Request
  | acquire
  | open (url : String)
  | send (socket : SocketId) (message : Message)
  | sleep (attempt : Nat)

abbrev Answer : Request → Type
  | .acquire | .send .. => Except Exn Unit
  | .open _ => Except Exn SocketId
  | .sleep _ => Unit

variable {γ μ : Type}

abbrev Operation (γ α : Type) := Program (Manager γ) Request Answer Exn α

/-- self._ws = ws; self._receive_task = asyncio.create_task(self._receive_loop()) -/
def Manager.take (m : Manager γ) (ws : SocketId) : Manager γ :=
  { m with ws := some ws, loops := m.loops ++ [.created] }

def send (message : Message) : Operation γ Unit :=
  .get (fun m => match m.ws with
    | none => .raise (.other "RuntimeError" "WebSocket is not connected")
    | some ws => .await (.send ws message) id)

def acquire : Operation γ Unit :=
  .get (fun m => if m.hasRateLimiter then .await .acquire id else .ret ())

def resubscribe (targetUrl : String) : Operation γ Unit :=
  .get (fun m => .forEach (m.subscriptions targetUrl) send)

/-- The body of the try in connect. -/
def attemptOnce (targetUrl : String) : Operation γ Bool := do
  acquire
  let ws ← .await (.open targetUrl) id
  .modify (fun m => m.take ws)
  resubscribe targetUrl
  return true

/-- The loop of connect over the attempts that are left. -/
def attempts (policy : RetryPolicy) (targetUrl : String) : List Nat → Operation γ Bool
  | [] => .ret false
  | attempt :: rest =>
      .tryCatch (attemptOnce targetUrl) (fun e =>
        if policy.shouldRetry attempt e then
          .call (.sleep attempt) (fun _ => attempts policy targetUrl rest)
        else .ret false)

/-- url or self.url -/
def Manager.target (m : Manager γ) (url : Option String) : String :=
  match url with
  | none => m.url
  | some url => if url = "" then m.url else url

def connect (url : Option String) : Operation γ Bool :=
  .get (fun m =>
    if m.target url = "" then .raise (.other "ValueError" "WebSocket URL is required")
    else .put { m with url := m.target url, running := true }
      (attempts m.retryPolicy (m.target url) (List.range' 1 m.retryPolicy.maxRetries)))

def reconnect : Operation γ Bool :=
  .get (fun m => if m.running = false ∨ m.url = "" then .ret false else connect (some m.url))

/-- The network: the sockets that were opened, which of them are open, what the
exchange was sent over each, and the messages of the exchange not yet received. -/
structure Network (μ : Type) where
  opened : Nat := 0
  isOpen : SocketId → Bool := fun _ => false
  sent : SocketId → List Message := fun _ => []
  inbox : SocketId → List μ := fun _ => []

namespace Network

def openNext (w : Network μ) : Network μ :=
  { w with opened := w.opened + 1, isOpen := Function.update w.isOpen w.opened true }

def transmit (w : Network μ) (s : SocketId) (message : Message) : Network μ :=
  { w with sent := Function.update w.sent s (w.sent s ++ [message]) }

/-- The socket is open, and the stream was subscribed to over it. -/
def carries (w : Network μ) (stream : Message) (s : SocketId) : Bool := w.isOpen s && decide (stream ∈ w.sent s)

/-- The exchange sends a message of a stream over every connection that subscribed to it. -/
def publish (w : Network μ) (stream : Message) (message : μ) : Network μ :=
  { w with inbox := fun s => if w.carries stream s then w.inbox s ++ [message] else w.inbox s }

def close (w : Network μ) (s : SocketId) : Network μ := { w with isOpen := Function.update w.isOpen s false }

def receive (w : Network μ) (s : SocketId) : Network μ :=
  { w with inbox := Function.update w.inbox s (w.inbox s).tail }

end Network

inductive Outcome
  | succeeds
  | fails (e : Exn)

/-- The network deals with a request. A send needs an open socket. -/
def network (outcome : Outcome) : Handler (Network μ) Request Answer
  | w, .acquire => match outcome with
      | .succeeds => (.ok (), w)
      | .fails e => (.error e, w)
  | w, .open _ => match outcome with
      | .succeeds => (.ok w.opened, w.openNext)
      | .fails e => (.error e, w)
  | w, .send s message => match outcome with
      | .succeeds =>
          if w.isOpen s then (.ok (), w.transmit s message)
          else (.error (.other "ConnectionClosed" "no close frame received or sent"), w)
      | .fails e => (.error e, w)
  | w, .sleep _ => ((), w)

/-- The connect calls run as tasks of one pool, in the order they are started
in. Published are the messages that went over a socket, and heard is what
_dispatch called the callbacks with. -/
structure State (γ μ : Type) where
  pool : Pool (Manager γ) (Network μ) Request Answer Exn Bool
  started : Nat := 0
  published : List μ := []
  heard : List (γ × μ) := []

namespace State

def start (m : Manager γ) : State γ μ :=
  { pool := ⟨{ m with ws := none, running := false, loops := [], reconnects := 0 }, {}, fun _ => none⟩ }

def manager (x : State γ μ) : Manager γ := x.pool.store

def net (x : State γ μ) : Network μ := x.pool.world

def setManager (x : State γ μ) (m : Manager γ) : State γ μ := { x with pool := { x.pool with store := m } }

def setNet (x : State γ μ) (w : Network μ) : State γ μ := { x with pool := { x.pool with world := w } }

def run (x : State γ μ) (p : Operation γ Bool) : State γ μ :=
  { x with pool := x.pool.start x.started p, started := x.started + 1 }

end State

/-- Every callback is called with every message. -/
def calls (callbacks : List γ) (messages : List μ) : List (γ × μ) :=
  messages.flatMap (fun message => callbacks.map (fun callback => (callback, message)))

namespace Manager

def setLoop (m : Manager γ) (i : Nat) (loop : Loop) : Manager γ := { m with loops := m.loops.set i loop }

/-- The finally clause of _receive_loop. -/
def endLoop (m : Manager γ) (i : Nat) : Manager γ :=
  { m.setLoop i .ended with reconnects := if m.running then m.reconnects + 1 else m.reconnects }

end Manager

/-- A receive task starts. A socket that another task waits on refuses a second reader. -/
def begin (x : State γ μ) (i : Nat) : State γ μ :=
  match x.manager.ws with
  | none => x.setManager (x.manager.setLoop i .ended)
  | some s =>
      if .reading s ∈ x.manager.loops then x.setManager (x.manager.endLoop i)
      else x.setManager (x.manager.setLoop i (.reading s))

/-- A receive task gets the next message of its socket. -/
def receive (x : State γ μ) (i : Nat) (s : SocketId) : State γ μ :=
  match x.net.inbox s with
  | [] => x
  | message :: _ =>
      let x := x.setNet (x.net.receive s)
      if x.manager.running then { x with heard := x.heard ++ calls x.manager.callbacks [message] }
      else x.setManager (x.manager.endLoop i)

inductive Event (μ : Type)
  | connect (url : Option String)
  | reconnect
  | act (task : Nat) (outcome : Outcome)
  | resume (task : Nat)
  | begin (loop : Nat)
  | receive (loop : Nat)
  | finish (loop : Nat)
  | publish (stream : Message) (message : μ)
  | close (socket : SocketId)

/-- A receive task ends when its socket is closed and has no more messages. -/
def step (x : State γ μ) : Event μ → State γ μ
  | .connect url => x.run (Connection.connect url)
  | .reconnect =>
      if x.manager.reconnects = 0 then x
      else (x.setManager { x.manager with reconnects := x.manager.reconnects - 1 }).run Connection.reconnect
  | .act task outcome => { x with pool := x.pool.act (network outcome) task }
  | .resume task => { x with pool := x.pool.resume task }
  | .begin loop => match x.manager.loops[loop]? with
      | some .created => Connection.begin x loop
      | _ => x
  | .receive loop => match x.manager.loops[loop]? with
      | some (.reading s) => Connection.receive x loop s
      | _ => x
  | .finish loop => match x.manager.loops[loop]? with
      | some (.reading s) =>
          if x.net.isOpen s = false ∧ x.net.inbox s = [] then x.setManager (x.manager.endLoop loop) else x
      | _ => x
  | .publish stream message =>
      { x.setNet (x.net.publish stream message) with
        published := if (List.range x.net.opened).any (x.net.carries stream) then x.published ++ [message]
          else x.published }
  | .close socket => x.setNet (x.net.close socket)

end Utos.Streams.Connection
