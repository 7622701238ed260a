import Utos.Coroutine.Frame
import Utos.Process.Lifecycle
import Utos.Grid.Trading

namespace Utos.Process.Market

open Coroutine Program Core Core.DomainTypes Core.Exceptions Execution.Service Execution.Exchange StateMachine Manager
open Grid.Engine hiding Op

/-- What lies outside the workers: the exchange with its orders, which all
workers share, the tracker of each worker, and the answers that are still to come. -/
structure Market where
  orders : List (Order Owner) := []
  index : WorkerId → Option UUID × OrderId → Option Nat := fun _ _ => none
  fills : List (Order Owner × ℚ) := []
  asked : List Owner := []
  script : Nat → (q : Req) → Ans q
  oracle : Oracle
  clock : Nat := 0

namespace Market

/-- The execution engine of a worker with the exchange behind it. -/
def desk (m : Market) (w : WorkerId) : Desk Owner :=
  { orders := m.orders, index := m.index w, fills := m.fills, asked := m.asked }

def putDesk (m : Market) (w : WorkerId) (d : Desk Owner) : Market :=
  { m with orders := d.orders, index := Function.update m.index w d.index, fills := d.fills, asked := d.asked }

def tick (m : Market) : Market := { m with clock := m.clock + 1 }

/-- No order of the instance is live at the exchange. -/
def Flat (m : Market) (i : InstanceId) : Prop := ∀ o ∈ m.orders, o.owner.key.instanceId = i → o.state ≠ .live

instance (m : Market) (i : InstanceId) : Decidable (m.Flat i) :=
  inferInstanceAs (Decidable (∀ o ∈ m.orders, _))

@[simp] theorem putDesk_desk (m : Market) (w : WorkerId) (d : Desk Owner) : (m.putDesk w d).desk w = d := by
  simp [desk, putDesk]

@[simp] theorem tick_desk (m : Market) (w : WorkerId) : m.tick.desk w = m.desk w := rfl

end Market

def market : Handler Market Req Ans := fun m q => match q with
  | .exec w q => ((deskHandler m.oracle (m.desk w) q).1, (m.putDesk w (deskHandler m.oracle (m.desk w) q).2).tick)
  | q => (m.script m.clock q, m.tick)

variable {W : Type} {h : Handler W Req Ans} {α : Type} {w : WorkerId} {s : System} {ω : W} {m : Market}

/-- What answers the requests of the grid engine of a worker. -/
def gridHandler (h : Handler W Req Ans) (w : WorkerId) : Handler W (ExecReq Owner) (ExecAns Owner) :=
  fun ω q => h ω (.exec w q)

def withGrid (s : System) (w : WorkerId) (grid : GridEngine) : System :=
  s.setWorker w (fun x => { x with grid := grid })

theorem withGrid_self (s : System) (w : WorkerId) : withGrid s w (s.workers w).grid = s := (gridLens w).set_view s

@[simp] theorem withGrid_workers (s : System) (w : WorkerId) (grid : GridEngine) :
    (withGrid s w grid).workers w = { s.workers w with grid := grid } := by simp [withGrid, System.setWorker]

theorem wp_onGrid (p : Grid.Engine.Op α) {R : Except Exn α → System → W → Prop} :
    wp h (onGrid w p) R s ω ↔
      wp (gridHandler h w) p (fun r grid ω' => R r (withGrid s w grid) ω') (s.workers w).grid ω := by
  rw [onGrid, wp, run_relay]
  exact wp_zoom (gridLens w) p

/-- An operation of the grid engine runs at the market as it runs at the desk of its worker. -/
theorem run_onGrid (p : Grid.Engine.Op α) (s : System) (m : Market) :
    (run market (onGrid w p) s m).1 = (run handler p (s.workers w).grid ⟨m.desk w, m.oracle⟩).1 ∧
      (run market (onGrid w p) s m).2.1 =
        withGrid s w (run handler p (s.workers w).grid ⟨m.desk w, m.oracle⟩).2.1 ∧
      ⟨(run market (onGrid w p) s m).2.2.desk w, (run market (onGrid w p) s m).2.2.oracle⟩ =
        (run handler p (s.workers w).grid ⟨m.desk w, m.oracle⟩).2.2 := by
  have hsim := run_simulates (h := gridHandler market w) (H := handler)
    (fun m v => (⟨m.desk w, m.oracle⟩ : World Owner) = v) ?_ p (s.workers w).grid (w := m) rfl
  · have hwp : wp market (onGrid w p) (fun r s' m' => r = (run handler p (s.workers w).grid ⟨m.desk w, m.oracle⟩).1 ∧
        s' = withGrid s w (run handler p (s.workers w).grid ⟨m.desk w, m.oracle⟩).2.1 ∧
        ⟨m'.desk w, m'.oracle⟩ = (run handler p (s.workers w).grid ⟨m.desk w, m.oracle⟩).2.2) s m :=
      (wp_onGrid p).mpr ⟨hsim.1, congrArg (withGrid s w) hsim.2.1, hsim.2.2⟩
    exact hwp
  · rintro m v q rfl
    refine ⟨rfl, ?_⟩
    simp only [gridHandler, market, Market.tick_desk, Market.putDesk_desk]
    cases q with
    | placeOrder owner request =>
        simp only [deskHandler, handler]
        split <;> rfl
    | cancelOrder acct orderId =>
        simp only [deskHandler, handler]
        split <;> rfl

theorem wp_onGrid_market {p : Grid.Engine.Op α} {R : Except Exn α → System → Market → Prop}
    (hp : wp handler p (fun r grid v => ∀ m', m'.desk w = v.desk → m'.oracle = v.oracle → R r (withGrid s w grid) m')
      (s.workers w).grid ⟨m.desk w, m.oracle⟩) : wp market (onGrid w p) R s m := by
  obtain ⟨hr, hs, hm⟩ := run_onGrid (w := w) p s m
  rw [wp, hr, hs]
  exact hp _ (congrArg World.desk hm) (congrArg World.oracle hm)

open Grid.Calculator Grid.Trading Runs

def threeSteps : AveragingSteps where
  steps := [0, 1, 2].map (fun i => { stepNumber := i, dropRate := 1, takeProfit := 2 })
  distinct := by decide

/-- Nothing fails outside the exchange, and the price is 100 if it is known. -/
def answers (price : Except Exn ℚ) : (q : Req) → Ans q
  | .averaging _ => .ok threeSteps
  | q => smooth price q

/-- An exchange that accepts the first order and loses the connection on the others. -/
def firstOnly : Oracle where
  place request := if request.requestId = 0 then accepted "i"
    else { orders := [], registered := none, answer := .error (.timeoutError "timeout") }
  cancel _ := cancelSucceeds

def marketWith (price : Except Exn ℚ) (oracle : Oracle) : Market := { script := fun _ q => answers price q, oracle := oracle }

def readyBot : TradingInstance := (newInstance "a" (botArgs 1)).withStatus .ready

end Utos.Process.Market
