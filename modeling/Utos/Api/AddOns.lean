import Utos.Api.Database
import Utos.Core.Security
import Utos.Coroutine.Flight
import Utos.Coroutine.Trace
import Utos.Grid.Engine

namespace Utos.Api.AddOns

open Core.DomainTypes Core.Exceptions Core.Security Coroutine Program Database
open Grid.Engine (TrailingConfig)

inductive SubscriptionTier
  | free
  | basic
  | pro
  | enterprise
  deriving DecidableEq, Repr

def SubscriptionTier.value : SubscriptionTier → String
  | free => "free"
  | basic => "basic"
  | pro => "pro"
  | enterprise => "enterprise"

structure PlanLimits where
  tier : String
  maxInstances : Nat
  maxExchangeAccounts : Nat
  maxSymbols : Nat
  maxWorkers : Nat
  maxCoinSelection : Nat
  featureFlags : List String

def freeLimits : PlanLimits :=
  { tier := "free", maxInstances := 1, maxExchangeAccounts := 1, maxSymbols := 2, maxWorkers := 1, maxCoinSelection := 2
    featureFlags := ["basic_grid"] }

/-- _DEFAULT_LIMITS -/
def defaultLimits : List (String × PlanLimits) :=
  [("free", freeLimits),
   ("starter", { tier := "starter", maxInstances := 3, maxExchangeAccounts := 2, maxSymbols := 10, maxWorkers := 3
                 maxCoinSelection := 5
                 featureFlags := ["basic_grid", "profit_lock", "trailing_profit", "notifications"] }),
   ("pro", { tier := "pro", maxInstances := 10, maxExchangeAccounts := 5, maxSymbols := 50, maxWorkers := 10
             maxCoinSelection := 15
             featureFlags := ["basic_grid", "profit_lock", "trailing_profit", "notifications", "automation",
               "advanced_risk", "priority_support"] }),
   ("enterprise", { tier := "enterprise", maxInstances := 100, maxExchangeAccounts := 20, maxSymbols := 500
                    maxWorkers := 100, maxCoinSelection := 999
                    featureFlags := ["basic_grid", "profit_lock", "trailing_profit", "notifications", "automation",
                      "advanced_risk", "priority_support", "custom_strategies", "dedicated_support", "white_label"] })]

/-- _DEFAULT_LIMITS.get(tier, _DEFAULT_LIMITS["free"]) -/
def limitsOf (tier : SubscriptionTier) : PlanLimits := (defaultLimits.lookup tier.value).getD freeLimits

/-- ADDON_PRICES -/
def addonPrices : List (String × ℚ) := [("trailing_profit", 19)]

/-- ADDON_DESCRIPTIONS -/
def addonDescriptions : List (String × String) :=
  [("trailing_profit", "Trailing Profit — automatically trail price upward and lock in profit on every buy fill.")]

/-- str.title: a letter that follows a letter is a small one, the others are capitals. -/
def titled : Bool → List Char → List Char
  | _, [] => []
  | afterLetter, c :: cs =>
      (if c.isAlpha then (if afterLetter then c.toLower else c.toUpper) else c) :: titled c.isAlpha cs

/-- key.replace("_", " ").title() -/
def addonName (key : String) : String :=
  String.ofList (titled false (key.toList.map (fun c => if c = '_' then ' ' else c)))

example : addonName "trailing_profit" = "Trailing Profit" := by decide

structure User where
  id : UUID
  subscriptionTier : SubscriptionTier

structure UserAddOn where
  userId : UUID
  addonKey : String
  isActive : Bool
  purchasedAt : ℚ
  expiresAt : Option ℚ
  deriving DecidableEq, Repr

/-- Time, the tiers of the users, the owners of the trading instances, and the table user_addons. -/
structure World where
  clock : ℚ := 0
  tiers : UUID → SubscriptionTier := fun _ => .free
  owners : UUID → Option UUID := fun _ => none
  addons : List UserAddOn := []

/-- What is awaited: the user of the request, the queries of the repository with the commit that follows
a write, and get_status of the process manager. -/
inductive Request
  | currentUser (id : UUID)
  | getByUserId (userId : UUID)
  | getByUserAndKey (userId : UUID) (addonKey : String)
  | create (addon : UserAddOn)
  | update (addon : UserAddOn)
  | getStatus (instanceId userId : UUID)

/-- With the add-on of a user comes the time. -/
abbrev Answer : Request → Type
  | .currentUser _ => Except Exn User
  | .getByUserId _ => Except Exn (List UserAddOn)
  | .getByUserAndKey .. => Except Exn (Option UserAddOn × ℚ)
  | .create _ => Except Exn UserAddOn
  | .update _ => Except Exn UserAddOn
  | .getStatus .. => Except Exn Unit

structure AddOnInfo where
  key : String
  name : String
  description : String
  price : ℚ
  isPurchased : Bool
  isActive : Bool
  deriving DecidableEq, Repr

structure Access where
  addonKey : String
  hasAccess : Bool
  viaTier : Bool
  viaAddon : Bool
  tier : SubscriptionTier
  deriving DecidableEq, Repr

inductive Reply
  | addons (addons : List AddOnInfo)
  | access (access : Access)
  | purchased (addon : UserAddOn)
  | configured (instanceId : UUID) (config : TrailingConfig)
  deriving DecidableEq, Repr

/-- A trailing profit that was configured, and the user as the request had found it. -/
structure Configuration where
  user : User
  instanceId : UUID
  config : TrailingConfig

/-- The trailing profits of the grid engine, if there is one. The other fields are read by no operation: the
trailing profits as they were configured, and the answers that were given. -/
structure Store where
  gridEngine : Option (UUID → Option TrailingConfig) := none
  configurations : List Configuration := []
  purchases : List UserAddOn := []
  accesses : List (UUID × Access) := []

abbrev Operation (α : Type) := Program Store Request Answer Failure α

/-- Of several add-ons with a key the last one counts. -/
def purchasedMap (addons : List UserAddOn) (key : String) : Option UserAddOn :=
  addons.reverse.find? (·.addonKey = key)

def addOnInfo (addons : List UserAddOn) (e : String × ℚ) : AddOnInfo :=
  { key := e.1, name := addonName e.1, description := (addonDescriptions.lookup e.1).getD "", price := e.2
    isPurchased := (purchasedMap addons e.1).isSome
    isActive := (purchasedMap addons e.1).any UserAddOn.isActive }

def listAddons (userId : UUID) : Operation Reply :=
  .bind (await (.currentUser userId) raising) (fun user =>
    .bind (await (.getByUserId user.id) raising) (fun addons =>
      .ret (.addons (addonPrices.map (addOnInfo addons)))))

/-- Whether the tier or an add-on of the user lets them use a feature. -/
def accessOf (user : User) (addonKey : String) (addon : Option UserAddOn) : Access :=
  let viaTier := decide (addonKey ∈ (limitsOf user.subscriptionTier).featureFlags)
  let viaAddon := addon.any UserAddOn.isActive
  { addonKey, viaTier, viaAddon, hasAccess := viaTier || viaAddon, tier := user.subscriptionTier }

def checkAddonAccess (userId : UUID) (addonKey : String) : Operation Reply :=
  .bind (await (.currentUser userId) raising) (fun user =>
    .bind (await (.getByUserAndKey user.id addonKey) raising) (fun found =>
      let access := accessOf user addonKey found.1
      .get (fun s => .put { s with accesses := s.accesses ++ [(user.id, access)] } (.ret (.access access)))))

/-- now + timedelta(days=duration_days) -/
def expiry (now : ℚ) (durationDays : Int) : Except Failure ℚ :=
  if durationDays < -999999999 ∨ 999999999 < durationDays then
    .error (.raised (.other "OverflowError" s!"days={durationDays}; must have magnitude <= 999999999"))
  else match datetime (now + durationDays * 86400) with
    | some expires => .ok expires
    | none => .error (.raised (.other "OverflowError" "date value out of range"))

def recordPurchase (addon : UserAddOn) : Operation Reply :=
  .get (fun s => .put { s with purchases := s.purchases ++ [addon] } (.ret (.purchased addon)))

def purchaseAddon (userId : UUID) (addonKey : String) (durationDays : Int) : Operation Reply :=
  .bind (await (.currentUser userId) raising) (fun user =>
    if addonKey ∉ addonPrices.map Prod.fst then .raise (.http 400 s!"Unknown add-on: {addonKey}")
    else .bind (await (.getByUserAndKey user.id addonKey) raising) (fun found =>
      if found.1.any UserAddOn.isActive then .raise (.http 409 s!"Add-on '{addonKey}' is already active")
      else .bind (.lift (expiry found.2 durationDays)) (fun expires => match found.1 with
        | some existing =>
            .bind (await (.update { existing with isActive := true, purchasedAt := found.2, expiresAt := some expires })
              raising) recordPurchase
        | none =>
            .bind (await (.create ⟨user.id, addonKey, true, found.2, some expires⟩) raising) recordPurchase)))

/-- The status that _handle_manager_exception gives the exceptions of the process manager. -/
def managerStatus : Exn → Nat
  | .other className _ =>
      if className = "TradingInstanceNotFound" ∨ className = "ExchangeAccountNotFound" then 404
      else if className = "AuthenticationError" then 400
      else if className = "AuthorizationError" then 403
      else if className = "SymbolNotSupported" ∨ className = "ConfigurationError" ∨ className = "StrategyError" then 400
      else 500
  | .invalidStateTransition .. | .validationError _ | .insufficientBalanceError _ => 400
  | .exchange .exchangeConnectionError _ _ _ => 502
  | .exchange .exchangeRateLimitError _ _ _ => 429
  | _ => 500

def handling {α : Type} : Except Exn α → Except Failure α
  | .ok a => .ok a
  | .error e => .error (.http (managerStatus e) e.message)

def trailingRefused : Failure :=
  .http 403
    "Trailing Profit requires a Starter+ plan or the Trailing Profit add-on. Purchase it from the Add-ons page."

def configureTrailingProfit (userId instanceId : UUID) (config : TrailingConfig) : Operation Reply :=
  .bind (await (.currentUser userId) raising) (fun user =>
    .bind (await (.getStatus instanceId user.id) handling) (fun () =>
      .bind (await (.getByUserAndKey user.id "trailing_profit") handling) (fun found =>
        if (accessOf user "trailing_profit" found.1).hasAccess = false then .raise trailingRefused
        else .get (fun s => match s.gridEngine with
          | none => .raise (.http 503 "Grid engine not initialized")
          | some trailing => .put { s with
                gridEngine := some (Function.update trailing instanceId (some config))
                configurations := s.configurations ++ [⟨user, instanceId, config⟩] }
              (.ret (.configured instanceId config))))))

def sameKey (a b : UserAddOn) : Bool := a.userId = b.userId ∧ a.addonKey = b.addonKey

/-- uq_user_addons_user_addon: an insert of a key that is there fails, and one that another session has not
committed yet is waited for, so that inserts take place with their commits. -/
def insert (w : World) (addon : UserAddOn) : Except Exn UserAddOn × World :=
  if w.addons.any (sameKey addon) then
    (.error (.other "IntegrityError" "UNIQUE constraint failed: user_addons.user_id, user_addons.addon_key"), w)
  else (.ok addon, { w with addons := w.addons ++ [addon] })

def replace (w : World) (addon : UserAddOn) : World :=
  { w with addons := w.addons.map (fun a => if sameKey addon a then addon else a) }

def answers (outage : Outage) : Handler World Request Answer
  | w, .currentUser id => (queried outage (.ok ⟨id, w.tiers id⟩), w)
  | w, .getByUserId userId => (queried outage (.ok (w.addons.filter (·.userId = userId))), w)
  | w, .getByUserAndKey userId addonKey =>
      (queried outage (do
        let addon ← scalarOneOrNone (w.addons.filter (fun a => a.userId = userId ∧ a.addonKey = addonKey))
        return (addon, w.clock)), w)
  | w, .create addon => written outage w (insert w addon)
  | w, .update addon => written outage w (.ok addon, replace w addon)
  | w, .getStatus instanceId userId =>
      (queried outage (match w.owners instanceId with
        | none => .error (.other "TradingInstanceNotFound" s!"Trading instance {instanceId} not found")
        | some owner =>
            if owner = userId then .ok ()
            else .error (authenticationError "Trading instance does not belong to user")), w)

abbrev Server := Pool Store World Request Answer Failure Reply

/-- The requests, each with a name of its own, and the answers they get; and what happens besides: time
passes, the tier of a user changes, an instance is created, the grid engine comes up with the process. -/
inductive Event
  | tick (seconds : ℚ≥0)
  | setTier (userId : UUID) (tier : SubscriptionTier)
  | created (instanceId userId : UUID)
  | engineUp
  | listAddons (caller : Nat) (userId : UUID)
  | checkAddonAccess (caller : Nat) (userId : UUID) (addonKey : String)
  | purchaseAddon (caller : Nat) (userId : UUID) (addonKey : String) (durationDays : Int)
  | configureTrailingProfit (caller : Nat) (userId instanceId : UUID) (config : TrailingConfig)
  | answer (caller : Nat) (outage : Outage)

def begin (N : Server) (caller : Nat) (p : Operation Reply) : Server :=
  if (N.tasks caller).isNone then N.start caller p else N

/-- An id is given to one instance only. -/
def World.created (w : World) (instanceId userId : UUID) : World :=
  if (w.owners instanceId).isNone then { w with owners := Function.update w.owners instanceId (some userId) } else w

def step (N : Server) : Event → Server
  | .tick seconds => { N with world := { N.world with clock := N.world.clock + seconds } }
  | .setTier userId tier => { N with world := { N.world with tiers := Function.update N.world.tiers userId tier } }
  | .created instanceId userId => { N with world := N.world.created instanceId userId }
  | .engineUp => { N with store := { N.store with gridEngine := some (fun _ => none) } }
  | .listAddons caller userId => begin N caller (AddOns.listAddons userId)
  | .checkAddonAccess caller userId addonKey => begin N caller (AddOns.checkAddonAccess userId addonKey)
  | .purchaseAddon caller userId addonKey days => begin N caller (AddOns.purchaseAddon userId addonKey days)
  | .configureTrailingProfit caller userId instanceId config =>
      begin N caller (AddOns.configureTrailingProfit userId instanceId config)
  | .answer caller outage => (N.act (answers outage) caller).resume caller

def opening : Server := { store := {}, world := {} }

/-- What the requests leave behind, whatever their order. -/
structure Entitled (w : World) (s : Store) : Prop where
  keys : w.addons.Pairwise (fun a b => sameKey a b = false)
  active : ∀ a ∈ w.addons, a.isActive = true ∧ a.addonKey ∈ addonPrices.map Prod.fst
  once : s.purchases.Pairwise (fun a b => sameKey a b = false)
  purchased : ∀ a ∈ s.purchases, a ∈ w.addons
  accesses : ∀ e ∈ s.accesses, e.2.viaAddon = true → ∃ a ∈ w.addons, a.userId = e.1 ∧ a.addonKey = e.2.addonKey
  configured : ∀ c ∈ s.configurations, w.owners c.instanceId = some c.user.id ∧
    (c.user.subscriptionTier = .pro ∨ c.user.subscriptionTier = .enterprise ∨
      ∃ a ∈ w.addons, a.userId = c.user.id ∧ a.addonKey = "trailing_profit")
  trailing : ∀ trailing, s.gridEngine = some trailing → ∀ instanceId config, trailing instanceId = some config →
    ∃ c ∈ s.configurations, c.instanceId = instanceId ∧ c.config = config

/-- What is asked of the database: no add-on is ever renewed. -/
def Sound : Request → Prop
  | .create addon => addon.isActive = true ∧ addon.addonKey ∈ addonPrices.map Prod.fst
  | .update _ => False
  | _ => True

/-- A request that waits after get_status has an instance of its user. -/
def flight : Flight Store World Request Answer (Multiset (UUID × UUID)) Failure Reply where
  holds q _ := Sound q
  inv m w s := Entitled w s ∧ ∀ c ∈ m, w.owners c.1 = some c.2
  answers h := ∃ outage, h = answers outage

variable {w : World} {s : Store} {F m : Multiset (UUID × UUID)} {α β : Type}

/-- No answer takes a row away, and rows are added by create alone. -/
theorem answers_addons (outage : Outage) {q : Request} (hq : Sound q) (w : World) :
    w.addons <+: (answers outage w q).2.addons ∧ ∀ a ∈ (answers outage w q).2.addons, a ∈ w.addons ∨ q = .create a := by
  cases q with
  | currentUser | getByUserId | getByUserAndKey | getStatus => exact ⟨List.prefix_rfl, fun a ha => .inl ha⟩
  | update addon => exact hq.elim
  | create addon =>
      have hinsert : w.addons <+: (insert w addon).2.addons ∧
          ∀ a ∈ (insert w addon).2.addons, a ∈ w.addons ∨ Request.create addon = .create a := by
        unfold insert
        split
        · exact ⟨List.prefix_rfl, fun a ha => .inl ha⟩
        · refine ⟨List.prefix_append _ _, fun a ha => ?_⟩
          rcases List.mem_append.mp ha with ha | ha
          · exact .inl ha
          · exact .inr (List.mem_singleton.mp ha ▸ rfl)
      rcases written_cases outage w (insert w addon) with hwritten | hwritten <;> simp only [answers, hwritten]
      · exact hinsert
      · exact ⟨List.prefix_rfl, fun a ha => .inl ha⟩

theorem answers_owners (outage : Outage) (q : Request) (w : World) : (answers outage w q).2.owners = w.owners := by
  cases q with
  | currentUser | getByUserId | getByUserAndKey | getStatus => rfl
  | update addon =>
      rcases written_cases outage w (.ok addon, replace w addon) with h | h <;> simp only [answers, h]
      rfl
  | create addon =>
      have hinsert : (insert w addon).2.owners = w.owners := by
        unfold insert
        split <;> rfl
      rcases written_cases outage w (insert w addon) with h | h <;> simp only [answers, h, hinsert]

theorem sameKey_comm (a b : UserAddOn) : sameKey a b = sameKey b a := by
  simp only [sameKey, eq_comm]

theorem insert_keys (hkeys : w.addons.Pairwise (fun a b => sameKey a b = false)) (addon : UserAddOn) :
    (insert w addon).2.addons.Pairwise (fun a b => sameKey a b = false) := by
  unfold insert
  split
  next => exact hkeys
  next hnew =>
    rw [Bool.not_eq_true, List.any_eq_false] at hnew
    refine List.pairwise_append.mpr ⟨hkeys, List.pairwise_singleton _ _, fun a ha b hb => ?_⟩
    rw [List.mem_singleton.mp hb, sameKey_comm]
    exact Bool.eq_false_iff.mpr (hnew a ha)

theorem answers_keys (hkeys : w.addons.Pairwise (fun a b => sameKey a b = false)) (outage : Outage) {q : Request}
    (hq : Sound q) : (answers outage w q).2.addons.Pairwise (fun a b => sameKey a b = false) := by
  cases q with
  | currentUser | getByUserId | getByUserAndKey | getStatus => exact hkeys
  | update addon => exact hq.elim
  | create addon =>
      rcases written_cases outage w (insert w addon) with h | h <;> simp only [answers, h]
      · exact insert_keys hkeys addon
      · exact hkeys

/-- The owner of an instance stays. -/
theorem created_owners {instanceId userId id owner : UUID} (howner : w.owners id = some owner) :
    (w.created instanceId userId).owners id = some owner := by
  unfold World.created
  split
  next hnew =>
    have hother : id ≠ instanceId := by
      rintro rfl
      rw [howner] at hnew
      cases hnew
    simpa only [Function.update_of_ne hother] using howner
  next => exact howner

namespace Entitled

/-- Of a world that has the rows it had, and the owners. -/
theorem grow (hs : Entitled w s) {w' : World} (hkeys : w'.addons.Pairwise (fun a b => sameKey a b = false))
    (hactive : ∀ a ∈ w'.addons, a.isActive = true ∧ a.addonKey ∈ addonPrices.map Prod.fst)
    (haddons : ∀ a ∈ w.addons, a ∈ w'.addons)
    (howners : ∀ instanceId userId, w.owners instanceId = some userId → w'.owners instanceId = some userId) :
    Entitled w' s := by
  refine ⟨hkeys, hactive, hs.once, fun a ha => haddons a (hs.purchased a ha), fun e he hvia => ?_, fun c hc => ?_, hs.trailing⟩
  · obtain ⟨a, ha, hrow⟩ := hs.accesses e he hvia
    exact ⟨a, haddons a ha, hrow⟩
  · obtain ⟨howner, hpro | henterprise | ⟨a, ha, hrow⟩⟩ := hs.configured c hc
    · exact ⟨howners _ _ howner, .inl hpro⟩
    · exact ⟨howners _ _ howner, .inr (.inl henterprise)⟩
    · exact ⟨howners _ _ howner, .inr (.inr ⟨a, haddons a ha, hrow⟩)⟩

theorem answered (hs : Entitled w s) (outage : Outage) {q : Request} (hq : Sound q) : Entitled (answers outage w q).2 s := by
  obtain ⟨hgrow, hrows⟩ := answers_addons outage hq w
  refine hs.grow (answers_keys hs.keys outage hq) (fun a ha => ?_) (fun a ha => hgrow.subset ha)
    (fun _ _ howner => (answers_owners outage q w).symm ▸ howner)
  rcases hrows a ha with ha | rfl
  · exact hs.active a ha
  · exact hq

theorem created (hs : Entitled w s) (instanceId userId : UUID) : Entitled (w.created instanceId userId) s := by
  have haddons : (w.created instanceId userId).addons = w.addons := by
    unfold World.created
    split <;> rfl
  refine hs.grow ?_ ?_ ?_ (fun _ _ howner => created_owners howner) <;> rw [haddons]
  · exact hs.keys
  · exact hs.active
  · exact fun a ha => ha

/-- A row that has just been inserted is no purchase that was answered before. -/
theorem purchase (hs : Entitled w s) {addon : UserAddOn} (hnew : w.addons.any (sameKey addon) = false) {w' : World}
    (hs' : Entitled w' s) (haddon : addon ∈ w'.addons) : Entitled w' { s with purchases := s.purchases ++ [addon] } := by
  rw [List.any_eq_false] at hnew
  refine ⟨hs'.keys, hs'.active, ?_, fun a ha => ?_, hs'.accesses, hs'.configured, hs'.trailing⟩
  · refine List.pairwise_append.mpr ⟨hs.once, List.pairwise_singleton _ _, fun a ha b hb => ?_⟩
    rw [List.mem_singleton.mp hb, sameKey_comm]
    exact Bool.eq_false_iff.mpr (hnew a (hs.purchased a ha))
  · rcases List.mem_append.mp ha with ha | ha
    · exact hs'.purchased a ha
    · exact List.mem_singleton.mp ha ▸ haddon

end Entitled

theorem mem_of_found {outage : Outage} {userId : UUID} {addonKey : String} {found : Option UserAddOn × ℚ}
    (hfound : (answers outage w (.getByUserAndKey userId addonKey)).1 = .ok found) {a : UserAddOn}
    (ha : found.1 = some a) : a ∈ w.addons ∧ a.userId = userId ∧ a.addonKey = addonKey := by
  have hquery := ok_of_queried hfound
  cases hrows : scalarOneOrNone (w.addons.filter (fun a => a.userId = userId ∧ a.addonKey = addonKey)) with
  | error e =>
      rw [hrows] at hquery
      cases hquery
  | ok addon =>
      rw [hrows] at hquery
      cases hquery
      cases ha
      have hmem : a ∈ w.addons.filter (fun a => a.userId = userId ∧ a.addonKey = addonKey) := by
        rw [scalarOneOrNone_ok hrows]
        exact List.mem_singleton_self a
      exact (List.mem_filter.mp hmem).imp_right of_decide_eq_true

theorem owner_of_status {outage : Outage} {instanceId userId : UUID}
    (hstatus : (answers outage w (.getStatus instanceId userId)).1 = .ok ()) : w.owners instanceId = some userId := by
  have hquery := ok_of_queried hstatus
  split at hquery
  · cases hquery
  next owner howner =>
    split at hquery
    next hown => exact hown ▸ howner
    next => cases hquery

/-- A row that was inserted, and the insert was heard of. -/
theorem created_ok {outage : Outage} {row addon : UserAddOn} (hok : (answers outage w (.create row)).1 = .ok addon) :
    w.addons.any (sameKey addon) = false ∧ addon ∈ (answers outage w (.create row)).2.addons := by
  simp only [answers, ok_of_written hok] at hok ⊢
  unfold insert at hok ⊢
  split at hok
  next => cases hok
  next hnew =>
    cases hok
    rw [if_neg hnew]
    exact ⟨Bool.eq_false_iff.mpr hnew, List.mem_append_right _ (List.mem_singleton_self _)⟩

theorem trailing_of_tier : ∀ tier : SubscriptionTier, "trailing_profit" ∈ (limitsOf tier).featureFlags →
    tier = .pro ∨ tier = .enterprise
  | .free, h => absurd h (by decide)
  | .basic, h => absurd h (by decide)
  | .pro, _ => .inl rfl
  | .enterprise, _ => .inr rfl

/-- A trailing profit is configured for the owner of the instance, who is let use it. -/
theorem Entitled.configure (hs : Entitled w s) {user : User} {instanceId : UUID}
    (howner : w.owners instanceId = some user.id) {addon : Option UserAddOn}
    (haddon : ∀ a, addon = some a → a ∈ w.addons ∧ a.userId = user.id ∧ a.addonKey = "trailing_profit")
    (haccess : (accessOf user "trailing_profit" addon).hasAccess = true) {trailing : UUID → Option TrailingConfig}
    (htrailing : s.gridEngine = some trailing) (config : TrailingConfig) :
    Entitled w { s with
      gridEngine := some (Function.update trailing instanceId (some config))
      configurations := s.configurations ++ [⟨user, instanceId, config⟩] } := by
  refine ⟨hs.keys, hs.active, hs.once, hs.purchased, hs.accesses, fun c hc => ?_, fun trailing' htrailing' id config' hid => ?_⟩
  · rcases List.mem_append.mp hc with hc | hc
    · exact hs.configured c hc
    · rw [List.mem_singleton.mp hc]
      refine ⟨howner, ?_⟩
      rcases (Bool.or_eq_true _ _).mp haccess with htier | hvia
      · exact (trailing_of_tier _ (of_decide_eq_true htier)).imp_right .inl
      · obtain ⟨a, ha, -⟩ := (Option.any_eq_true _ _).mp hvia
        exact .inr (.inr ⟨a, haddon a ha⟩)
  · cases htrailing'
    by_cases hsame : id = instanceId
    · subst hsame
      rw [Function.update_self] at hid
      exact ⟨_, List.mem_append_right _ (List.mem_singleton_self _), rfl, Option.some.inj hid⟩
    · rw [Function.update_of_ne hsame] at hid
      obtain ⟨c, hc, hconfig⟩ := hs.trailing trailing htrailing id config' hid
      exact ⟨c, List.mem_append_left _ hc, hconfig⟩

section Endpoints

/-- A request that is awaited, with what is known of the owners in the meantime. -/
theorem lands_await {q : Request} {as : Answer q → Except Failure α} {k : α → Operation β} (hq : Sound q)
    (hm : ∀ c ∈ m, w.owners c.1 = some c.2) (hinv : flight.inv F w s)
    (hgo : ∀ outage F w s a, Entitled w s → flight.inv F (answers outage w q).2 s → (∀ c ∈ m, w.owners c.1 = some c.2) →
      as (answers outage w q).1 = .ok a → Lands flight (k a) (fun _ => flight.inv) F (answers outage w q).2 s) :
    Lands flight (.bind (await q as) k) (fun _ => flight.inv) F w s := by
  refine ⟨m, hq, ⟨hinv.1, fun c hc => ?_⟩, ?_⟩
  · rcases Multiset.mem_add.mp hc with hc | hc
    · exact hm c hc
    · exact hinv.2 c hc
  · rintro h ⟨outage, rfl⟩ F' w' s' ⟨hs, howners⟩
    have hothers : flight.inv F' (answers outage w' q).2 s' := by
      refine ⟨hs.answered outage hq, fun c hc => ?_⟩
      rw [answers_owners]
      exact howners c (Multiset.mem_add.mpr (.inr hc))
    cases hanswer : as (answers outage w' q).1 with
    | error e =>
        simp only [hanswer, Program.lift, Program.bind]
        exact hothers
    | ok a =>
        simp only [hanswer, Program.lift, Program.bind]
        exact hgo outage F' w' s' a hs hothers (fun c hc => howners c (Multiset.mem_add.mpr (.inl hc))) hanswer

theorem ok_of_handling {x : Except Exn α} {a : α} (hok : handling x = .ok a) : x = .ok a := by
  cases x with
  | error e => cases hok
  | ok b => exact congrArg Except.ok (Except.ok.inj hok)

theorem no_owners (w : World) : ∀ c ∈ (0 : Multiset (UUID × UUID)), w.owners c.1 = some c.2 :=
  fun c hc => absurd hc (Multiset.notMem_zero c)

theorem lands_listAddons (hinv : flight.inv F w s) (userId : UUID) :
    Lands flight (listAddons userId) (fun _ => flight.inv) F w s := by
  refine lands_await trivial (no_owners w) hinv (fun _ F w s user _ hinv _ _ => ?_)
  exact lands_await trivial (no_owners _) hinv (fun _ _ _ _ _ _ hinv _ _ => hinv)

theorem lands_checkAddonAccess (hinv : flight.inv F w s) (userId : UUID) (addonKey : String) :
    Lands flight (checkAddonAccess userId addonKey) (fun _ => flight.inv) F w s := by
  refine lands_await trivial (no_owners w) hinv (fun _ F w s user _ hinv _ _ => ?_)
  refine lands_await trivial (no_owners _) hinv (fun outage F w s found hs hinv _ hok => ?_)
  refine ⟨⟨hinv.1.keys, hinv.1.active, hinv.1.once, hinv.1.purchased, fun e he hvia => ?_, hinv.1.configured,
    hinv.1.trailing⟩, hinv.2⟩
  rcases List.mem_append.mp he with he | he
  · exact hinv.1.accesses e he hvia
  · rw [List.mem_singleton.mp he] at hvia ⊢
    obtain ⟨a, ha, -⟩ := (Option.any_eq_true _ _).mp hvia
    exact ⟨a, mem_of_found (ok_of_raising hok) ha⟩

/-- A purchase that gets past the check finds no add-on, for all add-ons are active. -/
theorem lands_purchaseAddon (hinv : flight.inv F w s) (userId : UUID) (addonKey : String) (durationDays : Int) :
    Lands flight (purchaseAddon userId addonKey durationDays) (fun _ => flight.inv) F w s := by
  refine lands_await trivial (no_owners w) hinv (fun _ F w s user _ hinv _ _ => ?_)
  split
  next => exact hinv
  next hkey =>
    refine lands_await trivial (no_owners _) hinv (fun outage F w s found hs hinv _ hok => ?_)
    split
    next => exact hinv
    next hinactive =>
      cases hexpires : expiry found.2 durationDays with
      | error e => exact hinv
      | ok expires =>
          cases hfound : found.1 with
          | some existing =>
              have hactive := (hs.active existing (mem_of_found (ok_of_raising hok) hfound).1).1
              exact absurd (hfound ▸ hactive) hinactive
          | none =>
              simp only [Program.lift, Program.bind]
              refine lands_await ⟨rfl, not_not.mp hkey⟩ (no_owners _) hinv (fun outage F w s addon hs hinv _ hok => ?_)
              obtain ⟨hnew, hrow⟩ := created_ok (ok_of_raising hok)
              exact ⟨hs.purchase hnew hinv.1 hrow, hinv.2⟩

theorem lands_configureTrailingProfit (hinv : flight.inv F w s) (userId instanceId : UUID) (config : TrailingConfig) :
    Lands flight (configureTrailingProfit userId instanceId config) (fun _ => flight.inv) F w s := by
  refine lands_await trivial (no_owners w) hinv (fun _ F w s user _ hinv _ _ => ?_)
  refine lands_await trivial (no_owners _) hinv (fun outage F w s _ _ hinv _ hstatus => ?_)
  have howner : w.owners instanceId = some user.id := owner_of_status (ok_of_handling hstatus)
  refine lands_await (m := {(instanceId, user.id)}) trivial (fun c hc => ?_) hinv (fun outage F w s found hs hinv hm hok => ?_)
  · rw [Multiset.mem_singleton.mp hc]
    exact howner
  · split
    next => exact hinv
    next haccess =>
      cases hengine : s.gridEngine with
      | none =>
          simp only [Lands, hengine]
          exact hinv
      | some trailing =>
          simp only [Lands, hengine]
          exact ⟨hinv.1.configure (hm _ (Multiset.mem_singleton_self _)) (fun a ha => mem_of_found (ok_of_handling hok) ha)
            (Bool.not_eq_false _ ▸ haccess) hengine config, hinv.2⟩

end Endpoints

section Step

variable {N : Server} {p : Operation Reply} {own : Nat →₀ Multiset (UUID × UUID)}

theorem balanced_begin {caller : Nat} (hN : Balanced flight own N)
    (hp : ∀ F, flight.inv F N.world N.store → Lands flight p (fun _ => flight.inv) F N.world N.store) :
    ∃ own', Balanced flight own' (begin N caller p) := by
  simp only [begin, Option.isNone_iff_eq_none]
  split
  next hfresh => exact hN.start hfresh (fun F hinv => lands_mono (hp F hinv) (fun _ _ _ _ h => ⟨trivial, h⟩))
  next => exact ⟨own, hN⟩

theorem balanced_step (h : ∃ own, Balanced flight own N) (e : Event) : ∃ own, Balanced flight own (step N e) := by
  obtain ⟨own, hN⟩ := h
  cases e with
  | tick seconds =>
      exact ⟨own, hN.store (fun F hinv => ⟨hinv.1.grow hinv.1.keys hinv.1.active (fun a ha => ha) (fun _ _ h => h), hinv.2⟩)⟩
  | setTier userId tier =>
      exact ⟨own, hN.store (fun F hinv => ⟨hinv.1.grow hinv.1.keys hinv.1.active (fun a ha => ha) (fun _ _ h => h), hinv.2⟩)⟩
  | created instanceId userId =>
      refine ⟨own, hN.store (fun F hinv => ⟨hinv.1.created instanceId userId, fun c hc => ?_⟩)⟩
      exact created_owners (hinv.2 c hc)
  | engineUp =>
      refine ⟨own, hN.store (fun F hinv => ⟨?_, hinv.2⟩)⟩
      refine ⟨hinv.1.keys, hinv.1.active, hinv.1.once, hinv.1.purchased, hinv.1.accesses, hinv.1.configured, ?_⟩
      intro trailing htrailing instanceId config hconfig
      cases htrailing
      cases hconfig
  | listAddons caller userId => exact balanced_begin hN (fun F hinv => lands_listAddons hinv userId)
  | checkAddonAccess caller userId addonKey =>
      exact balanced_begin hN (fun F hinv => lands_checkAddonAccess hinv userId addonKey)
  | purchaseAddon caller userId addonKey days =>
      exact balanced_begin hN (fun F hinv => lands_purchaseAddon hinv userId addonKey days)
  | configureTrailingProfit caller userId instanceId config =>
      exact balanced_begin hN (fun F hinv => lands_configureTrailingProfit hinv userId instanceId config)
  | answer caller outage => exact hN.answer ⟨outage, rfl⟩

/-- What is in the table stays there: a task that waits waits for no update. -/
theorem addons_step (hN : Balanced flight own N) (e : Event) : N.world.addons <+: (step N e).world.addons := by
  have hbegin : ∀ caller p, (begin N caller p).world = N.world := by
    intro caller p
    unfold begin
    split <;> rfl
  cases e with
  | tick | setTier | engineUp => exact List.prefix_rfl
  | created instanceId userId =>
      simp only [step, World.created]
      split <;> exact List.prefix_rfl
  | listAddons | checkAddonAccess | purchaseAddon | configureTrailingProfit =>
      simp only [step, hbegin]
      exact List.prefix_rfl
  | answer caller outage =>
      simp only [step, Pool.resume_world]
      rcases hN.act_world (i := caller) (h := answers outage) with hworld | ⟨q, _, hq, hworld⟩
      · exact hworld ▸ List.prefix_rfl
      · exact hworld ▸ (answers_addons outage hq _).1

end Step

abbrev run (es : List Event) : Server := es.foldl step opening

theorem balanced_run (es : List Event) : ∃ own, Balanced flight own (run es) := by
  have hopening : flight.inv 0 opening.world opening.store := by
    refine ⟨⟨List.Pairwise.nil, ?_, List.Pairwise.nil, ?_, ?_, ?_, ?_⟩, no_owners _⟩
    · exact fun a ha => nomatch ha
    · exact fun a ha => nomatch ha
    · exact fun e he => nomatch he
    · exact fun c hc => nomatch hc
    · exact fun trailing htrailing => nomatch htrailing
  exact foldl_keeps (I := fun N => ∃ own, Balanced flight own N) (fun N e h => balanced_step h e) es
    ⟨0, Balanced.idle hopening⟩

theorem addons_run (es es' : List Event) : (run es).world.addons <+: (run (es ++ es')).world.addons := by
  induction es' using List.reverseRecOn with
  | nil => rw [List.append_nil]
  | append_singleton es' e ih =>
      obtain ⟨own, hN⟩ := balanced_run (es ++ es')
      have hrun : run (es ++ (es' ++ [e])) = step (run (es ++ es')) e := by
        rw [← List.append_assoc, run, List.foldl_concat]
      exact hrun ▸ ih.trans (addons_step hN e)

theorem addon_of_mem {addons : List UserAddOn} (hkeys : addons.Pairwise (fun a b => sameKey a b = false)) {a : UserAddOn}
    (ha : a ∈ addons) : addons.filter (fun b => b.userId = a.userId ∧ b.addonKey = a.addonKey) = [a] := by
  refine filter_of_mem hkeys ha (decide_eq_true ⟨rfl, rfl⟩) (fun b hb => ?_)
  obtain ⟨huser, hkey⟩ := of_decide_eq_true hb
  simp [sameKey, huser, hkey]

/-- What comes of requests about an add-on that is in the table, while the database works: it gives
access, and is not sold again. -/
structure Lasting (N : Server) (a : UserAddOn) : Prop where
  access : ∃ access, (Program.run (answers {}) (checkAddonAccess a.userId a.addonKey) N.store N.world).1 = .ok (.access access) ∧
    access.viaAddon = true ∧ access.hasAccess = true
  refused : ∀ durationDays, Program.run (answers {}) (purchaseAddon a.userId a.addonKey durationDays) N.store N.world =
    (.error (.http 409 s!"Add-on '{a.addonKey}' is already active"), N.store, N.world)
  configured : a.addonKey = "trailing_profit" → N.store.gridEngine.isSome → ∀ instanceId config,
    N.world.owners instanceId = some a.userId →
    (Program.run (answers {}) (configureTrailingProfit a.userId instanceId config) N.store N.world).1 =
      .ok (.configured instanceId config)

theorem lasting_of_mem {N : Server} (hs : Entitled N.world N.store) {a : UserAddOn} (ha : a ∈ N.world.addons) : Lasting N a := by
  obtain ⟨hactive, hkey⟩ := hs.active a ha
  have hfound : (answers {} N.world (.getByUserAndKey a.userId a.addonKey)).1 = .ok (some a, N.world.clock) := by
    simp only [answers, queried, addon_of_mem hs.keys ha]
    rfl
  have hvia : ∀ user : User, (accessOf user a.addonKey (some a)).hasAccess = true := by
    intro user
    simp only [accessOf, Option.any_some, hactive, Bool.or_true]
  refine ⟨⟨accessOf ⟨a.userId, N.world.tiers a.userId⟩ a.addonKey (some a), ?_, hactive, hvia _⟩, fun durationDays => ?_, ?_⟩
  · refine (congrArg Prod.fst (run_await (a := ⟨a.userId, N.world.tiers a.userId⟩) rfl)).trans ?_
    exact congrArg Prod.fst (run_await (congrArg raising hfound))
  · refine (run_await (a := ⟨a.userId, N.world.tiers a.userId⟩) rfl).trans ?_
    rw [if_neg (not_not.mpr hkey)]
    refine (run_await (congrArg raising hfound)).trans ?_
    simp only [Option.any_some, hactive, if_true, Program.run]
    rfl
  · intro htrailing hengine instanceId config howner
    have hstatus : (answers {} N.world (.getStatus instanceId a.userId)).1 = .ok () := by
      simp only [answers, queried, howner, if_true]
    obtain ⟨trailing, hengine⟩ := Option.isSome_iff_exists.mp hengine
    rw [htrailing] at hfound hvia
    refine (congrArg Prod.fst (run_await (a := ⟨a.userId, N.world.tiers a.userId⟩) rfl)).trans ?_
    refine (congrArg Prod.fst (run_await (congrArg handling hstatus))).trans ?_
    refine (congrArg Prod.fst (run_await (congrArg handling hfound))).trans ?_
    simp only [hvia, Bool.true_eq_false, if_false, Program.run, hengine]

/-- Whatever requests are made, and however they take turns: a user gets an add-on at most once, a
trailing profit is configured only for the owner of the instance and by a tier or an add-on that lets them,
and an add-on, once bought, lasts for good. -/
theorem entitled_run (es : List Event) : Entitled (run es).world (run es).store ∧
    ∀ a ∈ (run es).world.addons, ∀ es', Lasting (run (es ++ es')) a := by
  have hentitled : ∀ es, Entitled (run es).world (run es).store := by
    intro es
    obtain ⟨own, hN⟩ := balanced_run es
    exact hN.inv.1
  exact ⟨hentitled es, fun a ha es' => lasting_of_mem (hentitled _) ((addons_run es es').subset ha)⟩

end Utos.Api.AddOns
