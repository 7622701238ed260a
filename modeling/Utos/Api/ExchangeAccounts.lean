import Utos.Api.Database
import Utos.Core.DomainTypes
import Utos.Core.Security
import Utos.Coroutine.Flight
import Utos.Coroutine.Trace

namespace Utos.Api.ExchangeAccounts

open Core.DomainTypes Core.Exceptions Core.Security Coroutine Program Database

inductive ExchangeName
  | binance
  | bybit
  | okx
  | kraken
  | kucoin
  deriving DecidableEq, Repr

def ExchangeName.value : ExchangeName → String
  | binance => "binance"
  | bybit => "bybit"
  | okx => "okx"
  | kraken => "kraken"
  | kucoin => "kucoin"

def ExchangeName.ofValue : String → Option ExchangeName
  | "binance" => some binance
  | "bybit" => some bybit
  | "okx" => some okx
  | "kraken" => some kraken
  | "kucoin" => some kucoin
  | _ => none

/-- ENCRYPTION_KEY of the environment, empty where it is not set, and settings.SECRET_KEY. -/
structure Environ where
  encryptionKey : String := ""
  secretKey : String

def base64Char (n : Nat) : Char :=
  "ABCDEFGHIJKLMNOPQRSTUVWXYZabcdefghijklmnopqrstuvwxyz0123456789-_".toList.getD n '='

/-- base64.urlsafe_b64encode -/
def urlsafeB64encode : List UInt8 → List Char
  | a :: b :: c :: rest =>
      let n := a.toNat * 65536 + b.toNat * 256 + c.toNat
      [base64Char (n / 262144), base64Char (n / 4096 % 64), base64Char (n / 64 % 64), base64Char (n % 64)] ++
        urlsafeB64encode rest
  | [a, b] =>
      let n := a.toNat * 1024 + b.toNat * 4
      [base64Char (n / 4096), base64Char (n / 64 % 64), base64Char (n % 64), '=']
  | [a] => [base64Char (a.toNat / 4), base64Char (a.toNat * 16 % 64), '=', '=']
  | [] => []

/-- raw.ljust(32, b"0") for the first 32 bytes of a text. -/
def keyBytes (secret : String) : List UInt8 :=
  let raw := secret.toUTF8.toList.take 32
  raw ++ List.replicate (32 - raw.length) 48

/-- The key that _get_fernet takes. -/
def getFernetKey (environ : Environ) : String :=
  if environ.encryptionKey = "" then String.ofList (urlsafeB64encode (keyBytes environ.secretKey))
  else environ.encryptionKey

/-- The key that CredentialManager takes. -/
def makeFernetKey (environ : Environ) (secretKey : Option String) : String :=
  if environ.encryptionKey = "" then
    String.ofList (urlsafeB64encode (keyBytes (match secretKey with
      | some key => if key = "" then environ.secretKey else key
      | none => environ.secretKey)))
  else environ.encryptionKey

example : urlsafeB64encode "secret?~".toUTF8.toList = "c2VjcmV0P34=".toList := by decide +kernel

/-- Fernet: which keys it takes, and encrypt and decrypt with a key; to encrypt, it draws. -/
structure Fernet where
  valid : String → Bool
  encrypt : String → Nat → String → String
  decrypt : String → String → Option String

/-- The settings, Fernet, and the exchanges that have an adapter. -/
structure Host where
  environ : Environ
  fernet : Fernet
  isRegistered : ExchangeName → Bool

structure ExchangeAccount where
  id : UUID
  userId : UUID
  exchangeName : ExchangeName
  accountName : String
  apiKeyEncrypted : String
  apiSecretEncrypted : String
  isTestnet : Bool
  isActive : Bool := true
  connectionStatus : String := "connected"
  deletedAt : Option ℚ := none
  deriving DecidableEq, Repr

/-- ExchangeAccountCreate. Nothing reads the passphrase. -/
structure ExchangeAccountCreate where
  exchangeName : String
  apiKey : String
  apiSecret : String
  passphrase : Option String := none
  isTestnet : Bool := false
  deriving DecidableEq, Repr

structure ExchangeCredentials where
  exchangeName : String
  apiKey : String
  apiSecret : String
  passphrase : Option String := none
  deriving DecidableEq, Repr

structure BalanceEntry where
  currency : String
  available : ℚ
  locked : ℚ
  total : ℚ
  deriving DecidableEq, Repr

structure World where
  clock : ℚ := 0
  accounts : List ExchangeAccount := []

/-- What is awaited: the queries, each write with its commit, and what is asked of an adapter. -/
inductive Request
  | findLive (userId : UUID) (exchangeName : String) (isTestnet : Bool)
  | insert (account : ExchangeAccount)
  | listLive (userId : UUID)
  | getLive (accountId userId : UUID)
  | softDelete (accountId : UUID)
  | getById (accountId : UUID)
  | initializeAdapter (exchangeName : ExchangeName) (isTestnet : Bool)
  | authenticate (isTestnet : Bool) (credentials : ExchangeCredentials)
  | getBalance
  | getOpenOrders (symbol : Option String)
  | disconnect

abbrev Answer : Request → Type
  | .findLive .. => Except Exn (Option ExchangeAccount)
  | .insert _ => Except Exn ExchangeAccount
  | .listLive _ => Except Exn (List ExchangeAccount)
  | .getLive .. => Except Exn (Option ExchangeAccount)
  | .softDelete _ => Except Exn Unit
  | .getById _ => Except Exn (Option ExchangeAccount)
  | .initializeAdapter .. => Except Exn Unit
  | .authenticate .. => Except Exn Bool
  | .getBalance => Except Exn (List BalanceEntry)
  | .getOpenOrders _ => Except Exn (List OrderResult)
  | .disconnect => Except Exn Unit

inductive Reply
  | account (account : ExchangeAccount)
  | accounts (accounts : List ExchangeAccount)
  | deleted
  | balances (balances : List BalanceEntry)
  | openOrders (orders : List OrderResult)
  | process

/-- The credentials that a user hands over. -/
structure Submission where
  userId : UUID
  data : ExchangeAccountCreate

/-- An adapter that is asked to authenticate for an account, at the request of a user or of a process
manager. -/
structure Session where
  caller : Option UUID
  accountId : UUID
  isTestnet : Bool
  credentials : ExchangeCredentials
  deriving DecidableEq

/-- What the requests have done. No request reads it. -/
structure Store where
  submitted : List Submission := []
  sessions : List Session := []
  deletions : List (UUID × UUID) := []

abbrev Operation (α : Type) := Program Store Request Answer Failure α

variable (host : Host)

def invalidKey : Exn := .other "ValueError" "Fernet key must be 32 url-safe base64-encoded bytes."

/-- _encrypt, with what Fernet draws. -/
def encrypt (draw : Nat) (value : String) : Except Exn String :=
  if host.fernet.valid (getFernetKey host.environ) then .ok (host.fernet.encrypt (getFernetKey host.environ) draw value)
  else .error invalidKey

/-- _decrypt -/
def decrypt (value : String) : Except Exn String :=
  if host.fernet.valid (getFernetKey host.environ) = false then .error invalidKey
  else match host.fernet.decrypt (getFernetKey host.environ) value with
    | some value => .ok value
    | none => .error (.other "InvalidToken" "")

/-- CredentialManager.decrypt, for the manager that CredentialManager() makes. -/
def credentialDecrypt (ciphertext : String) : Except Exn String :=
  match host.fernet.decrypt (makeFernetKey host.environ none) ciphertext with
  | some value => .ok value
  | none => .error (authenticationError "Invalid credential token")

def accountName (exchangeName : String) (isTestnet : Bool) : String :=
  exchangeName ++ "_" ++ if isTestnet then "testnet" else "mainnet"

def submit (submission : Submission) (p : Operation Reply) : Operation Reply :=
  .get (fun s => .put { s with submitted := s.submitted ++ [submission] } p)

/-- The row of an account; the database would not take a name that is none of an exchange. -/
def newAccount (id userId : UUID) (draws : Nat × Nat) (data : ExchangeAccountCreate) : Except Exn ExchangeAccount :=
  match ExchangeName.ofValue data.exchangeName with
  | none => .error (.other "DataError" s!"invalid input value for enum exchange_name: {data.exchangeName}")
  | some exchangeName => do
      let apiKeyEncrypted ← encrypt host draws.1 data.apiKey
      let apiSecretEncrypted ← encrypt host draws.2 data.apiSecret
      return { id, userId, exchangeName, accountName := accountName data.exchangeName data.isTestnet, apiKeyEncrypted
               apiSecretEncrypted, isTestnet := data.isTestnet }

def alreadyExists : Failure := .http 409 "Exchange account already exists for this exchange and testnet mode"

def createExchangeAccount (id userId : UUID) (draws : Nat × Nat) (data : ExchangeAccountCreate) : Operation Reply :=
  submit ⟨userId, data⟩ (.bind (await (.findLive userId data.exchangeName data.isTestnet) raising) (fun existing =>
    if existing.isSome then .raise alreadyExists
    else .bind (.lift (raising (newAccount host id userId draws data))) (fun account =>
      .bind (await (.insert account) raising) (fun account => .ret (.account account)))))

def listExchangeAccounts (userId : UUID) : Operation Reply :=
  .bind (await (.listLive userId) raising) (fun accounts => .ret (.accounts accounts))

def accountNotFound : Failure := .http 404 "Exchange account not found"

def deleteExchangeAccount (userId accountId : UUID) : Operation Reply :=
  .bind (await (.getLive accountId userId) raising) (fun
    | none => .raise accountNotFound
    | some account => .get (fun s => .put { s with deletions := s.deletions ++ [(userId, account.id)] }
        (.bind (await (.softDelete account.id) raising) (fun () => .ret .deleted))))

/-- adapter.authenticate -/
def authenticate {α : Type} (session : Session) (as : Except Exn Bool → Except Failure α) : Operation α :=
  .get (fun s => .put { s with sessions := s.sessions ++ [session] }
    (await (.authenticate session.isTestnet session.credentials) as))

/-- The exceptions of an endpoint become a 502. -/
def badGateway {α : Type} (what : String) : Except Exn α → Except Failure α
  | .ok a => .ok a
  | .error e => .error (.http 502 s!"Failed to fetch {what}: {e.message}")

def credentialsOf (account : ExchangeAccount) (decrypt : String → Except Exn String) : Except Exn ExchangeCredentials := do
  let apiKey ← decrypt account.apiKeyEncrypted
  let apiSecret ← decrypt account.apiSecretEncrypted
  return { exchangeName := account.exchangeName.value, apiKey, apiSecret }

/-- _get_adapter_for_account. Whether the adapter says that it has authenticated is not asked. -/
def getAdapterForAccount (what : String) (caller : UUID) (account : ExchangeAccount) : Operation Unit :=
  if host.isRegistered account.exchangeName = false then
    .lift (badGateway what (.error (.other "ValueError"
      s!"No adapter registered for exchange: {account.exchangeName.value}")))
  else .bind (await (.initializeAdapter account.exchangeName account.isTestnet) (badGateway what)) (fun () =>
    .bind (.lift (badGateway what (credentialsOf account (decrypt host)))) (fun credentials =>
      .bind (authenticate ⟨some caller, account.id, account.isTestnet, credentials⟩ (badGateway what)) (fun _ =>
        .ret ())))

def getAccountBalance (userId accountId : UUID) : Operation Reply :=
  .bind (await (.getLive accountId userId) raising) (fun
    | none => .raise accountNotFound
    | some account =>
        .bind (getAdapterForAccount host "balance" userId account) (fun () =>
          .bind (await .getBalance (badGateway "balance")) (fun balances =>
            .bind (await .disconnect (badGateway "balance")) (fun () =>
              .ret (.balances (balances.filter (fun b => 0 < b.total)))))))

def getAccountOrders (userId accountId : UUID) (symbol : Option String) : Operation Reply :=
  .bind (await (.getLive accountId userId) raising) (fun
    | none => .raise accountNotFound
    | some account =>
        .bind (getAdapterForAccount host "orders" userId account) (fun () =>
          .bind (await (.getOpenOrders symbol) (badGateway "orders")) (fun orders =>
            .bind (await .disconnect (badGateway "orders")) (fun () => .ret (.openOrders orders)))))

/-- _build_process_from_instance of a process manager, up to its adapter. -/
def buildProcess (accountId : UUID) : Operation Reply :=
  if host.fernet.valid (makeFernetKey host.environ none) = false then .raise (.raised invalidKey)
  else .bind (await (.getById accountId) raising) (fun
    | none => .raise (.raised (.other "ExchangeAccountNotFound" s!"Exchange account {accountId} not found"))
    | some account =>
        if account.isActive = false then .raise (.raised (.validationError "Exchange account is inactive"))
        else if host.isRegistered account.exchangeName = false then
          .raise (.raised (.other "ConfigurationError" s!"No adapter for {account.exchangeName.value}"))
        else match credentialsOf account (credentialDecrypt host) with
          | .error _ => .raise (.raised (authenticationError "Failed to decrypt exchange credentials"))
          | .ok credentials =>
              .bind (await (.initializeAdapter account.exchangeName account.isTestnet) raising) (fun () =>
                .bind (authenticate ⟨none, account.id, account.isTestnet, credentials⟩ raising) (fun
                  | true => .ret .process
                  | false => .raise (.raised (authenticationError "Exchange authentication failed")))))

/-- The account is not deleted, and for this exchange and testnet mode. -/
def ExchangeAccount.live (a : ExchangeAccount) (userId : UUID) (exchangeName : String) (isTestnet : Bool) : Bool :=
  a.userId = userId ∧ a.exchangeName.value = exchangeName ∧ a.isTestnet = isTestnet ∧ a.deletedAt = none

/-- Ids are unique, and nothing else is. -/
def insertAccount (w : World) (account : ExchangeAccount) : Except Exn ExchangeAccount × World :=
  if w.accounts.any (·.id = account.id) then
    (.error (.other "IntegrityError" "UNIQUE constraint failed: exchange_accounts.id"), w)
  else (.ok account, { w with accounts := w.accounts ++ [account] })

def markDeleted (w : World) (accountId : UUID) : World :=
  { w with accounts := w.accounts.map (fun a => if a.id = accountId then { a with deletedAt := some w.clock } else a) }

/-- What an exchange answers. -/
structure Exchange where
  initialized : Except Exn Unit := .ok ()
  authenticated : Except Exn Bool := .ok true
  balance : Except Exn (List BalanceEntry) := .ok []
  openOrders : Except Exn (List OrderResult) := .ok []
  disconnected : Except Exn Unit := .ok ()

def answers (outage : Outage) (exchange : Exchange) : Handler World Request Answer
  | w, .findLive userId exchangeName isTestnet =>
      (queried outage (match ExchangeName.ofValue exchangeName with
        | none => .error (.other "DataError" s!"invalid input value for enum exchange_name: {exchangeName}")
        | some _ => scalarOneOrNone (w.accounts.filter (·.live userId exchangeName isTestnet))), w)
  | w, .insert account => written outage w (insertAccount w account)
  | w, .listLive userId => (queried outage (.ok (w.accounts.filter (fun a => a.userId = userId ∧ a.deletedAt = none))), w)
  | w, .getLive accountId userId =>
      (queried outage (scalarOneOrNone
        (w.accounts.filter (fun a => a.id = accountId ∧ a.userId = userId ∧ a.deletedAt = none))), w)
  | w, .softDelete accountId => written outage w (.ok (), markDeleted w accountId)
  | w, .getById accountId => (queried outage (.ok (w.accounts.find? (·.id = accountId))), w)
  | w, .initializeAdapter .. => (exchange.initialized, w)
  | w, .authenticate .. => (exchange.authenticated, w)
  | w, .getBalance => (exchange.balance, w)
  | w, .getOpenOrders _ => (exchange.openOrders, w)
  | w, .disconnect => (exchange.disconnected, w)

abbrev Server := Pool Store World Request Answer Failure Reply

/-- The requests, each with a name of its own, and their answers; and time that passes. A new account
draws an id, and what encrypts its key and its secret. -/
inductive Event
  | tick (seconds : ℚ≥0)
  | create (caller : Nat) (id userId : UUID) (draws : Nat × Nat) (data : ExchangeAccountCreate)
  | list (caller : Nat) (userId : UUID)
  | delete (caller : Nat) (userId accountId : UUID)
  | getBalance (caller : Nat) (userId accountId : UUID)
  | getOrders (caller : Nat) (userId accountId : UUID) (symbol : Option String)
  | buildProcess (caller : Nat) (accountId : UUID)
  | answer (caller : Nat) (outage : Outage) (exchange : Exchange)

def begin (N : Server) (caller : Nat) (p : Operation Reply) : Server :=
  if (N.tasks caller).isNone then N.start caller p else N

def step (N : Server) : Event → Server
  | .tick seconds => { N with world := { N.world with clock := N.world.clock + seconds } }
  | .create caller id userId draws data => begin N caller (createExchangeAccount host id userId draws data)
  | .list caller userId => begin N caller (listExchangeAccounts userId)
  | .delete caller userId accountId => begin N caller (deleteExchangeAccount userId accountId)
  | .getBalance caller userId accountId => begin N caller (getAccountBalance host userId accountId)
  | .getOrders caller userId accountId symbol => begin N caller (getAccountOrders host userId accountId symbol)
  | .buildProcess caller accountId => begin N caller (ExchangeAccounts.buildProcess host accountId)
  | .answer caller outage exchange => (N.act (answers outage exchange) caller).resume caller

def opening : Server := { store := {}, world := {} }

abbrev run (es : List Event) : Server := es.foldl (step host) opening

/-- Fernet decrypts with a key what it has encrypted with it. -/
def Fernet.RoundTrips (fernet : Fernet) : Prop :=
  ∀ key draw value, fernet.valid key = true → fernet.decrypt key (fernet.encrypt key draw value) = some value

/-- The credentials that are made of a submission. -/
def Submission.credentials (submission : Submission) : ExchangeCredentials :=
  { exchangeName := submission.data.exchangeName, apiKey := submission.data.apiKey, apiSecret := submission.data.apiSecret }

def HasRow (w : World) (accountId userId : UUID) : Prop := ∃ a ∈ w.accounts, a.id = accountId ∧ a.userId = userId

/-- A row is of the user who has submitted it, and decrypts to what they have submitted. -/
structure Stores (a : ExchangeAccount) (submission : Submission) : Prop where
  owner : a.userId = submission.userId
  testnet : a.isTestnet = submission.data.isTestnet
  active : a.isActive = true
  credentials : credentialsOf a (decrypt host) = .ok submission.credentials

/-- A session has the credentials of the account, as its user has submitted them, and asked for by nobody else. -/
structure Opens (w : World) (session : Session) (submission : Submission) : Prop where
  row : HasRow w session.accountId submission.userId
  caller : ∀ userId ∈ session.caller, userId = submission.userId
  testnet : session.isTestnet = submission.data.isTestnet
  credentials : session.credentials = submission.credentials

/-- What the requests leave behind, whatever their order. -/
structure Vaulted (w : World) (s : Store) : Prop where
  ids : w.accounts.Pairwise (fun a b => a.id ≠ b.id)
  stored : ∀ a ∈ w.accounts, ∃ submission ∈ s.submitted, Stores host a submission
  sessions : ∀ session ∈ s.sessions, ∃ submission ∈ s.submitted, Opens w session submission
  deleted : ∀ a ∈ w.accounts, a.deletedAt.isSome → (a.userId, a.id) ∈ s.deletions

/-- What a task knows while it waits. -/
inductive Fact
  | submitted (submission : Submission)
  | row (accountId userId : UUID)
  | deleting (userId accountId : UUID)

def Fact.Known (w : World) (s : Store) : Fact → Prop
  | .submitted submission => submission ∈ s.submitted
  | .row accountId userId => HasRow w accountId userId
  | .deleting userId accountId => (userId, accountId) ∈ s.deletions

/-- What has to be known for a write. -/
def Warranted : Request → Multiset Fact → Prop
  | .insert a, m => a.deletedAt = none ∧ ∃ submission, .submitted submission ∈ m ∧ Stores host a submission
  | .softDelete accountId, m => ∃ userId, .row accountId userId ∈ m ∧ .deleting userId accountId ∈ m
  | _, _ => True

def flight : Flight Store World Request Answer (Multiset Fact) Failure Reply where
  holds := Warranted host
  inv m w s := Vaulted host w s ∧ ∀ f ∈ m, f.Known w s
  answers h := ∃ outage exchange, h = answers outage exchange

variable {host} {w : World} {s : Store} {F m : Multiset Fact} {α β : Type}

theorem value_ofValue {value : String} {exchangeName : ExchangeName}
    (hname : ExchangeName.ofValue value = some exchangeName) : exchangeName.value = value := by
  unfold ExchangeName.ofValue at hname
  split at hname
  all_goals cases hname
  all_goals rfl

theorem Fact.Known.grow {w' : World} {s' : Store} {f : Fact} (hf : f.Known w s)
    (hrows : ∀ accountId userId, HasRow w accountId userId → HasRow w' accountId userId)
    (hsubmitted : s.submitted ⊆ s'.submitted) (hdeletions : s.deletions ⊆ s'.deletions) : f.Known w' s' := by
  cases f with
  | submitted submission => exact hsubmitted hf
  | row accountId userId => exact hrows accountId userId hf
  | deleting userId accountId => exact hdeletions hf

section Answers

theorem insertAccount_rows (w : World) (account : ExchangeAccount) :
    w.accounts <+: (insertAccount w account).2.accounts ∧
      ∀ a ∈ (insertAccount w account).2.accounts, a ∈ w.accounts ∨ a = account := by
  unfold insertAccount
  split
  · exact ⟨List.prefix_rfl, fun a ha => .inl ha⟩
  · refine ⟨List.prefix_append _ _, fun a ha => ?_⟩
    rcases List.mem_append.mp ha with ha | ha
    · exact .inl ha
    · exact .inr (List.mem_singleton.mp ha)

theorem insertAccount_ids (hids : w.accounts.Pairwise (fun a b => a.id ≠ b.id)) (account : ExchangeAccount) :
    (insertAccount w account).2.accounts.Pairwise (fun a b => a.id ≠ b.id) := by
  unfold insertAccount
  split
  next => exact hids
  next hnew =>
    rw [Bool.not_eq_true, List.any_eq_false] at hnew
    refine List.pairwise_append.mpr ⟨hids, List.pairwise_singleton _ _, fun a ha b hb => ?_⟩
    rw [List.mem_singleton.mp hb]
    exact fun hsame => hnew a ha (decide_eq_true hsame)

theorem hasRow_markDeleted {accountId id userId : UUID} (hrow : HasRow w id userId) :
    HasRow (markDeleted w accountId) id userId := by
  obtain ⟨a, ha, hid, huser⟩ := hrow
  refine ⟨_, List.mem_map_of_mem ha, ?_, ?_⟩ <;> split <;> assumption

/-- No answer takes a row away. -/
theorem answers_rows (outage : Outage) (exchange : Exchange) (q : Request) {accountId userId : UUID}
    (hrow : HasRow w accountId userId) : HasRow (answers outage exchange w q).2 accountId userId := by
  cases q with
  | findLive | listLive | getLive | getById | initializeAdapter | authenticate | getBalance | getOpenOrders | disconnect =>
      exact hrow
  | insert account =>
      rcases written_cases outage w (insertAccount w account) with h | h <;> simp only [answers, h]
      · obtain ⟨a, ha, hkey⟩ := hrow
        exact ⟨a, (insertAccount_rows w account).1.subset ha, hkey⟩
      · exact hrow
  | softDelete id =>
      rcases written_cases outage w (.ok (), markDeleted w id) with h | h <;> simp only [answers, h]
      · exact hasRow_markDeleted hrow
      · exact hrow

/-- Ids tell the rows apart. -/
theorem unique_of_ids (hids : w.accounts.Pairwise (fun a b => a.id ≠ b.id)) {a b : ExchangeAccount} (ha : a ∈ w.accounts)
    (hb : b ∈ w.accounts) (hid : a.id = b.id) : a = b := by
  have hsymm : Std.Symm (fun a b : ExchangeAccount => a.id ≠ b.id) := ⟨fun _ _ h => h.symm⟩
  by_contra hne
  exact hids.forall ha hb hne hid

theorem stores_markDeleted {a : ExchangeAccount} {submission : Submission} (hstores : Stores host a submission)
    (deletedAt : Option ℚ) : Stores host { a with deletedAt } submission :=
  ⟨hstores.owner, hstores.testnet, hstores.active, hstores.credentials⟩

namespace Vaulted

/-- Of a world that has the rows it had, and of a store that has grown. -/
theorem grow (hs : Vaulted host w s) {w' : World} {s' : Store} (hids : w'.accounts.Pairwise (fun a b => a.id ≠ b.id))
    (hstored : ∀ a ∈ w'.accounts, ∃ submission ∈ s'.submitted, Stores host a submission)
    (hdeleted : ∀ a ∈ w'.accounts, a.deletedAt.isSome → (a.userId, a.id) ∈ s'.deletions)
    (hrows : ∀ accountId userId, HasRow w accountId userId → HasRow w' accountId userId)
    (hsubmitted : s.submitted ⊆ s'.submitted) (hsessions : s'.sessions = s.sessions) : Vaulted host w' s' := by
  refine ⟨hids, hstored, fun session hsession => ?_, hdeleted⟩
  obtain ⟨submission, hmem, hopens⟩ := hs.sessions session (hsessions ▸ hsession)
  exact ⟨submission, hsubmitted hmem, hrows _ _ hopens.row, hopens.caller, hopens.testnet, hopens.credentials⟩

theorem store (hs : Vaulted host w s) {s' : Store} (hsubmitted : s.submitted ⊆ s'.submitted)
    (hsessions : s'.sessions = s.sessions) (hdeletions : s.deletions ⊆ s'.deletions) : Vaulted host w s' := by
  refine hs.grow hs.ids (fun a ha => ?_) (fun a ha hdeleted => hdeletions (hs.deleted a ha hdeleted)) (fun _ _ h => h)
    hsubmitted hsessions
  obtain ⟨submission, hmem, hstores⟩ := hs.stored a ha
  exact ⟨submission, hsubmitted hmem, hstores⟩

theorem insert (hs : Vaulted host w s) {account : ExchangeAccount} (hlive : account.deletedAt = none)
    (haccount : ∃ submission ∈ s.submitted, Stores host account submission) :
    Vaulted host (insertAccount w account).2 s := by
  obtain ⟨hgrow, hmem⟩ := insertAccount_rows w account
  refine hs.grow (insertAccount_ids hs.ids account) (fun a ha => ?_) (fun a ha hdeleted => ?_) ?_ (List.Subset.refl _) rfl
  · rcases hmem a ha with ha | rfl
    · exact hs.stored a ha
    · exact haccount
  · rcases hmem a ha with ha | rfl
    · exact hs.deleted a ha hdeleted
    · rw [hlive] at hdeleted
      cases hdeleted
  · rintro accountId userId ⟨a, ha, hkey⟩
    exact ⟨a, hgrow.subset ha, hkey⟩

theorem delete (hs : Vaulted host w s) {accountId userId : UUID} (hrow : HasRow w accountId userId)
    (hdeletes : (userId, accountId) ∈ s.deletions) : Vaulted host (markDeleted w accountId) s := by
  refine hs.grow ?_ (fun a ha => ?_) (fun a ha hdeleted => ?_) (fun _ _ h => hasRow_markDeleted h) (List.Subset.refl _) rfl
  · refine List.pairwise_map.mpr (hs.ids.imp (fun {a b} hne => ?_))
    split <;> split <;> exact hne
  · obtain ⟨b, hb, rfl⟩ := List.mem_map.mp ha
    obtain ⟨submission, hmem, hstores⟩ := hs.stored b hb
    refine ⟨submission, hmem, ?_⟩
    split
    · exact stores_markDeleted hstores _
    · exact hstores
  · obtain ⟨b, hb, rfl⟩ := List.mem_map.mp ha
    by_cases hid : b.id = accountId
    · obtain ⟨c, hc, hcid, rfl⟩ := hrow
      have hsame : b = c := unique_of_ids hs.ids hb hc (hid.trans hcid.symm)
      rw [if_pos hid]
      exact hsame ▸ hcid ▸ hdeletes
    · rw [if_neg hid] at hdeleted ⊢
      exact hs.deleted b hb hdeleted

theorem answered (hs : Vaulted host w s) {q : Request} (hq : Warranted host q m) (hm : ∀ f ∈ m, f.Known w s)
    (outage : Outage) (exchange : Exchange) : Vaulted host (answers outage exchange w q).2 s := by
  cases q with
  | findLive | listLive | getLive | getById | initializeAdapter | authenticate | getBalance | getOpenOrders | disconnect =>
      exact hs
  | insert account =>
      obtain ⟨hlive, submission, hmem, hstores⟩ := hq
      rcases written_cases outage w (insertAccount w account) with h | h <;> simp only [answers, h]
      · exact hs.insert hlive ⟨submission, hm _ hmem, hstores⟩
      · exact hs
  | softDelete accountId =>
      obtain ⟨userId, hrow, hdeletes⟩ := hq
      rcases written_cases outage w (.ok (), markDeleted w accountId) with h | h <;> simp only [answers, h]
      · exact hs.delete (hm _ hrow) (hm _ hdeletes)
      · exact hs

/-- An adapter is asked to authenticate for an account. -/
theorem session (hs : Vaulted host w s) {session : Session} {submission : Submission} (hmem : submission ∈ s.submitted)
    (hopens : Opens w session submission) : Vaulted host w { s with sessions := s.sessions ++ [session] } := by
  refine ⟨hs.ids, hs.stored, fun other hother => ?_, hs.deleted⟩
  rcases List.mem_append.mp hother with hother | hother
  · exact hs.sessions other hother
  · rw [List.mem_singleton.mp hother]
    exact ⟨submission, hmem, hopens⟩

end Vaulted

theorem found_live {outage : Outage} {exchange : Exchange} {accountId userId : UUID} {a : ExchangeAccount}
    (hfound : (answers outage exchange w (.getLive accountId userId)).1 = .ok (some a)) :
    a ∈ w.accounts ∧ a.id = accountId ∧ a.userId = userId := by
  have hmem : a ∈ w.accounts.filter (fun a => a.id = accountId ∧ a.userId = userId ∧ a.deletedAt = none) := by
    rw [scalarOneOrNone_ok (ok_of_queried hfound)]
    exact List.mem_singleton_self a
  obtain ⟨ha, hkey⟩ := List.mem_filter.mp hmem
  obtain ⟨hid, huser, -⟩ := of_decide_eq_true hkey
  exact ⟨ha, hid, huser⟩

theorem found_by_id {outage : Outage} {exchange : Exchange} {accountId : UUID} {a : ExchangeAccount}
    (hfound : (answers outage exchange w (.getById accountId)).1 = .ok (some a)) : a ∈ w.accounts := by
  have hrow := ok_of_queried hfound
  exact List.mem_of_find?_eq_some (Except.ok.inj hrow)

theorem decrypt_encrypt (hfernet : host.fernet.RoundTrips) {draw : Nat} {value ciphertext : String}
    (hencrypt : encrypt host draw value = .ok ciphertext) : decrypt host ciphertext = .ok value := by
  unfold encrypt at hencrypt
  split at hencrypt
  next hvalid =>
    cases hencrypt
    simp only [decrypt, hvalid, Bool.true_eq_false, if_false, hfernet _ draw value hvalid]
  next => cases hencrypt

/-- A new row is made of the name of an exchange, and of what was encrypted. -/
theorem newAccount_ok {id userId : UUID} {draws : Nat × Nat} {data : ExchangeAccountCreate} {account : ExchangeAccount}
    (hnew : newAccount host id userId draws data = .ok account) :
    ∃ exchangeName apiKeyEncrypted apiSecretEncrypted, exchangeName.value = data.exchangeName ∧
      encrypt host draws.1 data.apiKey = .ok apiKeyEncrypted ∧ encrypt host draws.2 data.apiSecret = .ok apiSecretEncrypted ∧
      account = { id, userId, exchangeName, accountName := accountName data.exchangeName data.isTestnet, apiKeyEncrypted
                  apiSecretEncrypted, isTestnet := data.isTestnet } := by
  unfold newAccount at hnew
  split at hnew
  next => cases hnew
  next exchangeName hname =>
    cases hkey : encrypt host draws.1 data.apiKey with
    | error e =>
        rw [hkey] at hnew
        cases hnew
    | ok apiKeyEncrypted => cases hsecret : encrypt host draws.2 data.apiSecret with
      | error e =>
          rw [hkey, hsecret] at hnew
          cases hnew
      | ok apiSecretEncrypted =>
          rw [hkey, hsecret] at hnew
          exact ⟨exchangeName, _, _, value_ofValue hname, rfl, rfl, (Except.ok.inj hnew).symm⟩

/-- A new row has what was submitted. -/
theorem newAccount_stores (hfernet : host.fernet.RoundTrips) {id userId : UUID} {draws : Nat × Nat}
    {data : ExchangeAccountCreate} {account : ExchangeAccount} (hnew : newAccount host id userId draws data = .ok account) :
    account.deletedAt = none ∧ Stores host account ⟨userId, data⟩ := by
  obtain ⟨exchangeName, apiKeyEncrypted, apiSecretEncrypted, hname, hkey, hsecret, rfl⟩ := newAccount_ok hnew
  refine ⟨rfl, rfl, rfl, rfl, ?_⟩
  simp only [credentialsOf, decrypt_encrypt hfernet hkey, decrypt_encrypt hfernet hsecret, Submission.credentials, hname]
  rfl

end Answers

section Endpoints

theorem known_zero (w : World) (s : Store) : ∀ f ∈ (0 : Multiset Fact), f.Known w s :=
  fun f hf => absurd hf (Multiset.notMem_zero f)

theorem known_singleton {f : Fact} (hf : f.Known w s) : ∀ g ∈ ({f} : Multiset Fact), g.Known w s :=
  fun _ hg => Multiset.mem_singleton.mp hg ▸ hf

theorem known_cons {f : Fact} (hf : f.Known w s) (hm : ∀ g ∈ m, g.Known w s) : ∀ g ∈ f ::ₘ m, g.Known w s := by
  intro g hg
  rcases Multiset.mem_cons.mp hg with rfl | hg
  · exact hf
  · exact hm g hg

/-- The log of what was submitted grows, and that of the deletions. -/
theorem inv_store (hinv : (flight host).inv F w s) {s' : Store} (hsubmitted : s.submitted ⊆ s'.submitted)
    (hsessions : s'.sessions = s.sessions) (hdeletions : s.deletions ⊆ s'.deletions) : (flight host).inv F w s' :=
  ⟨hinv.1.store hsubmitted hsessions hdeletions, fun f hf => (hinv.2 f hf).grow (fun _ _ h => h) hsubmitted hdeletions⟩

theorem lands_await {q : Request} {as : Answer q → Except Failure α} {k : α → Operation β} (hq : Warranted host q m)
    (hm : ∀ f ∈ m, f.Known w s) (hinv : (flight host).inv F w s)
    (hgo : ∀ outage exchange F w s a, Vaulted host w s → (flight host).inv F (answers outage exchange w q).2 s →
      (∀ f ∈ m, f.Known (answers outage exchange w q).2 s) → as (answers outage exchange w q).1 = .ok a →
      Lands (flight host) (k a) (fun _ => (flight host).inv) F (answers outage exchange w q).2 s) :
    Lands (flight host) (.bind (await q as) k) (fun _ => (flight host).inv) F w s := by
  refine ⟨m, hq, ⟨hinv.1, fun f hf => ?_⟩, ?_⟩
  · rcases Multiset.mem_add.mp hf with hf | hf
    · exact hm f hf
    · exact hinv.2 f hf
  · rintro h ⟨outage, exchange, rfl⟩ F' w' s' ⟨hs, hknown⟩
    have hlater : ∀ f ∈ m + F', f.Known (answers outage exchange w' q).2 s' := fun f hf =>
      (hknown f hf).grow (fun _ _ h => answers_rows outage exchange q h) (List.Subset.refl _) (List.Subset.refl _)
    have hheld : ∀ f ∈ m, f.Known w' s' := fun f hf => hknown f (Multiset.mem_add.mpr (.inl hf))
    have hothers : (flight host).inv F' (answers outage exchange w' q).2 s' :=
      ⟨hs.answered hq hheld outage exchange, fun f hf => hlater f (Multiset.mem_add.mpr (.inr hf))⟩
    cases hanswer : as (answers outage exchange w' q).1 with
    | error e =>
        simp only [hanswer, Program.lift, Program.bind]
        exact hothers
    | ok a =>
        simp only [hanswer, Program.lift, Program.bind]
        exact hgo outage exchange F' w' s' a hs hothers (fun f hf => hlater f (Multiset.mem_add.mpr (.inl hf))) hanswer

/-- What is awaited without knowing anything. -/
theorem balances_await {q : Request} {as : Answer q → Except Failure α} {k : α → Operation β} (hq : Warranted host q 0)
    (hk : ∀ a, Balances (flight host) (k a)) : Balances (flight host) (.bind (await q as) k) :=
  fun _ w s hinv => lands_await hq (known_zero w s) hinv (fun _ _ _ _ _ a _ hinv _ _ => hk a _ _ _ hinv)

theorem lands_authenticate {session : Session} {submission : Submission} {as : Except Exn Bool → Except Failure α}
    {k : α → Operation β} (hmem : submission ∈ s.submitted) (hopens : Opens w session submission)
    (hinv : (flight host).inv F w s) (hk : ∀ a, Balances (flight host) (k a)) :
    Lands (flight host) (.bind (authenticate session as) k) (fun _ => (flight host).inv) F w s :=
  balances_await (q := .authenticate session.isTestnet session.credentials) trivial hk F w _
    ⟨hinv.1.session hmem hopens, fun f hf =>
      (hinv.2 f hf).grow (fun _ _ h => h) (List.Subset.refl _) (List.Subset.refl _)⟩

variable {a : ExchangeAccount} {submission : Submission}

theorem valid_of_decrypt {ciphertext value : String} (hdecrypt : decrypt host ciphertext = .ok value) :
    host.fernet.valid (getFernetKey host.environ) = true ∧
      host.fernet.decrypt (getFernetKey host.environ) ciphertext = some value := by
  unfold decrypt at hdecrypt
  split at hdecrypt
  next => cases hdecrypt
  next hvalid =>
    split at hdecrypt
    next found hfound =>
      cases hdecrypt
      exact ⟨Bool.not_eq_false _ ▸ hvalid, hfound⟩
    next => cases hdecrypt

/-- The endpoints and the process manager take the same key. -/
theorem makeFernetKey_none (environ : Environ) : makeFernetKey environ none = getFernetKey environ := rfl

theorem credentialDecrypt_of_decrypt {ciphertext value : String} (hdecrypt : decrypt host ciphertext = .ok value) :
    credentialDecrypt host ciphertext = .ok value := by
  simp only [credentialDecrypt, makeFernetKey_none, (valid_of_decrypt hdecrypt).2]

/-- Both parts of the credentials have been decrypted. -/
theorem Stores.decrypted (hstores : Stores host a submission) :
    (∃ apiKey, decrypt host a.apiKeyEncrypted = .ok apiKey) ∧
      ∃ apiSecret, decrypt host a.apiSecretEncrypted = .ok apiSecret := by
  have hcredentials := hstores.credentials
  unfold credentialsOf at hcredentials
  cases hkey : decrypt host a.apiKeyEncrypted with
  | error e =>
      rw [hkey] at hcredentials
      cases hcredentials
  | ok apiKey => cases hsecret : decrypt host a.apiSecretEncrypted with
    | error e =>
        rw [hkey, hsecret] at hcredentials
        cases hcredentials
    | ok apiSecret => exact ⟨⟨apiKey, rfl⟩, apiSecret, rfl⟩

theorem Stores.valid_manager (hstores : Stores host a submission) :
    ¬ host.fernet.valid (makeFernetKey host.environ none) = false := by
  obtain ⟨⟨apiKey, hkey⟩, -⟩ := hstores.decrypted
  rw [makeFernetKey_none, (valid_of_decrypt hkey).1]
  exact Bool.noConfusion

theorem Stores.credentials_manager (hstores : Stores host a submission) :
    credentialsOf a (credentialDecrypt host) = .ok submission.credentials := by
  obtain ⟨⟨apiKey, hkey⟩, apiSecret, hsecret⟩ := hstores.decrypted
  have hcredentials := hstores.credentials
  simp only [credentialsOf, hkey, hsecret] at hcredentials
  simp only [credentialsOf, credentialDecrypt_of_decrypt hkey, credentialDecrypt_of_decrypt hsecret]
  exact hcredentials

/-- The session of an account that a user asks for, or a process manager. -/
theorem Stores.opens (hstores : Stores host a submission) (hrow : HasRow w a.id a.userId) {caller : Option UUID}
    (hcaller : ∀ userId ∈ caller, userId = a.userId) :
    Opens w ⟨caller, a.id, a.isTestnet, submission.credentials⟩ submission :=
  ⟨hstores.owner ▸ hrow, hstores.owner ▸ hcaller, hstores.testnet, rfl⟩

/-- While its adapter is initialized, an account stays in the table, and its credentials stay those submitted. -/
theorem lands_initializeAdapter (hinv : (flight host).inv F w s) (ha : a ∈ w.accounts) (hmem : submission ∈ s.submitted)
    {as : Except Exn Unit → Except Failure α} {k : α → Operation β}
    (hgo : ∀ F w s b, (flight host).inv F w s → submission ∈ s.submitted → HasRow w a.id a.userId →
      Lands (flight host) (k b) (fun _ => (flight host).inv) F w s) :
    Lands (flight host) (.bind (await (.initializeAdapter a.exchangeName a.isTestnet) as) k)
      (fun _ => (flight host).inv) F w s := by
  have hknown : ∀ f ∈ (.submitted submission ::ₘ {.row a.id a.userId} : Multiset Fact), f.Known w s :=
    known_cons hmem (known_singleton (f := .row a.id a.userId) ⟨a, ha, rfl, rfl⟩)
  refine lands_await trivial hknown hinv (fun outage exchange F w s b _ hinv hm _ => hgo F w s b hinv ?_ ?_)
  · exact hm _ (Multiset.mem_cons_self _ _)
  · exact hm _ (Multiset.mem_cons_of_mem (Multiset.mem_singleton_self _))

theorem lands_getAdapterForAccount (hinv : (flight host).inv F w s) (ha : a ∈ w.accounts) (what : String) :
    Lands (flight host) (getAdapterForAccount host what a.userId a) (fun _ => (flight host).inv) F w s := by
  obtain ⟨submission, hmem, hstores⟩ := hinv.1.stored a ha
  unfold getAdapterForAccount
  split
  next => exact hinv
  next =>
    refine lands_initializeAdapter hinv ha hmem (fun F w s _ hinv hmem hrow => ?_)
    simp only [hstores.credentials, badGateway, Program.lift, Program.bind]
    refine lands_authenticate hmem (hstores.opens hrow (fun userId huser => ?_)) hinv (fun _ => balances_ret _)
    exact (Option.some.inj huser).symm

theorem lands_createExchangeAccount (hfernet : host.fernet.RoundTrips) (hinv : (flight host).inv F w s) (id userId : UUID)
    (draws : Nat × Nat) (data : ExchangeAccountCreate) :
    Lands (flight host) (createExchangeAccount host id userId draws data) (fun _ => (flight host).inv) F w s := by
  have hinv' : (flight host).inv F w { s with submitted := s.submitted ++ [⟨userId, data⟩] } :=
    inv_store hinv (List.subset_append_left _ _) rfl (List.Subset.refl _)
  refine lands_await (m := {.submitted ⟨userId, data⟩}) trivial (known_singleton ?_) hinv'
    (fun _ _ F w s existing _ hinv hm _ => ?_)
  · exact List.mem_append_right _ (List.mem_singleton_self _)
  · split
    next => exact hinv
    next =>
      cases hnew : newAccount host id userId draws data with
      | error e => exact hinv
      | ok account =>
          obtain ⟨hlive, hstores⟩ := newAccount_stores hfernet hnew
          exact lands_await ⟨hlive, _, Multiset.mem_singleton_self _, hstores⟩ hm hinv (fun _ _ _ _ _ _ _ hinv _ _ => hinv)

theorem balances_listExchangeAccounts (userId : UUID) : Balances (flight host) (listExchangeAccounts userId) :=
  balances_await trivial (fun _ => balances_ret _)

theorem balances_deleteExchangeAccount (userId accountId : UUID) :
    Balances (flight host) (deleteExchangeAccount userId accountId) := by
  refine fun F w s hinv => lands_await trivial (known_zero w s) hinv (fun outage exchange F w s found _ hinv _ hok => ?_)
  cases found with
  | none => exact hinv
  | some account =>
      obtain ⟨hrow, -, huser⟩ := found_live (ok_of_raising hok)
      have hinv' : (flight host).inv F w { s with deletions := s.deletions ++ [(userId, account.id)] } :=
        inv_store hinv (List.Subset.refl _) rfl (List.subset_append_left _ _)
      have hknown : ∀ f ∈ (.row account.id userId ::ₘ {.deleting userId account.id} : Multiset Fact),
          f.Known w { s with deletions := s.deletions ++ [(userId, account.id)] } := by
        refine known_cons ⟨account, hrow, rfl, huser⟩ (known_singleton ?_)
        exact List.mem_append_right _ (List.mem_singleton_self _)
      refine lands_await ?_ hknown hinv' (fun _ _ _ _ _ _ _ hinv _ _ => hinv)
      exact ⟨userId, Multiset.mem_cons_self _ _, Multiset.mem_cons_of_mem (Multiset.mem_singleton_self _)⟩

theorem balances_getAccountBalance (userId accountId : UUID) :
    Balances (flight host) (getAccountBalance host userId accountId) := by
  refine fun F w s hinv => lands_await trivial (known_zero w s) hinv (fun outage exchange F w s found _ hinv _ hok => ?_)
  cases found with
  | none => exact hinv
  | some account =>
      obtain ⟨hrow, -, rfl⟩ := found_live (ok_of_raising hok)
      exact lands_then (lands_getAdapterForAccount hinv hrow "balance") (fun _ =>
        balances_await trivial (fun _ => balances_await trivial (fun _ => balances_ret _)))

theorem balances_getAccountOrders (userId accountId : UUID) (symbol : Option String) :
    Balances (flight host) (getAccountOrders host userId accountId symbol) := by
  refine fun F w s hinv => lands_await trivial (known_zero w s) hinv (fun outage exchange F w s found _ hinv _ hok => ?_)
  cases found with
  | none => exact hinv
  | some account =>
      obtain ⟨hrow, -, rfl⟩ := found_live (ok_of_raising hok)
      exact lands_then (lands_getAdapterForAccount hinv hrow "orders") (fun _ =>
        balances_await trivial (fun _ => balances_await trivial (fun _ => balances_ret _)))

theorem balances_buildProcess (accountId : UUID) : Balances (flight host) (buildProcess host accountId) := by
  intro F w s hinv
  unfold buildProcess
  split
  next => exact hinv
  next hvalid =>
    refine lands_await trivial (known_zero w s) hinv (fun outage exchange F w s found _ hinv _ hok => ?_)
    cases found with
    | none => exact hinv
    | some a =>
        have ha : a ∈ w.accounts := found_by_id (ok_of_raising hok)
        obtain ⟨submission, hmem, hstores⟩ := hinv.1.stored a ha
        simp only [hstores.active, Bool.true_eq_false, if_false, hstores.credentials_manager]
        split
        next => exact hinv
        next =>
          refine lands_initializeAdapter hinv ha hmem (fun F w s _ hinv hmem hrow => ?_)
          refine lands_authenticate hmem (hstores.opens hrow (fun _ hnone => nomatch hnone)) hinv (fun authenticated => ?_)
          cases authenticated with
          | true => exact balances_ret _
          | false => exact fun _ _ _ hinv => hinv

end Endpoints

section Step

variable {N : Server}

theorem balanced_begin {p : Operation Reply} {own : Nat →₀ Multiset Fact} {caller : Nat}
    (hN : Balanced (flight host) own N) (hp : Balances (flight host) p) :
    ∃ own', Balanced (flight host) own' (begin N caller p) := by
  simp only [begin, Option.isNone_iff_eq_none]
  split
  next hfresh => exact hN.start_balances hfresh (fun _ => trivial) hp
  next => exact ⟨own, hN⟩

theorem balanced_step (hfernet : host.fernet.RoundTrips) (h : ∃ own, Balanced (flight host) own N) (e : Event) :
    ∃ own, Balanced (flight host) own (step host N e) := by
  obtain ⟨own, hN⟩ := h
  cases e with
  | tick seconds =>
      refine ⟨own, hN.store (fun F hinv => ⟨?_, fun f hf => ?_⟩)⟩
      · exact hinv.1.grow hinv.1.ids hinv.1.stored hinv.1.deleted (fun _ _ h => h) (List.Subset.refl _) rfl
      · exact (hinv.2 f hf).grow (fun _ _ h => h) (List.Subset.refl _) (List.Subset.refl _)
  | create caller id userId draws data =>
      exact balanced_begin hN (fun F w s hinv => lands_createExchangeAccount hfernet hinv id userId draws data)
  | list caller userId => exact balanced_begin hN (balances_listExchangeAccounts userId)
  | delete caller userId accountId => exact balanced_begin hN (balances_deleteExchangeAccount userId accountId)
  | getBalance caller userId accountId => exact balanced_begin hN (balances_getAccountBalance userId accountId)
  | getOrders caller userId accountId symbol => exact balanced_begin hN (balances_getAccountOrders userId accountId symbol)
  | buildProcess caller accountId => exact balanced_begin hN (balances_buildProcess accountId)
  | answer caller outage exchange => exact hN.answer ⟨outage, exchange, rfl⟩

end Step

theorem balanced_run (hfernet : host.fernet.RoundTrips) (es : List Event) :
    ∃ own, Balanced (flight host) own (run host es) := by
  have hopening : (flight host).inv 0 opening.world opening.store := by
    refine ⟨⟨List.Pairwise.nil, ?_, ?_, ?_⟩, known_zero _ _⟩
    · exact fun a ha => nomatch ha
    · exact fun session hsession => nomatch hsession
    · exact fun a ha => nomatch ha
  exact foldl_keeps (I := fun N => ∃ own, Balanced (flight host) own N) (fun N e h => balanced_step hfernet h e) es
    ⟨0, Balanced.idle hopening⟩

/-- What comes of a request about an account in the table when the database works, and the exchange: its
user gets the balance, and a process manager the adapter, of a deleted account too. -/
structure Usable (host : Host) (N : Server) (a : ExchangeAccount) (submission : Submission) : Prop where
  balance : a.deletedAt = none → ∀ exchange authenticated balances, exchange.initialized = .ok () →
    exchange.authenticated = .ok authenticated → exchange.balance = .ok balances → exchange.disconnected = .ok () →
    Program.run (answers {} exchange) (getAccountBalance host a.userId a.id) N.store N.world =
      (.ok (.balances (balances.filter (fun b => 0 < b.total))),
        { N.store with
          sessions := N.store.sessions ++ [⟨some a.userId, a.id, a.isTestnet, submission.credentials⟩] }, N.world)
  process : ∀ exchange, exchange.initialized = .ok () → exchange.authenticated = .ok true →
    Program.run (answers {} exchange) (buildProcess host a.id) N.store N.world =
      (.ok .process,
        { N.store with sessions := N.store.sessions ++ [⟨none, a.id, a.isTestnet, submission.credentials⟩] }, N.world)

theorem live_of_mem (hs : Vaulted host w s) {a : ExchangeAccount} (ha : a ∈ w.accounts) (hlive : a.deletedAt = none) :
    w.accounts.filter (fun b => b.id = a.id ∧ b.userId = a.userId ∧ b.deletedAt = none) = [a] :=
  filter_of_mem hs.ids ha (by simp [hlive]) (fun b hb => by simp [(of_decide_eq_true hb).1])

theorem find_of_mem (hs : Vaulted host w s) {a : ExchangeAccount} (ha : a ∈ w.accounts) :
    w.accounts.find? (·.id = a.id) = some a := by
  have hsome : (w.accounts.find? (·.id = a.id)).isSome := List.find?_isSome.mpr ⟨a, ha, decide_eq_true rfl⟩
  obtain ⟨b, hb⟩ := Option.isSome_iff_exists.mp hsome
  have hid := List.find?_some hb
  rw [decide_eq_true_eq] at hid
  rw [hb, unique_of_ids hs.ids (List.mem_of_find?_eq_some hb) ha hid]

theorem usable_of_mem {N : Server} (hs : Vaulted host N.world N.store) {a : ExchangeAccount} (ha : a ∈ N.world.accounts)
    (hregistered : host.isRegistered a.exchangeName = true) {submission : Submission} (hstores : Stores host a submission) :
    Usable host N a submission := by
  constructor
  · intro hlive exchange authenticated balances hinit hauth hbalance hdisconnect
    have hfound : (answers {} exchange N.world (.getLive a.id a.userId)).1 = .ok (some a) := by
      simp only [answers, queried, live_of_mem hs ha hlive, scalarOneOrNone]
    refine (run_await (congrArg raising hfound)).trans ?_
    simp only [getAdapterForAccount, hregistered, Bool.true_eq_false, if_false, authenticate, await, Program.bind,
      Program.run, answers, hinit, hauth, hbalance, hdisconnect, badGateway, Program.lift, hstores.credentials]
  · intro exchange hinit hauth
    have hfound : (answers {} exchange N.world (.getById a.id)).1 = .ok (some a) := by
      simp only [answers, queried, find_of_mem hs ha]
    rw [buildProcess, if_neg (hstores.valid_manager)]
    refine (run_await (congrArg raising hfound)).trans ?_
    simp only [hregistered, hstores.active, Bool.true_eq_false, if_false, hstores.credentials_manager, authenticate, await,
      Program.bind, Program.run, answers, hinit, hauth, raising, Program.lift]

/-- Whatever requests are made, and however they take turns: an account has the credentials that its user has
submitted, an adapter gets them at the request of that user only or of a process manager, and an account is
deleted only by its user. -/
theorem vaulted_run (host : Host) (hfernet : host.fernet.RoundTrips) (es : List Event) :
    Vaulted host (run host es).world (run host es).store ∧ ∀ a ∈ (run host es).world.accounts,
      host.isRegistered a.exchangeName = true →
        ∃ submission ∈ (run host es).store.submitted, Stores host a submission ∧ Usable host (run host es) a submission := by
  obtain ⟨own, hN⟩ := balanced_run hfernet es
  refine ⟨hN.inv.1, fun a ha hregistered => ?_⟩
  obtain ⟨submission, hmem, hstores⟩ := hN.inv.1.stored a ha
  exact ⟨submission, hmem, hstores, usable_of_mem hN.inv.1 ha hregistered hstores⟩

/-- A token that names its key and its draw, and opens with the key alone. -/
def labelled : Fernet where
  valid key := key.length = 44
  encrypt key draw value := String.ofList (Char.ofNat draw :: key.toList ++ value.toList)
  decrypt key token := match token.toList with
    | _ :: rest => if key.toList.isPrefixOf rest then some (String.ofList (rest.drop key.toList.length)) else none
    | [] => none

theorem labelled_roundTrips : labelled.RoundTrips := by
  intro key draw value _
  simp [labelled]

def labelledHost : Host where
  environ := { secretKey := "secret" }
  fernet := labelled
  isRegistered name := name == .binance

/-- An account is created, and its balance is asked for. -/
def created : List Event :=
  [.create 0 5 9 (65, 66) { exchangeName := "binance", apiKey := "k", apiSecret := "s" },
   .answer 0 {} {}, .answer 0 {} {}, .getBalance 1 9 5, .answer 1 {} {}, .answer 1 {} {}]

theorem vaulted_created : ∃ session, (run labelledHost created).store.sessions = [session] ∧
    session.caller = some 9 ∧ session.credentials = { exchangeName := "binance", apiKey := "k", apiSecret := "s" } ∧
    ∃ submission ∈ (run labelledHost created).store.submitted,
      Opens (run labelledHost created).world session submission := by
  have hsessions : (run labelledHost created).store.sessions = [⟨some 9, 5, false,
      { exchangeName := "binance", apiKey := "k", apiSecret := "s" }⟩] := by decide +kernel
  refine ⟨_, hsessions, rfl, rfl, ?_⟩
  exact (vaulted_run labelledHost labelled_roundTrips created).1.sessions _ (hsessions ▸ List.mem_singleton_self _)

end Utos.Api.ExchangeAccounts
