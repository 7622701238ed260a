import Utos.Api.ExchangeAccounts

namespace Utos.Api.SingleAccounts

open Core.DomainTypes Core.Exceptions Coroutine Program Database ExchangeAccounts

/-- What an account is for: its user, the exchange, and whether it is on the testnet. -/
abbrev Key := UUID × String × Bool

def keyOf (a : ExchangeAccount) : Key := (a.userId, a.exchangeName.value, a.isTestnet)

/-- How many accounts a key has that are not deleted. -/
def liveOf (w : World) (key : Key) : Nat := w.accounts.countP (·.live key.1 key.2.1 key.2.2)

/-- A request that creates an account checks the table first, and inserts then. -/
inductive Hold
  | checking (key : Key)
  | inserting (key : Key)
  deriving DecidableEq

def Holds : Request → Multiset Hold → Prop
  | .findLive userId exchangeName isTestnet, m => m = {.checking (userId, exchangeName, isTestnet)}
  | .insert a, m => m = {.inserting (keyOf a)}
  | _, m => m = 0

/-- One request at a time creates an account for a key, and inserts only where there is none. -/
structure Single (w : World) (m : Multiset Hold) (key : Key) : Prop where
  creating : m.count (.checking key) + m.count (.inserting key) ≤ 1
  live : liveOf w key + m.count (.inserting key) ≤ 1

def flight : Flight Store World Request Answer (Multiset Hold) Failure Reply where
  holds := Holds
  inv m w _ := ∀ key, Single w m key
  answers h := ∃ outage exchange, h = answers outage exchange

/-- The request waits on behalf of a creation for the key. -/
def Concerns (key : Key) : Request → Prop
  | .findLive userId exchangeName isTestnet => (userId, exchangeName, isTestnet) = key
  | .insert a => keyOf a = key
  | _ => False

/-- Nobody creates an account while another creation for the same key is under way. -/
def Apart (N : Server) : Event → Prop
  | .create caller _ userId _ data => N.tasks caller = none → ∀ i q k, N.tasks i = some (.asked q k) →
      ¬ Concerns (userId, data.exchangeName, data.isTestnet) q
  | _ => True

variable {host : Host} {w : World} {s : Store} {F m : Multiset Hold} {key : Key} {α β : Type}

theorem liveOf_markDeleted (w : World) (accountId : UUID) (key : Key) :
    liveOf (markDeleted w accountId) key ≤ liveOf w key := by
  unfold liveOf markDeleted
  rw [List.countP_map]
  refine List.countP_mono_left (fun a _ hlive => ?_)
  simp only [Function.comp] at hlive
  split at hlive
  · simp [ExchangeAccount.live] at hlive
  · exact hlive

theorem liveOf_insertAccount (w : World) (account : ExchangeAccount) (key : Key) :
    liveOf (insertAccount w account).2 key ≤ liveOf w key + if keyOf account = key then 1 else 0 := by
  unfold insertAccount liveOf
  split
  · exact Nat.le_add_right _ _
  · rw [List.countP_append, List.countP_singleton]
    refine Nat.add_le_add_left ?_ _
    by_cases hkey : keyOf account = key
    · rw [if_pos hkey]
      split <;> decide
    · have hother : ¬ account.live key.1 key.2.1 key.2.2 = true := by
        intro hlive
        obtain ⟨huser, hname, htestnet, -⟩ := of_decide_eq_true hlive
        exact hkey (Prod.ext huser (Prod.ext hname htestnet))
      rw [if_neg hother]
      exact Nat.zero_le _

/-- Only an insert adds an account, and it holds the key. -/
theorem liveOf_answers {q : Request} (hq : Holds q m) (outage : Outage) (exchange : Exchange) (w : World) (key : Key) :
    liveOf (answers outage exchange w q).2 key ≤ liveOf w key + m.count (.inserting key) := by
  cases q with
  | findLive | listLive | getLive | getById | initializeAdapter | authenticate | getBalance | getOpenOrders | disconnect =>
      exact Nat.le_add_right _ _
  | insert account =>
      cases hq
      have hcount : Multiset.count (.inserting key) ({.inserting (keyOf account)} : Multiset Hold) =
          if keyOf account = key then 1 else 0 := by
        simp only [Multiset.count_singleton, Hold.inserting.injEq, eq_comm]
      rw [hcount]
      rcases written_cases outage w (insertAccount w account) with h | h <;> simp only [answers, h]
      · exact liveOf_insertAccount w account key
      · exact Nat.le_add_right _ _
  | softDelete accountId =>
      rcases written_cases outage w (.ok (), markDeleted w accountId) with h | h <;> simp only [answers, h]
      · exact (liveOf_markDeleted w accountId key).trans (Nat.le_add_right _ _)
      · exact Nat.le_add_right _ _

/-- A task that gets its answer gives back what it has held. -/
theorem Single.answered (hs : Single w (m + F) key) {q : Request} (hq : Holds q m) (outage : Outage) (exchange : Exchange) :
    Single (answers outage exchange w q).2 F key := by
  have hlive := liveOf_answers hq outage exchange w key
  obtain ⟨hcreating, hsum⟩ := hs
  rw [Multiset.count_add, Multiset.count_add] at hcreating
  rw [Multiset.count_add] at hsum
  constructor <;> omega

/-- A creation that has found nothing goes on to insert. -/
theorem Single.inserting {created : Key} (hs : Single w ({.checking created} + F) key) (hnone : liveOf w created = 0) :
    Single w ({.inserting created} + F) key := by
  obtain ⟨hcreating, hlive⟩ := hs
  simp only [Multiset.count_add, Multiset.count_singleton, Hold.checking.injEq, reduceCtorEq, if_false] at hcreating hlive
  by_cases hkey : key = created
  · subst hkey
    constructor <;> simp only [Multiset.count_add, Multiset.count_singleton, reduceCtorEq, if_true, if_false] at * <;> omega
  · constructor <;> simp only [Multiset.count_add, Multiset.count_singleton, Hold.inserting.injEq, hkey, reduceCtorEq,
      if_false] at * <;> omega

theorem Single.checking {created : Key} (hs : Single w F key)
    (hfree : F.count (.checking created) = 0 ∧ F.count (.inserting created) = 0) :
    Single w ({.checking created} + F) key := by
  obtain ⟨hcreating, hlive⟩ := hs
  by_cases hkey : key = created
  · subst hkey
    constructor <;> simp only [Multiset.count_add, Multiset.count_singleton, reduceCtorEq, if_true, if_false] at * <;> omega
  · constructor <;> simp only [Multiset.count_add, Multiset.count_singleton, Hold.checking.injEq, hkey, reduceCtorEq,
      if_false] at * <;> omega

section Endpoints

theorem lands_await {q : Request} {as : Answer q → Except Failure α} {k : α → Operation β} (hq : Holds q m)
    (hinv : ∀ key, Single w (m + F) key)
    (hgo : ∀ outage exchange F w s a, (∀ key, Single w (m + F) key) →
      as (answers outage exchange w q).1 = .ok a → flight.inv F (answers outage exchange w q).2 s →
      Lands flight (k a) (fun _ => flight.inv) F (answers outage exchange w q).2 s) :
    Lands flight (.bind (await q as) k) (fun _ => flight.inv) F w s := by
  refine ⟨m, hq, hinv, ?_⟩
  rintro h ⟨outage, exchange, rfl⟩ F' w' s' hs
  have hothers : flight.inv F' (answers outage exchange w' q).2 s' := fun key => (hs key).answered hq outage exchange
  cases hanswer : as (answers outage exchange w' q).1 with
  | error e =>
      simp only [hanswer, Program.lift, Program.bind]
      exact hothers
  | ok a =>
      simp only [hanswer, Program.lift, Program.bind]
      exact hgo outage exchange F' w' s' a hs hanswer hothers

theorem balances_lift (x : Except Failure α) : Balances flight (.lift x) := by
  cases x with
  | error e => exact fun _ _ _ hinv => hinv
  | ok a => exact balances_ret a

theorem balances_raise (e : Failure) : Balances flight (.raise e : Operation α) := fun _ _ _ hinv => hinv

/-- What no creation awaits. -/
theorem balances_await {q : Request} {as : Answer q → Except Failure α} {k : α → Operation β} (hq : Holds q 0)
    (hk : ∀ a, Balances flight (k a)) : Balances flight (.bind (await q as) k) :=
  fun F _ _ hinv => lands_await hq ((zero_add F).symm ▸ hinv) (fun _ _ _ _ _ a _ _ hinv => hk a _ _ _ hinv)

theorem balances_authenticate {session : Session} {as : Except Exn Bool → Except Failure α} {k : α → Operation β}
    (hk : ∀ a, Balances flight (k a)) : Balances flight (.bind (authenticate session as) k) :=
  fun F w _ hinv => balances_await (q := .authenticate session.isTestnet session.credentials) rfl hk F w _ hinv

theorem balances_getAdapterForAccount (what : String) (caller : UUID) (a : ExchangeAccount) :
    Balances flight (getAdapterForAccount host what caller a) := by
  unfold getAdapterForAccount
  split
  · exact balances_lift _
  · refine balances_await rfl (fun _ => balances_bind (balances_lift _) (fun _ => ?_))
    exact balances_authenticate (fun _ => balances_ret _)

theorem balances_getAccountBalance (userId accountId : UUID) :
    Balances flight (getAccountBalance host userId accountId) := by
  refine balances_await rfl (fun found => ?_)
  cases found with
  | none => exact balances_raise _
  | some a =>
      refine balances_bind (balances_getAdapterForAccount "balance" userId a) (fun _ => ?_)
      exact balances_await rfl (fun _ => balances_await rfl (fun _ => balances_ret _))

theorem balances_getAccountOrders (userId accountId : UUID) (symbol : Option String) :
    Balances flight (getAccountOrders host userId accountId symbol) := by
  refine balances_await rfl (fun found => ?_)
  cases found with
  | none => exact balances_raise _
  | some a =>
      refine balances_bind (balances_getAdapterForAccount "orders" userId a) (fun _ => ?_)
      exact balances_await rfl (fun _ => balances_await rfl (fun _ => balances_ret _))

theorem balances_listExchangeAccounts (userId : UUID) : Balances flight (listExchangeAccounts userId) :=
  balances_await rfl (fun _ => balances_ret _)

theorem balances_deleteExchangeAccount (userId accountId : UUID) :
    Balances flight (deleteExchangeAccount userId accountId) := by
  refine balances_await rfl (fun found => ?_)
  cases found with
  | none => exact balances_raise _
  | some a => exact fun F w s hinv => balances_await (q := .softDelete a.id) rfl (fun _ => balances_ret _) F w _ hinv

theorem balances_buildProcess (accountId : UUID) : Balances flight (buildProcess host accountId) := by
  unfold buildProcess
  split
  · exact balances_raise _
  · refine balances_await rfl (fun found => ?_)
    cases found with
    | none => exact balances_raise _
    | some a =>
        dsimp only
        split
        · exact balances_raise _
        · split
          · exact balances_raise _
          · split
            · exact balances_raise _
            · refine balances_await (q := .initializeAdapter a.exchangeName a.isTestnet) rfl (fun _ => ?_)
              refine balances_authenticate (fun authenticated => ?_)
              cases authenticated with
              | true => exact balances_ret _
              | false => exact balances_raise _

theorem newAccount_key {id userId : UUID} {draws : Nat × Nat} {data : ExchangeAccountCreate} {account : ExchangeAccount}
    (hnew : newAccount host id userId draws data = .ok account) :
    keyOf account = (userId, data.exchangeName, data.isTestnet) := by
  obtain ⟨exchangeName, _, _, hname, -, -, rfl⟩ := newAccount_ok hnew
  simp only [keyOf, hname]

/-- A check that finds nothing. -/
theorem live_of_none {outage : Outage} {exchange : Exchange} {userId : UUID} {exchangeName : String} {isTestnet : Bool}
    (hfound : (answers outage exchange w (.findLive userId exchangeName isTestnet)).1 = .ok none) :
    liveOf w (userId, exchangeName, isTestnet) = 0 := by
  have hquery := ok_of_queried hfound
  split at hquery
  · cases hquery
  · rw [liveOf, List.countP_eq_length_filter, scalarOneOrNone_ok hquery]
    rfl

theorem lands_createExchangeAccount (hinv : flight.inv F w s) (id userId : UUID) (draws : Nat × Nat)
    (data : ExchangeAccountCreate)
    (hfree : F.count (.checking (userId, data.exchangeName, data.isTestnet)) = 0 ∧
      F.count (.inserting (userId, data.exchangeName, data.isTestnet)) = 0) :
    Lands flight (createExchangeAccount host id userId draws data) (fun _ => flight.inv) F w s := by
  refine lands_await rfl (fun key => (hinv key).checking hfree) (fun outage exchange F w s existing hs hok hinv => ?_)
  cases existing with
  | some existing => exact hinv
  | none =>
      cases hnew : newAccount host id userId draws data with
      | error e => exact hinv
      | ok account =>
          have hnone := live_of_none (ok_of_raising hok)
          refine lands_await rfl (fun key => ?_) (fun _ _ _ _ _ _ _ _ hinv => hinv)
          rw [newAccount_key hnew]
          exact (hs key).inserting hnone

end Endpoints

section Step

variable {N : Server} {own : Nat →₀ Multiset Hold}

/-- A task that waits for something else holds nothing of the key. -/
theorem count_of_holds {q : Request} (hq : Holds q m) (hother : ¬ Concerns key q) :
    m.count (.checking key) = 0 ∧ m.count (.inserting key) = 0 := by
  cases q with
  | findLive userId exchangeName isTestnet =>
      cases hq
      simp only [Multiset.count_singleton, Hold.checking.injEq, reduceCtorEq, if_false, and_true]
      exact if_neg (fun hkey => hother hkey.symm)
  | insert account =>
      cases hq
      simp only [Multiset.count_singleton, Hold.inserting.injEq, reduceCtorEq, if_false, true_and]
      exact if_neg (fun hkey => hother hkey.symm)
  | softDelete | listLive | getLive | getById | initializeAdapter | authenticate | getBalance | getOpenOrders | disconnect =>
      cases hq
      exact ⟨rfl, rfl⟩

theorem free_of_apart (hN : Balanced flight own N)
    (hapart : ∀ i q k, N.tasks i = some (.asked q k) → ¬ Concerns key q) :
    (own.sum (fun _ held => held)).count (.checking key) = 0 ∧
      (own.sum (fun _ held => held)).count (.inserting key) = 0 := by
  have hone : ∀ i, (own i).count (.checking key) = 0 ∧ (own i).count (.inserting key) = 0 := by
    intro i
    have hholds := hN.holds i
    cases htask : N.tasks i with
    | none =>
        rw [htask] at hholds
        rw [show own i = 0 from hholds]
        exact ⟨rfl, rfl⟩
    | some t =>
        rw [htask] at hholds
        cases t with
        | asked q k => exact count_of_holds hholds (hapart i q k htask)
        | answered q a k =>
            rw [show own i = 0 from hholds]
            exact ⟨rfl, rfl⟩
        | done r =>
            rw [show own i = 0 from hholds]
            exact ⟨rfl, rfl⟩
  rw [Finsupp.sum, Multiset.count_sum', Multiset.count_sum']
  exact ⟨Finset.sum_eq_zero (fun i _ => (hone i).1), Finset.sum_eq_zero (fun i _ => (hone i).2)⟩

theorem balanced_begin {p : Operation Reply} {caller : Nat} (hN : Balanced flight own N) (hp : Balances flight p) :
    ∃ own', Balanced flight own' (begin N caller p) := by
  simp only [begin, Option.isNone_iff_eq_none]
  split
  next hfresh => exact hN.start_balances hfresh (fun _ => trivial) hp
  next => exact ⟨own, hN⟩

theorem balanced_step (h : ∃ own, Balanced flight own N) (e : Event) (hapart : Apart N e) :
    ∃ own, Balanced flight own (step host N e) := by
  obtain ⟨own, hN⟩ := h
  cases e with
  | tick seconds => exact ⟨own, hN.store (fun F hinv key => ⟨(hinv key).creating, (hinv key).live⟩)⟩
  | create caller id userId draws data =>
      simp only [step, begin, Option.isNone_iff_eq_none]
      split
      next hfresh =>
        refine hN.start_here hfresh (lands_mono ?_ (fun _ _ _ _ hinv => ⟨trivial, hinv⟩))
        exact lands_createExchangeAccount hN.inv id userId draws data (free_of_apart hN (hapart hfresh))
      next => exact ⟨own, hN⟩
  | list caller userId => exact balanced_begin hN (balances_listExchangeAccounts userId)
  | delete caller userId accountId => exact balanced_begin hN (balances_deleteExchangeAccount userId accountId)
  | getBalance caller userId accountId => exact balanced_begin hN (balances_getAccountBalance userId accountId)
  | getOrders caller userId accountId symbol => exact balanced_begin hN (balances_getAccountOrders userId accountId symbol)
  | buildProcess caller accountId => exact balanced_begin hN (balances_buildProcess accountId)
  | answer caller outage exchange => exact hN.answer ⟨outage, exchange, rfl⟩

end Step

theorem balanced_run {es : List Event} (hes : AllMeet (step host) Apart opening es) :
    ∃ own, Balanced flight own (run host es) := by
  refine foldl_of_allMeet (I := fun N => ∃ own, Balanced flight own N) (fun N e h he => balanced_step h e he)
    ⟨0, Balanced.idle (fun key => ?_)⟩ hes
  exact ⟨Nat.zero_le 1, Nat.zero_le 1⟩

/-- What the check of a creation finds. -/
theorem findLive_answer (exchange : Exchange) (w : World) (userId : UUID) {exchangeName : ExchangeName} {value : String}
    (hname : ExchangeName.ofValue value = some exchangeName) (isTestnet : Bool) :
    (answers {} exchange w (.findLive userId value isTestnet)).1 =
      scalarOneOrNone (w.accounts.filter (·.live userId value isTestnet)) := by
  simp only [answers, queried, hname]

theorem eq_singleton {rows : List α} {a : α} (ha : a ∈ rows) (hle : rows.length ≤ 1) : rows = [a] := by
  obtain ⟨b, rfl⟩ := List.length_eq_one_iff.mp (le_antisymm hle (List.length_pos_of_mem ha))
  rw [List.mem_singleton.mp ha]

theorem ofValue_value (exchangeName : ExchangeName) : ExchangeName.ofValue exchangeName.value = some exchangeName := by
  cases exchangeName <;> rfl

/-- As long as creations for one key do not overlap, a user has at most one account for an exchange and
testnet mode that is not deleted, and a second one is refused. -/
theorem single_run (host : Host) {es : List Event} (hes : AllMeet (step host) Apart opening es) :
    (∀ key, liveOf (run host es).world key ≤ 1) ∧
      ∀ a ∈ (run host es).world.accounts, a.deletedAt = none → ∀ id draws data exchange,
        data.exchangeName = a.exchangeName.value → data.isTestnet = a.isTestnet →
          (Program.run (answers {} exchange) (createExchangeAccount host id a.userId draws data)
            (run host es).store (run host es).world).1 = .error alreadyExists := by
  obtain ⟨own, hN⟩ := balanced_run hes
  have hsingle : ∀ key, liveOf (run host es).world key ≤ 1 := fun key =>
    (Nat.le_add_right _ _).trans (hN.inv key).live
  refine ⟨hsingle, fun a ha hlive id draws data exchange hname htestnet => ?_⟩
  have hmem : a ∈ (run host es).world.accounts.filter (·.live a.userId data.exchangeName data.isTestnet) :=
    List.mem_filter.mpr ⟨ha, decide_eq_true ⟨rfl, hname.symm, htestnet.symm, hlive⟩⟩
  have hle := hsingle (a.userId, data.exchangeName, data.isTestnet)
  rw [liveOf, List.countP_eq_length_filter] at hle
  have hrows := eq_singleton hmem hle
  have hfound : (answers {} exchange (run host es).world (.findLive a.userId data.exchangeName data.isTestnet)).1 =
      .ok (some a) := by
    rw [findLive_answer exchange _ _ (hname ▸ ofValue_value a.exchangeName), hrows]
    rfl
  simp only [createExchangeAccount, submit, Program.run]
  refine (congrArg Prod.fst (run_await (congrArg raising hfound))).trans ?_
  rfl

/-- Two users create accounts at once. -/
def interleaved : List Event :=
  [.create 0 5 9 (65, 66) { exchangeName := "binance", apiKey := "k", apiSecret := "s" },
   .create 1 6 8 (65, 66) { exchangeName := "binance", apiKey := "k", apiSecret := "s" },
   .answer 1 {} {}, .answer 0 {} {}, .answer 1 {} {}, .answer 0 {} {}]

theorem interleaved_apart : AllMeet (step labelledHost) Apart opening interleaved := by
  refine ⟨fun _ i q k hask => (nomatch hask), fun _ i q k hask hkey => ?_, trivial, trivial, trivial, trivial, trivial⟩
  rcases i with _ | i
  · cases hask
    exact absurd (congrArg Prod.fst hkey) (by decide)
  · cases hask

theorem single_interleaved : liveOf (run labelledHost interleaved).world (9, "binance", false) = 1 ∧
    ∀ key, liveOf (run labelledHost interleaved).world key ≤ 1 :=
  ⟨by decide +kernel, (single_run labelledHost interleaved_apart).1⟩

/-- Where a user has two accounts, every further creation fails, and not as one that exists already. -/
theorem create_of_duplicates {userId : UUID} {data : ExchangeAccountCreate} {exchangeName : ExchangeName}
    (hname : ExchangeName.ofValue data.exchangeName = some exchangeName)
    (htwo : 2 ≤ liveOf w (userId, data.exchangeName, data.isTestnet)) (exchange : Exchange) (id : UUID) (draws : Nat × Nat)
    (s : Store) : (Program.run (answers {} exchange) (createExchangeAccount host id userId draws data) s w).1 =
      .error (.raised (.other "MultipleResultsFound" "Multiple rows were found when one or none was required")) := by
  rw [liveOf, List.countP_eq_length_filter] at htwo
  simp only [createExchangeAccount, submit, await, Program.bind, Program.run, findLive_answer exchange w userId hname,
    scalarOneOrNone_many htwo, raising, Program.lift]

/-- A user creates two accounts at once, and neither creation sees the other. -/
def overlapping : List Event :=
  [.create 0 5 9 (65, 66) { exchangeName := "binance", apiKey := "k", apiSecret := "s" },
   .create 1 6 9 (65, 66) { exchangeName := "binance", apiKey := "k", apiSecret := "s" },
   .answer 0 {} {}, .answer 1 {} {}, .answer 0 {} {}, .answer 1 {} {}]

example : liveOf (run labelledHost overlapping).world (9, "binance", false) = 2 := by decide +kernel

end Utos.Api.SingleAccounts
