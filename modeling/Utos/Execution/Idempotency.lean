import Utos.Execution.Interleaving

namespace Utos.Execution.Idempotency

open Coroutine Program Core Core.DomainTypes Core.Exceptions Models OrderState Validator Tracker Executor Engine
open Interleaving

/-- The index of requests leads to orders, and an order that is filed under its
local id is found there by its own request and by no other. -/
structure Indexed (localOrderId : Nat → String) (t : OrderTracker) : Prop where
  resolves : ∀ request key, t.requestIndex.get request = some key → ∃ ref, t.orders.get key = some ref
  ownKey : ∀ acct n ref, t.orders.get (acct, some (localOrderId n)) = some ref → ref = n
  ownRequest : ∀ request acct n, t.requestIndex.get request = some (acct, some (localOrderId n)) →
    n < t.size ∧ (t.objects n).requestId = request
  tracked : ∀ ref < t.size, ∃ key, t.requestIndex.get (t.objects ref).requestId = some key

/-- What the placement of another order leaves of the order. -/
structure Leaves (localOrderId : Nat → String) (ref : Nat) (t t' : OrderTracker) : Prop where
  size : t.size ≤ t'.size
  object : ref < t.size → t'.objects ref = t.objects ref
  key : ref < t.size → ∀ acct,
    t'.orders.get (acct, some (localOrderId ref)) = t.orders.get (acct, some (localOrderId ref))

/-- A step of the placement of the order: no request drops out of the index. -/
structure Moves (localOrderId : Nat → String) (ref : Nat) (t t' : OrderTracker) : Prop where
  indexed : Indexed localOrderId t'
  leaves : ∀ r, r ≠ ref → Leaves localOrderId r t t'
  keeps : ∀ request key, t.requestIndex.get request = some key → ∃ key', t'.requestIndex.get request = some key'

variable {localOrderId : Nat → String} {t t' : OrderTracker} {ref : Nat} {acct : Option UUID} {orderId : OrderId}
variable {result : OrderResult} {status : ExecutionOrderStatus} {request : OrderRequest}

theorem leaves_refl (ref : Nat) (t : OrderTracker) : Leaves localOrderId ref t t :=
  ⟨le_rfl, fun _ => rfl, fun _ _ => rfl⟩

theorem Leaves.trans {t'' : OrderTracker} (h : Leaves localOrderId ref t t') (h' : Leaves localOrderId ref t' t'') :
    Leaves localOrderId ref t t'' where
  size := h.size.trans h'.size
  object hlt := (h'.object (hlt.trans_le h.size)).trans (h.object hlt)
  key hlt a := (h'.key (hlt.trans_le h.size) a).trans (h.key hlt a)

theorem moves_refl (h : Indexed localOrderId t) : Moves localOrderId ref t t :=
  ⟨h, fun r _ => leaves_refl r t, fun _ key hkey => ⟨key, hkey⟩⟩

theorem Moves.trans {t'' : OrderTracker} (h : Moves localOrderId ref t t') (h' : Moves localOrderId ref t' t'') :
    Moves localOrderId ref t t'' where
  indexed := h'.indexed
  leaves r hr := (h.leaves r hr).trans (h'.leaves r hr)
  keeps request key hkey := by
    obtain ⟨key', hkey'⟩ := h.keeps request key hkey
    exact h'.keeps request key' hkey'

theorem moves_assign (ref : Nat) (h : Indexed localOrderId t) {f : TrackedOrder → TrackedOrder}
    (hf : ∀ o, (f o).requestId = o.requestId) : Moves localOrderId ref t (t.assign ref f) := by
  have hrequest : ∀ r, ((t.assign ref f).objects r).requestId = (t.objects r).requestId := by
    intro r
    by_cases hr : r = ref
    · subst hr
      simp [OrderTracker.assign, hf]
    · simp [OrderTracker.assign, hr]
  refine ⟨⟨h.resolves, h.ownKey, fun request a n hn => ?_, fun r hr => ?_⟩, fun r hr => ?_,
    fun _ key hkey => ⟨key, hkey⟩⟩
  · rw [hrequest]
    exact h.ownRequest request a n hn
  · rw [hrequest]
    exact h.tracked r hr
  · exact ⟨le_rfl, fun _ => by simp [OrderTracker.assign, hr], fun _ _ => rfl⟩

theorem moves_setStatus (h : Indexed localOrderId t) : Moves localOrderId ref t (t.setStatus ref status) := by
  have hassign := moves_assign ref h (f := fun o => { o with status := status }) (fun _ => rfl)
  exact ⟨⟨h.resolves, h.ownKey, hassign.indexed.ownRequest, hassign.indexed.tracked⟩,
    fun r hr => ⟨le_rfl, (hassign.leaves r hr).object, fun _ _ => rfl⟩, hassign.keeps⟩

theorem moves_setResult (h : Indexed localOrderId t) : Moves localOrderId ref t (t.setResult ref result) :=
  moves_assign ref h (fun _ => rfl)

theorem moves_update (h : Indexed localOrderId t) (hown : ∀ r, t.get acct orderId = some r → r = ref) :
    Moves localOrderId ref t (t.update acct orderId result (some status)) := by
  rcases OrderTracker.update_cases acct orderId result status with heq | ⟨r, hr, heq⟩
  · rw [heq]
    exact moves_refl h
  · rw [heq, hown r hr]
    have hresult : Moves localOrderId ref t (t.setResult ref result) := moves_setResult h
    exact hresult.trans (moves_setStatus hresult.indexed)

theorem moves_track (hinj : Function.Injective localOrderId) (h : Indexed localOrderId t) (requestId : UUID)
    (hid : result.orderId = some (localOrderId t.size)) :
    Moves localOrderId t.size t (t.track requestId acct result .pending) := by
  have hindex : ∀ r key, t.requestIndex.get r = some key →
      ∃ key', (t.track requestId acct result .pending).requestIndex.get r = some key' := by
    intro r key hkey
    simp only [OrderTracker.track, Dict.get_set]
    split
    · exact ⟨_, rfl⟩
    · exact ⟨key, hkey⟩
  refine ⟨⟨fun r key hkey => ?_, fun a n r hr => ?_, fun r a n hn => ?_, fun r hr => ?_⟩,
    fun r hr => ⟨Nat.le_succ _, fun hlt => ?_, fun hlt a => ?_⟩, hindex⟩
  · simp only [OrderTracker.track, Dict.get_set] at hkey ⊢
    split at hkey
    · cases hkey
      exact ⟨t.size, if_pos rfl⟩
    · obtain ⟨ref, href⟩ := h.resolves r key hkey
      split
      · exact ⟨_, rfl⟩
      · exact ⟨ref, href⟩
  · simp only [OrderTracker.track, Dict.get_set, hid] at hr
    split at hr
    next hkey =>
      cases hr
      simp only [Prod.mk.injEq, Option.some.injEq] at hkey
      exact (hinj hkey.2).symm
    next => exact h.ownKey a n r hr
  · simp only [OrderTracker.track, Dict.get_set, hid] at hn ⊢
    split at hn
    next hreq =>
      simp only [Option.some.injEq, Prod.mk.injEq] at hn
      rw [← hinj hn.2, Function.update_self]
      exact ⟨Nat.lt_succ_self _, hreq.symm⟩
    next =>
      obtain ⟨hlt, hreq⟩ := h.ownRequest r a n hn
      rw [Function.update_of_ne hlt.ne]
      exact ⟨Nat.lt_succ_of_lt hlt, hreq⟩
  · rcases Nat.lt_succ_iff_lt_or_eq.mp hr with hlt | rfl
    · obtain ⟨key, hkey⟩ := h.tracked r hlt
      have hsame : (t.track requestId acct result .pending).objects r = t.objects r :=
        Function.update_of_ne hlt.ne _ _
      rw [hsame]
      exact hindex _ key hkey
    · simp only [OrderTracker.track, Function.update_self, Dict.get_set_self]
      exact ⟨_, rfl⟩
  · exact Function.update_of_ne hlt.ne _ _
  · simp only [OrderTracker.track, Dict.get_set, hid]
    rw [if_neg]
    intro hkey
    simp only [Prod.mk.injEq, Option.some.injEq] at hkey
    exact hr (hinj hkey.2)

theorem moves_reKey (hinj : Function.Injective localOrderId) (h : Indexed localOrderId t)
    {new : OrderId} (hnew : ∀ n, new ≠ some (localOrderId n))
    (hget : t.orders.get (acct, some (localOrderId ref)) = some ref) :
    Moves localOrderId ref t (t.reKey acct (some (localOrderId ref)) new) := by
  have heq : t.reKey acct (some (localOrderId ref)) new = { t with
      orders := (t.orders.pop (acct, some (localOrderId ref))).set (acct, new) ref
      requestIndex := t.requestIndex.set (t.objects ref).requestId (acct, new) } := by
    rw [OrderTracker.reKey, hget]
  have hindex : ∀ r key, t.requestIndex.get r = some key →
      ∃ key', (t.requestIndex.set (t.objects ref).requestId (acct, new)).get r = some key' := by
    intro r key hkey
    rw [Dict.get_set]
    split
    · exact ⟨_, rfl⟩
    · exact ⟨key, hkey⟩
  rw [heq]
  refine ⟨⟨fun r key hkey => ?_, fun a n r hr => ?_, fun r a n hn => ?_, fun r hr => ?_⟩,
    fun r hr => ⟨le_rfl, fun _ => rfl, fun _ a => ?_⟩, hindex⟩
  · simp only [Dict.get_set, Dict.get_pop] at hkey ⊢
    split at hkey
    · cases hkey
      exact ⟨ref, if_pos rfl⟩
    next hother =>
      obtain ⟨r', hr'⟩ := h.resolves r key hkey
      split
      · exact ⟨ref, rfl⟩
      · split
        next hold =>
          subst hold
          exact absurd (h.ownRequest r acct ref hkey).2.symm hother
        next => exact ⟨r', hr'⟩
  · simp only [Dict.get_set, Dict.get_pop] at hr
    split at hr
    next hkey =>
      simp only [Prod.mk.injEq] at hkey
      exact absurd hkey.2.symm (hnew n)
    next =>
      split at hr
      · cases hr
      · exact h.ownKey a n r hr
  · simp only [Dict.get_set] at hn
    split at hn
    · simp only [Option.some.injEq, Prod.mk.injEq] at hn
      exact absurd hn.2 (hnew n)
    · exact h.ownRequest r a n hn
  · obtain ⟨key, hkey⟩ := h.tracked r hr
    exact hindex _ key hkey
  · simp only [Dict.get_set, Dict.get_pop, Prod.mk.injEq, Option.some.injEq]
    rw [if_neg (fun hkey => hnew r hkey.2.symm), if_neg (fun hkey => hr (hinj hkey.2))]

/-- No request is dispatched twice, and what has been dispatched is in the index. -/
structure Once (localOrderId : Nat → String) (s : ExecutionEngine) : Prop where
  indexed : Indexed localOrderId s.tracker
  nodup : s.executions.Nodup
  started : ∀ r ∈ s.executions, ∃ key, s.tracker.requestIndex.get r = some key

/-- The exchange returns no local id. -/
def told (localOrderId : Nat → String) : (q : AdapterReq) → AdapterAns q → Prop
  | .placeOrder _ _ _, a => ∀ result, a = .ok result → ∀ n, result.orderId ≠ some (localOrderId n)
  | _, _ => True

/-- A placement owns the order that it works on, and asks nothing before it has tracked it. -/
def terms (localOrderId : Nat → String) : Protocol ExecutionEngine AdapterReq AdapterAns Nat where
  inv := Once localOrderId
  guar ref s s' := ∀ r, r ≠ ref → Leaves localOrderId r s.tracker s'.tracker
  rely ref s s' := Leaves localOrderId ref s.tracker s'.tracker
  asks ref s _ := ref < s.tracker.size
  spend ref _ := ref
  told _ := told localOrderId

theorem fair_terms : (terms localOrderId).Fair (· ≠ ·) where
  symm _ _ h := h.symm
  spend _ _ _ h := h
  refl ref s := leaves_refl ref s.tracker
  trans _ _ _ _ h h' := h.trans h'
  guar _ _ _ _ h hg := hg _ h.symm
  asks _ _ _ _ h hr := lt_of_lt_of_le h hr.size

variable {s s' : ExecutionEngine} {adapter : Adapter} {α : Type}

/-- The order carries its local id, as it does until the exchange has answered. -/
structure Mine (localOrderId : Nat → String) (request : OrderRequest) (ref : Nat) (s : ExecutionEngine) : Prop where
  once : Once localOrderId s
  lt : ref < s.tracker.size
  id : (s.tracker.objects ref).result.orderId = some (localOrderId ref)

/-- The order is still filed under its local id. -/
structure Waiting (localOrderId : Nat → String) (request : OrderRequest) (ref : Nat) (s : ExecutionEngine) : Prop
    extends Mine localOrderId request ref s where
  filed : s.tracker.orders.get (request.exchangeAccountId, some (localOrderId ref)) = some ref

theorem Waiting.leaves (h : Waiting localOrderId request ref s) (hi : Once localOrderId s')
    (hl : Leaves localOrderId ref s.tracker s'.tracker) : Waiting localOrderId request ref s' where
  once := hi
  lt := h.lt.trans_le hl.size
  id := by rw [hl.object h.lt, h.id]
  filed := by rw [hl.key h.lt, h.filed]

theorem Once.moves (h : Once localOrderId s) (hm : Moves localOrderId ref s.tracker t') :
    Once localOrderId { s with tracker := t' } where
  indexed := hm.indexed
  nodup := h.nodup
  started r hr := by
    obtain ⟨key, hkey⟩ := h.started r hr
    exact hm.keeps r key hkey

theorem under_onTracker {R : Except Exn Unit → Nat → ExecutionEngine → Prop} {f : OrderTracker → OrderTracker}
    (h : Once localOrderId s) (hm : Moves localOrderId ref s.tracker (f s.tracker))
    (hR : Once localOrderId { s with tracker := f s.tracker } → R (.ok ()) ref { s with tracker := f s.tracker }) :
    Under (terms localOrderId) (onTracker f) R ref s := ⟨h.moves hm, hm.leaves, hR (h.moves hm)⟩

theorem under_transition {R : Except Exn Unit → Nat → ExecutionEngine → Prop} (h : Once localOrderId s)
    (hok : Once localOrderId { s with tracker := s.tracker.setStatus ref status } →
      R (.ok ()) ref { s with tracker := s.tracker.setStatus ref status })
    (herror : ∀ exc, R (.error exc) ref s) : Under (terms localOrderId) (transition ref status) R ref s := by
  have hm : Moves localOrderId ref s.tracker (s.tracker.setStatus ref status) := moves_setStatus h.indexed
  exact Interleaving.under_transition (fun _ => ⟨h.moves hm, hm.leaves, hok (h.moves hm)⟩) herror

/-- What comes back from the exchange has no local id. -/
def Answered (localOrderId : Nat → String) (request : OrderRequest) (ref : Nat) :
    Except Exn OrderResult → Nat → ExecutionEngine → Prop :=
  fun r o s => o = ref ∧ Waiting localOrderId request ref s ∧
    ∀ result, r = .ok result → ∀ n, result.orderId ≠ some (localOrderId n)

theorem under_execute (x : OrderExecutor) (h : Waiting localOrderId request ref s) :
    Under (terms localOrderId) (x.execute request adapter ref) (Answered localOrderId request ref) ref s := by
  refine under_attempts (Waiting localOrderId request ref)
    (fun _ result => ∀ n, result.orderId ≠ some (localOrderId n)) (fun _ => rfl) (fun _ _ h => h.lt)
    (fun s s' h hi hl => h.leaves hi hl) (fun s result _ ht => ?_) x _ _ _ h
  exact ht result rfl

/-- A placement that has failed has not yet taken over a result. -/
def Settled (localOrderId : Nat → String) (request : OrderRequest) (ref : Nat) :
    Except Exn OrderResult → Nat → ExecutionEngine → Prop
  | .ok _, o, s => o = ref ∧ Once localOrderId s
  | .error _, o, s => o = ref ∧ Mine localOrderId request ref s

theorem under_settle (hinj : Function.Injective localOrderId) (h : Waiting localOrderId request ref s)
    (hresult : ∀ n, result.orderId ≠ some (localOrderId n)) :
    Under (terms localOrderId) (settle request ref result) (Settled localOrderId request ref) ref s := by
  simp only [settle, bind_eq, under_bind, under_read, thenUnder_ok, h.id]
  have hmoves := moves_reKey hinj h.once.indexed hresult h.filed
  have hget : (s.tracker.reKey request.exchangeAccountId (some (localOrderId ref)) result.orderId).get
      request.exchangeAccountId result.orderId = some ref := by
    simp only [OrderTracker.reKey, h.filed, OrderTracker.get, Dict.get_set_self]
  refine under_onTracker h.once ?_ (fun h' => ?_)
  · rw [if_pos (hresult ref)]
    exact hmoves
  · simp only [if_pos (hresult ref)] at h' ⊢
    rw [thenUnder_ok, under_bind]
    refine under_transition h' (fun h'' => ?_) (fun exc => ⟨rfl, h', ?_, ?_⟩)
    · refine (under_bind _ _ _).mpr (under_onTracker h'' (moves_update h''.indexed (fun r hr => ?_))
        (fun h3 => ⟨rfl, h3⟩))
      exact Option.some.inj (hr.symm.trans hget)
    · exact h.lt.trans_le (OrderTracker.reKey_size _ _ _).ge
    · rw [OrderTracker.reKey_objects, h.id]

theorem under_submit (hinj : Function.Injective localOrderId) (h : Waiting localOrderId request ref s)
    (hnew : request.requestId ∉ s.executions)
    (hkey : ∃ key, s.tracker.requestIndex.get request.requestId = some key) :
    Under (terms localOrderId) (submit request adapter ref) (Settled localOrderId request ref) ref s := by
  simp only [submit, bind_eq, under_bind]
  refine under_transition h.once (fun h' => ?_) (fun exc => ⟨rfl, h.toMine⟩)
  have hstarted : Once localOrderId { s with
      tracker := s.tracker.setStatus ref .submitting
      executions := request.requestId :: s.executions } :=
    ⟨h'.indexed, List.nodup_cons.mpr ⟨hnew, h.once.nodup⟩, List.forall_mem_cons.mpr ⟨hkey, h'.started⟩⟩
  have hid : ((s.tracker.setStatus ref .submitting).objects ref).result.orderId = some (localOrderId ref) := by
    rw [OrderTracker.setStatus_objects, if_pos rfl, h.id]
  refine (under_bind _ _ _).mpr ⟨hstarted, fun r _ => leaves_refl _ _, ?_⟩
  simp only [under_ret, thenUnder_ok, under_bind, under_read]
  refine under_mono (under_execute _ ⟨⟨hstarted, h.lt, hid⟩, h.filed⟩) ?_
  rintro (exc | result) o s' ⟨rfl, hs', hresult⟩
  · exact ⟨rfl, hs'.toMine⟩
  · exact under_settle hinj hs' (hresult result rfl)

theorem under_fail {exc : Exn} (h : Mine localOrderId request ref s) :
    Under (terms localOrderId) (fail request ref exc : Op OrderResult) (fun _ _ s' => Once localOrderId s') ref s := by
  simp only [fail, bind_eq, under_bind]
  refine under_transition h.once (fun h' => ?_) (fun exc => h.once)
  simp only [thenUnder_ok, under_bind, under_read]
  refine under_onTracker h' (moves_update h'.indexed (fun r hr => ?_)) (fun h'' => h'')
  rw [OrderTracker.setStatus_objects, if_pos rfl, h.id] at hr
  exact h.once.indexed.ownKey _ _ _ hr

theorem Indexed.getByRequestId (h : Indexed localOrderId t) {requestId : UUID} :
    t.getByRequestId requestId = none ↔ t.requestIndex.get requestId = none := by
  unfold OrderTracker.getByRequestId
  cases hkey : t.requestIndex.get requestId with
  | none => simp
  | some key =>
      obtain ⟨ref, href⟩ := h.resolves requestId key hkey
      simp [href]

theorem under_placeOrder (hinj : Function.Injective localOrderId) (request : OrderRequest)
    (hs : Once localOrderId s) :
    Under (terms localOrderId) (placeOrder localOrderId request) (fun _ _ s' => Once localOrderId s')
      s.tracker.size s := by
  simp only [placeOrder, bind_eq, under_bind, under_read, thenUnder_ok]
  cases hcached : s.tracker.getByRequestId request.requestId with
  | some cached => exact hs
  | none =>
      have hnone := hs.indexed.getByRequestId.mp hcached
      have hnew : request.requestId ∉ s.executions := by
        intro hmem
        obtain ⟨key, hkey⟩ := hs.started _ hmem
        cases hnone.symm.trans hkey
      rw [under_bind, under_getAdapter]
      cases adapterFor s request.exchangeAccountId with
      | error exc => exact hs
      | ok adapter =>
          simp only [thenUnder_ok, under_bind, under_lift]
          cases validate request with
          | error exc => exact hs
          | ok _ =>
              simp only [thenUnder_ok, under_bind, createPending, bind_eq, under_read]
              refine under_onTracker hs (moves_track hinj hs.indexed _ rfl) (fun h => ?_)
              simp only [under_ret, thenUnder_ok, pure_eq, tryCatch_eq, under_tryCatch]
              refine under_mono (under_submit hinj ⟨⟨h, Nat.lt_succ_self _, ?_⟩, ?_⟩ hnew ?_) ?_
              · simp [OrderTracker.track, pendingResult]
              · simp [OrderTracker.track, pendingResult]
              · exact ⟨_, Dict.get_set_self _ _ _⟩
              · rintro (exc | result) o s' ⟨rfl, hs'⟩
                · exact under_fail hs'
                · exact hs'

/-- The calls that place orders, and those that set up what they need. -/
def Places : Call → Prop
  | .placeOrder _ | .registerAdapter _ _ | .unregisterAdapter _ => True
  | .cancelOrder _ _ | .cancelAllOrders _ _ | .syncOrder _ _ => False

theorem under_perform (hinj : Function.Injective localOrderId) {c : Call} (hc : Places c)
    (hs : Once localOrderId s) :
    Under (terms localOrderId) (perform localOrderId c) (fun _ _ _ => True) s.tracker.size s := by
  have hsame : ∀ {s' : ExecutionEngine}, s'.tracker = s.tracker → s'.executions = s.executions →
      Once localOrderId s' := by
    intro s' ht he
    exact ⟨ht ▸ hs.indexed, he ▸ hs.nodup, by rw [ht, he]; exact hs.started⟩
  cases c with
  | registerAdapter acct adapter => exact ⟨hsame rfl rfl, fun _ _ => leaves_refl _ _, trivial⟩
  | unregisterAdapter acct => exact ⟨hsame rfl rfl, fun _ _ => leaves_refl _ _, trivial⟩
  | placeOrder request =>
      refine (under_bind _ _ _).mpr (under_mono (under_placeOrder hinj request hs) ?_)
      rintro (exc | result) o s' hs'
      · trivial
      · exact ⟨⟨hs'.indexed, hs'.nodup, hs'.started⟩, fun _ _ => leaves_refl _ _, trivial⟩
  | cancelOrder _ _ | cancelAllOrders _ _ | syncOrder _ _ => exact hc.elim

/-- The calls under way own tracked orders, and each another one. -/
structure Apart (localOrderId : Nat → String) (own : Nat → Option Nat) (P : Floor) : Prop where
  sound : P.Sound (terms localOrderId) (· ≠ ·) own
  lt : ∀ i ref, own i = some ref → ref < P.store.tracker.size

theorem size_of_wrote {s s' : ExecutionEngine} (h : (terms localOrderId).Wrote ref s s') :
    s.tracker.size ≤ s'.tracker.size :=
  (fair_terms.wrote (Nat.succ_ne_self ref).symm h).size

theorem apart_step (hinj : Function.Injective localOrderId) {P : Floor}
    (hP : ∃ own, Apart localOrderId own P) (e : Event)
    (he : Meets (fun _ c => Places c) (fun _ => told localOrderId) P e) :
    ∃ own, Apart localOrderId own (step localOrderId P e) := by
  obtain ⟨own, hP⟩ := hP
  cases e with
  | call i c =>
      obtain ⟨hs, hwrote⟩ := hP.sound.start (i := i) fair_terms (fun j r _ hr => (hP.lt j r hr).ne')
        (under_perform hinj he hP.sound.inv)
      have hsize := size_of_wrote hwrote
      have htask : (step localOrderId P (.call i c)).tasks i =
          some ((perform localOrderId c).advance P.store).1 := Function.update_self _ _ _
      cases hadvance : ((perform localOrderId c).advance P.store).1 with
      | done r =>
          refine ⟨_, hs.forget (htask.trans (congrArg some hadvance)), fun j r hr => ?_⟩
          rcases Pool.update_eq_some hr with ⟨-, hx⟩ | ⟨hj, hr⟩
          · cases hx
          · rw [Function.update_of_ne hj] at hr
            exact (hP.lt j r hr).trans_le hsize
      | asked q k =>
          refine ⟨_, hs, fun j r hr => ?_⟩
          rcases Pool.update_eq_some hr with ⟨-, hx⟩ | ⟨-, hr⟩
          · cases hx
            have hok := hs.task (htask.trans (congrArg some hadvance)) (Function.update_self _ _ _)
            exact hok.1
          · exact (hP.lt j r hr).trans_le hsize
      | answered q a k => exact absurd hadvance advance_ne_answered
  | answer i answers =>
      obtain ⟨hs, hstore⟩ := sound_answer localOrderId fair_terms (fun _ _ => rfl) hP.sound i answers
      exact ⟨own, hs, hstore.symm ▸ hP.lt⟩
  | resume i =>
      obtain ⟨hs, hrely⟩ := sound_resume localOrderId fair_terms hP.sound he
      refine ⟨own, hs, fun j r hr => (hP.lt j r hr).trans_le ?_⟩
      by_cases hji : own i = some r
      · exact (hrely (r + 1) (fun o ho => by cases hji.symm.trans ho; exact (Nat.succ_ne_self r).symm)).size
      · exact (hrely r (fun o ho heq => hji (heq ▸ ho))).size

theorem once_idle (executor : OrderExecutor) : Once localOrderId (idle executor).store where
  indexed := {
    resolves := fun _ _ h => (by cases h)
    ownKey := fun _ _ _ h => (by cases h)
    ownRequest := fun _ _ _ h => (by cases h)
    tracked := fun _ h => absurd h (Nat.not_lt_zero _) }
  nodup := List.nodup_nil
  started _ h := by cases h

/-- A request that is tracked is answered from the tracker. -/
theorem placeOrder_tracked {s : ExecutionEngine} (hs : Once localOrderId s) {request : OrderRequest}
    (htracked : ∃ ref < s.tracker.size, (s.tracker.objects ref).requestId = request.requestId) :
    ∃ result, (placeOrder localOrderId request).advance s = (.done (.ok result), s) := by
  obtain ⟨ref, hlt, hrequest⟩ := htracked
  obtain ⟨key, hkey⟩ := hs.indexed.tracked ref hlt
  rw [hrequest] at hkey
  cases hcached : s.tracker.getByRequestId request.requestId with
  | none => cases (hs.indexed.getByRequestId.mp hcached).symm.trans hkey
  | some cached =>
      simp only [placeOrder, bind_eq, Program.bind, Program.read, advance, hcached, pure_eq]
      exact ⟨_, rfl⟩

/-- However placements interleave, if the exchange returns no local id, no request is dispatched twice, and a call
for a request that is tracked returns at once and leaves everything as it is. -/
theorem placed_once (hinj : Function.Injective localOrderId) (executor : OrderExecutor) (events : List Event)
    (hevents : AllMeet (step localOrderId) (Meets (fun _ c => Places c) (fun _ => told localOrderId)) (idle executor)
      events) :
    (runEvents localOrderId (idle executor) events).store.executions.Nodup ∧ ∀ request : OrderRequest,
      (∃ ref < (runEvents localOrderId (idle executor) events).store.tracker.size,
        ((runEvents localOrderId (idle executor) events).store.tracker.objects ref).requestId = request.requestId) →
      ∃ result, (placeOrder localOrderId request).advance (runEvents localOrderId (idle executor) events).store =
        (.done (.ok result), (runEvents localOrderId (idle executor) events).store) := by
  have hidle : ∃ own, Apart localOrderId own (idle executor) :=
    ⟨_, Pool.sound_idle _ _ (once_idle executor), fun _ _ h => (by cases h)⟩
  obtain ⟨own, hP⟩ := foldl_of_allMeet (I := fun P => ∃ own, Apart localOrderId own P)
    (fun P e hP he => apart_step hinj hP e he) hidle hevents
  exact ⟨hP.sound.inv.nodup, fun request htracked => placeOrder_tracked hP.sound.inv htracked⟩

/-- The same request is placed twice before the exchange answers, and once after it. -/
def thriceEvents : List Event :=
  [.call 0 (.registerAdapter 1 ⟨"bybit"⟩), .call 1 (.placeOrder (limitBuy 1)), .call 2 (.placeOrder (limitBuy 1)),
    .answer 1 (reporting (report "x" "77" "open")), .resume 1, .call 3 (.placeOrder (limitBuy 1))]

theorem localId_injective : Function.Injective localId := by
  intro m n h
  have hm := length_localId m
  have hn := length_localId n
  rw [h] at hm
  omega

theorem placed_once_thrice :
    (runEvents localId (idle {}) thriceEvents).store.executions.Nodup ∧ ∀ request : OrderRequest,
      (∃ ref < (runEvents localId (idle {}) thriceEvents).store.tracker.size,
        ((runEvents localId (idle {}) thriceEvents).store.tracker.objects ref).requestId = request.requestId) →
      ∃ result, (placeOrder localId request).advance (runEvents localId (idle {}) thriceEvents).store =
        (.done (.ok result), (runEvents localId (idle {}) thriceEvents).store) := by
  refine placed_once localId_injective {} thriceEvents
    ⟨trivial, trivial, trivial, trivial, fun q a _ hk => ?_, trivial, trivial⟩
  have hplaced : ∃ k, (runEvents localId (idle {}) (thriceEvents.take 4)).tasks 1 = some (.answered
      (.placeOrder ⟨"bybit"⟩ 0 (placeArgs (limitBuy 1))) (.ok (report "x" "77" "open")) k) := ⟨_, rfl⟩
  obtain ⟨k, hplaced⟩ := hplaced
  cases hplaced.symm.trans hk
  intro result hr n hid
  cases hr
  have hlength := length_localId n
  rw [← Option.some.inj hid] at hlength
  have hx : "x".length = 1 := by decide
  omega

end Utos.Execution.Idempotency
