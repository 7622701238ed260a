import Utos.Execution.Interleaving

namespace Utos.Execution.Registry

open Coroutine Program Core Core.DomainTypes Core.Exceptions Models OrderState Validator Tracker Executor Engine
open Interleaving

/-- What has been returned for a request leads to the order created for it, and every order is still filed. -/
structure Resolves (s : ExecutionEngine) : Prop where
  returned : ∀ e ∈ s.returned, ∃ ref < s.tracker.size, s.tracker.getByRequestId e.1.requestId = some ref ∧
    s.tracker.get e.1.exchangeAccountId e.2.orderId = some ref ∧ (s.tracker.objects ref).requestId = e.1.requestId
  filed : ∀ ref < s.tracker.size, ∃ key, s.tracker.orders.get key = some ref

/-- A request that is tracked finds its order, in its own account and under the
id that the order carries; one that is not draws an id that is not in use. -/
def Admits (localOrderId : Nat → String) (s : ExecutionEngine) : Call → Prop
  | .placeOrder request =>
      (∀ cached, s.tracker.getByRequestId request.requestId = some cached →
        s.tracker.get request.exchangeAccountId (s.tracker.objects cached).result.orderId = some cached) ∧
      (s.tracker.getByRequestId request.requestId = none →
        s.tracker.get request.exchangeAccountId (some (localOrderId s.tracker.size)) = none)
  | _ => True

/-- The order is filed under the id it carries; if it gets another one, that is
not in use, and nothing has been returned for its request. -/
def Accepts (s : ExecutionEngine) (ref : Nat) (result : OrderResult) : Prop :=
  s.tracker.get (s.tracker.objects ref).exchangeAccountId (s.tracker.objects ref).result.orderId = some ref ∧
    (result.orderId ≠ (s.tracker.objects ref).result.orderId →
      s.tracker.get (s.tracker.objects ref).exchangeAccountId result.orderId = none ∧
        ∀ e ∈ s.returned, e.1.requestId ≠ (s.tracker.objects ref).requestId)

def told (s : ExecutionEngine) : (q : AdapterReq) → AdapterAns q → Prop
  | .placeOrder _ ref _, a => ∀ result, a = .ok result → Accepts s ref result
  | _, _ => True

/-- Requests, keys and orders belong to each other one to one. -/
structure Filed (t : OrderTracker) : Prop where
  resolves : ∀ request key, t.requestIndex.get request = some key →
    ∃ ref, t.orders.get key = some ref ∧ (t.objects ref).requestId = request
  indexed : ∀ key ref, t.orders.get key = some ref →
    ref < t.size ∧ t.requestIndex.get (t.objects ref).requestId = some key
  filed : ∀ ref < t.size, ∃ key, t.orders.get key = some ref

structure Consistent (s : ExecutionEngine) : Prop where
  filed : Filed s.tracker
  returned : ∀ e ∈ s.returned,
    s.tracker.requestIndex.get e.1.requestId = some (e.1.exchangeAccountId, e.2.orderId)

/-- The orders remain those of their requests and accounts. -/
structure Same (t t' : OrderTracker) : Prop where
  size : t.size ≤ t'.size
  request : ∀ ref < t.size, (t'.objects ref).requestId = (t.objects ref).requestId
  account : ∀ ref < t.size, (t'.objects ref).exchangeAccountId = (t.objects ref).exchangeAccountId

variable {t t' : OrderTracker} {s s' : ExecutionEngine} {ref : Nat} {acct : Option UUID} {orderId : OrderId}
variable {result : OrderResult} {status : ExecutionOrderStatus} {request : OrderRequest} {adapter : Adapter}

theorem same_of_objects (hsize : t'.size = t.size) (hobjects : t'.objects = t.objects) : Same t t' where
  size := hsize.ge
  request _ _ := by rw [hobjects]
  account _ _ := by rw [hobjects]

theorem same_refl (t : OrderTracker) : Same t t := same_of_objects rfl rfl

theorem Same.trans {t'' : OrderTracker} (h : Same t t') (h' : Same t' t'') : Same t t'' where
  size := h.size.trans h'.size
  request r hr := (h'.request r (hr.trans_le h.size)).trans (h.request r hr)
  account r hr := (h'.account r (hr.trans_le h.size)).trans (h.account r hr)

/-- The tracker has taken something over that concerns neither its keys nor whose its orders are. -/
structure Touched (t t' : OrderTracker) : Prop where
  orders : t'.orders = t.orders
  requestIndex : t'.requestIndex = t.requestIndex
  size : t'.size = t.size
  request : ∀ r, (t'.objects r).requestId = (t.objects r).requestId
  account : ∀ r, (t'.objects r).exchangeAccountId = (t.objects r).exchangeAccountId

theorem Touched.same (h : Touched t t') : Same t t' :=
  ⟨h.size.ge, fun r _ => h.request r, fun r _ => h.account r⟩

theorem Touched.filed (h : Touched t t') (hf : Filed t) : Filed t' where
  resolves request key hkey := by
    rw [h.requestIndex] at hkey
    obtain ⟨r, hr, hreq⟩ := hf.resolves request key hkey
    exact ⟨r, by rw [h.orders, hr], by rw [h.request, hreq]⟩
  indexed key r hr := by
    rw [h.orders] at hr
    rw [h.size, h.request, h.requestIndex]
    exact hf.indexed key r hr
  filed r hr := by
    rw [h.size] at hr
    rw [h.orders]
    exact hf.filed r hr

theorem touched_refl (t : OrderTracker) : Touched t t := ⟨rfl, rfl, rfl, fun _ => rfl, fun _ => rfl⟩

theorem touched_setStatus (t : OrderTracker) (ref : Nat) (status : ExecutionOrderStatus) :
    Touched t (t.setStatus ref status) where
  orders := rfl
  requestIndex := rfl
  size := rfl
  request r := by
    rw [OrderTracker.setStatus_objects]
    split <;> rfl
  account r := by
    rw [OrderTracker.setStatus_objects]
    split <;> rfl

theorem touched_setResult (t : OrderTracker) (ref : Nat) (result : OrderResult) :
    Touched t (t.setResult ref result) where
  orders := rfl
  requestIndex := rfl
  size := rfl
  request r := by
    rw [OrderTracker.setResult_objects]
    split <;> rfl
  account r := by
    rw [OrderTracker.setResult_objects]
    split <;> rfl

theorem touched_update (t : OrderTracker) (acct : Option UUID) (orderId : OrderId) (result : OrderResult)
    (status : ExecutionOrderStatus) : Touched t (t.update acct orderId result (some status)) := by
  rcases OrderTracker.update_cases (t := t) acct orderId result status with heq | ⟨r, -, heq⟩
  · rw [heq]
    exact touched_refl t
  · rw [heq]
    have hresult := touched_setResult t r result
    have hstatus := touched_setStatus (t.setResult r result) r status
    exact ⟨rfl, rfl, rfl, fun r' => (hstatus.request r').trans (hresult.request r'),
      fun r' => (hstatus.account r').trans (hresult.account r')⟩

theorem filed_track (hf : Filed t) {requestId : UUID} (hrequest : t.requestIndex.get requestId = none)
    (hkey : t.orders.get (acct, result.orderId) = none) : Filed (t.track requestId acct result .pending) where
  resolves r key hr := by
    simp only [OrderTracker.track, Dict.get_set] at hr ⊢
    split at hr
    next hreq =>
      cases hr
      exact ⟨t.size, if_pos rfl, by rw [Function.update_self, hreq]⟩
    next =>
      obtain ⟨ref, href, hreq⟩ := hf.resolves r key hr
      have hne : key ≠ (acct, result.orderId) := fun heq => by rw [heq, hkey] at href; cases href
      exact ⟨ref, by rw [if_neg hne, href], by rw [Function.update_of_ne (hf.indexed key ref href).1.ne, hreq]⟩
  indexed key r hr := by
    simp only [OrderTracker.track, Dict.get_set] at hr ⊢
    split at hr
    next heq =>
      cases hr
      rw [Function.update_self, if_pos rfl, heq]
      exact ⟨Nat.lt_succ_self _, rfl⟩
    next =>
      obtain ⟨hlt, hindex⟩ := hf.indexed key r hr
      rw [Function.update_of_ne hlt.ne, if_neg]
      · exact ⟨Nat.lt_succ_of_lt hlt, hindex⟩
      · intro heq
        rw [heq, hrequest] at hindex
        cases hindex
  filed r hr := by
    simp only [OrderTracker.track, Dict.get_set] at hr ⊢
    rcases Nat.lt_succ_iff_lt_or_eq.mp hr with hlt | rfl
    · obtain ⟨key, hr'⟩ := hf.filed r hlt
      have hne : key ≠ (acct, result.orderId) := fun heq => by rw [heq, hkey] at hr'; cases hr'
      exact ⟨key, by rw [if_neg hne, hr']⟩
    · exact ⟨_, if_pos rfl⟩

theorem same_track (requestId : UUID) : Same t (t.track requestId acct result .pending) where
  size := Nat.le_succ _
  request r hr := by
    simp only [OrderTracker.track, Function.update_of_ne hr.ne]
  account r hr := by
    simp only [OrderTracker.track, Function.update_of_ne hr.ne]

theorem filed_reKey (hf : Filed t) {old new : OrderId} (hold : t.orders.get (acct, old) = some ref)
    (hnew : t.orders.get (acct, new) = none) : Filed (t.reKey acct old new) := by
  have heq : t.reKey acct old new = { t with
      orders := (t.orders.pop (acct, old)).set (acct, new) ref
      requestIndex := t.requestIndex.set (t.objects ref).requestId (acct, new) } := by
    rw [OrderTracker.reKey, hold]
  rw [heq]
  refine ⟨fun r key hr => ?_, fun key r hr => ?_, fun r hr => ?_⟩
  · simp only [Dict.get_set, Dict.get_pop] at hr ⊢
    split at hr
    next hreq =>
      cases hr
      exact ⟨ref, if_pos rfl, hreq.symm⟩
    next hother =>
      obtain ⟨r', hr', hreq⟩ := hf.resolves r key hr
      refine ⟨r', ?_, hreq⟩
      rw [if_neg (fun h => by rw [h, hnew] at hr'; cases hr'), if_neg, hr']
      intro h
      rw [h, hold] at hr'
      cases hr'
      exact hother hreq.symm
  · simp only [Dict.get_set, Dict.get_pop] at hr ⊢
    split at hr
    next hkey =>
      cases hr
      rw [if_pos rfl, hkey]
      exact ⟨(hf.indexed _ _ hold).1, rfl⟩
    next =>
      split at hr
      · cases hr
      next hne =>
        obtain ⟨hlt, hindex⟩ := hf.indexed key r hr
        refine ⟨hlt, ?_⟩
        rw [if_neg, hindex]
        intro hreq
        rw [hreq, (hf.indexed _ _ hold).2] at hindex
        exact hne (Option.some.inj hindex).symm
  · by_cases hrr : r = ref
    · exact ⟨(acct, new), by rw [hrr, Dict.get_set_self]⟩
    · obtain ⟨key, hkey⟩ := hf.filed r hr
      refine ⟨key, ?_⟩
      rw [Dict.get_set, if_neg (fun h => by rw [h, hnew] at hkey; cases hkey), Dict.get_pop, if_neg, hkey]
      intro h
      rw [h, hold] at hkey
      exact hrr (Option.some.inj hkey).symm

theorem same_reKey {old new : OrderId} : Same t (t.reKey acct old new) :=
  same_of_objects (OrderTracker.reKey_size _ _ _) (OrderTracker.reKey_objects _ _ _)

def terms : Protocol ExecutionEngine AdapterReq AdapterAns Unit where
  inv := Consistent
  guar _ s s' := Same s.tracker s'.tracker
  rely _ s s' := Same s.tracker s'.tracker
  asks _ _ _ := True
  spend _ _ := ()
  told := told

theorem fair_terms : terms.Fair (fun _ _ => True) where
  symm _ _ _ := trivial
  spend _ _ _ _ := trivial
  refl _ s := same_refl s.tracker
  trans _ _ _ _ h h' := h.trans h'
  guar _ _ _ _ _ h := h
  asks _ _ _ _ _ _ := trivial

theorem Consistent.touched (h : Consistent s) (ht : Touched s.tracker t') :
    Consistent { s with tracker := t' } where
  filed := ht.filed h.filed
  returned e he := by
    rw [ht.requestIndex]
    exact h.returned e he

theorem steady_transition (ref : Nat) (status : ExecutionOrderStatus) : Steady terms () (transition ref status) := by
  intro s hi
  have htouched := touched_setStatus s.tracker ref status
  have h' := hi.touched htouched
  exact under_transition (fun _ => ⟨h', htouched.same, rfl, h'⟩) (fun _ => ⟨rfl, hi⟩)

theorem steady_update (acct : Option UUID) (orderId : OrderId) (result : OrderResult)
    (status : ExecutionOrderStatus) :
    Steady terms () (onTracker (fun t => t.update acct orderId result (some status))) := by
  refine steady_modify (fun s hi => ?_)
  have htouched := touched_update s.tracker acct orderId result status
  exact ⟨hi.touched htouched, htouched.same⟩

theorem steady_getAdapter (acct : Option UUID) : Steady terms () (getAdapter acct) :=
  steady_read_bind (fun _ _ => steady_lift _)

theorem steady_adopt (acct : Option UUID) (orderId : OrderId) (ref : Nat) (result : OrderResult) :
    Steady terms () (adopt acct orderId ref result) :=
  steady_bind (steady_transition _ _) (fun _ => steady_bind (steady_update _ _ _ _) (fun _ => steady_ret _))

theorem steady_refresh (acct : Option UUID) (orderId : OrderId) (ref : Nat) (adapter : Adapter) :
    Steady terms () (refresh acct orderId ref adapter) :=
  steady_read_bind (fun _ _ => steady_bind (steady_await _ (fun _ _ => trivial) rfl) (fun _ => steady_adopt _ _ _ _))

theorem steady_tryCancel (acct : Option UUID) (orderId : OrderId) (ref : Nat) (adapter : Adapter) :
    Steady terms () (tryCancel acct orderId ref adapter) := by
  refine steady_read_bind (fun s _ => steady_bind (steady_await _ (fun _ _ => trivial) rfl) (fun _ => ?_))
  refine steady_bind (steady_transition _ _) (fun _ => steady_read_bind (fun s' _ => ?_))
  exact steady_bind (steady_update _ _ _ _) (fun _ => steady_ret _)

theorem steady_cancelOrder (acct : Option UUID) (orderId : OrderId) : Steady terms () (cancelOrder acct orderId) := by
  refine steady_read_bind (fun s _ => ?_)
  split
  · exact steady_raise _
  next ref _ =>
    split
    · exact steady_ret _
    · refine steady_bind (steady_getAdapter _) (fun adapter => steady_bind (steady_transition _ _) (fun _ => ?_))
      refine steady_tryCatch (steady_tryCancel _ _ _ _) (fun exc => ?_)
      split
      · exact steady_refresh _ _ _ _
      · exact steady_raise _

theorem steady_syncOrder (acct : Option UUID) (orderId : OrderId) : Steady terms () (syncOrder acct orderId) := by
  refine steady_read_bind (fun s _ => ?_)
  split
  · exact steady_raise _
  · exact steady_bind (steady_getAdapter _) (fun adapter => steady_refresh _ _ _ _)

theorem steady_cancelEach (acct : Option UUID) (adapter : Adapter) (results : List OrderResult) :
    Steady terms () (cancelEach acct adapter results) := by
  induction results with
  | nil => exact steady_ret _
  | cons result rest ih =>
      have hopen : Steady terms () (cancelOpen result adapter) := by
        refine steady_tryCatch (steady_bind (steady_await _ (fun _ _ => trivial) rfl) (fun _ => steady_ret _))
          (fun exc => ?_)
        split
        · exact steady_ret _
        · exact steady_raise _
      have hmark : Steady terms () (markCancelled acct result.orderId) := by
        refine steady_read_bind (fun s _ => ?_)
        split
        · exact steady_ret _
        · exact steady_transition _ _
      refine steady_bind hopen (fun cancelled => ?_)
      split
      · exact steady_bind hmark (fun _ => steady_bind ih (fun _ => steady_ret _))
      · exact ih

theorem steady_cancelAllOrders (acct : Option UUID) (symbol : Option String) :
    Steady terms () (cancelAllOrders acct symbol) :=
  steady_bind (steady_getAdapter _) (fun _ =>
    steady_bind (steady_await _ (fun _ _ => trivial) rfl) (fun results => steady_cancelEach _ _ results))

/-- A placement knows its order. -/
structure Placing (request : OrderRequest) (ref : Nat) (s : ExecutionEngine) : Prop where
  consistent : Consistent s
  lt : ref < s.tracker.size
  requestId : (s.tracker.objects ref).requestId = request.requestId
  account : (s.tracker.objects ref).exchangeAccountId = request.exchangeAccountId

theorem Placing.same (h : Placing request ref s) (hi : Consistent s') (hs : Same s.tracker s'.tracker) :
    Placing request ref s' where
  consistent := hi
  lt := h.lt.trans_le hs.size
  requestId := (hs.request ref h.lt).trans h.requestId
  account := (hs.account ref h.lt).trans h.account

/-- The request leads to the order by the id that is returned. -/
def Placed (request : OrderRequest) (result : OrderResult) (s : ExecutionEngine) : Prop :=
  s.tracker.requestIndex.get request.requestId = some (request.exchangeAccountId, result.orderId)

theorem Placed.touched (h : Placed request result s) (ht : Touched s.tracker t') :
    Placed request result { s with tracker := t' } := by
  unfold Placed
  rw [ht.requestIndex]
  exact h

/-- How a placement ends. -/
def Ends (request : OrderRequest) : Except Exn OrderResult → Unit → ExecutionEngine → Prop :=
  fun r _ s => Consistent s ∧ ∀ result, r = .ok result → Placed request result s

def EndsPlacing (request : OrderRequest) (ref : Nat) : Except Exn OrderResult → Unit → ExecutionEngine → Prop :=
  fun r _ s => Placing request ref s ∧ ∀ result, r = .ok result → Placed request result s

/-- The tracker once the order has the id of the result. -/
def renamed (t : OrderTracker) (request : OrderRequest) (ref : Nat) (result : OrderResult) : OrderTracker :=
  if result.orderId ≠ (t.objects ref).result.orderId then
    t.reKey request.exchangeAccountId (t.objects ref).result.orderId result.orderId
  else t

theorem same_renamed : Same t (renamed t request ref result) := by
  unfold renamed
  split
  · exact same_reKey
  · exact same_refl t

theorem placed_renamed (h : Placing request ref s) (ha : Accepts s ref result) :
    Consistent { s with tracker := renamed s.tracker request ref result } ∧
      Placed request result { s with tracker := renamed s.tracker request ref result } := by
  obtain ⟨hold, hother⟩ := ha
  rw [h.account] at hold hother
  have hold' : s.tracker.orders.get (request.exchangeAccountId, (s.tracker.objects ref).result.orderId) = some ref :=
    hold
  by_cases hnew : result.orderId ≠ (s.tracker.objects ref).result.orderId
  · obtain ⟨hfree, hfirst⟩ := hother hnew
    have hrenamed : renamed s.tracker request ref result = s.tracker.reKey request.exchangeAccountId
        (s.tracker.objects ref).result.orderId result.orderId := if_pos hnew
    have hindex : (renamed s.tracker request ref result).requestIndex = s.tracker.requestIndex.set
        (s.tracker.objects ref).requestId (request.exchangeAccountId, result.orderId) := by
      rw [hrenamed, OrderTracker.reKey, hold']
    refine ⟨⟨?_, fun e he => ?_⟩, ?_⟩
    · rw [hrenamed]
      exact filed_reKey h.consistent.filed hold' hfree
    · dsimp only
      rw [hindex, Dict.get_set_of_ne _ _ _ (hfirst e he)]
      exact h.consistent.returned e he
    · unfold Placed
      dsimp only
      rw [hindex, h.requestId, Dict.get_set_self]
  · have hrenamed : renamed s.tracker request ref result = s.tracker := if_neg hnew
    rw [hrenamed]
    refine ⟨h.consistent, ?_⟩
    have hkey := (h.consistent.filed.indexed _ _ hold').2
    rwa [h.requestId, ← not_not.mp hnew] at hkey

theorem under_settle (h : Placing request ref s) (ha : Accepts s ref result) :
    Under terms (settle request ref result) (EndsPlacing request ref) () s := by
  simp only [settle, bind_eq, under_bind, under_read, thenUnder_ok]
  obtain ⟨hconsistent, hplaced⟩ := placed_renamed h ha
  have h' := h.same hconsistent same_renamed
  refine ⟨hconsistent, same_renamed, ?_⟩
  simp only [under_ret, thenUnder_ok, under_bind]
  refine under_transition (fun _ => ?_) (fun exc => ⟨h', fun _ hr => by cases hr⟩)
  have hstatus := touched_setStatus (renamed s.tracker request ref result) ref (mapExchangeStatus result.status)
  have h2 := h'.same (hconsistent.touched hstatus) hstatus.same
  refine ⟨h2.consistent, hstatus.same, (under_bind _ _ _).mpr ?_⟩
  have hupdate := touched_update
    ((renamed s.tracker request ref result).setStatus ref (mapExchangeStatus result.status)) request.exchangeAccountId result.orderId result (mapExchangeStatus result.status)
  have h3 := h2.same (h2.consistent.touched hupdate) hupdate.same
  refine ⟨h3.consistent, hupdate.same, h3, fun result' hr => ?_⟩
  cases hr
  exact (hplaced.touched hstatus).touched hupdate

theorem under_submit (h : Placing request ref s) :
    Under terms (submit request adapter ref) (EndsPlacing request ref) () s := by
  simp only [submit, bind_eq, under_bind]
  refine under_transition (fun _ => ?_) (fun exc => ⟨h, fun _ hr => by cases hr⟩)
  have hstatus := touched_setStatus s.tracker ref .submitting
  have h' := h.same (h.consistent.touched hstatus) hstatus.same
  have hnoted : Placing request ref { s with
      tracker := s.tracker.setStatus ref .submitting
      executions := request.requestId :: s.executions } :=
    ⟨⟨h'.consistent.filed, h'.consistent.returned⟩, h'.lt, h'.requestId, h'.account⟩
  refine ⟨h'.consistent, hstatus.same, (under_bind _ _ _).mpr ⟨hnoted.consistent, same_refl _, ?_⟩⟩
  simp only [under_ret, thenUnder_ok, under_bind, under_read]
  refine under_mono (under_attempts (Placing request ref) (fun s result => Accepts s ref result) (fun _ => rfl)
    (fun _ _ _ => trivial) (fun s s' h hi hs => h.same hi hs) (fun s result _ ht => ?_) _ _ _ _ hnoted) ?_
  · exact ht result rfl
  rintro (exc | result) o s' ⟨-, hs', hresult⟩
  · exact ⟨hs', fun _ hr => by cases hr⟩
  · exact under_settle hs' (hresult result rfl)

theorem ends_error (hs : Consistent s) (exc : Exn) : Ends request (.error exc) () s :=
  ⟨hs, fun _ hr => by cases hr⟩

theorem under_fail {exc : Exn} (hs : Consistent s) :
    Under terms (fail request ref exc : Op OrderResult) (Ends request) () s := by
  simp only [fail, bind_eq, under_bind]
  have hstatus := touched_setStatus s.tracker ref .failed
  have h' := hs.touched hstatus
  refine under_transition (fun _ => ⟨h', hstatus.same, ?_⟩) (fun exc => ends_error hs exc)
  simp only [thenUnder_ok, under_bind, under_read]
  refine under_mono (steady_update _ _ _ _ _ h') ?_
  rintro (exc' | _) o s' ⟨-, hs'⟩ <;> exact ends_error hs' _

variable {localOrderId : Nat → String}

theorem Filed.getByRequestId_none (hf : Filed t) {requestId : UUID} (h : t.getByRequestId requestId = none) :
    t.requestIndex.get requestId = none := by
  cases hkey : t.requestIndex.get requestId with
  | none => rfl
  | some key =>
      obtain ⟨r, hr, -⟩ := hf.resolves requestId key hkey
      rw [OrderTracker.getByRequestId, hkey, Option.bind_some, hr] at h
      cases h

theorem Filed.getByRequestId_some (hf : Filed t) {requestId : UUID} (h : t.getByRequestId requestId = some ref) :
    (t.objects ref).requestId = requestId := by
  obtain ⟨key, hkey, hr⟩ := Option.bind_eq_some_iff.mp h
  obtain ⟨r, hr', hreq⟩ := hf.resolves requestId key hkey
  cases hr.symm.trans hr'
  exact hreq

theorem under_placeOrder (hs : Consistent s) (ha : Admits localOrderId s (.placeOrder request)) :
    Under terms (placeOrder localOrderId request) (Ends request) () s := by
  simp only [placeOrder, bind_eq, under_bind, under_read, thenUnder_ok]
  cases hcached : s.tracker.getByRequestId request.requestId with
  | some cached =>
      refine ⟨hs, fun result hr => ?_⟩
      cases hr
      have hkey := (hs.filed.indexed _ _ (ha.1 cached hcached)).2
      rwa [hs.filed.getByRequestId_some hcached] at hkey
  | none =>
      have hnone := hs.filed.getByRequestId_none hcached
      dsimp only
      rw [under_bind, under_getAdapter]
      cases adapterFor s request.exchangeAccountId with
      | error exc => exact ends_error hs exc
      | ok adapter =>
          rw [thenUnder_ok, under_bind, under_lift]
          cases validate request with
          | error exc => exact ends_error hs exc
          | ok _ =>
              simp only [thenUnder_ok, under_bind, createPending, bind_eq, under_read]
              have htracked : Consistent { s with
                  tracker := s.tracker.track request.requestId request.exchangeAccountId
                    (pendingResult request (some (localOrderId s.tracker.size))) .pending } := by
                refine ⟨filed_track hs.filed hnone (ha.2 hcached), fun e he => ?_⟩
                have hreturned := hs.returned e he
                rw [← hreturned]
                refine Dict.get_set_of_ne _ _ _ (fun heq => ?_)
                rw [heq, hnone] at hreturned
                cases hreturned
              refine ⟨htracked, same_track _, ?_⟩
              simp only [under_ret, thenUnder_ok, pure_eq, tryCatch_eq, under_tryCatch]
              refine under_mono (under_submit ⟨htracked, Nat.lt_succ_self _, by simp [OrderTracker.track],
                by simp [OrderTracker.track]⟩) ?_
              rintro (exc | result) o s' ⟨hs', hresult⟩
              · exact under_fail hs'.consistent
              · exact ⟨hs'.consistent, hresult⟩

theorem under_perform (c : Call) (s : ExecutionEngine) (hs : Consistent s) (ha : Admits localOrderId s c) :
    Under terms (perform localOrderId c) (fun _ _ _ => True) () s := by
  have hsteady : ∀ {α : Type} {p : Op α}, Steady terms () p →
      Under terms (Program.bind p (fun _ => .ret ()) : Op Unit) (fun _ _ _ => True) () s := by
    intro α p hp
    exact under_mono (steady_bind hp (fun _ => steady_ret _) s hs) (fun _ _ _ _ => trivial)
  cases c with
  | registerAdapter acct adapter => exact ⟨⟨hs.filed, hs.returned⟩, same_refl _, trivial⟩
  | unregisterAdapter acct => exact ⟨⟨hs.filed, hs.returned⟩, same_refl _, trivial⟩
  | placeOrder request =>
      refine (under_bind _ _ _).mpr (under_mono (under_placeOrder hs ha) ?_)
      rintro (exc | result) o s' ⟨hs', hplaced⟩
      · trivial
      · exact ⟨⟨hs'.filed, List.forall_mem_cons.mpr ⟨hplaced result rfl, hs'.returned⟩⟩, same_refl _, trivial⟩
  | cancelOrder acct orderId => exact hsteady (steady_cancelOrder acct orderId)
  | cancelAllOrders acct symbol => exact hsteady (steady_cancelAllOrders acct symbol)
  | syncOrder acct orderId => exact hsteady (steady_syncOrder acct orderId)

theorem consistent_idle (executor : OrderExecutor) : Consistent (idle executor).store where
  filed := {
    resolves := fun _ _ h => (by cases h)
    indexed := fun _ _ h => (by cases h)
    filed := fun _ h => absurd h (Nat.not_lt_zero _) }
  returned _ h := by cases h

theorem Consistent.resolves (h : Consistent s) : Resolves s where
  returned e he := by
    have hkey := h.returned e he
    obtain ⟨ref, hr, hreq⟩ := h.filed.resolves _ _ hkey
    exact ⟨ref, (h.filed.indexed _ _ hr).1, Option.bind_eq_some_iff.mpr ⟨_, hkey, hr⟩, hr, hreq⟩
  filed := h.filed.filed

/-- In every interleaving whose calls are admitted and whose answers are
accepted, what was returned for a request leads to its own order. -/
theorem resolves_of_allMeet (executor : OrderExecutor) (events : List Event)
    (hevents : AllMeet (step localOrderId) (Meets (Admits localOrderId) told) (idle executor) events) :
    Resolves (runEvents localOrderId (idle executor) events).store := by
  have hidle : ∃ own, (idle executor).Sound terms (fun _ _ => True) own :=
    ⟨_, Pool.sound_idle _ _ (consistent_idle executor)⟩
  obtain ⟨⟨own, hsound⟩, -⟩ :=
    sound_run (o := ()) fair_terms (fun _ _ => trivial) (fun _ _ => rfl) under_perform hidle hevents
  exact hsound.inv.resolves

/-- Two requests are placed one after the other, and the exchange gives the orders these ids. -/
def twoPlaced (first second : String) : List Event :=
  [.call 0 (.registerAdapter 1 ⟨"bybit"⟩),
    .call 1 (.placeOrder (limitBuy 1)), .answer 1 (reporting (report first "77" "open")), .resume 1,
    .call 2 (.placeOrder (limitBuy 2)), .answer 2 (reporting (report second "78" "open")), .resume 2]

/-- The floor as the exchange's answer to the second order comes in. -/
abbrev beforeSecond (first second : String) : Floor :=
  runEvents localId (idle {}) ((twoPlaced first second).take 6)

theorem admitted_two : AllMeet (step localId) (Meets (Admits localId) told) (idle {}) (twoPlaced "x" "y") := by
  have hfirst : ∃ k, (runEvents localId (idle {}) ((twoPlaced "x" "y").take 3)).tasks 1 = some (.answered
      (.placeOrder ⟨"bybit"⟩ 0 (placeArgs (limitBuy 1))) (.ok (report "x" "77" "open")) k) := ⟨_, rfl⟩
  have hsecond : ∃ k, (beforeSecond "x" "y").tasks 2 = some (.answered
      (.placeOrder ⟨"bybit"⟩ 1 (placeArgs (limitBuy 2))) (.ok (report "y" "78" "open")) k) := ⟨_, rfl⟩
  have hnew : (runEvents localId (idle {}) ((twoPlaced "x" "y").take 4)).store.tracker.getByRequestId 2 = none := by
    decide +kernel
  obtain ⟨k, hfirst⟩ := hfirst
  obtain ⟨k', hsecond⟩ := hsecond
  refine ⟨trivial, ⟨fun cached h => ?_, fun _ => ?_⟩, trivial, fun q a _ hk => ?_, ⟨fun cached h => ?_, fun _ => ?_⟩,
    trivial, fun q a _ hk => ?_, trivial⟩
  · cases h
  · rfl
  · cases hfirst.symm.trans hk
    intro result hr
    cases hr
    refine ⟨by rfl, fun _ => ⟨by rfl, fun e he => by cases he⟩⟩
  · cases hnew.symm.trans h
  · decide +kernel
  · cases hsecond.symm.trans hk
    intro result hr
    cases hr
    refine ⟨by decide +kernel, fun _ => ⟨by decide +kernel, by decide +kernel⟩⟩

theorem resolves_of_allMeet_two : Resolves (runEvents localId (idle {}) (twoPlaced "x" "y")).store :=
  resolves_of_allMeet {} (twoPlaced "x" "y") admitted_two

/-- Both orders come back with an empty id: the second takes the place of the first. -/
theorem empty_ids_collide :
    (runEvents localId (idle {}) (twoPlaced "" "")).store.returned =
        [(limitBuy 2, report "" "78" "open"), (limitBuy 1, report "" "77" "open")] ∧
      (runEvents localId (idle {}) (twoPlaced "" "")).store.tracker.getByRequestId 1 = some 1 ∧
      ((runEvents localId (idle {}) (twoPlaced "" "")).store.tracker.objects 1).requestId = 2 ∧
      ¬ Resolves (runEvents localId (idle {}) (twoPlaced "" "")).store := by
  have hreturned : (runEvents localId (idle {}) (twoPlaced "" "")).store.returned =
      [(limitBuy 2, report "" "78" "open"), (limitBuy 1, report "" "77" "open")] := by decide +kernel
  have hget : (runEvents localId (idle {}) (twoPlaced "" "")).store.tracker.getByRequestId 1 = some 1 := by
    decide +kernel
  have hrequest : ((runEvents localId (idle {}) (twoPlaced "" "")).store.tracker.objects 1).requestId = 2 := by
    decide +kernel
  refine ⟨hreturned, hget, hrequest, fun h => ?_⟩
  obtain ⟨ref, -, hr, -, hown⟩ := h.returned (limitBuy 1, report "" "77" "open") (by simp [hreturned])
  cases hget.symm.trans hr
  rw [hrequest] at hown
  cases hown

end Utos.Execution.Registry
