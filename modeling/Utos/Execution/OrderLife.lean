import Utos.Execution.Interleaving

namespace Utos.Execution.OrderLife

open Coroutine Program Core Core.DomainTypes Core.Exceptions Models OrderState Validator Tracker Executor Engine
open Interleaving

/-- Every write to a status is a self-write or an edge of the table. -/
def FollowsTable (t : OrderTracker) : Prop := ∀ w ∈ t.writes, w.new = w.old ∨ w.new ∈ transitions w.old

/-- The writes to statuses follow the table, and the ids under which an order is
filed and that it carries are its own. Every id of an account belongs to one order. -/
structure Lawful (owner : Key → Nat) (t : OrderTracker) : Prop where
  keyed : ∀ key ref, t.orders.get key = some ref →
    ref < t.size ∧ owner key = ref ∧ (t.objects ref).exchangeAccountId = key.1
  named : ∀ ref < t.size, owner ((t.objects ref).exchangeAccountId, (t.objects ref).result.orderId) = ref
  writes : FollowsTable t

/-- An order stays in its account, and in a terminal status. -/
structure Keeps (t t' : OrderTracker) : Prop where
  size : t.size ≤ t'.size
  account : ∀ ref < t.size, (t'.objects ref).exchangeAccountId = (t.objects ref).exchangeAccountId
  terminal : ∀ ref < t.size, isTerminal (t.objects ref).status → (t'.objects ref).status = (t.objects ref).status

variable {owner : Key → Nat} {t t' : OrderTracker} {ref : Nat} {acct : Option UUID} {orderId : OrderId}
variable {result : OrderResult} {status : ExecutionOrderStatus}

theorem keeps_of_objects (hsize : t'.size = t.size) (hobjects : t'.objects = t.objects) : Keeps t t' where
  size := hsize.ge
  account _ _ := by rw [hobjects]
  terminal _ _ _ := by rw [hobjects]

theorem keeps_refl (t : OrderTracker) : Keeps t t := keeps_of_objects rfl rfl

theorem Keeps.trans {t'' : OrderTracker} (h : Keeps t t') (h' : Keeps t' t'') : Keeps t t'' where
  size := h.size.trans h'.size
  account r hr := (h'.account r (hr.trans_le h.size)).trans (h.account r hr)
  terminal r hr ht := by
    have hsame := h.terminal r hr ht
    exact (h'.terminal r (hr.trans_le h.size) (by rwa [hsame])).trans hsame

theorem keeps_setStatus (hstep : status = (t.objects ref).status ∨ status ∈ transitions (t.objects ref).status) :
    Keeps t (t.setStatus ref status) where
  size := le_rfl
  account r _ := by
    rw [OrderTracker.setStatus_objects]
    split <;> rfl
  terminal r _ ht := by
    rw [OrderTracker.setStatus_objects]
    split
    next h =>
      subst h
      rw [transitions_terminal ht] at hstep
      rcases hstep with rfl | hmem
      · rfl
      · cases hmem
    next => rfl

theorem keeps_setResult : Keeps t (t.setResult ref result) where
  size := le_rfl
  account r _ := by
    rw [OrderTracker.setResult_objects]
    split <;> rfl
  terminal r _ _ := by
    rw [OrderTracker.setResult_objects]
    split <;> rfl

namespace Lawful

theorem setStatus (h : Lawful owner t)
    (hstep : status = (t.objects ref).status ∨ status ∈ transitions (t.objects ref).status) :
    Lawful owner (t.setStatus ref status) where
  keyed key r hr := by
    obtain ⟨hlt, ho, ha⟩ := h.keyed key r hr
    exact ⟨hlt, ho, ((keeps_setStatus hstep).account r hlt).trans ha⟩
  named r hr := by
    have hname := h.named r hr
    rw [OrderTracker.setStatus_objects]
    split <;> exact hname
  writes w hw := by
    rcases List.mem_cons.mp hw with rfl | hw
    · exact hstep
    · exact h.writes w hw

theorem setResult (h : Lawful owner t) (hid : owner ((t.objects ref).exchangeAccountId, result.orderId) = ref) :
    Lawful owner (t.setResult ref result) where
  keyed key r hr := by
    obtain ⟨hlt, ho, ha⟩ := h.keyed key r hr
    exact ⟨hlt, ho, (keeps_setResult.account r hlt).trans ha⟩
  named r hr := by
    rw [OrderTracker.setResult_objects]
    split
    next heq =>
      subst heq
      exact hid
    next => exact h.named r hr
  writes := h.writes

theorem update (h : Lawful owner t) (hid : owner (acct, orderId) = ref) (hstatus : (t.objects ref).status = status)
    (hresult : owner ((t.objects ref).exchangeAccountId, result.orderId) = ref) :
    Lawful owner (t.update acct orderId result (some status)) ∧
      Keeps t (t.update acct orderId result (some status)) := by
  rcases OrderTracker.update_cases acct orderId result status with heq | ⟨r, hr, heq⟩
  · rw [heq]
    exact ⟨h, keeps_refl t⟩
  · have hrr : r = ref := by rw [← (h.keyed _ _ hr).2.1, hid]
    subst hrr
    have hself : status = ((t.setResult r result).objects r).status := by
      rw [OrderTracker.setResult_objects, if_pos rfl, hstatus]
    rw [heq]
    exact ⟨(h.setResult hresult).setStatus (.inl hself), keeps_setResult.trans (keeps_setStatus (.inl hself))⟩

theorem track (h : Lawful owner t) (requestId : UUID) (hid : owner (acct, result.orderId) = t.size) :
    Lawful owner (t.track requestId acct result .pending) where
  keyed key r hr := by
    simp only [OrderTracker.track, Dict.get_set] at hr ⊢
    split at hr
    next hkey =>
      cases hr
      rw [hkey, Function.update_self]
      exact ⟨Nat.lt_succ_self _, hid, rfl⟩
    next =>
      obtain ⟨hlt, ho, ha⟩ := h.keyed key r hr
      rw [Function.update_of_ne hlt.ne]
      exact ⟨Nat.lt_succ_of_lt hlt, ho, ha⟩
  named r hr := by
    simp only [OrderTracker.track] at hr ⊢
    rcases Nat.lt_succ_iff_lt_or_eq.mp hr with hlt | rfl
    · rw [Function.update_of_ne hlt.ne]
      exact h.named r hlt
    · rw [Function.update_self]
      exact hid
  writes := h.writes

theorem reKey (h : Lawful owner t) (hlt : ref < t.size) (hacct : (t.objects ref).exchangeAccountId = acct)
    {new : OrderId} (hnew : owner (acct, new) = ref) :
    Lawful owner (t.reKey acct (t.objects ref).result.orderId new) where
  keyed key r hr := by
    rw [OrderTracker.reKey_size, OrderTracker.reKey_objects]
    unfold OrderTracker.reKey at hr
    split at hr
    next => exact h.keyed key r hr
    next r' hold =>
      have hrr : r' = ref := by
        rw [← (h.keyed _ _ hold).2.1, ← hacct]
        exact h.named ref hlt
      simp only [Dict.get_set, Dict.get_pop] at hr
      split at hr
      next hkey =>
        cases hr
        rw [hkey, hrr]
        exact ⟨hlt, hnew, hacct⟩
      next =>
        split at hr
        · cases hr
        · exact h.keyed key r hr
  named r hr := by
    rw [OrderTracker.reKey_size] at hr
    rw [OrderTracker.reKey_objects]
    exact h.named r hr
  writes w hw := by
    rw [OrderTracker.reKey_writes] at hw
    exact h.writes w hw

end Lawful

theorem keeps_track (requestId : UUID) : Keeps t (t.track requestId acct result .pending) where
  size := Nat.le_succ _
  account r hr := by
    simp only [OrderTracker.track, Function.update_of_ne hr.ne]
  terminal r hr _ := by
    simp only [OrderTracker.track, Function.update_of_ne hr.ne]

theorem keeps_reKey {old new : OrderId} : Keeps t (t.reKey acct old new) :=
  keeps_of_objects (OrderTracker.reKey_size _ _ _) (OrderTracker.reKey_objects _ _ _)

/-- An answer about an order carries an id of it. -/
def told (owner : Key → Nat) (s : ExecutionEngine) : (q : AdapterReq) → AdapterAns q → Prop
  | .placeOrder _ ref _, a =>
      ∀ result, a = .ok result → owner ((s.tracker.objects ref).exchangeAccountId, result.orderId) = ref
  | .getOrder _ ref _ _, a =>
      ∀ result, a = .ok result → owner ((s.tracker.objects ref).exchangeAccountId, result.orderId) = ref
  | _, _ => True

/-- Any call may make any request. -/
def terms (owner : Key → Nat) : Protocol ExecutionEngine AdapterReq AdapterAns Unit where
  inv s := Lawful owner s.tracker
  guar _ s s' := Keeps s.tracker s'.tracker
  rely _ s s' := Keeps s.tracker s'.tracker
  asks _ _ _ := True
  spend _ _ := ()
  told := told owner

theorem fair_terms : (terms owner).Fair (fun _ _ => True) where
  symm _ _ _ := trivial
  spend _ _ _ _ := trivial
  refl _ s := keeps_refl s.tracker
  trans _ _ _ _ h h' := h.trans h'
  guar _ _ _ _ _ h := h
  asks _ _ _ _ _ _ := trivial

/-- What a call knows of the order that it works on. -/
structure Traced (owner : Key → Nat) (acct : Option UUID) (ref : Nat) (s : ExecutionEngine) : Prop where
  lawful : Lawful owner s.tracker
  lt : ref < s.tracker.size
  account : (s.tracker.objects ref).exchangeAccountId = acct

variable {s s' : ExecutionEngine} {adapter : Adapter} {α : Type}

namespace Traced

theorem keeps (h : Traced owner acct ref s) (hi : Lawful owner s'.tracker) (hk : Keeps s.tracker s'.tracker) :
    Traced owner acct ref s' where
  lawful := hi
  lt := h.lt.trans_le hk.size
  account := (hk.account ref h.lt).trans h.account

theorem named (h : Traced owner acct ref s) : owner (acct, (s.tracker.objects ref).result.orderId) = ref := by
  rw [← h.account]
  exact h.lawful.named ref h.lt

theorem of_get (h : Lawful owner s.tracker) (hget : s.tracker.get acct orderId = some ref) :
    Traced owner acct ref s ∧ owner (acct, orderId) = ref := by
  obtain ⟨hlt, hid, ha⟩ := h.keyed _ _ hget
  exact ⟨⟨h, hlt, ha⟩, hid⟩

end Traced

def Stays (owner : Key → Nat) : Except Exn α → Unit → ExecutionEngine → Prop :=
  fun _ _ s => Lawful owner s.tracker

def StaysTraced (owner : Key → Nat) (acct : Option UUID) (ref : Nat) :
    Except Exn α → Unit → ExecutionEngine → Prop :=
  fun _ _ s => Traced owner acct ref s

theorem under_transition {R : Except Exn Unit → Unit → ExecutionEngine → Prop} (h : Traced owner acct ref s)
    (hok : status ∈ transitions (s.tracker.objects ref).status →
      Traced owner acct ref { s with tracker := s.tracker.setStatus ref status } →
        R (.ok ()) () { s with tracker := s.tracker.setStatus ref status })
    (herror : ∀ exc, R (.error exc) () s) : Under (terms owner) (transition ref status) R () s := by
  refine Interleaving.under_transition (fun hmem => ?_) herror
  have hl := h.lawful.setStatus (.inr hmem)
  have hk := keeps_setStatus (.inr hmem)
  exact ⟨hl, hk, hok hmem (h.keeps hl hk)⟩

theorem under_onTracker {R : Except Exn Unit → Unit → ExecutionEngine → Prop} {f : OrderTracker → OrderTracker}
    (h : Traced owner acct ref s) (hl : Lawful owner (f s.tracker)) (hk : Keeps s.tracker (f s.tracker))
    (hR : Traced owner acct ref { s with tracker := f s.tracker } →
      R (.ok ()) () { s with tracker := f s.tracker }) :
    Under (terms owner) (onTracker f) R () s := ⟨hl, hk, hR (h.keeps hl hk)⟩

theorem under_update {R : Except Exn Unit → Unit → ExecutionEngine → Prop} (h : Traced owner acct ref s)
    (hid : owner (acct, orderId) = ref) (hstatus : (s.tracker.objects ref).status = status)
    (hresult : owner (acct, result.orderId) = ref) (hR : ∀ s', Traced owner acct ref s' → R (.ok ()) () s') :
    Under (terms owner) (onTracker (fun t => t.update acct orderId result (some status))) R () s := by
  obtain ⟨hl, hk⟩ := h.lawful.update hid hstatus (h.account.symm ▸ hresult)
  exact under_onTracker h hl hk (hR _)

theorem setStatus_status (t : OrderTracker) (ref : Nat) (status : ExecutionOrderStatus) :
    ((t.setStatus ref status).objects ref).status = status := by
  rw [OrderTracker.setStatus_objects, if_pos rfl]

theorem under_adopt (h : Traced owner acct ref s) (hid : owner (acct, orderId) = ref)
    (hresult : owner (acct, result.orderId) = ref) :
    Under (terms owner) (adopt acct orderId ref result) (StaysTraced owner acct ref) () s := by
  simp only [adopt, bind_eq, under_bind]
  refine under_transition h (fun _ h' => ?_) (fun exc => h)
  exact (under_bind _ _ _).mpr (under_update h' hid (setStatus_status _ _ _) hresult (fun s' h'' => h''))

/-- What comes back from the exchange is about the order. -/
def Answered (owner : Key → Nat) (acct : Option UUID) (ref : Nat) :
    Except Exn OrderResult → Unit → ExecutionEngine → Prop :=
  fun r _ s => Traced owner acct ref s ∧ ∀ result, r = .ok result → owner (acct, result.orderId) = ref

theorem under_execute (x : OrderExecutor) (request : OrderRequest) (h : Traced owner acct ref s) :
    Under (terms owner) (x.execute request adapter ref) (Answered owner acct ref) () s := by
  refine under_mono (under_attempts (Traced owner acct ref) (fun _ result => owner (acct, result.orderId) = ref)
    (fun _ => rfl) (fun _ _ _ => trivial) (fun s s' h hi hk => h.keeps hi hk) (fun s result h ht => ?_) x _ _ _ h)
    (fun r o s' hr => hr.2)
  rw [← h.account]
  exact ht result rfl

theorem under_getOrder (symbol exchangeOrderId : String) (h : Traced owner acct ref s) :
    Under (terms owner) (getOrder symbol exchangeOrderId adapter ref) (Answered owner acct ref) () s := by
  refine (under_await _ _).mpr ⟨trivial, fun answer s' htold hi hk => ?_⟩
  have h' := h.keeps hi hk
  refine ⟨h', fun result hr => ?_⟩
  cases answer with
  | ok result' =>
      cases hr
      rw [← h'.account]
      exact htold result rfl
  | error exc => cases hr

theorem under_refresh (h : Traced owner acct ref s) (hid : owner (acct, orderId) = ref) :
    Under (terms owner) (refresh acct orderId ref adapter) (StaysTraced owner acct ref) () s := by
  simp only [refresh, bind_eq, under_bind, under_read, thenUnder_ok]
  refine under_mono (under_getOrder _ _ h) ?_
  rintro (exc | result) - s' ⟨h', hresult⟩
  · exact h'
  · exact under_adopt h' hid (hresult result rfl)

theorem under_tryCancel (h : Traced owner acct ref s) (hid : owner (acct, orderId) = ref) :
    Under (terms owner) (tryCancel acct orderId ref adapter) (StaysTraced owner acct ref) () s := by
  simp only [tryCancel, bind_eq, under_bind, under_read, thenUnder_ok]
  refine (under_await _ _).mpr ⟨trivial, fun answer s' _ hi hk => ?_⟩
  have h' := h.keeps hi hk
  cases answer with
  | error exc => exact h'
  | ok b =>
      refine (under_bind _ _ _).mpr (under_transition h' (fun _ h'' => ?_) (fun exc => h'))
      simp only [thenUnder_ok, under_bind, under_read]
      exact under_update h'' hid (setStatus_status _ _ _) h''.named (fun s'' h3 => h3)

theorem under_cancelOrder (hs : Lawful owner s.tracker) :
    Under (terms owner) (cancelOrder acct orderId) (Stays owner) () s := by
  simp only [cancelOrder, bind_eq, under_bind, under_read, thenUnder_ok]
  cases hget : s.tracker.get acct orderId with
  | none => exact hs
  | some ref =>
      obtain ⟨h, hid⟩ := Traced.of_get hs hget
      dsimp only
      split
      · exact hs
      · rw [under_bind, under_getAdapter]
        cases adapterFor s acct with
        | error exc => exact hs
        | ok adapter =>
            refine (under_bind _ _ _).mpr (under_transition h (fun _ h' => ?_) (fun exc => hs))
            rw [thenUnder_ok, tryCatch_eq, under_tryCatch]
            refine under_mono (under_tryCancel h' hid) ?_
            rintro (exc | result) _ s' h''
            · dsimp only [elseUnder]
              split
              · exact under_mono (under_refresh h'' hid) (fun r o s'' h3 => h3.lawful)
              · exact h''.lawful
            · exact h''.lawful

theorem under_syncOrder (hs : Lawful owner s.tracker) :
    Under (terms owner) (syncOrder acct orderId) (Stays owner) () s := by
  simp only [syncOrder, bind_eq, under_bind, under_read, thenUnder_ok]
  cases hget : s.tracker.get acct orderId with
  | none => exact hs
  | some ref =>
      obtain ⟨h, hid⟩ := Traced.of_get hs hget
      rw [under_bind, under_getAdapter]
      cases adapterFor s acct with
      | error exc => exact hs
      | ok adapter => exact under_mono (under_refresh h hid) (fun r o s' h' => h'.lawful)

theorem under_cancelOpen :
    Under (terms owner) (cancelOpen result adapter) (Stays owner) () s := by
  simp only [cancelOpen, bind_eq, tryCatch_eq, under_tryCatch, under_bind]
  refine (under_await _ _).mpr ⟨trivial, fun answer s' _ hi _ => ?_⟩
  cases answer with
  | ok b => exact hi
  | error exc =>
      dsimp only [Except.mapError, thenUnder, elseUnder]
      split <;> exact hi

theorem under_markCancelled (hs : Lawful owner s.tracker) :
    Under (terms owner) (markCancelled acct orderId) (Stays owner) () s := by
  simp only [markCancelled, bind_eq, under_bind, under_read, thenUnder_ok]
  cases hget : s.tracker.get acct orderId with
  | none => exact hs
  | some ref =>
      obtain ⟨h, -⟩ := Traced.of_get hs hget
      exact under_transition h (fun _ h' => h'.lawful) (fun exc => hs)

theorem under_cancelEach (results : List OrderResult) (hs : Lawful owner s.tracker) :
    Under (terms owner) (cancelEach acct adapter results) (Stays owner) () s := by
  induction results generalizing s with
  | nil => exact hs
  | cons result rest ih =>
      simp only [cancelEach, bind_eq, under_bind]
      refine under_mono under_cancelOpen ?_
      rintro (exc | cancelled) _ s' hs'
      · exact hs'
      · dsimp only [thenUnder]
        split
        · rw [under_bind]
          refine under_mono (under_markCancelled hs') ?_
          rintro (exc | _) _ s'' hs''
          · exact hs''
          · refine (under_bind _ _ _).mpr (under_mono (ih hs'') ?_)
            rintro (exc | _) _ s3 hs3 <;> exact hs3
        · exact ih hs'

theorem under_cancelAllOrders (symbol : Option String) (hs : Lawful owner s.tracker) :
    Under (terms owner) (cancelAllOrders acct symbol) (Stays owner) () s := by
  simp only [cancelAllOrders, bind_eq, under_bind]
  rw [under_getAdapter]
  cases adapterFor s acct with
  | error exc => exact hs
  | ok adapter =>
      rw [thenUnder_ok, under_bind]
      refine (under_await _ _).mpr ⟨trivial, fun answer s' _ hi _ => ?_⟩
      cases answer with
      | error exc => exact hi
      | ok results => exact under_cancelEach results hi

theorem under_settle {request : OrderRequest} (h : Traced owner request.exchangeAccountId ref s)
    (hresult : owner (request.exchangeAccountId, result.orderId) = ref) :
    Under (terms owner) (settle request ref result) (StaysTraced owner request.exchangeAccountId ref) () s := by
  simp only [settle, bind_eq, under_bind, under_read, thenUnder_ok]
  refine under_onTracker h ?_ ?_ (fun h' => ?_)
  · split
    · exact h.lawful.reKey h.lt h.account hresult
    · exact h.lawful
  · split
    · exact keeps_reKey
    · exact keeps_refl _
  · rw [thenUnder_ok, under_bind]
    refine under_transition h' (fun _ h'' => ?_) (fun exc => h')
    exact (under_bind _ _ _).mpr (under_update h'' hresult (setStatus_status _ _ _) hresult (fun s' h3 => h3))

theorem under_submit {request : OrderRequest} (h : Traced owner request.exchangeAccountId ref s) :
    Under (terms owner) (submit request adapter ref) (StaysTraced owner request.exchangeAccountId ref) () s := by
  simp only [submit, bind_eq, under_bind]
  refine under_transition h (fun _ h' => ?_) (fun exc => h)
  have hnoted : Traced owner request.exchangeAccountId ref
      { s with
        tracker := s.tracker.setStatus ref .submitting
        executions := request.requestId :: s.executions } := ⟨h'.lawful, h'.lt, h'.account⟩
  refine (under_bind _ _ _).mpr ⟨hnoted.lawful, keeps_refl _, ?_⟩
  simp only [under_ret, thenUnder_ok, under_bind, under_read]
  refine under_mono (under_execute _ _ hnoted) ?_
  rintro (exc | result) - s' ⟨hs', hresult⟩
  · exact hs'
  · exact under_settle hs' (hresult result rfl)

theorem under_fail {request : OrderRequest} {exc : Exn} (h : Traced owner request.exchangeAccountId ref s) :
    Under (terms owner) (fail request ref exc : Op OrderResult) (Stays owner) () s := by
  simp only [fail, bind_eq, under_bind]
  refine under_transition h (fun _ h' => ?_) (fun exc => h.lawful)
  simp only [thenUnder_ok, under_bind, under_read]
  exact under_update h' h'.named (setStatus_status _ _ _) h'.named (fun s' h'' => h''.lawful)

variable {localOrderId : Nat → String}

theorem under_placeOrder (hlocal : ∀ acct n, owner (acct, some (localOrderId n)) = n) (request : OrderRequest)
    (hs : Lawful owner s.tracker) :
    Under (terms owner) (placeOrder localOrderId request) (Stays owner) () s := by
  simp only [placeOrder, bind_eq, under_bind, under_read, thenUnder_ok]
  cases s.tracker.getByRequestId request.requestId with
  | some cached => exact hs
  | none =>
      dsimp only
      rw [under_bind, under_getAdapter]
      cases adapterFor s request.exchangeAccountId with
      | error exc => exact hs
      | ok adapter =>
          rw [thenUnder_ok, under_bind, under_lift]
          cases validate request with
          | error exc => exact hs
          | ok _ =>
              simp only [thenUnder_ok, under_bind, createPending, bind_eq, under_read]
              have htracked := hs.track request.requestId
                (show owner (request.exchangeAccountId,
                  (pendingResult request (some (localOrderId s.tracker.size))).orderId) = _ from hlocal _ _)
              refine ⟨htracked, keeps_track _, ?_⟩
              simp only [under_ret, thenUnder_ok, pure_eq, tryCatch_eq, under_tryCatch]
              have hnew : Traced owner request.exchangeAccountId s.tracker.size
                  { s with
                    tracker := s.tracker.track request.requestId request.exchangeAccountId
                      (pendingResult request (some (localOrderId s.tracker.size))) .pending } :=
                ⟨htracked, Nat.lt_succ_self _, by simp [OrderTracker.track]⟩
              refine under_mono (under_submit hnew) ?_
              rintro (exc | result) _ s' hs'
              · exact under_fail hs'
              · exact hs'.lawful

theorem under_perform (hlocal : ∀ acct n, owner (acct, some (localOrderId n)) = n) (c : Call)
    (s : ExecutionEngine) (hs : Lawful owner s.tracker) :
    Under (terms owner) (perform localOrderId c) (fun _ _ _ => True) () s := by
  cases c with
  | registerAdapter acct adapter => exact ⟨hs, keeps_refl _, trivial⟩
  | unregisterAdapter acct => exact ⟨hs, keeps_refl _, trivial⟩
  | placeOrder request =>
      refine (under_bind _ _ _).mpr (under_mono (under_placeOrder hlocal request hs) ?_)
      rintro (exc | result) _ s' hs'
      · trivial
      · exact ⟨hs', keeps_refl _, trivial⟩
  | cancelOrder acct orderId =>
      refine (under_bind _ _ _).mpr (under_mono (under_cancelOrder hs) ?_)
      rintro (exc | result) - s' - <;> trivial
  | cancelAllOrders acct symbol =>
      refine (under_bind _ _ _).mpr (under_mono (under_cancelAllOrders symbol hs) ?_)
      rintro (exc | result) - s' - <;> trivial
  | syncOrder acct orderId =>
      refine (under_bind _ _ _).mpr (under_mono (under_syncOrder hs) ?_)
      rintro (exc | result) - s' - <;> trivial

theorem lawful_empty (owner : Key → Nat) : Lawful owner {} where
  keyed _ _ hr := by cases hr
  named _ hr := absurd hr (Nat.not_lt_zero _)
  writes _ hw := by cases hw

theorem lawful_run (hlocal : ∀ acct n, owner (acct, some (localOrderId n)) = n) {P : Floor}
    (hP : ∃ own, P.Sound (terms owner) (fun _ _ => True) own) {events : List Event}
    (htold : AllMeet (step localOrderId) (Meets (fun _ _ => True) (told owner)) P events) :
    (∃ own, (runEvents localOrderId P events).Sound (terms owner) (fun _ _ => True) own) ∧
      Keeps P.store.tracker (runEvents localOrderId P events).store.tracker := by
  obtain ⟨hsound, hkeeps⟩ :=
    sound_run (o := ()) fair_terms (fun _ _ => trivial) (fun _ _ => rfl)
      (fun c s hs _ => under_perform hlocal c s hs) hP htold
  exact ⟨hsound, hkeeps ()⟩

/-- If every id of an account belongs to one order and the answers carry ids of
the order that they are about, then in every interleaving the writes to statuses
follow the table, and an order that is filled, cancelled or rejected remains so. -/
theorem statuses_conform (executor : OrderExecutor) (hlocal : ∀ acct n, owner (acct, some (localOrderId n)) = n)
    (events later : List Event)
    (htold : AllMeet (step localOrderId) (Meets (fun _ _ => True) (told owner)) (idle executor) (events ++ later)) :
    FollowsTable (runEvents localOrderId (idle executor) (events ++ later)).store.tracker ∧
      ∀ ref < (runEvents localOrderId (idle executor) events).store.tracker.size,
        isTerminal ((runEvents localOrderId (idle executor) events).store.tracker.objects ref).status →
          ((runEvents localOrderId (idle executor) (events ++ later)).store.tracker.objects ref).status =
            ((runEvents localOrderId (idle executor) events).store.tracker.objects ref).status := by
  obtain ⟨hfirst, hsecond⟩ := allMeet_append.mp htold
  have hidle : ∃ own, (idle executor).Sound (terms owner) (fun _ _ => True) own :=
    ⟨_, Pool.sound_idle _ _ (lawful_empty owner)⟩
  obtain ⟨⟨own, hmid⟩, -⟩ := lawful_run hlocal hidle hfirst
  obtain ⟨⟨own', hend⟩, hkeeps⟩ := lawful_run hlocal ⟨own, hmid⟩ hsecond
  have happend : runEvents localOrderId (idle executor) (events ++ later) =
      runEvents localOrderId (runEvents localOrderId (idle executor) events) later := by
    simp only [runEvents, List.foldl_append]
  rw [happend]
  exact ⟨hend.inv.writes, hkeeps.terminal⟩

/-- An order is placed and filled, and a later report has it open. -/
def filledEvents : List Event :=
  [.call 0 (.registerAdapter 1 ⟨"bybit"⟩), .call 1 (.placeOrder (limitBuy 1)),
    .answer 1 (reporting (report "x" "77" "filled")), .resume 1]

def reopenedEvents : List Event :=
  [.call 2 (.syncOrder (some 1) (some "x")), .answer 2 (reporting (report "x" "77" "open")), .resume 2]

/-- The first order has the id x, and the local ids are counted. -/
def ownerOf (key : Key) : Nat := (key.2.getD "").length - 6

theorem ownerOf_localId (acct : Option UUID) (n : Nat) : ownerOf (acct, some (localId n)) = n := by
  unfold ownerOf
  have h := length_localId n
  generalize localId n = id at h ⊢
  simp [h]

theorem told_filled : AllMeet (step localId) (Meets (fun _ _ => True) (told ownerOf)) (idle {})
    (filledEvents ++ reopenedEvents) := by
  have hplaced : ∃ k, (runEvents localId (idle {}) (filledEvents.take 3)).tasks 1 = some (.answered
      (.placeOrder ⟨"bybit"⟩ 0 (placeArgs (limitBuy 1))) (.ok (report "x" "77" "filled")) k) := ⟨_, rfl⟩
  have hsynced : ∃ k, (runEvents localId (idle {}) (filledEvents ++ reopenedEvents.take 2)).tasks 2 =
      some (.answered (.getOrder ⟨"bybit"⟩ 0 "BTCUSDT" "77") (.ok (report "x" "77" "open")) k) := ⟨_, rfl⟩
  obtain ⟨k, hplaced⟩ := hplaced
  obtain ⟨k', hsynced⟩ := hsynced
  refine ⟨trivial, trivial, trivial, fun q a _ hk => ?_, trivial, trivial, fun q a _ hk => ?_, trivial⟩
  · cases hplaced.symm.trans hk
    intro result hr
    cases hr
    rfl
  · cases hsynced.symm.trans hk
    intro result hr
    cases hr
    rfl

theorem statuses_conform_filled :
    FollowsTable (runEvents localId (idle {}) (filledEvents ++ reopenedEvents)).store.tracker ∧
      ∀ ref < (runEvents localId (idle {}) filledEvents).store.tracker.size,
        isTerminal ((runEvents localId (idle {}) filledEvents).store.tracker.objects ref).status →
          ((runEvents localId (idle {}) (filledEvents ++ reopenedEvents)).store.tracker.objects ref).status =
            ((runEvents localId (idle {}) filledEvents).store.tracker.objects ref).status :=
  statuses_conform {} ownerOf_localId filledEvents reopenedEvents told_filled

end Utos.Execution.OrderLife
