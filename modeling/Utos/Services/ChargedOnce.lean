import Utos.Coroutine.Trace
import Utos.Services.Billing

namespace Utos.Services.ChargedOnce

open Core Core.DomainTypes Core.Exceptions Coroutine Program Billing

/-- A payment under way: its charge, and the answer once there is one. -/
structure Flight where
  charge : Charge
  answer : Option (Except Exn PaymentResult) := none

def Flight.task (f : Flight) : Task BillingService Charge Ans Exn PaymentResult :=
  match f.answer with
  | none => .asked f.charge (afterCharge f.charge.invoiceId f.charge.provider)
  | some answer => .answered f.charge answer (afterCharge f.charge.invoiceId f.charge.provider)

/-- The transaction ids that the charge of the payment has brought. -/
def Flight.booked (f : Flight) : List (Option String) := f.answer.elim [] successes

def Flies (P : Desk) (t : Nat) (f : Flight) : Prop := P.tasks t = some f.task

def Open (invoice : Invoice) : Prop := invoice.status ≠ .paid ∧ invoice.status ≠ .cancelled

/-- No payment of the invoice is under way. -/
def Quiet (P : Desk) (i : UUID) : Prop := ∀ t f, Flies P t f → f.charge.invoiceId ≠ i

/-- A payment that gets to its charge starts on an invoice that is neither paid nor
cancelled, with no other payment of it under way; an invoice is cancelled only
while none is under way. -/
def Meets (P : Desk) : Step → Prop
  | .processPayment _ i providerName => ∀ invoice, P.store.invoices.get i = some invoice →
      providerName ∈ P.store.providers → Open invoice ∧ Quiet P i
  | .cancelInvoice i => ∀ invoice, P.store.invoices.get i = some invoice → invoice.status = .pending → Quiet P i
  | _ => True

/-- How an invoice stands: its record, its successful charges and the payment under way. -/
inductive Phase (P : Desk) (i : UUID) : Prop
  | absent (hget : P.store.invoices.get i = none) (hcharges : P.world i = []) (hquiet : Quiet P i)
  | unpaid {invoice : Invoice} (hget : P.store.invoices.get i = some invoice) (hstatus : invoice.status ≠ .paid)
      (hcharges : P.world i = []) (hquiet : Quiet P i)
  | paid {invoice : Invoice} (hget : P.store.invoices.get i = some invoice) (hstatus : invoice.status = .paid)
      (hcharges : P.world i = [invoice.transactionId]) (hquiet : Quiet P i)
  | flying {invoice : Invoice} {t : Nat} {f : Flight} (hget : P.store.invoices.get i = some invoice)
      (hopen : Open invoice) (hflies : Flies P t f) (hinvoice : f.charge.invoiceId = i)
      (halone : ∀ t' f', Flies P t' f' → f'.charge.invoiceId = i → t' = t) (hcharges : P.world i = f.booked)

structure Sound (P : Desk) : Prop where
  tasks : ∀ t task, P.tasks t = some task → (∃ r, task = .done r) ∨ ∃ f, Flies P t f
  phase : ∀ i, Phase P i
  fresh : ∀ i, P.store.issued ≤ i → P.store.invoices.get i = none

variable {P P' : Desk} {i : UUID} {t : Nat} {f f' : Flight}

theorem Flight.task_injective (h : f.task = f'.task) : f = f' := by
  obtain ⟨charge, answer⟩ := f
  obtain ⟨charge', answer'⟩ := f'
  cases answer <;> cases answer' <;> simp only [Flight.task, Task.asked.injEq, Task.answered.injEq, reduceCtorEq] at h
  · rw [h.1]
  · obtain ⟨rfl, hanswer, -⟩ := h
    cases hanswer
    rfl

theorem Flies.eq (h : Flies P t f) (h' : Flies P t f') : f = f' :=
  Flight.task_injective (Option.some.inj (h.symm.trans h'))

theorem task_ne_done (f : Flight) (r : Except Exn PaymentResult) : f.task ≠ .done r := by
  obtain ⟨charge, answer⟩ := f
  cases answer <;> simp [Flight.task]

/-- What an invoice's phase depends on. -/
structure SameAt (P P' : Desk) (i : UUID) : Prop where
  get : P'.store.invoices.get i = P.store.invoices.get i
  charges : P'.world i = P.world i
  flies : ∀ t f, f.charge.invoiceId = i → (Flies P' t f ↔ Flies P t f)

theorem SameAt.quiet (h : SameAt P P' i) (hq : Quiet P i) : Quiet P' i :=
  fun t f hf hi => hq t f ((h.flies t f hi).mp hf) hi

theorem Phase.same (hp : Phase P i) (h : SameAt P P' i) : Phase P' i := by
  cases hp with
  | absent hget hcharges hquiet => exact .absent (h.get.trans hget) (h.charges.trans hcharges) (h.quiet hquiet)
  | unpaid hget hstatus hcharges hquiet =>
      exact .unpaid (h.get.trans hget) hstatus (h.charges.trans hcharges) (h.quiet hquiet)
  | paid hget hstatus hcharges hquiet =>
      exact .paid (h.get.trans hget) hstatus (h.charges.trans hcharges) (h.quiet hquiet)
  | flying hget hopen hflies hinvoice halone hcharges =>
      exact .flying (h.get.trans hget) hopen ((h.flies _ _ hinvoice).mpr hflies) hinvoice
        (fun t' f' hf' hi' => halone t' f' ((h.flies _ _ hi').mp hf') hi') (h.charges.trans hcharges)

/-- What is paid or cancelled stays as it is. -/
def Settles (P P' : Desk) : Prop := ∀ i invoice, P.store.invoices.get i = some invoice →
  ¬ Open invoice → P'.store.invoices.get i = some invoice

theorem Sound.next (hs : Sound P) {i : UUID} (hother : ∀ j, j ≠ i → SameAt P P' j) (hphase : Phase P' i)
    (htasks : ∀ t task, P'.tasks t = some task → (∃ r, task = .done r) ∨ ∃ f, Flies P' t f)
    (hissued : P.store.issued ≤ P'.store.issued) (hnew : P'.store.issued ≤ i → P'.store.invoices.get i = none) :
    Sound P' := by
  refine ⟨htasks, fun j => ?_, fun j hj => ?_⟩
  · by_cases hji : j = i
    · exact hji ▸ hphase
    · exact (hs.phase j).same (hother j hji)
  · by_cases hji : j = i
    · subst hji
      exact hnew hj
    · rw [(hother j hji).get]
      exact hs.fresh j (hissued.trans hj)

theorem Sound.write (hs : Sound P) {store : BillingService} {i : UUID}
    (hget : ∀ j, j ≠ i → store.invoices.get j = P.store.invoices.get j) (hphase : Phase { P with store } i)
    (hissued : P.store.issued ≤ store.issued) (hnew : store.issued ≤ i → store.invoices.get i = none) :
    Sound { P with store } :=
  hs.next (fun j hj => ⟨hget j hj, rfl, fun _ _ _ => Iff.rfl⟩) hphase hs.tasks hissued hnew

/-- The desk after one task has had its turn. -/
def turned (P : Desk) (store : BillingService) (charges : Charges) (t : Nat)
    (task : Task BillingService Charge Ans Exn PaymentResult) : Desk :=
  ⟨store, charges, Function.update P.tasks t (some task)⟩

variable {store : BillingService} {charges : Charges} {task : Task BillingService Charge Ans Exn PaymentResult}

theorem turned_tasks_self : (turned P store charges t task).tasks t = some task := Function.update_self _ _ _

theorem turned_tasks_of_ne {t' : Nat} (h : t' ≠ t) : (turned P store charges t task).tasks t' = P.tasks t' :=
  Function.update_of_ne h _ _

theorem flies_turned_self : Flies (turned P store charges t task) t f ↔ task = f.task := by
  rw [Flies, turned_tasks_self, Option.some.injEq]

theorem flies_turned_of_ne {t' : Nat} (h : t' ≠ t) : Flies (turned P store charges t task) t' f ↔ Flies P t' f := by
  rw [Flies, turned_tasks_of_ne h, Flies]

theorem Sound.turn (hs : Sound P) (hget : ∀ j, j ≠ i → store.invoices.get j = P.store.invoices.get j)
    (hcharges : ∀ j, j ≠ i → charges j = P.world j) (hbefore : ∀ f, Flies P t f → f.charge.invoiceId = i)
    (hafter : (∃ r, task = .done r) ∨ ∃ f : Flight, task = f.task ∧ f.charge.invoiceId = i)
    (hphase : Phase (turned P store charges t task) i) (hissued : P.store.issued = store.issued)
    (hnew : store.issued ≤ i → store.invoices.get i = none) : Sound (turned P store charges t task) := by
  refine hs.next (fun j hj => ⟨hget j hj, hcharges j hj, fun t' f hf => ?_⟩) hphase (fun t' task' ht' => ?_)
    hissued.le hnew
  · by_cases ht : t' = t
    · subst ht
      refine iff_of_false (fun hflies => ?_) (fun hflies => hj (hf.symm.trans (hbefore f hflies)))
      have htask := flies_turned_self.mp hflies
      rcases hafter with ⟨r, hdone⟩ | ⟨f', hf', hi⟩
      · exact task_ne_done f r (htask.symm.trans hdone)
      · cases Flight.task_injective (hf'.symm.trans htask)
        exact hj (hf.symm.trans hi)
    · exact flies_turned_of_ne ht
  · by_cases ht : t' = t
    · subst ht
      rw [turned_tasks_self, Option.some.injEq] at ht'
      subst ht'
      exact hafter.imp id (fun ⟨f, hf, _⟩ => ⟨f, flies_turned_self.mpr hf⟩)
    · rw [turned_tasks_of_ne ht] at ht'
      exact (hs.tasks t' task' ht').imp id (fun ⟨f, hf⟩ => ⟨f, (flies_turned_of_ne ht).mpr hf⟩)

theorem quiet_turned_done {r : Except Exn PaymentResult} (h : ∀ t' f, Flies P t' f → f.charge.invoiceId = i → t' = t) :
    Quiet (turned P store charges t (.done r)) i := by
  intro t' f hflies hi
  by_cases ht : t' = t
  · subst ht
    exact task_ne_done f r (flies_turned_self.mp hflies).symm
  · exact ht (h t' f ((flies_turned_of_ne ht).mp hflies) hi)

theorem advance_processPayment (i : UUID) (providerName : String) (s : BillingService) :
    (∃ exc, (processPayment i providerName).advance s = (.done (.error exc), s)) ∨
    ∃ invoice charge, s.invoices.get i = some invoice ∧ providerName ∈ s.providers ∧ charge.invoiceId = i ∧
      (processPayment i providerName).advance s = (Flight.task { charge }, s) := by
  simp only [processPayment, bind_eq, Program.bind, Program.read, Program.advance]
  cases hget : s.invoices.get i with
  | none => exact .inl ⟨_, rfl⟩
  | some invoice =>
      by_cases hprovider : providerName ∈ s.providers
      · simp only [if_pos hprovider]
        exact .inr ⟨invoice, _, rfl, hprovider, rfl, rfl⟩
      · simp only [if_neg hprovider]
        exact .inl ⟨_, rfl⟩

theorem settles_refl (P : Desk) : Settles P P := fun _ _ hget _ => hget

theorem settles_of_open (hget : ∀ j, j ≠ i → P'.store.invoices.get j = P.store.invoices.get j)
    (hopen : ∀ invoice, P.store.invoices.get i = some invoice → Open invoice) : Settles P P' := by
  intro j invoice hj hnot
  by_cases hji : j = i
  · subst hji
    exact absurd (hopen invoice hj) hnot
  · exact (hget j hji).trans hj

/-- An invoice that nobody pays and that is open has not been charged. -/
theorem Sound.uncharged (hs : Sound P) {invoice : Invoice} (hget : P.store.invoices.get i = some invoice)
    (hopen : Open invoice) (hquiet : Quiet P i) : P.world i = [] := by
  cases hs.phase i with
  | absent _ hcharges _ => exact hcharges
  | unpaid _ _ hcharges _ => exact hcharges
  | paid hget' hstatus _ _ =>
      cases hget.symm.trans hget'
      exact absurd hstatus hopen.1
  | flying _ _ hflies hinvoice _ _ => exact absurd hinvoice (hquiet _ _ hflies)

theorem sound_processPayment (hs : Sound P) {i : UUID} {providerName : String}
    (hm : Meets P (.processPayment t i providerName)) : Sound (step P (.processPayment t i providerName)) ∧
      Settles P (step P (.processPayment t i providerName)) := by
  simp only [step]
  split
  next hnone =>
    have hidle : ∀ f, ¬ Flies P t f := fun f hf => by rw [hf] at hnone; cases hnone
    have hstart : P.start t (processPayment i providerName) = turned P
        ((processPayment i providerName).advance P.store).2 P.world t
        ((processPayment i providerName).advance P.store).1 := rfl
    rw [hstart]
    rcases advance_processPayment i providerName P.store with
      ⟨exc, hadv⟩ | ⟨invoice, charge, hget, hprovider, rfl, hadv⟩
    · rw [hadv]
      refine ⟨hs.turn (i := i) (fun _ _ => rfl) (fun _ _ => rfl) (fun f hf => absurd hf (hidle f)) (.inl ⟨_, rfl⟩) ?_
        rfl (hs.fresh i), settles_refl P⟩
      refine (hs.phase i).same ⟨rfl, rfl, fun t' f _ => ?_⟩
      by_cases ht : t' = t
      · subst ht
        exact iff_of_false (fun h => task_ne_done f _ (flies_turned_self.mp h).symm) (hidle f)
      · exact flies_turned_of_ne ht
    · rw [hadv]
      obtain ⟨hopen, hquiet⟩ := hm invoice hget hprovider
      refine ⟨hs.turn (fun _ _ => rfl) (fun _ _ => rfl) (fun f hf => absurd hf (hidle f))
        (.inr ⟨{ charge }, rfl, rfl⟩) ?_ rfl (hs.fresh _), settles_refl P⟩
      refine .flying hget hopen (flies_turned_self.mpr rfl) rfl (fun t' f hflies hi => ?_)
        (hs.uncharged hget hopen hquiet)
      by_contra ht
      exact hquiet t' f ((flies_turned_of_ne ht).mp hflies) hi
  next => exact ⟨hs, settles_refl P⟩

theorem Sound.asked (hs : Sound P) {charge : Charge} {k : Except Exn PaymentResult → Op PaymentResult}
    (h : P.tasks t = some (.asked charge k)) : Flies P t { charge } := by
  obtain ⟨r, hr⟩ | ⟨⟨charge', none | answer⟩, hf⟩ := hs.tasks t _ h
  · cases hr
  · have htask := Option.some.inj (h.symm.trans hf)
    simp only [Flight.task, Task.asked.injEq] at htask
    rw [htask.1]
    exact hf
  · simpa [Flight.task] using h.symm.trans hf

theorem Sound.answered (hs : Sound P) {charge : Charge} {answer : Except Exn PaymentResult}
    {k : Except Exn PaymentResult → Op PaymentResult} (h : P.tasks t = some (.answered charge answer k)) :
    Flies P t ⟨charge, some answer⟩ ∧ k = afterCharge charge.invoiceId charge.provider := by
  obtain ⟨r, hr⟩ | ⟨⟨charge', none | answer'⟩, hf⟩ := hs.tasks t _ h
  · cases hr
  · simpa [Flight.task] using h.symm.trans hf
  · have htask := Option.some.inj (h.symm.trans hf)
    simp only [Flight.task, Task.answered.injEq] at htask
    obtain ⟨rfl, hanswer, hk⟩ := htask
    cases hanswer
    exact ⟨hf, eq_of_heq hk⟩

/-- A payment under way is the only one of its invoice, which is open. -/
theorem Sound.flight (hs : Sound P) (hf : Flies P t f) :
    ∃ invoice, P.store.invoices.get f.charge.invoiceId = some invoice ∧ Open invoice ∧
      P.world f.charge.invoiceId = f.booked ∧
      ∀ t' f', Flies P t' f' → f'.charge.invoiceId = f.charge.invoiceId → t' = t := by
  cases hs.phase f.charge.invoiceId with
  | absent _ _ hquiet => exact absurd rfl (hquiet t f hf)
  | unpaid _ _ _ hquiet => exact absurd rfl (hquiet t f hf)
  | paid _ _ _ hquiet => exact absurd rfl (hquiet t f hf)
  | @flying invoice t' f' hget hopen hflies hinvoice halone hcharges =>
      cases halone t f hf rfl
      cases hflies.eq hf
      exact ⟨invoice, hget, hopen, hcharges, halone⟩

theorem sound_charge (hs : Sound P) (answer : Except Exn PaymentResult) :
    Sound (step P (.charge t answer)) ∧ Settles P (step P (.charge t answer)) := by
  simp only [step, Pool.act]
  split
  next charge k htask =>
    have hf := hs.asked htask
    obtain ⟨invoice, hget, hopen, hcharges, halone⟩ := hs.flight hf
    obtain rfl : k = afterCharge charge.invoiceId charge.provider := by
      simpa [Flight.task] using htask.symm.trans hf
    refine ⟨hs.turn (i := charge.invoiceId) (fun _ _ => rfl) (fun j hj => Function.update_of_ne hj _ _)
      (fun f hf' => by rw [← hf.eq hf']) (.inr ⟨⟨charge, some answer⟩, rfl, rfl⟩) ?_ rfl (hs.fresh _), settles_refl P⟩
    refine .flying (f := ⟨charge, some answer⟩) hget hopen (flies_turned_self.mpr rfl) rfl
      (fun t' f' hflies hi => ?_) ?_
    · by_contra ht
      exact ht (halone t' f' ((flies_turned_of_ne ht).mp hflies) hi)
    · show Function.update P.world charge.invoiceId (P.world charge.invoiceId ++ successes answer) charge.invoiceId = _
      rw [Function.update_self, hcharges]
      rfl
  next => exact ⟨hs, settles_refl P⟩

theorem settle_get (providerName : String) (result : PaymentResult) {s : BillingService} {invoice : Invoice}
    (hget : s.invoices.get i = some invoice) (j : UUID) : (settle i providerName result s).invoices.get j =
      if j = i then some (invoice.settled providerName s.now result) else s.invoices.get j := by
  simp only [settle, hget]
  exact Dict.get_set _ _ _ _

theorem settle_issued {result : PaymentResult} {s : BillingService} {providerName : String} :
    (settle i providerName result s).issued = s.issued := by
  unfold settle
  split <;> rfl

theorem sound_resume (hs : Sound P) : Sound (step P (.resume t)) ∧ Settles P (step P (.resume t)) := by
  simp only [step, Pool.resume]
  split
  next charge answer k htask =>
    obtain ⟨hf, rfl⟩ := hs.answered htask
    obtain ⟨invoice, hget, hopen, hcharges, halone⟩ := hs.flight hf
    have hunpaid : ∀ {store : BillingService} {r : Except Exn PaymentResult} {invoice' : Invoice},
        store.invoices.get charge.invoiceId = some invoice' → invoice'.status ≠ .paid →
        successes answer = [] → Phase (turned P store P.world t (.done r)) charge.invoiceId :=
      fun hget' hstatus hnone => .unpaid hget' hstatus (hcharges.trans hnone) (quiet_turned_done halone)
    cases answer with
    | error exc =>
        refine ⟨hs.turn (i := charge.invoiceId) (fun _ _ => rfl) (fun _ _ => rfl) (fun f hf' => by rw [← hf.eq hf'])
          (.inl ⟨_, rfl⟩) (hunpaid hget hopen.1 rfl) rfl (hs.fresh _), settles_refl P⟩
    | ok result =>
        show Sound (turned P (settle charge.invoiceId charge.provider result P.store) P.world t (.done (.ok result))) ∧
          Settles P (turned P (settle charge.invoiceId charge.provider result P.store) P.world t (.done (.ok result)))
        have hother : ∀ j, j ≠ charge.invoiceId →
            (settle charge.invoiceId charge.provider result P.store).invoices.get j = P.store.invoices.get j :=
          fun j hj => (settle_get charge.provider result hget j).trans (if_neg hj)
        have hself := (settle_get charge.provider result hget charge.invoiceId).trans (if_pos rfl)
        refine ⟨hs.turn hother (fun _ _ => rfl) (fun f hf' => by rw [← hf.eq hf']) (.inl ⟨_, rfl⟩) ?_
          settle_issued.symm (fun hi => ?_), settles_of_open hother (fun invoice' hget' => ?_)⟩
        · cases hresult : result.status with
          | success =>
              have hcharged : P.world charge.invoiceId = [result.transactionId] := by
                rw [hcharges]
                simp [Flight.booked, successes, hresult]
              refine .paid hself (by simp [Invoice.settled, hresult]) ?_ (quiet_turned_done halone)
              simp only [Invoice.settled, hresult]
              exact hcharged
          | failed => exact hunpaid hself (by simp [Invoice.settled, hresult]) (by simp [successes, hresult])
        · rw [settle_issued] at hi
          rw [hs.fresh _ hi] at hget
          cases hget
        · cases hget.symm.trans hget'
          exact hopen
  next => exact ⟨hs, settles_refl P⟩

theorem sound_createInvoice (hs : Sound P) (userId : String) (amount : ℚ) (currency plan : String)
    (metadata : Dict String Json) : Sound (step P (.createInvoice userId amount currency plan metadata)) ∧
      Settles P (step P (.createInvoice userId amount currency plan metadata)) := by
  simp only [step, createInvoice]
  split
  next invoice store hcreated =>
    split at hcreated
    · cases hcreated
    · cases hcreated
      have hnone := hs.fresh P.store.issued le_rfl
      have hother : ∀ j, j ≠ P.store.issued → ∀ invoice, (P.store.invoices.set P.store.issued invoice).get j =
          P.store.invoices.get j := fun j hj _ => Dict.get_set_of_ne _ _ _ hj
      refine ⟨hs.write (i := P.store.issued) (fun j hj => hother j hj _) ?_ (Nat.le_succ _)
        (fun h => absurd h (Nat.not_succ_le_self _)), settles_of_open (fun j hj => hother j hj _)
        (fun invoice' hget' => by rw [hnone] at hget'; cases hget')⟩
      cases hs.phase P.store.issued with
      | absent _ hcharges hquiet => exact .unpaid (Dict.get_set_self _ _ _) (by simp) hcharges hquiet
      | unpaid hget | paid hget | flying hget => rw [hnone] at hget; cases hget
  next => exact ⟨hs, settles_refl P⟩

theorem sound_cancelInvoice (hs : Sound P) (hm : Meets P (.cancelInvoice i)) :
    Sound (step P (.cancelInvoice i)) ∧ Settles P (step P (.cancelInvoice i)) := by
  simp only [step, cancelInvoice]
  cases hget : P.store.invoices.get i with
  | none => exact ⟨hs, settles_refl P⟩
  | some invoice =>
      by_cases hstatus : invoice.status = .pending
      · simp only [hstatus, ne_eq, not_true_eq_false, if_false]
        have hquiet := hm invoice hget hstatus
        have hopen : Open invoice := by simp [Open, hstatus]
        have hother : ∀ j, j ≠ i → ∀ invoice, (P.store.invoices.set i invoice).get j = P.store.invoices.get j :=
          fun j hj _ => Dict.get_set_of_ne _ _ _ hj
        refine ⟨hs.write (i := i) (fun j hj => hother j hj _) ?_ le_rfl (fun h => ?_),
          settles_of_open (fun j hj => hother j hj _) (fun invoice' hget' => ?_)⟩
        · exact .unpaid (Dict.get_set_self _ _ _) (by simp) (hs.uncharged hget hopen hquiet) hquiet
        · rw [hs.fresh i h] at hget
          cases hget
        · cases hget.symm.trans hget'
          exact hopen
      · simp only [ne_eq, hstatus, not_false_eq_true, if_true]
        exact ⟨hs, settles_refl P⟩

theorem sound_step (hs : Sound P) {e : Step} (hm : Meets P e) : Sound (step P e) ∧ Settles P (step P e) := by
  cases e with
  | registerProvider | elapse =>
      exact ⟨hs.write (i := 0) (fun _ _ => rfl) ((hs.phase 0).same ⟨rfl, rfl, fun _ _ _ => Iff.rfl⟩) le_rfl (hs.fresh 0), settles_refl P⟩
  | createInvoice userId amount currency plan metadata => exact sound_createInvoice hs userId amount currency plan metadata
  | cancelInvoice i => exact sound_cancelInvoice hs hm
  | processPayment t i providerName => exact sound_processPayment hs hm
  | charge t answer => exact sound_charge hs answer
  | resume t => exact sound_resume hs

/-- No invoice is charged twice, what is paid stays as it is, and what is cancelled
at any time is not charged at any time. -/
structure AtMostOnce (steps : List Step) : Prop where
  once : ∀ i, ((Billing.run steps).world i).length ≤ 1
  paid : ∀ before after, steps = before ++ after → ∀ i invoice,
    (Billing.run before).store.invoices.get i = some invoice → invoice.status = .paid →
      ∃ invoice', (Billing.run steps).store.invoices.get i = some invoice' ∧ invoice'.status = .paid ∧
        invoice'.transactionId = invoice.transactionId
  cancelled : ∀ before after, steps = before ++ after → ∀ i invoice,
    (Billing.run before).store.invoices.get i = some invoice → invoice.status = .cancelled → (Billing.run steps).world i = []

theorem sound_opened : Sound opened := by
  refine ⟨fun t task h => ?_, fun i => .absent rfl rfl (fun t f h => ?_), fun i _ => rfl⟩
  · cases h
  · cases h

theorem sound_foldl {steps : List Step} (hs : Sound P) (hm : AllMeet step Meets P steps) :
    Sound (steps.foldl step P) ∧ Settles P (steps.foldl step P) := by
  induction steps generalizing P with
  | nil => exact ⟨hs, settles_refl P⟩
  | cons e steps ih =>
      obtain ⟨hnext, hsettles⟩ := sound_step hs hm.1
      obtain ⟨hlast, hsettles'⟩ := ih hnext hm.2
      exact ⟨hlast, fun i invoice hget hnot => hsettles' i invoice (hsettles i invoice hget hnot) hnot⟩

/-- A run whose payments and cancellations keep to open invoices, one at a time, charges no invoice twice. -/
theorem charged_once (steps : List Step) (hm : AllMeet step Meets opened steps) : AtMostOnce steps := by
  obtain ⟨hs, -⟩ := sound_foldl sound_opened hm
  have hkept : ∀ before after, steps = before ++ after → ∀ i invoice,
      (Billing.run before).store.invoices.get i = some invoice → ¬ Open invoice →
        (Billing.run steps).store.invoices.get i = some invoice := by
    rintro before after rfl i invoice hget hnot
    obtain ⟨hbefore, hafter⟩ := allMeet_append.mp hm
    rw [Billing.run, List.foldl_append]
    exact (sound_foldl (sound_foldl sound_opened hbefore).1 hafter).2 i invoice hget hnot
  refine ⟨fun i => ?_, fun before after heq i invoice hget hpaid => ?_, fun before after heq i invoice hget hcancelled => ?_⟩
  · have hone : ∀ f : Flight, f.booked.length ≤ 1 := by
      intro f
      obtain ⟨charge, none | exc | result⟩ := f
      · exact Nat.zero_le _
      · exact Nat.zero_le _
      · simp only [Flight.booked, Option.elim_some, successes]
        split <;> simp
    cases hs.phase i with
    | absent _ hcharges _ | unpaid _ _ hcharges _ => exact hcharges ▸ Nat.zero_le _
    | paid _ _ hcharges _ => exact hcharges ▸ le_rfl
    | @flying _ _ f _ _ _ _ _ hcharges => exact hcharges ▸ hone f
  · exact ⟨invoice, hkept before after heq i invoice hget (fun h => h.1 hpaid), hpaid, rfl⟩
  · have hlast := hkept before after heq i invoice hget (fun h => h.2 hcancelled)
    cases hs.phase i with
    | absent _ hcharges _ | unpaid _ _ hcharges _ => exact hcharges
    | paid hget' hstatus _ _ =>
        cases hlast.symm.trans hget'
        rw [hcancelled] at hstatus
        cases hstatus
    | flying hget' hopen _ _ _ _ =>
        cases hlast.symm.trans hget'
        exact absurd hcancelled hopen.2

/-- An invoice is created and paid. -/
def paidOnce : List Step :=
  [.createInvoice "user-1" 29 "usd" "pro" ∅, .processPayment 0 0 "manual",
   .charge 0 (.ok { invoiceId := 0, status := .success, transactionId := some "manual-1" }), .resume 0]

theorem charged_once_paid : AtMostOnce paidOnce := by
  refine charged_once paidOnce ⟨trivial, fun invoice hget _ => ?_, trivial, trivial, trivial⟩
  obtain rfl := Option.some.inj hget
  exact ⟨⟨by decide, by decide⟩, fun t f h => by cases h⟩

/-- The same invoice is paid again. -/
def paidTwice : List Step :=
  paidOnce ++ [.processPayment 1 0 "manual",
    .charge 1 (.ok { invoiceId := 0, status := .success, transactionId := some "manual-2" }), .resume 1]

theorem charged_twice : ¬ ∀ steps, AtMostOnce steps := by
  intro h
  have hcharges : (Billing.run paidTwice).world 0 = [some "manual-1", some "manual-2"] := rfl
  have honce := (h paidTwice).once 0
  rw [hcharges] at honce
  exact absurd honce (by decide)

end Utos.Services.ChargedOnce
