import Utos.Exchanges.RestCalls
import Utos.Exchanges.TokenBound

namespace Utos.Exchanges.DefaultBucket

open Core Core.DomainTypes Core.Exceptions Coroutine Http RateLimit RestCalls TokenBound

variable {β : Type} {endpoint : String} {call : Call} {a : Acquiring}

theorem pending_pass {config : RateLimitConfig} {waited : ℚ} {other : Call}
    (hother : other ∈ pending (a.pass endpoint call config waited)) : other = call ∨ other ∈ pending a := by
  rw [Acquiring.pass] at hother
  dsimp only at hother
  split at hother
  · exact .inr (List.mem_append_right _ hother)
  · split at hother
    · exact .inr (List.mem_append_right _ hother)
    · rcases List.mem_append.mp hother with hholder | hwaiting
      · exact .inl (List.mem_singleton.mp hholder)
      · exact .inr (List.mem_append_right _ hwaiting)

theorem pending_locked {other : Call} (hother : other ∈ pending (a.locked endpoint call)) :
    other = call ∨ other ∈ pending a := by
  rw [Acquiring.locked] at hother
  split at hother
  · exact .inr (List.mem_append_right _ hother)
  · exact pending_pass hother

/-- Nobody waits but those who have asked. -/
theorem pending_step {other : Call} (e : RateLimit.Event) (hother : other ∈ pending (RateLimit.step endpoint a e)) :
    other ∈ pending a ∨ e = .acquire other.tokens := by
  cases e with
  | acquire tokens =>
      simp only [RateLimit.step, Acquiring.acquire] at hother
      split at hother
      · exact .inl hother
      · split at hother
        · rcases pending_locked hother with rfl | hother
          · exact .inr rfl
          · exact .inl hother
        · rcases List.mem_append.mp hother with hholder | hwaiting
          · exact .inl (List.mem_append_left _ hholder)
          · rcases List.mem_append.mp hwaiting with hwaiting | hnew
            · exact .inl (List.mem_append_right _ hwaiting)
            · rw [List.mem_singleton.mp hnew]
              exact .inr rfl
  | enter =>
      simp only [RateLimit.step] at hother
      split at hother
      next first rest hfree hwaiting =>
        rcases pending_locked hother with rfl | hother
        · exact .inl (by simp [pending, hwaiting])
        · refine .inl ?_
          rcases List.mem_append.mp hother with hholder | hrest
          · exact List.mem_append_left _ hholder
          · exact List.mem_append_right _ (hwaiting ▸ List.mem_cons_of_mem first hrest)
      next => exact .inl hother
  | wake =>
      simp only [RateLimit.step] at hother
      split at hother
      next sleeper hsleeper =>
        split at hother
        · rcases pending_pass hother with rfl | hother
          · exact .inl (by simp [pending, hsleeper])
          · exact .inl hother
        · exact .inl hother
      next => exact .inl hother
  | canAcquire | elapse => exact .inl hother

/-- What a call waits for: its token, or the reply to its request. Otherwise it has ended. -/
inductive Waits (c : HttpClient) : HttpOp β (Response β) → Prop
  | token (endpointKey method url : String) (n : Nat) :
      Waits c (.call (.acquire endpointKey 1) (fun _ => c.attempts method url n 1))
  | reply (method url : String) (n a : Nat) : Waits c (c.attempts method url (n + 1) a)
  | returned (response : Response β) : Waits c (.ret response)
  | raised (exc : Exn) : Waits c (.raise exc)

theorem waits_attempts (c : HttpClient) (method url : String) (n a : Nat) :
    Waits c (c.attempts method url n a : HttpOp β (Response β)) := by
  cases n with
  | zero => exact .raised _
  | succ n => exact .reply method url n a

theorem Waits.of_acquire {c : HttpClient} {key : String} {tokens : ℚ} {resume : Unit → HttpOp β (Response β)}
    (h : Waits c (.call (.acquire key tokens) resume)) : Waits c (resume ()) := by
  generalize hp : (.call (.acquire key tokens) resume : HttpOp β (Response β)) = p at h
  cases h with
  | token endpointKey method url n =>
      cases hp
      exact waits_attempts c method url n 1
  | reply method url n a => cases hp
  | returned | raised => cases hp

theorem Waits.of_sleep {c : HttpClient} {delay : ℚ} {resume : Unit → HttpOp β (Response β)}
    (h : Waits c (.call (.sleep delay) resume)) : False := by
  generalize hp : (.call (.sleep delay) resume : HttpOp β (Response β)) = p at h
  cases h with
  | token | reply | returned | raised => cases hp

/-- A reply that is not retried ends the call. -/
theorem Waits.of_send {c : HttpClient} {method url : String} {resume : Reply β → HttpOp β (Response β)} {reply : Reply β}
    (h : Waits c (.call (.send method url) resume)) (hreply : c.retries reply = false) :
    (∃ response, resume reply = .ret response) ∨ ∃ exc, resume reply = .raise exc := by
  generalize hp : (.call (.send method url) resume : HttpOp β (Response β)) = p at h
  cases h with
  | token | returned | raised => cases hp
  | reply method url n a =>
      cases hp
      cases reply with
      | response r =>
          left
          simp only [HttpClient.retries, Bool.and_eq_false_iff, decide_eq_false_iff_not] at hreply
          dsimp only
          rcases hreply with hlow | hstatus
          · exact ⟨r, if_pos (Nat.lt_of_not_le hlow)⟩
          · split
            · exact ⟨r, rfl⟩
            · exact ⟨r, if_pos (by simp [hstatus])⟩
      | timeout =>
          right
          have hno : ¬ c.retryPolicy.shouldRetry a (some .timeoutException) = true :=
            fun hretry => by simp [(((shouldRetry_iff _ _ _).mp hretry).2 _ rfl), HttpClient.retries] at hreply
          exact ⟨_, if_pos hno⟩
      | networkError message =>
          right
          have hno : ¬ c.retryPolicy.shouldRetry a (some .networkError) = true :=
            fun hretry => by simp [(((shouldRetry_iff _ _ _).mp hretry).2 _ rfl), HttpClient.retries] at hreply
          exact ⟨_, if_pos hno⟩
      | raised exc => exact .inr ⟨exc, rfl⟩

/-- The reply is not one after which request tries again. -/
def Once (c : HttpClient) (e : RestCalls.Event β) : Prop := ∀ id reply, e = .reply id reply → c.retries reply = false

/-- Each request has a grant of its own. -/
structure Metered (c : HttpClient) (limit : RateLimitConfig) (start : ℚ) (s : Rest β) : Prop where
  served : Served "default" limit start s.limiting
  ones : ∀ call ∈ pending s.limiting, call.tokens = 1
  sent : (s.sent.map (fun t => (t, (1 : ℚ)))).Sublist s.limiting.granted
  calls : ∀ id since p, s.calls id = some (since, p) → Waits c p

variable {c : HttpClient} {limit : RateLimitConfig} {start : ℚ} {s : Rest β}

theorem Metered.proceed (h : Metered c limit start s) (id : Nat) {p : HttpOp β (Response β)} (hp : Waits c p)
    (hsent : ((s.proceed id p).sent.map (fun t => (t, (1 : ℚ)))).Sublist s.limiting.granted) :
    Metered c limit start (s.proceed id p) := by
  refine ⟨h.served, h.ones, hsent, fun other since q hq => ?_⟩
  by_cases hother : other = id
  · subst hother
    cases (Function.update_self ..).symm.trans hq
    exact hp
  · exact h.calls other since q ((Function.update_of_ne hother _ _).symm.trans hq)

theorem Metered.limited (h : Metered c limit start s) (hrate : 0 < limit.refillRate) {e : RateLimit.Event}
    (hnow : ∀ d, e ≠ .elapse d) (hone : ∀ tokens, e = .acquire tokens → tokens = 1) :
    Metered c limit start (s.limited e) := by
  have htokens : ∀ call, call ∈ pending s.limiting ∨ e = .acquire call.tokens → call.tokens = 1 :=
    fun call hcall => hcall.elim (h.ones call) (hone call.tokens)
  have hserved := h.served.step hrate e
  have hones : ∀ call ∈ pending (RateLimit.step "default" s.limiting e), call.tokens = 1 :=
    fun call hcall => htokens call (pending_step e hcall)
  have hsame : (RateLimit.step "default" s.limiting e).now = s.limiting.now := now_step s.limiting hnow
  have houtcome : Outcome _ s.limiting (RateLimit.step "default" s.limiting e) := step_outcome s.limiting e
  cases houtcome with
  | granted call waited hasks hreturned hgranted =>
      rw [Rest.limited, hreturned, List.drop_left]
      simp only [List.foldl_cons, List.foldl_nil, Rest.acquired]
      rw [htokens call hasks] at hgranted
      have hmid : Metered c limit start { s with limiting := RateLimit.step "default" s.limiting e } :=
        ⟨hserved, hones, hgranted ▸ h.sent.trans (List.sublist_append_left _ _), h.calls⟩
      split
      next since key tokens resume hcall =>
        refine hmid.proceed _ (h.calls _ _ _ hcall).of_acquire ?_
        rcases (proceed_advance { s with limiting := RateLimit.step "default" s.limiting e } call.id (resume ())).sent with
          hsent | hsent
        · rw [hsent]
          exact hmid.sent
        · rw [hsent, hgranted, List.map_append, Rest.now, hsame]
          exact h.sent.append (List.Sublist.refl _)
      next => exact hmid
  | free call hasks hfree _ _ => exact absurd hfree (by rw [htokens call hasks]; norm_num)
  | refused call exc hasks hreturned hgranted =>
      rw [Rest.limited, hreturned, List.drop_left]
      simp only [List.foldl_cons, List.foldl_nil, Rest.acquired]
      have hmid : Metered c limit start { s with limiting := RateLimit.step "default" s.limiting e } :=
        ⟨hserved, hones, hgranted ▸ h.sent, h.calls⟩
      split
      · exact hmid.proceed _ (.raised exc) hmid.sent
      · exact hmid
  | none hreturned hgranted =>
      rw [Rest.limited, hreturned, List.drop_length]
      exact ⟨hserved, hones, hgranted ▸ h.sent, h.calls⟩

theorem Metered.step (h : Metered c limit start s) (hrate : 0 < limit.refillRate) (hlimiter : c.hasRateLimiter = true)
    {e : RestCalls.Event β} (honce : Once c e) : Metered c limit start (RestCalls.step c s e) := by
  cases e with
  | call method path =>
      obtain ⟨verb, url, hperform⟩ : ∃ verb url, perform (β := β) c method path = .call (.acquire "default" 1)
          (fun _ => c.attempts verb url (c.retryPolicy.maxRetries + 1) 1) := by
        cases method <;> exact ⟨_, _, if_pos hlimiter⟩
      simp only [RestCalls.step, hperform, Rest.begin]
      have hbegun : Metered c limit start { s with calls := Function.update s.calls s.limiting.made (some (s.now,
          .call (.acquire "default" 1) (fun _ => c.attempts verb url (c.retryPolicy.maxRetries + 1) 1))) } := by
        refine ⟨h.served, h.ones, h.sent, fun other since q hq => ?_⟩
        by_cases hother : other = s.limiting.made
        · subst hother
          cases (Function.update_self ..).symm.trans hq
          exact .token _ _ _ _
        · exact h.calls other since q ((Function.update_of_ne hother _ _).symm.trans hq)
      exact hbegun.limited hrate (by simp) (by simp)
  | enter | wake => exact h.limited hrate (by simp) (by simp)
  | reply id reply =>
      simp only [RestCalls.step]
      split
      next since verb url resume hcall =>
        rcases (h.calls _ _ _ hcall).of_send (honce id reply rfl) with ⟨response, hended⟩ | ⟨exc, hended⟩
        · rw [hended]
          exact h.proceed id (.returned response) h.sent
        · rw [hended]
          exact h.proceed id (.raised exc) h.sent
      next => exact h
  | awake id =>
      simp only [RestCalls.step]
      split
      next since delay resume hcall => exact (h.calls _ _ _ hcall).of_sleep.elim
      next => exact h
  | elapse d => exact ⟨h.served.step hrate (.elapse d), h.ones, h.sent, h.calls⟩

theorem metered_run (h : Metered c limit start s) (hrate : 0 < limit.refillRate) (hlimiter : c.hasRateLimiter = true)
    (es : List (RestCalls.Event β)) (honce : ∀ e ∈ es, Once c e) :
    Metered c limit start (es.foldl (RestCalls.step c) s) := by
  induction es generalizing s with
  | nil => exact h
  | cons e es ih =>
      exact ih (h.step hrate hlimiter (honce e List.mem_cons_self)) (fun e' he' => honce e' (List.mem_cons_of_mem e he'))

/-- What is granted within the limit is sent within it. -/
theorem Metered.limited_sent (h : Metered c limit start s) (hmax : 0 < limit.maxTokens ∧ limit.maxTokens ≤ restConfig.maxTokens)
    (hrate : 0 < limit.refillRate ∧ limit.refillRate ≤ restConfig.refillRate) : Limited s.sent := by
  intro t T hT
  have hconforms := h.served.tracks.conforms
  have hgranted := hconforms.within_le hrate.1.le hmax.1.le (le_add_of_nonneg_right hT : t ≤ t + T)
  have hsent : TokenBucket.within t (t + T) (s.sent.map (fun u => (u, 1))) ≤
      TokenBucket.within t (t + T) s.limiting.granted :=
    TokenBucket.total_le_of_sublist (h.sent.filter _) (fun w hw => (hconforms.since_le w (List.mem_of_mem_filter hw)).2)
  rw [TokenBucket.within_ones] at hsent
  rw [bucket_capacity, bucket_rate, add_sub_cancel_left] at hgranted
  have hrates : T * limit.refillRate ≤ restConfig.refillRate * T := by
    rw [mul_comm T]
    exact mul_le_mul_of_nonneg_right hrate.2 hT
  linarith [hmax.2]

/-- Requests that are not repeated keep the limit if their client came with a default
bucket that does: the key and the repetitions are all that is wrong. -/
theorem limited_of_default (http : HttpClient) (r : RateLimiter) (limit : RateLimitConfig) (config : ExchangeAdapterConfig)
    (start : ℚ) (hmax : 0 < limit.maxTokens ∧ limit.maxTokens ≤ restConfig.maxTokens)
    (hrate : 0 < limit.refillRate ∧ limit.refillRate ≤ restConfig.refillRate)
    (hupdated : ∀ last, r.lastUpdate "default" = some last → last ≤ start) (es : List (RestCalls.Event β))
    (honce : ∀ e ∈ es, Once (initializeHttp (some (http, some (r.configure "default" limit))) config).http e) :
    Limited (es.foldl (RestCalls.step (initializeHttp (some (http, some (r.configure "default" limit))) config).http)
      (RestCalls.opening (r.configure "default" limit) start)).sent := by
  have hopening : Metered (β := β) (initializeHttp (some (http, some (r.configure "default" limit))) config).http limit start
      (RestCalls.opening (r.configure "default" limit) start) :=
    ⟨served_opening r hmax.1 hrate.1 hupdated, fun _ hcall => (by cases hcall), List.Sublist.slnil,
      fun _ _ _ hcall => (by cases hcall)⟩
  exact (metered_run hopening hrate.1 rfl es honce).limited_sent hmax hrate

end Utos.Exchanges.DefaultBucket
