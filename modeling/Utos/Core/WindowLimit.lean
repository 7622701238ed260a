import Mathlib.Data.List.Perm.Subperm
import Mathlib.Tactic.Linarith
import Utos.Core.Middleware
import Utos.Core.SlidingWindow
import Utos.Coroutine.Trace

namespace Utos.Core.Middleware

open Coroutine SlidingWindow

def Request.clientIp (request : Request) : String := request.host.getD "unknown"

/-- The times at which requests with the key were let through. -/
def keyTimes (through : List (Request × ℚ)) (key : String) : List ℚ := (through.filter (fun e => e.1.key = key)).map Prod.snd

/-- The times at which the requests of a client on a path were let through. -/
def timesOf (through : List (Request × ℚ)) (client path : String) : List ℚ :=
  (through.filter (fun e => e.1.clientIp = client ∧ e.1.path = path)).map Prod.snd

/-- The text of the clock reading is no member yet, unless the set is over the limit already. -/
def Counted (str : ℚ → String) (s : Serving) (a : Arrival) : Prop :=
  ((s.redis a.request.key).remaining a.now).get (str a.now) = none ∨
    limitOf a.request.path < ((s.redis a.request.key).remaining a.now).entries.length

variable {str : ℚ → String} {k : Key} {times : List ℚ} {now next : ℚ} {s : Serving} {a : Arrival}

/-- Each request that was let through in the window up to now has a member of its own. -/
structure Held (str : ℚ → String) (k : Key) (times : List ℚ) (now : ℚ) : Prop where
  past : ∀ t ∈ times, t ≤ now
  members : ∀ t ∈ recent now windowSeconds times, ∃ score, k.members.get (str t) = some score ∧ t ≤ score
  lasting : ∀ t ∈ recent now windowSeconds times, ∃ e, k.expireAt = some e ∧ t + windowSeconds ≤ e
  own : ((recent now windowSeconds times).map str).Nodup

namespace Held

theorem later (h : Held str k times now) (hnext : now ≤ next) : Held str k times next := by
  have hsub : (recent next windowSeconds times).Sublist (recent now windowSeconds times) := recent_sublist hnext
  exact ⟨fun t ht => (h.past t ht).trans hnext, fun t ht => h.members t (hsub.subset ht),
    fun t ht => h.lasting t (hsub.subset ht), h.own.sublist (hsub.map str)⟩

/-- The members are neither expired nor removed. -/
theorem remaining (h : Held str k times now) {t : ℚ} (ht : t ∈ recent now windowSeconds times) :
    ∃ score, (k.remaining now).get (str t) = some score ∧ t ≤ score := by
  obtain ⟨score, hscore, hle⟩ := h.members t ht
  obtain ⟨e, he, hlasting⟩ := h.lasting t ht
  obtain ⟨-, hrecent⟩ := mem_recent.mp ht
  have hfound : k.found now = k.members := by
    rw [Key.found, he]
    exact if_neg (by linarith)
  refine ⟨score, ?_, hle⟩
  rw [Key.remaining, Key.trimmed, Dict.get_filter_eq_some, hfound]
  have hnot : ¬ (0 ≤ score ∧ score ≤ now - windowSeconds) := fun hold => by linarith [hold.2]
  exact ⟨hscore, by simp only [hnot, decide_false, Bool.not_false]⟩

theorem pipeline (h : Held str k times now) : Held str (k.pipeline (str now) now) times now := by
  refine ⟨h.past, fun t ht => ?_, fun t ht => ?_, h.own⟩
  · simp only [Key.pipeline, Dict.get_set]
    split
    · exact ⟨now, rfl, h.past t (mem_recent.mp ht).1⟩
    · exact h.remaining ht
  · exact ⟨_, rfl, add_le_add_left (h.past t (mem_recent.mp ht).1) windowSeconds⟩

theorem length_recent_le (h : Held str k times now) :
    (recent now windowSeconds times).length ≤ k.members.entries.length := by
  have hsub : (recent now windowSeconds times).map str ⊆ k.members.entries.map Prod.fst := by
    intro text htext
    obtain ⟨t, ht, rfl⟩ := List.mem_map.mp htext
    obtain ⟨score, hscore, -⟩ := h.members t ht
    exact List.mem_map_of_mem (f := Prod.fst) (Dict.mem_of_get hscore)
  have hlength := (List.Nodup.subperm h.own hsub).length_le
  rwa [List.length_map, List.length_map] at hlength

/-- A request whose text was no member gets one of its own. -/
theorem pass (h : Held str k times now) (hfresh : (k.remaining now).get (str now) = none) :
    Held str (k.pipeline (str now) now) (times ++ [now]) now := by
  have hkept := h.pipeline
  have hrecent : recent now windowSeconds (times ++ [now]) = recent now windowSeconds times ++ [now] :=
    recent_concat (by decide)
  refine ⟨fun t ht => ?_, fun t ht => ?_, fun t ht => ?_, ?_⟩
  · rcases List.mem_append.mp ht with ht | ht
    · exact h.past t ht
    · exact (List.mem_singleton.mp ht).le
  · rw [hrecent] at ht
    rcases List.mem_append.mp ht with ht | ht
    · exact hkept.members t ht
    · rw [List.mem_singleton.mp ht]
      exact ⟨now, Dict.get_set_self _ _ _, le_rfl⟩
  · rw [hrecent] at ht
    rcases List.mem_append.mp ht with ht | ht
    · exact hkept.lasting t ht
    · rw [List.mem_singleton.mp ht]
      exact ⟨_, rfl, le_rfl⟩
  · rw [hrecent, List.map_append, List.map_singleton, List.nodup_append]
    refine ⟨h.own, List.nodup_singleton _, fun text htext text' htext' heq => ?_⟩
    obtain ⟨t, ht, rfl⟩ := List.mem_map.mp htext
    obtain ⟨score, hscore, -⟩ := h.remaining ht
    rw [heq, List.mem_singleton.mp htext', hfresh] at hscore
    cases hscore

end Held

/-- Redis has a member for each request of the last window, and no window has seen too many. -/
structure Sound (str : ℚ → String) (s : Serving) (now : ℚ) : Prop where
  closed : s.middleware.circuitOpenUntil = 0
  held : ∀ key, Held str (s.redis key) (keyTimes s.through key) now
  within : ∀ client path start, (inWindow start windowSeconds (timesOf s.through client path)).length ≤ limitOf path

theorem key_eq_of_client {request request' : Request} (hclient : request.clientIp = request'.clientIp)
    (hpath : request.path = request'.path) : request.key = request'.key := by
  rw [Request.clientIp, Request.clientIp] at hclient
  rw [Request.key, Request.key, hclient, hpath]

theorem keyTimes_concat (through : List (Request × ℚ)) (request : Request) (now : ℚ) (key : String) :
    keyTimes (through ++ [(request, now)]) key =
      if request.key = key then keyTimes through key ++ [now] else keyTimes through key := by
  rw [keyTimes, List.filter_append, List.map_append, ← keyTimes]
  split
  next h => simp [h]
  next h => simp [h]

theorem timesOf_concat (through : List (Request × ℚ)) (request : Request) (now : ℚ) (client path : String) :
    timesOf (through ++ [(request, now)]) client path =
      if request.clientIp = client ∧ request.path = path then timesOf through client path ++ [now]
      else timesOf through client path := by
  rw [timesOf, List.filter_append, List.map_append, ← timesOf]
  split
  next h => simp [h]
  next h => simp [h]

theorem timesOf_sublist (through : List (Request × ℚ)) (request : Request) :
    (timesOf through request.clientIp request.path).Sublist (keyTimes through request.key) := by
  refine (List.monotone_filter_right through (fun e he => ?_)).map Prod.snd
  rw [decide_eq_true_iff] at he ⊢
  exact key_eq_of_client he.1 he.2

namespace Sound

theorem later (h : Sound str s now) (hnext : now ≤ next) : Sound str s next :=
  ⟨h.closed, fun key => (h.held key).later hnext, h.within⟩

/-- Redis after the pipeline of a request that is not let through. -/
theorem execute (h : Sound str s now) (request : Request) (key : String) :
    Held str (s.execute str request now key) (keyTimes s.through key) now := by
  rw [Serving.execute]
  by_cases hkey : key = request.key
  · subst hkey
    rw [Function.update_self]
    exact (h.held request.key).pipeline
  · rw [Function.update_of_ne hkey]
    exact h.held key

theorem execute_pass (h : Sound str s now) {request : Request}
    (hfresh : ((s.redis request.key).remaining now).get (str now) = none) (key : String) :
    Held str (s.execute str request now key) (keyTimes (s.through ++ [(request, now)]) key) now := by
  rw [keyTimes_concat]
  split
  next hkey =>
    subst hkey
    rw [Serving.execute, Function.update_self]
    exact (h.held request.key).pass hfresh
  next => exact h.execute request key

theorem dispatch (h : Sound str s now) (hnow : now ≤ a.now) (hreached : a.reach = .reached) (hcounted : Counted str s a) :
    Sound str (s.dispatch str a) a.now := by
  have hlater := h.later hnow
  have hclosed : ¬ (a.checked : ℚ) < s.middleware.circuitOpenUntil := by
    rw [h.closed]
    exact not_lt.mpr a.checked.2
  rw [Serving.dispatch, if_neg hclosed, hreached]
  dsimp only
  split
  next => exact hlater
  split
  next => exact ⟨h.closed, hlater.execute a.request, h.within⟩
  next hlimit =>
    have hfresh : ((s.redis a.request.key).remaining a.now).get (str a.now) = none := by
      refine hcounted.resolve_right (fun hover => hlimit ?_)
      rw [Serving.execute, Function.update_self]
      exact hover.trans_le (Dict.length_le_set _ _ _)
    have hheld := hlater.execute_pass hfresh
    refine ⟨h.closed, hheld, fun client path start => ?_⟩
    rw [Serving.callNext, timesOf_concat]
    split
    next hclient =>
      obtain ⟨rfl, rfl⟩ := hclient
      refine length_inWindow_concat_le (h.within _ _ start) ?_
      have hsub : (timesOf s.through a.request.clientIp a.request.path ++ [(a.now : ℚ)]).Sublist
          (keyTimes s.through a.request.key ++ [(a.now : ℚ)]) :=
        (timesOf_sublist s.through a.request).append (List.Sublist.refl _)
      have hkey : keyTimes (s.through ++ [(a.request, (a.now : ℚ))]) a.request.key =
          keyTimes s.through a.request.key ++ [(a.now : ℚ)] := by rw [keyTimes_concat, if_pos rfl]
      calc (recent (a.now : ℚ) windowSeconds (timesOf s.through a.request.clientIp a.request.path ++ [(a.now : ℚ)])).length
          ≤ (recent (a.now : ℚ) windowSeconds (keyTimes s.through a.request.key ++ [(a.now : ℚ)])).length :=
            (hsub.filter _).length_le
        _ ≤ (s.execute str a.request a.now a.request.key).members.entries.length :=
            hkey ▸ (hheld a.request.key).length_recent_le
        _ ≤ limitOf a.request.path := not_lt.mp hlimit
    next => exact h.within client path start

end Sound

theorem sound_opening (str : ℚ → String) : Sound str {} 0 := by
  refine ⟨rfl, fun key => ⟨fun t ht => (by cases ht), fun t ht => (by cases ht), fun t ht => (by cases ht), List.nodup_nil⟩,
    fun client path start => Nat.zero_le _⟩

theorem sound_run {arrivals : List Arrival} (h : Sound str s now) (hnow : ∀ a ∈ arrivals, now ≤ a.now)
    (hclock : arrivals.Pairwise (fun a b => a.now ≤ b.now)) (hreached : ∀ a ∈ arrivals, a.reach = .reached)
    (hcounted : AllMeet (Serving.dispatch · str) (Counted str) s arrivals) :
    ∃ later, Sound str (arrivals.foldl (Serving.dispatch · str) s) later := by
  induction arrivals generalizing s now with
  | nil => exact ⟨now, h⟩
  | cons a rest ih =>
      obtain ⟨hlater, hrest⟩ := List.pairwise_cons.mp hclock
      have hstep := h.dispatch (hnow a List.mem_cons_self) (hreached a List.mem_cons_self) hcounted.1
      exact ih hstep (fun b hb => NNRat.cast_mono (hlater b hb)) hrest
        (fun b hb => hreached b (List.mem_cons_of_mem a hb)) hcounted.2

/-- While Redis can be reached and the clock does not go back, the limit is kept in every window
of a run in which no request that is let through finds its text among the members. -/
theorem limit_kept (str : ℚ → String) {arrivals : List Arrival} (hclock : arrivals.Pairwise (fun a b => a.now ≤ b.now))
    (hreached : ∀ a ∈ arrivals, a.reach = .reached) (hcounted : AllMeet (Serving.dispatch · str) (Counted str) {} arrivals)
    (client path : String) (start : ℚ) :
    (inWindow start windowSeconds (timesOf (arrivals.foldl (Serving.dispatch · str) {}).through client path)).length ≤
      limitOf path := by
  obtain ⟨later, hsound⟩ := sound_run (sound_opening str) (fun a _ => a.now.2) hclock hreached hcounted
  exact hsound.within client path start

def login (now : ℚ≥0) : Arrival := ⟨⟨"/api/v1/auth/login", some "10.0.0.1"⟩, now, now, .reached⟩

/-- str(now) at the two readings. -/
def strOf (now : ℚ) : String := if now = 1700000000 then "1700000000.0" else "1700000001.0"

theorem limit_kept_logins : (inWindow 1700000000 windowSeconds
    (timesOf ([login 1700000000, login 1700000001].foldl (Serving.dispatch · strOf) {}).through "10.0.0.1"
      "/api/v1/auth/login")).length ≤ limitOf "/api/v1/auth/login" := by
  have hcounted : AllMeet (Serving.dispatch · strOf) (Counted strOf) {} [login 1700000000, login 1700000001] :=
    ⟨.inl (by decide +kernel), .inl (by decide +kernel), trivial⟩
  exact limit_kept strOf (by decide +kernel) (by decide +kernel) hcounted "10.0.0.1" "/api/v1/auth/login" 1700000000

/-- Six logins at one reading of the clock have one member between them, and are all let through. -/
theorem burst_let_through : ¬ ∀ (str : ℚ → String) (arrivals : List Arrival),
    arrivals.Pairwise (fun a b => a.now ≤ b.now) → (∀ a ∈ arrivals, a.reach = .reached) → ∀ client path start,
      (inWindow start windowSeconds (timesOf (arrivals.foldl (Serving.dispatch · str) {}).through client path)).length ≤
        limitOf path := by
  intro h
  have hburst := h strOf (List.replicate 6 (login 1700000000)) (by decide +kernel) (by decide +kernel) "10.0.0.1"
    "/api/v1/auth/login" 1700000000
  exact absurd hburst (by decide +kernel)

end Utos.Core.Middleware
