import Mathlib.Tactic.Linarith
import Utos.Core.Security
import Utos.Coroutine.Trace

namespace Utos.Core.Security

open Coroutine Exceptions

variable {h : Host} {s : Tokens} {now next : ℚ} {token token' tokenType key : String} {p p' : Payload} {e : Int}
variable {created : List (String × Payload)} {blocklist : Blocklist}

/-- Every token has a time at which it expires. -/
def Dated (created : List (String × Payload)) : Prop :=
  ∀ token p, (token, p) ∈ created → ∃ e, p.get "exp" = some (.int e)

def IsAccess (p : Payload) : Prop := p.get "type" = some (.text "access")

/-- Tokens are decoded to what they were made of, until they expire, and others are not decoded. -/
structure Faithful (jwt : Jwt) (created : List (String × Payload)) : Prop where
  genuine : ∀ token p e now, (token, p) ∈ created → p.get "exp" = some (.int e) →
    jwt.decode now token = if now < e then .ok p else .error .expiredSignature
  forged : ∀ token now, (∀ p, (token, p) ∉ created) → ∃ message, jwt.decode now token = .error (.invalidToken message)

/-- An access token has a jti that no other token has. -/
def Fresh (h : Host) (created : List (String × Payload)) : Prop :=
  ∀ token p, (token, p) ∈ created → IsAccess p →
    ∃ key, blockKey h p = some key ∧ ∀ token' p', (token', p') ∈ created → blockKey h p' = some key → token' = token

/-- The token was created with the type, and its expiry is still in the future. -/
def Valid (s : Tokens) (now : ℚ) (token tokenType : String) : Prop :=
  ∃ p e, (token, p) ∈ s.created ∧ p.get "type" = some (.text tokenType) ∧ p.get "exp" = some (.int e) ∧ now < e

def Accepts (h : Host) (s : Tokens) (now : ℚ) (token tokenType : String) : Prop :=
  ∃ p, verifyToken h s.blocklist .reached now token tokenType = .ok p

/-- While the token lives, its expiry is not past in the local time of the host either. -/
def LocallyLive (h : Host) (s : Tokens) (now : ℚ) (token : String) : Prop :=
  ∀ p e, (token, p) ∈ s.created → p.get "exp" = some (.int e) → now < e →
    ∃ expiry, datetime (e + h.offset) = some expiry ∧ now ≤ expiry

/-- An access token that was revoked has a second to live, or has expired. -/
def SecondLeft (s : Tokens) (now : ℚ) (token : String) : Prop :=
  token ∈ s.revoked → ∀ p e, (token, p) ∈ s.created → IsAccess p → p.get "exp" = some (.int e) →
    now ≤ (e : ℚ) - 1 ∨ (e : ℚ) ≤ now

def Reaches : Call → Prop
  | .revokeToken _ reach | .verifyToken _ _ reach => reach = .reached
  | .createAccessToken .. | .createRefreshToken .. => True

theorem stamp_exp (data : Payload) (expire now : ℚ) (kind : String) :
    (stamp data expire now kind).get "exp" = some (.int ⌊expire⌋) := by
  simp only [stamp, Dict.get_set]
  rfl

theorem encoded_dated {payload : ℚ → Payload} {expire : ℚ} {message : String}
    (hpayload : ∀ x, ∃ e, (payload x).get "exp" = some (.int e)) (hok : encoded h payload expire message = .ok (token, p)) :
    ∃ e, p.get "exp" = some (.int e) := by
  rw [encoded] at hok
  split at hok
  · split at hok
    · cases hok
      exact hpayload _
    · cases hok
  · cases hok

theorem dated_step (hdated : Dated s.created) (event : Event) : Dated (step h s event).created := by
  have hadd : ∀ result : Except Exn (String × Payload),
      (∀ token p, result = .ok (token, p) → ∃ e, p.get "exp" = some (.int e)) → Dated (s.add result).created := by
    intro result hresult token p hmem
    cases result with
    | error exc => exact hdated token p hmem
    | ok made =>
        rcases List.mem_append.mp hmem with hmem | hmem
        · exact hdated token p hmem
        · exact hresult token p (by rw [List.mem_singleton.mp hmem])
  obtain ⟨now, call⟩ := event
  cases call with
  | createAccessToken data expiresDelta jti =>
      refine hadd _ (fun token p hok => encoded_dated (fun x => ?_) hok)
      exact ⟨_, (Dict.get_set_of_ne _ _ _ (by decide)).trans (stamp_exp _ _ _ _)⟩
  | createRefreshToken data expiresDelta =>
      exact hadd _ (fun token p hok => encoded_dated (fun x => ⟨_, stamp_exp _ _ _ _⟩) hok)
  | revokeToken token reach => exact hdated
  | verifyToken token tokenType reach => exact hdated

/-- The blocklist has the access tokens that were revoked, until a second before they expire at
least, and no others. -/
structure Sound (h : Host) (created : List (String × Payload)) (s : Tokens) (now : ℚ) : Prop where
  listed : ∀ token ∈ s.revoked, ∀ p e key, (token, p) ∈ created → IsAccess p → blockKey h p = some key →
    p.get "exp" = some (.int e) → (e : ℚ) - 1 < now ∨ ∃ expiry, s.blocklist key = some expiry ∧ (e : ℚ) - 1 < expiry
  blocked : ∀ key expiry, s.blocklist key = some expiry →
    ∃ token ∈ s.revoked, ∃ p, (token, p) ∈ created ∧ blockKey h p = some key

theorem Sound.later (hs : Sound h created s now) (hnext : now ≤ next) : Sound h created s next := by
  refine ⟨fun token htoken p e key hmem haccess hkey hexp => ?_, hs.blocked⟩
  exact (hs.listed token htoken p e key hmem haccess hkey hexp).imp_left (fun hlt => hlt.trans_le hnext)

theorem Faithful.payload_eq (hjwt : Faithful h.jwt created) {e' : Int} (hmem : (token, p) ∈ created)
    (hmem' : (token, p') ∈ created) (hexp : p.get "exp" = some (.int e)) (hexp' : p'.get "exp" = some (.int e')) (hnow : now < e)
    (hnow' : now < e') : p = p' := by
  have hdecode := hjwt.genuine token p e now hmem hexp
  rw [hjwt.genuine token p' e' now hmem' hexp', if_pos hnow, if_pos hnow'] at hdecode
  exact (Except.ok.inj hdecode).symm

/-- A token that has expired is not made of anything that lives on. -/
theorem Faithful.expired (hjwt : Faithful h.jwt created) {e' : Int} (hmem : (token, p) ∈ created)
    (hmem' : (token, p') ∈ created) (hexp : p.get "exp" = some (.int e)) (hexp' : p'.get "exp" = some (.int e'))
    (hnow : ¬ now < e) : ¬ now < e' := by
  intro hlive
  have hdecode := hjwt.genuine token p e now hmem hexp
  rw [hjwt.genuine token p' e' now hmem' hexp', if_pos hlive, if_neg hnow] at hdecode
  cases hdecode

/-- What is entered for a token that lives is entered for whatever it is made of. -/
theorem Faithful.past_or_eq (hjwt : Faithful h.jwt created) {e' : Int} {key' : String} (hmem : (token, p) ∈ created)
    (hmem' : (token, p') ∈ created) (hexp : p.get "exp" = some (.int e)) (hexp' : p'.get "exp" = some (.int e'))
    (hkey' : blockKey h p' = some key') (hnow : now < e) : (e' : ℚ) - 1 < now ∨ blockKey h p = some key' ∧ e' = e := by
  by_cases hlive : now < e'
  · obtain rfl := hjwt.payload_eq hmem' hmem hexp' hexp hlive hnow
    cases hexp.symm.trans hexp'
    exact .inr ⟨hkey', rfl⟩
  · exact .inl (by linarith [not_lt.mp hlive])

/-- A time to live is less than a second shorter than the life that is left. -/
theorem lt_add_truncate {x : ℚ} (hx : 0 ≤ x) : x - 1 < truncate x := by
  rw [truncate, if_neg (not_lt.mpr hx)]
  exact sub_lt_iff_lt_add.mpr (Int.lt_floor_add_one x)

/-- What revoke_token does to the blocklist: nothing, or it enters the key of a token that has not expired. -/
theorem revokeToken_cases (blocklist : Blocklist) (hjwt : Faithful h.jwt created) (hdated : Dated created) (hnow : 0 ≤ now)
    (token : String) :
    (revokeToken h blocklist .reached now token = blocklist ∧
      ∀ p e key, (token, p) ∈ created → blockKey h p = some key → p.get "exp" = some (.int e) → (e : ℚ) - 1 < now) ∨
    ∃ p e key expiry, (token, p) ∈ created ∧ blockKey h p = some key ∧ p.get "exp" = some (.int e) ∧ now < e ∧
      (e : ℚ) - 1 < expiry ∧ revokeToken h blocklist .reached now token = Function.update blocklist key (some expiry) := by
  by_cases hcreated : ∃ p, (token, p) ∈ created
  case neg =>
    obtain ⟨message, hdecode⟩ := hjwt.forged token now (fun p hp => hcreated ⟨p, hp⟩)
    refine .inl ⟨by simp only [revokeToken, hdecode]; rfl, fun p e key hmem => absurd ⟨p, hmem⟩ hcreated⟩
  obtain ⟨p, hmem⟩ := hcreated
  obtain ⟨e, hexp⟩ := hdated token p hmem
  have hdecode := hjwt.genuine token p e now hmem hexp
  by_cases hlive : now < e
  case neg =>
    rw [if_neg hlive] at hdecode
    refine .inl ⟨by simp only [revokeToken, hdecode]; rfl, fun p' e' key' hmem' _ hexp' => ?_⟩
    linarith [not_lt.mp (hjwt.expired hmem hmem' hexp hexp' hlive)]
  rw [if_pos hlive] at hdecode
  cases hkey : blockKey h p with
  | none =>
      refine .inl ⟨by simp only [revokeToken, hdecode, hkey]; rfl, fun p' e' key' hmem' hkey' hexp' => ?_⟩
      refine (hjwt.past_or_eq hmem hmem' hexp hexp' hkey' hlive).resolve_right (fun hentered => ?_)
      cases hkey.symm.trans hentered.1
  | some key =>
      have hpos : (0 : ℚ) < e := hnow.trans_lt hlive
      have htruthy : (Json.int e).truthy = true := by
        have hne : e ≠ 0 := by
          rintro rfl
          exact absurd hpos (lt_irrefl _)
        simp only [Json.truthy, ne_eq, hne, not_false_eq_true, decide_true]
      have hshort := lt_add_truncate (sub_nonneg.mpr hlive.le)
      have hrevoke : revokeToken h blocklist .reached now token =
          if 0 < truncate (e - now) then Function.update blocklist key (some (now + truncate (e - now))) else blocklist := by
        simp only [revokeToken, hdecode, hkey, hexp, htruthy, number, and_true, Bool.not_true, Bool.false_eq_true, if_false,
          reduceCtorEq]
      by_cases httl : 0 < truncate (e - now)
      · rw [if_pos httl] at hrevoke
        exact .inr ⟨p, e, key, _, hmem, hkey, hexp, hlive, by linarith, hrevoke⟩
      · rw [if_neg httl] at hrevoke
        refine .inl ⟨hrevoke, fun p' e' key' hmem' hkey' hexp' => ?_⟩
        refine (hjwt.past_or_eq hmem hmem' hexp hexp' hkey' hlive).elim id (fun hentered => ?_)
        have hle : ((truncate (e - now) : Int) : ℚ) ≤ 0 := by exact_mod_cast not_lt.mp httl
        rw [hentered.2]
        linarith

theorem Sound.revoke (hs : Sound h created s now) (hjwt : Faithful h.jwt created) (hfresh : Fresh h created)
    (hdated : Dated created) (hnow : 0 ≤ now) (token : String) :
    Sound h created
      { s with blocklist := revokeToken h s.blocklist .reached now token, revoked := s.revoked ++ [token] } now := by
  rcases revokeToken_cases s.blocklist hjwt hdated hnow token with
    ⟨hsame, hold⟩ | ⟨p₀, e₀, key₀, expiry₀, hmem₀, hkey₀, hexp₀, hlive₀, hlong, hset⟩
  · rw [hsame]
    refine ⟨fun token' htoken' p e key hmem haccess hkey hexp => ?_, fun key expiry hblocked => ?_⟩
    · rcases List.mem_append.mp htoken' with htoken' | htoken'
      · exact hs.listed token' htoken' p e key hmem haccess hkey hexp
      · rw [List.mem_singleton.mp htoken'] at hmem
        exact .inl (hold p e key hmem hkey hexp)
    · obtain ⟨token', htoken', hrest⟩ := hs.blocked key expiry hblocked
      exact ⟨token', List.mem_append_left _ htoken', hrest⟩
  · rw [hset]
    refine ⟨fun token' htoken' p e key hmem haccess hkey hexp => ?_, fun key expiry hblocked => ?_⟩
    · by_cases hsame : key = key₀
      · subst hsame
        obtain ⟨key', hkey', hunique⟩ := hfresh token' p hmem haccess
        cases hkey.symm.trans hkey'
        have htoken : token = token' := hunique token p₀ hmem₀ hkey₀
        rw [← htoken] at hmem
        refine (hjwt.past_or_eq hmem₀ hmem hexp₀ hexp hkey hlive₀).imp_right
          (fun hentered => ⟨expiry₀, Function.update_self .., ?_⟩)
        rw [hentered.2]
        exact hlong
      · dsimp only
        rw [Function.update_of_ne hsame]
        rcases List.mem_append.mp htoken' with htoken' | htoken'
        · exact hs.listed token' htoken' p e key hmem haccess hkey hexp
        · rw [List.mem_singleton.mp htoken'] at hmem
          refine (hjwt.past_or_eq hmem₀ hmem hexp₀ hexp hkey hlive₀).imp_right (fun hentered => absurd ?_ hsame)
          exact Option.some.inj (hentered.1.symm.trans hkey₀)
    · by_cases hsame : key = key₀
      · exact ⟨token, List.mem_append_right _ (List.mem_singleton_self token), p₀, hmem₀, hsame ▸ hkey₀⟩
      · dsimp only at hblocked
        rw [Function.update_of_ne hsame] at hblocked
        obtain ⟨token', htoken', hrest⟩ := hs.blocked key expiry hblocked
        exact ⟨token', List.mem_append_left _ htoken', hrest⟩

theorem Sound.add (hs : Sound h created s now) (result : Except Exn (String × Payload)) :
    Sound h created (s.add result) now := by
  cases result with
  | ok made => exact ⟨hs.listed, hs.blocked⟩
  | error exc => exact hs

theorem Sound.step (hs : Sound h created s now) (hjwt : Faithful h.jwt created) (hfresh : Fresh h created)
    (hdated : Dated created) {event : Event} (hnow : now ≤ event.now)
    (hreaches : Reaches event.call) : Sound h created (step h s event) event.now := by
  have hlater := hs.later hnow
  obtain ⟨time, call⟩ := event
  cases call with
  | createAccessToken data expiresDelta jti => exact hlater.add _
  | createRefreshToken data expiresDelta => exact hlater.add _
  | revokeToken token reach =>
      obtain rfl : reach = .reached := hreaches
      exact hlater.revoke hjwt hfresh hdated time.2 token
  | verifyToken token tokenType reach => exact hlater

theorem sound_run {events : List Event} (hs : Sound h created s now) (hjwt : Faithful h.jwt created)
    (hfresh : Fresh h created) (hdated : Dated created)
    (hreaches : ∀ e ∈ events, Reaches e.call) (hclock : events.Pairwise (fun a b => a.now ≤ b.now))
    (hnow : ∀ e ∈ events, now ≤ e.now) (hnext : now ≤ next) (hlast : ∀ e ∈ events, e.now ≤ next) :
    Sound h created (events.foldl (Security.step h) s) next := by
  induction events generalizing s now with
  | nil => exact hs.later hnext
  | cons event rest ih =>
      obtain ⟨hafter, hrest⟩ := List.pairwise_cons.mp hclock
      have hstep := hs.step hjwt hfresh hdated (hnow event List.mem_cons_self) (hreaches event List.mem_cons_self)
      exact ih hstep (fun e he => hreaches e (List.mem_cons_of_mem _ he)) hrest (fun e he => NNRat.cast_mono (hafter e he))
        (hlast event List.mem_cons_self) (fun e he => hlast e (List.mem_cons_of_mem _ he))

theorem sound_opening (h : Host) (created : List (String × Payload)) (now : ℚ) : Sound h created {} now :=
  ⟨fun token htoken => (by cases htoken), fun key expiry hblocked => (by cases hblocked)⟩

theorem dated_run (h : Host) (events : List Event) : Dated (events.foldl (Security.step h) {}).created :=
  foldl_keeps (I := fun (s : Tokens) => Dated s.created) (fun s event hs => dated_step hs event) events
    (fun token p hmem => by cases hmem)

/-- verify_token from the payload on. -/
theorem verifyToken_ok (hdecode : h.jwt.decode now token = .ok p) (htype : p.get "type" = some (.text tokenType))
    (hexp : p.get "exp" = some (.int e)) {expiry : ℚ} (hlocal : datetime (e + h.offset) = some expiry) (hle : now ≤ expiry) :
    (∃ p', verifyToken h blocklist .reached now token tokenType = .ok p') ↔
      (tokenType = "access" → ∀ key, blockKey h p = some key → redisExists blocklist key now = false) := by
  have hverify : verifyToken h blocklist .reached now token tokenType =
      if tokenType = "access" ∧ (blockKey h p).any (redisExists blocklist · now) then
        .error (authenticationError "Token has been revoked") else .ok p := by
    simp only [verifyToken, hdecode, htype, hexp, Option.any_some, Json.isText, decide_true, Bool.not_true, Bool.false_eq_true,
      if_false, fromtimestamp, number, Option.bind_some, hlocal, if_neg (not_lt.mpr hle), isTokenBlacklisted]
    rfl
  rw [hverify]
  by_cases haccess : tokenType = "access"
  · cases hkey : blockKey h p with
    | none => simp
    | some key => cases hblocked : redisExists blocklist key now <;> simp [haccess, hblocked]
  · simp [haccess]

theorem any_isText_iff {value : Option Json} {text : String} :
    value.any (Json.isText text) = true ↔ value = some (.text text) := by
  cases value with
  | none => exact iff_of_false (by simp) (fun heq => by cases heq)
  | some j =>
      cases j with
      | text s => simp [Json.isText]
      | null | bool | int | float | list | object => exact iff_of_false (by simp [Json.isText]) (fun heq => by cases heq)

theorem Sound.not_blocked_iff (hs : Sound h s.created s now) (hfresh : Fresh h s.created) (hmem : (token, p) ∈ s.created)
    (haccess : IsAccess p) (hexp : p.get "exp" = some (.int e)) (hlive : now < e) (hsecond : SecondLeft s now token) :
    (∀ key, blockKey h p = some key → redisExists s.blocklist key now = false) ↔ token ∉ s.revoked := by
  constructor
  · intro hunblocked hrevoked
    obtain ⟨key, hkey, -⟩ := hfresh token p hmem haccess
    have hleft : now ≤ (e : ℚ) - 1 := (hsecond hrevoked p e hmem haccess hexp).resolve_right (not_le.mpr hlive)
    rcases hs.listed token hrevoked p e key hmem haccess hkey hexp with hpast | ⟨expiry, hexpiry, hlong⟩
    · exact absurd hpast (not_lt.mpr hleft)
    · have hblocked : redisExists s.blocklist key now = true := by
        rw [redisExists, hexpiry]
        exact decide_eq_true (hleft.trans_lt hlong)
      rw [hunblocked key hkey] at hblocked
      cases hblocked
  · intro hnot key hkey
    by_contra hblocked
    rw [Bool.not_eq_false, redisExists] at hblocked
    cases hentry : s.blocklist key with
    | none =>
        rw [hentry] at hblocked
        cases hblocked
    | some expiry =>
        obtain ⟨token', htoken', p', hmem', hkey'⟩ := hs.blocked key expiry hentry
        obtain ⟨key₀, hkey₀, hunique⟩ := hfresh token p hmem haccess
        cases hkey.symm.trans hkey₀
        exact hnot (hunique token' p' hmem' hkey' ▸ htoken')

theorem not_accepts_of_error {err : JwtError} (hdecode : h.jwt.decode now token = .error err) :
    ¬ Accepts h s now token tokenType := by
  rintro ⟨p, hp⟩
  cases err <;> simp only [verifyToken, hdecode] at hp <;> cases hp

theorem Sound.accepts_iff (hs : Sound h s.created s now) (hjwt : Faithful h.jwt s.created) (hfresh : Fresh h s.created)
    (hdated : Dated s.created) (hlocal : LocallyLive h s now token) (hsecond : SecondLeft s now token) :
    Accepts h s now token tokenType ↔ Valid s now token tokenType ∧ (tokenType = "access" → token ∉ s.revoked) := by
  by_cases hcreated : ∃ p, (token, p) ∈ s.created
  case neg =>
    obtain ⟨message, hdecode⟩ := hjwt.forged token now (fun p hp => hcreated ⟨p, hp⟩)
    refine iff_of_false (not_accepts_of_error hdecode) (fun hvalid => ?_)
    obtain ⟨⟨p, e, hmem, -⟩, -⟩ := hvalid
    exact hcreated ⟨p, hmem⟩
  obtain ⟨p, hmem⟩ := hcreated
  obtain ⟨e, hexp⟩ := hdated token p hmem
  have hdecode := hjwt.genuine token p e now hmem hexp
  by_cases hlive : now < e
  case neg =>
    rw [if_neg hlive] at hdecode
    refine iff_of_false (not_accepts_of_error hdecode) (fun hvalid => ?_)
    obtain ⟨⟨p', e', hmem', -, hexp', hlive'⟩, -⟩ := hvalid
    exact hjwt.expired hmem hmem' hexp hexp' hlive hlive'
  rw [if_pos hlive] at hdecode
  by_cases htype : p.get "type" = some (.text tokenType)
  case neg =>
    refine iff_of_false ?_ (fun hvalid => ?_)
    · rintro ⟨p', hp'⟩
      have hno : (p.get "type").any (Json.isText tokenType) = false :=
        Bool.eq_false_iff.mpr (fun hany => htype (any_isText_iff.mp hany))
      simp only [verifyToken, hdecode, hno, Bool.not_false, if_true] at hp'
      cases hp'
    · obtain ⟨⟨p', e', hmem', htype', hexp', hlive'⟩, -⟩ := hvalid
      exact htype (hjwt.payload_eq hmem' hmem hexp' hexp hlive' hlive ▸ htype')
  obtain ⟨expiry, hexpiry, hle⟩ := hlocal p e hmem hexp hlive
  have hvalid : Valid s now token tokenType := ⟨p, e, hmem, htype, hexp, hlive⟩
  rw [Accepts, verifyToken_ok hdecode htype hexp hexpiry hle, and_iff_right hvalid]
  refine forall_congr' (fun haccess => ?_)
  subst haccess
  exact hs.not_blocked_iff hfresh hmem htype hexp hlive hsecond

/-- After every run of the calls a token is accepted exactly when it was created with the type, its
expiry is in the future and, if it is an access token, it was not revoked. Left open is what becomes
of a token whose expiry is past in local time, and of a revoked one in its last second. -/
theorem accepts_iff_valid {events : List Event} {now : ℚ≥0}
    (hjwt : Faithful h.jwt (events.foldl (Security.step h) {}).created) (hfresh : Fresh h (events.foldl (Security.step h) {}).created)
    (hreaches : ∀ e ∈ events, Reaches e.call) (hclock : events.Pairwise (fun a b => a.now ≤ b.now))
    (hlast : ∀ e ∈ events, e.now ≤ now) (hlocal : LocallyLive h (events.foldl (Security.step h) {}) now token)
    (hsecond : SecondLeft (events.foldl (Security.step h) {}) now token) :
    Accepts h (events.foldl (Security.step h) {}) now token tokenType ↔
      Valid (events.foldl (Security.step h) {}) now token tokenType ∧
        (tokenType = "access" → token ∉ (events.foldl (Security.step h) {}).revoked) := by
  have hdated := dated_run h events
  have hsound := sound_run (sound_opening h _ 0) hjwt hfresh hdated hreaches hclock (fun e _ => e.now.2) now.2
    (fun e he => NNRat.cast_mono (hlast e he))
  exact hsound.accepts_iff hjwt hfresh hdated hlocal hsecond

/-- Where the expiry is past in local time the token is rejected, however long it has to live. -/
theorem not_accepts_behind (hdecode : h.jwt.decode now token = .ok p) (hexp : p.get "exp" = some (.int e)) {expiry : ℚ}
    (hexpiry : datetime (e + h.offset) = some expiry) (hpast : expiry < now) : ¬ Accepts h s now token tokenType := by
  rintro ⟨p', hp'⟩
  simp only [verifyToken, hdecode, hexp, fromtimestamp, number, Option.bind_some, hexpiry, hpast, if_true] at hp'
  split at hp' <;> cases hp'

/-- A token that has less than a second to live is not entered. -/
theorem revokeToken_last_second (hdecode : h.jwt.decode now token = .ok p) (hexp : p.get "exp" = some (.int e))
    (hlive : now ≤ e) (hsecond : (e : ℚ) - now < 1) : revokeToken h blocklist .reached now token = blocklist := by
  have httl : ¬ 0 < truncate (e - now) := by
    rw [truncate, if_neg (not_lt.mpr (sub_nonneg.mpr hlive)), not_lt, ← Int.lt_add_one_iff, Int.floor_lt]
    simpa using hsecond
  cases hkey : blockKey h p with
  | none => simp only [revokeToken, hdecode, hkey, reduceCtorEq, if_false]
  | some key =>
      simp only [revokeToken, hdecode, hkey, hexp, number, httl, false_and, if_false, reduceCtorEq]
      split <;> rfl

section runs

/-- The payload of a token that is created at a time without data of its own. -/
def accessPayload : Payload :=
  (stamp ∅ (((1700000000 : ℚ≥0) : ℚ) + lifetime none (((30 : Int) : ℚ) * 60)) ((1700000000 : ℚ≥0) : ℚ) "access").set "jti"
    (.text "jti")

def refreshPayload : Payload :=
  stamp ∅ (((1700000000 : ℚ≥0) : ℚ) + lifetime none (((7 : Int) : ℚ) * 86400)) ((1700000000 : ℚ≥0) : ℚ) "refresh"

/-- A host in UTC that makes one token only. -/
def hostOf (p : Payload) (e : Int) : Host where
  jwt :=
    { encode := fun _ => .ok "header.payload.signature"
      decode := fun now token =>
        if token = "header.payload.signature" then if now < e then .ok p else .error .expiredSignature
        else .error (.invalidToken "Not enough segments") }
  offset := 0
  display := fun _ => ""

theorem faithful_hostOf (hexp : p.get "exp" = some (.int e)) :
    Faithful (hostOf p e).jwt [("header.payload.signature", p)] := by
  refine ⟨fun token p' e' now hmem hexp' => ?_, fun token now hforged => ⟨"Not enough segments", if_neg ?_⟩⟩
  · cases List.mem_singleton.mp hmem
    cases hexp.symm.trans hexp'
    simp only [hostOf, if_true]
  · rintro rfl
    exact hforged p (List.mem_singleton_self _)

theorem accessPayload_exp : accessPayload.get "exp" = some (.int 1700001800) := by
  refine (Dict.get_set_of_ne _ _ _ (by decide)).trans ((stamp_exp _ _ _ _).trans ?_)
  congr 2
  decide +kernel

theorem refreshPayload_exp : refreshPayload.get "exp" = some (.int 1700604800) := by
  refine (stamp_exp _ _ _ _).trans ?_
  congr 2
  decide +kernel

def accessHost : Host := hostOf accessPayload 1700001800

def refreshHost : Host := hostOf refreshPayload 1700604800

def accessRun : List Event := [⟨1700000000, .createAccessToken ∅ none "jti"⟩]

def refreshRun : List Event :=
  [⟨1700000000, .createRefreshToken ∅ none⟩, ⟨1700000001, .revokeToken "header.payload.signature" .reached⟩]

theorem run_access :
    accessRun.foldl (Security.step accessHost) {} = { created := [("header.payload.signature", accessPayload)] } := by
  have hdatetime : datetime (((1700000000 : ℚ≥0) : ℚ) + lifetime none (((30 : Int) : ℚ) * 60)) =
      some (((1700000000 : ℚ≥0) : ℚ) + lifetime none (((30 : Int) : ℚ) * 60)) := by decide +kernel
  simp only [accessRun, List.foldl, Security.step, createAccessToken, encoded, accessHost, hostOf, hdatetime]
  rfl

theorem run_refresh : ∃ blocklist, refreshRun.foldl (Security.step refreshHost) {} =
    { blocklist, created := [("header.payload.signature", refreshPayload)], revoked := ["header.payload.signature"] } := by
  have hdatetime : datetime (((1700000000 : ℚ≥0) : ℚ) + lifetime none (((7 : Int) : ℚ) * 86400)) =
      some (((1700000000 : ℚ≥0) : ℚ) + lifetime none (((7 : Int) : ℚ) * 86400)) := by decide +kernel
  simp only [refreshRun, List.foldl, Security.step, createRefreshToken, encoded, refreshHost, hostOf, hdatetime]
  exact ⟨_, rfl⟩

theorem accepts_iff_valid_access : Accepts accessHost (accessRun.foldl (Security.step accessHost) {}) ((1700000060 : ℚ≥0) : ℚ)
    "header.payload.signature" "access" ↔
      Valid (accessRun.foldl (Security.step accessHost) {}) ((1700000060 : ℚ≥0) : ℚ) "header.payload.signature" "access" ∧
        ("access" = "access" → "header.payload.signature" ∉ (accessRun.foldl (Security.step accessHost) {}).revoked) := by
  refine accepts_iff_valid ?_ ?_ ?_ (List.pairwise_singleton _ _) ?_ ?_ ?_
  · rw [run_access]
    exact faithful_hostOf accessPayload_exp
  · rw [run_access]
    intro token p hmem haccess
    cases List.mem_singleton.mp hmem
    exact ⟨_, rfl, fun token' p' hmem' _ => (Prod.mk.inj (List.mem_singleton.mp hmem')).1⟩
  · intro event hevent
    rw [List.mem_singleton.mp hevent]
    trivial
  · intro event hevent
    rw [List.mem_singleton.mp hevent]
    decide +kernel
  · rw [run_access]
    intro p e hmem hexp hlive
    cases List.mem_singleton.mp hmem
    cases accessPayload_exp.symm.trans hexp
    exact ⟨1700001800, by decide +kernel, by decide +kernel⟩
  · rw [run_access]
    intro hrevoked
    cases hrevoked

/-- A refresh token has no jti: it is accepted after it was revoked. -/
theorem revoked_refresh_accepted : ¬ ∀ (h : Host) (events : List Event) (now : ℚ≥0) (token tokenType : String),
    Faithful h.jwt (events.foldl (Security.step h) {}).created → Fresh h (events.foldl (Security.step h) {}).created →
    (∀ e ∈ events, Reaches e.call) → events.Pairwise (fun a b => a.now ≤ b.now) → (∀ e ∈ events, e.now ≤ now) →
    (Accepts h (events.foldl (Security.step h) {}) now token tokenType ↔
      Valid (events.foldl (Security.step h) {}) now token tokenType ∧
        token ∉ (events.foldl (Security.step h) {}).revoked) := by
  intro hlaw
  obtain ⟨blocklist, hrun⟩ := run_refresh
  have htype : refreshPayload.get "type" = some (.text "refresh") := rfl
  have hlaw := hlaw refreshHost refreshRun 1700000002 "header.payload.signature" "refresh"
  rw [hrun] at hlaw
  have hfresh : Fresh refreshHost [("header.payload.signature", refreshPayload)] := by
    intro token p hmem haccess
    cases List.mem_singleton.mp hmem
    rw [IsAccess, htype] at haccess
    simp at haccess
  have hreaches : ∀ e ∈ refreshRun, Reaches e.call := by
    intro event hevent
    rcases List.mem_cons.mp hevent with rfl | hevent
    · trivial
    · rw [List.mem_singleton.mp hevent]
      rfl
  have hlast : ∀ e ∈ refreshRun, e.now ≤ (1700000002 : ℚ≥0) := by
    intro event hevent
    rcases List.mem_cons.mp hevent with rfl | hevent
    · decide +kernel
    · rw [List.mem_singleton.mp hevent]
      decide +kernel
  have hrefresh := hlaw (faithful_hostOf refreshPayload_exp) hfresh hreaches (List.pairwise_pair.mpr (by decide +kernel)) hlast
  have hdecode : refreshHost.jwt.decode ((1700000002 : ℚ≥0) : ℚ) "header.payload.signature" = .ok refreshPayload := by
    simp only [refreshHost, hostOf, if_true]
    exact if_pos (by decide +kernel)
  have hlocal : datetime (((1700604800 : Int) : ℚ) + refreshHost.offset) = some 1700604800 := by decide +kernel
  have haccepts : ∃ p, verifyToken refreshHost blocklist .reached ((1700000002 : ℚ≥0) : ℚ) "header.payload.signature" "refresh" =
      .ok p :=
    (verifyToken_ok hdecode htype refreshPayload_exp hlocal (by decide +kernel)).mpr (fun haccess => absurd haccess (by decide))
  exact (hrefresh.mp haccepts).2 (List.mem_singleton_self _)

end runs

end Utos.Core.Security
