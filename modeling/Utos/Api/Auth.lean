import Utos.Core.TokenLife
import Utos.Core.Uuid
import Utos.Coroutine.Flight
import Utos.Coroutine.Trace

namespace Utos.Api.Auth

open Core Core.Exceptions Core.Security Coroutine Program

structure User where
  id : Uuid
  email : String
  passwordHash : String
  fullName : Option String
  isActive : Bool := true
  role : String := "user"
  deriving DecidableEq, Repr

/-- What the endpoints use of libraries: JWT and its settings, the check of EmailStr, bcrypt (given a
salt), str.lower, and the classes of characters that a password is asked for. -/
structure Libraries where
  security : Security.Host
  emailStr : String → Option String
  hashpw : String → String → Except String String
  checkpw : String → String → Bool
  lower : String → String
  isupper : Char → Bool
  islower : Char → Bool
  isdigit : Char → Bool

/-- Time, the table of users, and Redis. -/
structure World where
  clock : ℚ := 0
  users : List User := []
  blocklist : Blocklist := fun _ => none

/-- What is awaited: the queries of the user repository, and Redis. -/
inductive Request
  | existsByEmail (email : String)
  | create (id : Uuid) (email passwordHash : String) (fullName : Option String)
  | getByEmail (email : String)
  | getById (id : Uuid)
  | isTokenBlacklisted (key : String)
  | revokeToken (token : String)

/-- With a user that was looked up by email comes the time. -/
abbrev Answer : Request → Type
  | .existsByEmail _ => Except Exn Bool
  | .create .. => Except Exn User
  | .getByEmail _ => Except Exn (Option User × ℚ)
  | .getById _ => Except Exn (Option User)
  | .isTokenBlacklisted _ => Bool
  | .revokeToken _ => Unit

/-- What an endpoint raises: a ValidationError of the request, an HTTPException, or what becomes a 500. -/
inductive Failure
  | requestValidation (message : String)
  | http (status : Nat) (code message : String)
  | raised (e : Exn)

inductive Reply
  | user (user : User)
  | tokens (accessToken refreshToken : String) (expiresIn : Int)
  | token (accessToken : String) (expiresIn : Int)
  | message (message : String)

/-- A login that succeeded. -/
structure Login where
  user : User
  password : String
  time : ℚ

/-- A user whom a request was let in as, and when its token was verified. -/
structure Admission where
  user : User
  time : ℚ

/-- The tokens that were made, with their payloads, and what the endpoints have done. -/
structure Store where
  created : List (String × Payload) := []
  logins : List Login := []
  admitted : List Admission := []

abbrev Operation (α : Type) := Program Store Request Answer Failure α

def raising {α : Type} : Except Exn α → Except Failure α
  | .ok a => .ok a
  | .error e => .error (.raised e)

variable (lib : Libraries)

def validatePasswordStrength (v : String) : Except Failure String :=
  let cs := v.toList
  let errors := (if v.length < 8 then ["at least 8 characters"] else []) ++
    (if cs.any lib.isupper then [] else ["one uppercase letter"]) ++
    (if cs.any lib.islower then [] else ["one lowercase letter"]) ++
    (if cs.any lib.isdigit then [] else ["one digit"]) ++
    (if cs.any (· ∈ "!@#$%^&*()_+-=[]\x7b\x7d|;:,.<>?".toList) then [] else ["one special character"])
  if errors.isEmpty then .ok v else .error (.requestValidation ("Password must contain: " ++ ", ".intercalate errors))

def validateEmail (email : String) : Except Failure String :=
  match lib.emailStr email with
  | some email => .ok email
  | none => .error (.requestValidation "value is not a valid email address")

/-- The session commits the user that was made. -/
def register (id : Uuid) (email password : String) (fullName : Option String) (salt : String) : Operation Reply :=
  .bind (.lift (validateEmail lib email)) (fun email =>
    .bind (.lift (validatePasswordStrength lib password)) (fun password =>
      .bind (await (.existsByEmail email) raising) (fun exists_ =>
        if exists_ then .raise (.http 409 "EMAIL_EXISTS" "Email already registered")
        else match lib.hashpw password salt with
          | .error _ => .raise (.raised (authenticationError "Failed to hash password"))
          | .ok hashed => .bind (await (.create id email hashed fullName) raising) (fun user => .ret (.user user)))))

/-- The payload of the tokens of a user. -/
def claims (user : User) : Payload := ((∅ : Payload).set "sub" (.text user.id.str)).set "email" (.text user.email)

def addToken (s : Store) (token : String × Payload) : Store := { s with created := s.created ++ [token] }

/-- The access token, and then the refresh token. -/
def issueTokens (user : User) (password : String) (now : ℚ) (jti : String) : Operation Reply :=
  .bind (.lift (raising (createAccessToken lib.security (claims user) none now jti))) (fun access =>
    .get (fun s => .put (addToken { s with logins := s.logins ++ [⟨user, password, now⟩] } access)
      (.bind (.lift (raising (createRefreshToken lib.security (claims user) none now))) (fun refresh =>
        .get (fun s => .put (addToken s refresh)
          (.ret (.tokens access.1 refresh.1 (lib.security.settings.accessTokenExpireMinutes * 60))))))))

def login (email password jti : String) : Operation Reply :=
  .bind (.lift (validateEmail lib email)) (fun email =>
    .bind (await (.getByEmail email) raising) (fun found => match found.1 with
      | none => .raise (.http 401 "INVALID_CREDENTIALS" "Invalid email or password")
      | some user =>
          if lib.checkpw password user.passwordHash = false then
            .raise (.http 401 "INVALID_CREDENTIALS" "Invalid email or password")
          else if user.isActive = false then .raise (.http 401 "ACCOUNT_DISABLED" "Account is disabled")
          else issueTokens lib user password found.2 jti))

/-- What verify_token checks before it asks Redis, which it does not for a refresh token. -/
def verified (now : ℚ) (token tokenType : String) : Except Exn Payload :=
  verifyToken lib.security (fun _ => none) .absent now token tokenType

def invalidToken (e : Exn) : Failure := .http 401 "INVALID_TOKEN" e.message

def refreshToken (now : ℚ) (token jti : String) : Operation Reply :=
  match verified lib now token "refresh" with
  | .error e => .raise (invalidToken e)
  | .ok payload => match payload.get "sub" with
    | none => .raise (.raised (.other "KeyError" "'sub'"))
    | some sub =>
        let data := ((∅ : Payload).set "sub" sub).set "email" ((payload.get "email").getD .null)
        .bind (.lift (raising (createAccessToken lib.security data none now jti))) (fun access =>
          .get (fun s => .put (addToken s access)
            (.ret (.token access.1 (lib.security.settings.accessTokenExpireMinutes * 60)))))

def logout (token : String) : Operation Reply :=
  .call (.revokeToken token) (fun () => .ret (.message "Successfully logged out"))

/-- verify_token of an access token: the payload, unless Redis has its key. -/
def verifyAccess (now : ℚ) (token : String) : Operation Payload :=
  match verified lib now token "access" with
  | .error e => .raise (invalidToken e)
  | .ok payload => match blockKey lib.security payload with
    | none => .ret payload
    | some key => .call (.isTokenBlacklisted key) (fun revoked =>
        if revoked then .raise (invalidToken (authenticationError "Token has been revoked")) else .ret payload)

def letIn (now : ℚ) (user : User) : Operation User :=
  .get (fun s => .put { s with admitted := s.admitted ++ [⟨user, now⟩] } (.ret user))

def getUser (now : ℚ) (id : Uuid) : Operation User :=
  .bind (await (.getById id) raising) (fun
    | some user =>
        if user.isActive then letIn now user else .raise (.http 401 "USER_NOT_FOUND" "User not found or inactive")
    | none => .raise (.http 401 "USER_NOT_FOUND" "User not found or inactive"))

/-- The sub of a payload: a text that is not empty is read as a UUID. -/
def subject (payload : Payload) : Except Failure Uuid :=
  match payload.get "sub" with
  | some (.text sub) =>
      if sub = "" then .error (.http 401 "" "Invalid token payload")
      else match Uuid.parse sub with
        | some id => .ok id
        | none => .error (.raised (.other "ValueError" "badly formed hexadecimal UUID string"))
  | some sub =>
      .error (if sub.truthy then .raised (.other "AttributeError" "object has no attribute 'replace'")
        else .http 401 "" "Invalid token payload")
  | none => .error (.http 401 "" "Invalid token payload")

def getCurrentUserFromToken (now : ℚ) (credentials : Option String) : Operation User :=
  match credentials with
  | none => .raise (.http 403 "NO_AUTH" "Not authenticated")
  | some token => .bind (verifyAccess lib now token) (fun payload =>
      .bind (.lift (subject payload)) (fun id => getUser now id))

def getMe (now : ℚ) (credentials : Option String) : Operation Reply :=
  .bind (getCurrentUserFromToken lib now credentials) (fun user => .ret (.user user))

def requireAdmin (now : ℚ) (credentials : Option String) : Operation Reply :=
  .bind (getCurrentUserFromToken lib now credentials) (fun user =>
    if user.role = "admin" then .ret (.user user) else .raise (.http 403 "FORBIDDEN" "Admin access required"))

/-- INSERT INTO users: ids and emails are unique. -/
def insertUser (w : World) (user : User) : Except Exn User × World :=
  if w.users.any (fun other => other.id = user.id ∨ other.email = user.email) then
    (.error (.other "IntegrityError" "UNIQUE constraint failed: users.email"), w)
  else (.ok user, { w with users := w.users ++ [user] })

/-- The database answers, or raises; Redis does as it is reached. -/
def answers (outage : Option Exn) (reach : Reach) : Handler World Request Answer
  | w, .existsByEmail email => (match outage with
    | some e => .error e
    | none => .ok (w.users.any (·.email = lib.lower email)), w)
  | w, .create id email passwordHash fullName => match outage with
    | some e => (.error e, w)
    | none => insertUser w { id, email, passwordHash, fullName }
  | w, .getByEmail email => (match outage with
    | some e => .error e
    | none => .ok (w.users.find? (·.email = lib.lower email), w.clock), w)
  | w, .getById id => (match outage with
    | some e => .error e
    | none => .ok (w.users.find? (·.id = id)), w)
  | w, .isTokenBlacklisted key => (Security.isTokenBlacklisted w.blocklist reach key w.clock, w)
  | w, .revokeToken token => ((), { w with blocklist := Security.revokeToken lib.security w.blocklist reach w.clock token })

abbrev Server := Pool Store World Request Answer Failure Reply

/-- The requests to the endpoints, each with a name of its own and what it draws; time that passes; and
a user that is disabled or enabled in the database, or given a role. -/
inductive Event
  | tick (seconds : ℚ≥0)
  | update (id : Uuid) (isActive : Bool) (role : String)
  | register (caller : Nat) (id : Uuid) (email password : String) (fullName : Option String) (salt : String)
  | login (caller : Nat) (email password jti : String)
  | refreshToken (caller : Nat) (token jti : String)
  | logout (caller : Nat) (token : String)
  | getMe (caller : Nat) (credentials : Option String)
  | requireAdmin (caller : Nat) (credentials : Option String)
  | answer (caller : Nat) (outage : Option Exn) (reach : Reach)

def begin (N : Server) (caller : Nat) (p : Operation Reply) : Server :=
  if (N.tasks caller).isNone then N.start caller p else N

def World.update (w : World) (id : Uuid) (isActive : Bool) (role : String) : World :=
  { w with users := w.users.map (fun user => if user.id = id then { user with isActive, role } else user) }

def step (N : Server) : Event → Server
  | .tick seconds => { N with world := { N.world with clock := N.world.clock + seconds } }
  | .update id isActive role => { N with world := N.world.update id isActive role }
  | .register caller id email password fullName salt =>
      begin N caller (Auth.register lib id email password fullName salt)
  | .login caller email password jti => begin N caller (Auth.login lib email password jti)
  | .refreshToken caller token jti => begin N caller (Auth.refreshToken lib N.world.clock token jti)
  | .logout caller token => begin N caller (Auth.logout token)
  | .getMe caller credentials => begin N caller (Auth.getMe lib N.world.clock credentials)
  | .requireAdmin caller credentials => begin N caller (Auth.requireAdmin lib N.world.clock credentials)
  | .answer caller outage reach => (N.act (answers lib outage reach) caller).resume caller

def opening : Server := { store := {}, world := {} }

/-- The token that a request comes with. -/
def presented : Event → Option String
  | .refreshToken _ token _ => some token
  | .getMe _ credentials | .requireAdmin _ credentials => credentials
  | _ => none

/-- If the token is decoded, it was made before and has not expired. -/
def Live (s : Store) (now : ℚ) (token : String) : Prop :=
  ∀ p, lib.security.jwt.decode now token = .ok p →
    (token, p) ∈ s.created ∧ ∀ exp : Int, p.get "exp" = some (.int exp) → now < exp

/-- No request comes with a forged token. -/
def Unforged (N : Server) (e : Event) : Prop := ∀ token, presented e = some token → Live lib N.store N.world.clock token

def accessLife : ℚ := lib.security.settings.accessTokenExpireMinutes * 60

def refreshLife : ℚ := lib.security.settings.refreshTokenExpireDays * 86400

/-- At a time t, a login can still be what a user is let in for. -/
def Vouches (l : Login) (id : Uuid) (t : ℚ) : Prop :=
  l.user.id = id ∧ l.time ≤ t ∧ t < l.time + max 0 (refreshLife lib) + accessLife lib

/-- The payload of a token that goes back to a login. -/
structure Granted (l : Login) (p : Payload) : Prop where
  sub : p.get "sub" = some (.text l.user.id.str)
  exp : ∃ e : Int, p.get "exp" = some (.int e) ∧
    (p.get "type" = some (.text "refresh") ∧ e ≤ l.time + refreshLife lib ∨
      p.get "type" = some (.text "access") ∧ e ≤ l.time + max 0 (refreshLife lib) + accessLife lib)

/-- The login was the user's, and the password was accepted. -/
structure Genuine (l : Login) : Prop where
  password : lib.checkpw l.password l.user.passwordHash = true
  active : l.user.isActive = true
  email : ∃ email, l.user.email = lib.lower email

/-- Where a user was let in: as whom, and for which login. -/
structure Admitted (a : Admission) (l : Login) : Prop where
  vouches : Vouches lib l a.user.id a.time
  genuine : Genuine lib l
  email : a.user.email = l.user.email
  passwordHash : a.user.passwordHash = l.user.passwordHash
  active : a.user.isActive = true

structure Rooted (w : World) (s : Store) : Prop where
  ids : (w.users.map User.id).Nodup
  known : ∀ l ∈ s.logins, ∃ user ∈ w.users, user.id = l.user.id ∧ user.email = l.user.email ∧
    user.passwordHash = l.user.passwordHash
  logins : ∀ l ∈ s.logins, Genuine lib l ∧ l.time ≤ w.clock
  created : ∀ token p, (token, p) ∈ s.created → ∃ l ∈ s.logins, Granted lib l p
  admitted : ∀ a ∈ s.admitted, ∃ l ∈ s.logins, Admitted lib a l

/-- A request that waits after its token was verified has a login that it goes back to. -/
def flight : Flight Store World Request Answer (Multiset (Uuid × ℚ)) Failure Reply where
  holds _ _ := True
  inv m w s := Rooted lib w s ∧ ∀ c ∈ m, ∃ l ∈ s.logins, Vouches lib l c.1 c.2
  answers h := ∃ outage reach, h = answers lib outage reach

variable {lib} {w : World} {s : Store} {F : Multiset (Uuid × ℚ)} {now : ℚ}

section Tokens

variable {h : Security.Host} {data p : Payload} {expire : ℚ} {kind message token jti : String}

theorem encoded_eq {payload : ℚ → Payload} (hok : encoded h payload expire message = .ok (token, p)) :
    p = payload expire := by
  rw [encoded] at hok
  split at hok
  next expire' hdatetime =>
    unfold datetime at hdatetime
    split at hdatetime
    · cases hdatetime
      split at hok
      · exact (Prod.mk.inj (Except.ok.inj hok)).2.symm
      · cases hok
    · cases hdatetime
  next => cases hok

theorem stamp_sub (data : Payload) (expire now : ℚ) (kind : String) :
    (stamp data expire now kind).get "sub" = data.get "sub" := by
  simp only [stamp, Dict.get_set]
  rfl

theorem stamp_type (data : Payload) (expire now : ℚ) (kind : String) :
    (stamp data expire now kind).get "type" = some (.text kind) := by
  simp only [stamp, Dict.get_set]
  rfl

end Tokens

/-- The access token that is made for whoever has logged in, or comes with a refresh token. -/
theorem granted_access {l : Login} {data p : Payload} {token jti : String}
    (hok : createAccessToken lib.security data none now jti = .ok (token, p))
    (hsub : data.get "sub" = some (.text l.user.id.str)) (htime : now ≤ l.time + max 0 (refreshLife lib)) :
    Granted lib l p := by
  obtain rfl := encoded_eq hok
  refine ⟨?_, ⌊now + accessLife lib⌋, ?_, .inr ⟨?_, ?_⟩⟩
  · exact (Dict.get_set_of_ne _ _ _ (by decide)).trans ((stamp_sub ..).trans hsub)
  · exact (Dict.get_set_of_ne _ _ _ (by decide)).trans (stamp_exp ..)
  · exact (Dict.get_set_of_ne _ _ _ (by decide)).trans (stamp_type ..)
  · linarith [Int.floor_le (now + accessLife lib)]

theorem granted_refresh {l : Login} {data p : Payload} {token : String}
    (hok : createRefreshToken lib.security data none l.time = .ok (token, p))
    (hsub : data.get "sub" = some (.text l.user.id.str)) : Granted lib l p := by
  obtain rfl := encoded_eq hok
  refine ⟨(stamp_sub ..).trans hsub, ⌊l.time + refreshLife lib⌋, stamp_exp .., .inl ⟨stamp_type .., Int.floor_le _⟩⟩

/-- A token of the type that was asked for is decoded. -/
theorem verified_ok {token tokenType : String} {p : Payload} (hok : verified lib now token tokenType = .ok p) :
    lib.security.jwt.decode now token = .ok p ∧ p.get "type" = some (.text tokenType) := by
  unfold verified verifyToken at hok
  split at hok
  · cases hok
  · cases hok
  next payload hdecode =>
    split at hok
    · cases hok
    next htype =>
      rw [Bool.not_eq_true', Bool.not_eq_false] at htype
      have hpayload : payload = p := by
        split at hok
        · cases hok
        · cases hok
        · split at hok
          · split at hok
            · cases hok
            · split at hok
              · cases hok
              · exact Except.ok.inj hok
          · cases hok
      exact hpayload ▸ ⟨hdecode, any_isText_iff.mp htype⟩

theorem Rooted.addToken (hs : Rooted lib w s) {token : String} {p : Payload} (hp : ∃ l ∈ s.logins, Granted lib l p) :
    Rooted lib w (addToken s (token, p)) := by
  refine ⟨hs.ids, hs.known, hs.logins, fun token' p' hmem => ?_, hs.admitted⟩
  rcases List.mem_append.mp hmem with hmem | hmem
  · exact hs.created token' p' hmem
  · cases List.mem_singleton.mp hmem
    exact hp

theorem Rooted.login (hs : Rooted lib w s) {user : User} (huser : user ∈ w.users) {password : String}
    (hlogin : Genuine lib ⟨user, password, w.clock⟩) :
    Rooted lib w { s with logins := s.logins ++ [⟨user, password, w.clock⟩] } := by
  refine ⟨hs.ids, fun l hl => ?_, fun l hl => ?_, fun token p hmem => ?_, fun a ha => ?_⟩
  · rcases List.mem_append.mp hl with hl | hl
    · exact hs.known l hl
    · rw [List.mem_singleton.mp hl]
      exact ⟨user, huser, rfl, rfl, rfl⟩
  · rcases List.mem_append.mp hl with hl | hl
    · exact hs.logins l hl
    · rw [List.mem_singleton.mp hl]
      exact ⟨hlogin, le_refl _⟩
  · obtain ⟨l, hl, hp⟩ := hs.created token p hmem
    exact ⟨l, List.mem_append_left _ hl, hp⟩
  · obtain ⟨l, hl, hp⟩ := hs.admitted a ha
    exact ⟨l, List.mem_append_left _ hl, hp⟩

theorem Rooted.insertUser (hs : Rooted lib w s) (user : User) : Rooted lib (insertUser w user).2 s := by
  unfold Auth.insertUser
  split
  next => exact hs
  next hnew =>
    rw [Bool.not_eq_true, List.any_eq_false] at hnew
    refine ⟨?_, fun l hl => ?_, hs.logins, hs.created, hs.admitted⟩
    · rw [List.map_append, List.map_singleton, List.nodup_append]
      refine ⟨hs.ids, List.nodup_singleton _, fun id hid other hother => ?_⟩
      obtain ⟨old, hold, rfl⟩ := List.mem_map.mp hid
      rw [List.mem_singleton.mp hother]
      intro heq
      exact hnew old hold (decide_eq_true (.inl heq))
    · obtain ⟨old, hold, hsame⟩ := hs.known l hl
      exact ⟨old, List.mem_append_left _ hold, hsame⟩

theorem Rooted.update (hs : Rooted lib w s) (id : Uuid) (isActive : Bool) (role : String) :
    Rooted lib (w.update id isActive role) s := by
  have hid : ∀ user : User, (if user.id = id then { user with isActive, role } else user).id = user.id := by
    intro user
    split <;> rfl
  refine ⟨?_, fun l hl => ?_, hs.logins, hs.created, hs.admitted⟩
  · simp only [World.update, List.map_map, Function.comp_def, hid]
    exact hs.ids
  · obtain ⟨old, hold, hsame⟩ := hs.known l hl
    refine ⟨_, List.mem_map_of_mem hold, ?_⟩
    split <;> exact hsame

/-- Whoever is found by the id of a login is the user that logged in. -/
theorem Rooted.letIn (hs : Rooted lib w s) {l : Login} (hl : l ∈ s.logins) {user : User} (huser : user ∈ w.users)
    (hvouches : Vouches lib l user.id now) (hactive : user.isActive = true) :
    Rooted lib w { s with admitted := s.admitted ++ [⟨user, now⟩] } := by
  refine ⟨hs.ids, hs.known, hs.logins, hs.created, fun a ha => ?_⟩
  rcases List.mem_append.mp ha with ha | ha
  · exact hs.admitted a ha
  · obtain ⟨known, hknown, hid, hemail, hhash⟩ := hs.known l hl
    obtain rfl := List.inj_on_of_nodup_map hs.ids hknown huser (hid.trans hvouches.1)
    rw [List.mem_singleton.mp ha]
    exact ⟨l, hl, hvouches, (hs.logins l hl).1, hemail, hhash, hactive⟩

section Endpoints

variable {p : Operation Reply}

theorem balances_lift {α : Type} (x : Except Failure α) : Balances (flight lib) (.lift x) := by
  intro F w s hinv
  cases x <;> exact hinv

theorem balances_raise {α : Type} (e : Failure) : Balances (flight lib) (.raise e : Operation α) := fun _ _ _ hinv => hinv

/-- A query whose answer, whatever it is, leaves what is known of the users. -/
theorem balances_await {α : Type} {q : Request} {as : Answer q → Except Failure α}
    (hq : ∀ outage reach w s, Rooted lib w s → Rooted lib (answers lib outage reach w q).2 s) :
    Balances (flight lib) (await q as) := by
  refine fun F w s hinv => ⟨0, trivial, (zero_add F).symm ▸ hinv, ?_⟩
  rintro h ⟨outage, reach, rfl⟩ F' w' s' hinv'
  rw [zero_add] at hinv'
  exact balances_lift (as _) F' _ s' ⟨hq outage reach w' s' hinv'.1, hinv'.2⟩

theorem balances_register (id : Uuid) (email password : String) (fullName : Option String) (salt : String) :
    Balances (flight lib) (register lib id email password fullName salt) := by
  refine balances_bind (balances_lift _) (fun email => balances_bind (balances_lift _) (fun password =>
    balances_bind (balances_await (fun outage reach w s hs => ?_)) (fun found => ?_)))
  · cases outage <;> exact hs
  · split
    · exact balances_raise _
    · split
      · exact balances_raise _
      · refine balances_bind (balances_await (fun outage reach w s hs => ?_)) (fun user => balances_ret _)
        cases outage with
        | some e => exact hs
        | none => exact hs.insertUser _

theorem balances_logout (token : String) : Balances (flight lib) (logout token) := by
  refine fun F w s hinv => ⟨0, trivial, (zero_add F).symm ▸ hinv, ?_⟩
  rintro h ⟨outage, reach, rfl⟩ F' w' s' ⟨hs, hvouched⟩
  exact ⟨⟨hs.ids, hs.known, hs.logins, hs.created, hs.admitted⟩, fun c hc => hvouched c ((zero_add F').symm ▸ hc)⟩

theorem sub_claims (user : User) : (claims user).get "sub" = some (.text user.id.str) :=
  (Dict.get_set_of_ne _ _ _ (by decide)).trans (Dict.get_set_self ..)

theorem lands_issueTokens (hs : Rooted lib w s) (hvouched : ∀ c ∈ F, ∃ l ∈ s.logins, Vouches lib l c.1 c.2) {user : User}
    (huser : user ∈ w.users) {password : String} (hlogin : Genuine lib ⟨user, password, w.clock⟩) (jti : String) :
    Lands (flight lib) (issueTokens lib user password w.clock jti) (fun _ => (flight lib).inv) F w s := by
  unfold issueTokens
  cases haccess : createAccessToken lib.security (claims user) none w.clock jti with
  | error e => exact ⟨hs, hvouched⟩
  | ok access =>
      obtain ⟨token, p⟩ := access
      have hin : (⟨user, password, w.clock⟩ : Login) ∈ s.logins ++ [⟨user, password, w.clock⟩] :=
        List.mem_append_right _ (List.mem_singleton_self _)
      have hs' : Rooted lib w (addToken { s with logins := s.logins ++ [⟨user, password, w.clock⟩] } (token, p)) :=
        (hs.login huser hlogin).addToken
          ⟨_, hin, granted_access haccess (sub_claims user) (le_add_of_nonneg_right (le_max_left _ _))⟩
      have hvouched' : ∀ c ∈ F, ∃ l ∈ s.logins ++ [⟨user, password, w.clock⟩], Vouches lib l c.1 c.2 := by
        intro c hc
        obtain ⟨l, hl, hvouches⟩ := hvouched c hc
        exact ⟨l, List.mem_append_left _ hl, hvouches⟩
      cases hrefresh : createRefreshToken lib.security (claims user) none w.clock with
      | error e =>
          simp only [raising, Program.lift, Program.bind, Lands]
          exact ⟨hs', hvouched'⟩
      | ok refresh =>
          simp only [raising, Program.lift, Program.bind, Lands]
          exact ⟨hs'.addToken ⟨_, hin, granted_refresh hrefresh (sub_claims user)⟩, hvouched'⟩

theorem balances_login (email password jti : String) : Balances (flight lib) (login lib email password jti) := by
  refine balances_bind (balances_lift _) (fun email F w s hinv => ⟨0, trivial, (zero_add F).symm ▸ hinv, ?_⟩)
  rintro h ⟨outage, reach, rfl⟩ F' w' s' hinv'
  rw [zero_add] at hinv'
  cases outage with
  | some e => exact hinv'
  | none =>
      cases hfound : w'.users.find? (·.email = lib.lower email) with
      | none =>
          simp only [answers, raising, Program.lift, Program.bind, hfound, Lands]
          exact hinv'
      | some user =>
          simp only [answers, raising, Program.lift, Program.bind, hfound]
          split
          · exact hinv'
          next hpassword =>
            split
            · exact hinv'
            next hactive =>
              have hemail : user.email = lib.lower email := by simpa using List.find?_some hfound
              exact lands_issueTokens hinv'.1 hinv'.2 (List.mem_of_find?_eq_some hfound)
                ⟨by simpa using hpassword, by simpa using hactive, email, hemail⟩ jti

/-- A token that is verified goes back to a login, and its time is not over. -/
theorem Rooted.verified (hs : Rooted lib w s) {token tokenType : String} (hlive : Live lib s w.clock token) {p : Payload}
    (hok : Auth.verified lib w.clock token tokenType = .ok p) :
    ∃ l ∈ s.logins, p.get "sub" = some (.text l.user.id.str) ∧
      (tokenType = "refresh" → w.clock ≤ l.time + max 0 (refreshLife lib)) ∧
      (tokenType = "access" → Vouches lib l l.user.id w.clock) := by
  obtain ⟨hdecode, htype⟩ := verified_ok hok
  obtain ⟨hmem, hexp⟩ := hlive p hdecode
  obtain ⟨l, hl, hsub, e, he, hkind⟩ := hs.created token p hmem
  have hnow := hexp e he
  have hpast := (hs.logins l hl).2
  refine ⟨l, hl, hsub, fun hrefresh => ?_, fun haccess => ⟨rfl, hpast, ?_⟩⟩
  · rcases hkind with ⟨_, hle⟩ | ⟨hother, _⟩
    · linarith [le_max_right 0 (refreshLife lib)]
    · rw [hrefresh] at htype
      exact absurd (htype.symm.trans hother) (by simp)
  · rcases hkind with ⟨hother, _⟩ | ⟨_, hle⟩
    · rw [haccess] at htype
      exact absurd (htype.symm.trans hother) (by simp)
    · exact hnow.trans_le hle

theorem lands_refreshToken (hinv : (flight lib).inv F w s) {token : String} (hlive : Live lib s w.clock token)
    (jti : String) : Lands (flight lib) (refreshToken lib w.clock token jti) (fun _ => (flight lib).inv) F w s := by
  unfold refreshToken
  cases hok : verified lib w.clock token "refresh" with
  | error e => exact hinv
  | ok p =>
      obtain ⟨l, hl, hsub, htime, -⟩ := hinv.1.verified hlive hok
      simp only [hsub]
      cases haccess : createAccessToken lib.security
          (((∅ : Payload).set "sub" (.text l.user.id.str)).set "email" ((p.get "email").getD .null)) none w.clock jti with
      | error e => exact hinv
      | ok access =>
          refine ⟨hinv.1.addToken ⟨l, hl, granted_access haccess ?_ (htime rfl)⟩, hinv.2⟩
          exact (Dict.get_set_of_ne _ _ _ (by decide)).trans (Dict.get_set_self ..)

theorem lands_getUser (hinv : (flight lib).inv F w s) {id : Uuid} (hlogin : ∃ l ∈ s.logins, Vouches lib l id now) :
    Lands (flight lib) (getUser now id) (fun _ => (flight lib).inv) F w s := by
  refine ⟨{(id, now)}, trivial, ⟨hinv.1, fun c hc => ?_⟩, ?_⟩
  · rcases Multiset.mem_add.mp hc with hc | hc
    · rw [Multiset.mem_singleton.mp hc]
      exact hlogin
    · exact hinv.2 c hc
  · rintro h ⟨outage, reach, rfl⟩ F' w' s' ⟨hs, hvouched⟩
    have hothers : (flight lib).inv F' w' s' := ⟨hs, fun c hc => hvouched c (Multiset.mem_add.mpr (.inr hc))⟩
    obtain ⟨l, hl, hvouches⟩ := hvouched (id, now) (Multiset.mem_add.mpr (.inl (Multiset.mem_singleton_self _)))
    cases outage with
    | some e => exact hothers
    | none =>
        cases hfound : w'.users.find? (·.id = id) with
        | none =>
            simp only [answers, raising, Program.lift, Program.bind, hfound, Lands]
            exact hothers
        | some user =>
            simp only [answers, raising, Program.lift, Program.bind, hfound]
            split
            next hactive =>
              have hid : user.id = id := by simpa using List.find?_some hfound
              exact ⟨hs.letIn hl (List.mem_of_find?_eq_some hfound) (hid ▸ hvouches) hactive, hothers.2⟩
            next => exact hothers

theorem lands_getCurrentUserFromToken (hinv : (flight lib).inv F w s) {credentials : Option String}
    (hlive : ∀ token, credentials = some token → Live lib s w.clock token) :
    Lands (flight lib) (getCurrentUserFromToken lib w.clock credentials) (fun _ => (flight lib).inv) F w s := by
  cases credentials with
  | none => exact hinv
  | some token =>
      simp only [getCurrentUserFromToken, verifyAccess]
      cases hok : verified lib w.clock token "access" with
      | error e => exact hinv
      | ok p =>
          obtain ⟨l, hl, hsub, -, hvouches⟩ := hinv.1.verified (hlive token rfl) hok
          have hsubject : subject p = .ok l.user.id := by
            simp only [subject, hsub, if_neg (Uuid.str_ne_empty _), Uuid.parse_str]
          cases hkey : blockKey lib.security p with
          | none =>
              simp only [hkey, Program.bind, hsubject, Program.lift]
              exact lands_getUser hinv ⟨l, hl, hvouches rfl⟩
          | some key =>
              simp only [hkey, Program.bind]
              refine ⟨{(l.user.id, w.clock)}, trivial, ⟨hinv.1, fun c hc => ?_⟩, ?_⟩
              · rcases Multiset.mem_add.mp hc with hc | hc
                · rw [Multiset.mem_singleton.mp hc]
                  exact ⟨l, hl, hvouches rfl⟩
                · exact hinv.2 c hc
              · rintro h ⟨outage, reach, rfl⟩ F' w' s' ⟨hs, hvouched⟩
                have hothers : (flight lib).inv F' w' s' := ⟨hs, fun c hc => hvouched c (Multiset.mem_add.mpr (.inr hc))⟩
                have hlogin := hvouched _ (Multiset.mem_add.mpr (.inl (Multiset.mem_singleton_self _)))
                have hgo : ∀ revoked : Bool, Lands (flight lib)
                    (.bind (if revoked then .raise (invalidToken (authenticationError "Token has been revoked")) else .ret p)
                      (fun payload => .bind (.lift (subject payload)) (fun id => getUser w.clock id)))
                    (fun _ => (flight lib).inv) F' w' s' := by
                  rintro (revoked | revoked)
                  · simp only [Bool.false_eq_true, if_false, Program.bind, hsubject, Program.lift]
                    exact lands_getUser hothers hlogin
                  · exact hothers
                exact hgo _

theorem lands_getMe (hinv : (flight lib).inv F w s) {credentials : Option String}
    (hlive : ∀ token, credentials = some token → Live lib s w.clock token) :
    Lands (flight lib) (getMe lib w.clock credentials) (fun _ => (flight lib).inv) F w s := by
  refine lands_bind (lands_mono (lands_getCurrentUserFromToken hinv hlive) ?_)
  rintro (e | user) F' w' s' hinv' <;> exact hinv'

theorem lands_requireAdmin (hinv : (flight lib).inv F w s) {credentials : Option String}
    (hlive : ∀ token, credentials = some token → Live lib s w.clock token) :
    Lands (flight lib) (requireAdmin lib w.clock credentials) (fun _ => (flight lib).inv) F w s := by
  refine lands_bind (lands_mono (lands_getCurrentUserFromToken hinv hlive) ?_)
  rintro (e | user) F' w' s' hinv'
  · exact hinv'
  · simp only [thenLands]
    split <;> exact hinv'

end Endpoints

section Step

variable {N : Server} {p : Operation Reply} {own : Nat →₀ Multiset (Uuid × ℚ)}

theorem balanced_begin {caller : Nat} (hN : Balanced (flight lib) own N)
    (hp : ∀ F, (flight lib).inv F N.world N.store → Lands (flight lib) p (fun _ => (flight lib).inv) F N.world N.store) :
    ∃ own', Balanced (flight lib) own' (begin N caller p) := by
  simp only [begin, Option.isNone_iff_eq_none]
  split
  next hfresh => exact hN.start hfresh (fun F hinv => lands_mono (hp F hinv) (fun _ _ _ _ h => ⟨trivial, h⟩))
  next => exact ⟨own, hN⟩

theorem balanced_step (h : ∃ own, Balanced (flight lib) own N) (e : Event) (he : Unforged lib N e) :
    ∃ own, Balanced (flight lib) own (step lib N e) := by
  obtain ⟨own, hN⟩ := h
  cases e with
  | tick seconds =>
      refine ⟨own, hN.store (fun F hinv => ?_)⟩
      refine ⟨⟨hinv.1.ids, hinv.1.known, fun l hl => ?_, hinv.1.created, hinv.1.admitted⟩, hinv.2⟩
      obtain ⟨hgenuine, hpast⟩ := hinv.1.logins l hl
      exact ⟨hgenuine, hpast.trans (le_add_of_nonneg_right seconds.2)⟩
  | update id isActive role => exact ⟨own, hN.store (fun F hinv => ⟨hinv.1.update id isActive role, hinv.2⟩)⟩
  | register caller id email password fullName salt =>
      exact balanced_begin hN (fun F hinv => balances_register id email password fullName salt F _ _ hinv)
  | login caller email password jti => exact balanced_begin hN (fun F hinv => balances_login email password jti F _ _ hinv)
  | refreshToken caller token jti =>
      exact balanced_begin hN (fun F hinv => lands_refreshToken hinv (he token rfl) jti)
  | logout caller token => exact balanced_begin hN (fun F hinv => balances_logout token F _ _ hinv)
  | getMe caller credentials =>
      exact balanced_begin hN (fun F hinv => lands_getMe hinv he)
  | requireAdmin caller credentials =>
      exact balanced_begin hN (fun F hinv => lands_requireAdmin hinv he)
  | answer caller outage reach => exact hN.answer ⟨outage, reach, rfl⟩

end Step

/-- Whoever is let in, in whatever order requests come, wait and are answered, has logged in with a
password that was accepted, and not longer ago than the two kinds of tokens last. -/
theorem admitted_run (es : List Event) (hes : AllMeet (step lib) (Unforged lib) opening es) :
    ∀ a ∈ (es.foldl (step lib) opening).store.admitted,
      ∃ l ∈ (es.foldl (step lib) opening).store.logins, Admitted lib a l := by
  have hopening : ∃ own, Balanced (flight lib) own opening := by
    refine ⟨0, Balanced.idle ⟨⟨List.nodup_nil, ?_, ?_, ?_, ?_⟩, fun c hc => absurd hc (Multiset.notMem_zero c)⟩⟩
    · exact fun l hl => absurd hl List.not_mem_nil
    · exact fun l hl => absurd hl List.not_mem_nil
    · exact fun token p hmem => absurd hmem List.not_mem_nil
    · exact fun a ha => absurd ha List.not_mem_nil
  obtain ⟨own, hN⟩ := foldl_of_allMeet (I := fun N : Server => ∃ own, Balanced (flight lib) own N)
    (fun N e h he => balanced_step h e he) hopening hes
  exact hN.inv.1.admitted

section runs

def bobId : Uuid := ⟨7, by decide⟩

def bob : User := { id := bobId, email := "bob@example.com", passwordHash := "$2b$12$hash", fullName := none }

def accessClaims : Payload :=
  (stamp (claims bob) (0 + lifetime none (((30 : Int) : ℚ) * 60)) 0 "access").set "jti" (.text "jti")

def refreshClaims : Payload := stamp (claims bob) (0 + lifetime none (((7 : Int) : ℚ) * 86400)) 0 "refresh"

def exampleJwt : Jwt where
  encode p :=
    .ok (if (p.get "type").any (Json.isText "access") then "header.access.signature" else "header.refresh.signature")
  decode now token :=
    if token = "header.access.signature" then if now < 1800 then .ok accessClaims else .error .expiredSignature
    else if token = "header.refresh.signature" then if now < 604800 then .ok refreshClaims else .error .expiredSignature
    else .error (.invalidToken "Not enough segments")

def exampleLib : Libraries where
  security := { jwt := exampleJwt, offset := 0, display := fun _ => "" }
  emailStr := some
  hashpw _ _ := .ok "$2b$12$hash"
  checkpw password hashed := password = "Passw0rd!" ∧ hashed = "$2b$12$hash"
  lower s := String.ofList (s.toList.map Char.toLower)
  isupper := Char.isUpper
  islower := Char.isLower
  isdigit := Char.isDigit

def loginRun : List Event :=
  [.register 0 bobId "bob@example.com" "Passw0rd!" none "salt", .answer 0 none .reached, .answer 0 none .reached,
    .login 1 "bob@example.com" "Passw0rd!" "jti", .answer 1 none .reached]

theorem access_bob : createAccessToken exampleLib.security (claims bob) none 0 "jti" =
    .ok ("header.access.signature", accessClaims) := by
  have hdatetime : datetime (0 + lifetime none (((30 : Int) : ℚ) * 60)) =
      some (0 + lifetime none (((30 : Int) : ℚ) * 60)) := by decide +kernel
  simp only [createAccessToken, encoded, exampleLib, hdatetime, exampleJwt]
  rfl

theorem refresh_bob : createRefreshToken exampleLib.security (claims bob) none 0 =
    .ok ("header.refresh.signature", refreshClaims) := by
  have hdatetime : datetime (0 + lifetime none (((7 : Int) : ℚ) * 86400)) =
      some (0 + lifetime none (((7 : Int) : ℚ) * 86400)) := by decide +kernel
  simp only [createRefreshToken, encoded, exampleLib, hdatetime, exampleJwt]
  rfl

theorem run_login : (loginRun.foldl (step exampleLib) opening).store =
    { created := [("header.access.signature", accessClaims), ("header.refresh.signature", refreshClaims)]
      logins := [⟨bob, "Passw0rd!", 0⟩] } := by
  have hissue : (loginRun.foldl (step exampleLib) opening).store =
      ((issueTokens exampleLib bob "Passw0rd!" 0 "jti").advance {}).2 := by rfl
  rw [hissue, issueTokens, access_bob]
  simp only [raising, Program.lift, Program.bind, Program.advance, refresh_bob]
  rfl

theorem exp_access : accessClaims.get "exp" = some (.int 1800) := by
  refine (Dict.get_set_of_ne _ _ _ (by decide)).trans ((stamp_exp _ _ _ _).trans ?_)
  congr 2
  decide +kernel

theorem verified_access : verified exampleLib 0 "header.access.signature" "access" = .ok accessClaims := by
  have hlive : (0 : ℚ) < 1800 := by decide +kernel
  have hexpiry : fromtimestamp exampleLib.security (.int 1800) = some 1800 := by decide +kernel
  have hdecode : exampleLib.security.jwt.decode 0 "header.access.signature" = .ok accessClaims := by
    simp only [exampleLib, exampleJwt, if_true, hlive]
  have hkey : (blockKey exampleLib.security accessClaims).any (isTokenBlacklisted (fun _ => none) .absent · 0) = false := by
    cases blockKey exampleLib.security accessClaims <;> rfl
  have htype : (accessClaims.get "type").any (Json.isText "access") = true := by rfl
  simp only [verified, verifyToken, hdecode, htype, exp_access, hexpiry, hkey, hlive.not_gt, Bool.not_true,
    Bool.false_eq_true, if_false, and_false]

def meRun : List Event := [.getMe 2 (some "header.access.signature"), .answer 2 none .reached, .answer 2 none .reached]

/-- From where bob is known, his token lets him in. -/
theorem admitted_me {N : Server} (hadmitted : N.store.admitted = []) (hworld : N.world = { users := [bob] })
    (hfresh : N.tasks 2 = none) : (meRun.foldl (step exampleLib) N).store.admitted = [⟨bob, 0⟩] := by
  obtain ⟨store, world, tasks⟩ := N
  obtain rfl : world = { users := [bob] } := hworld
  have hfresh' : tasks 2 = none := hfresh
  have hkey : blockKey exampleLib.security accessClaims = some "token_blocklist:jti" := by rfl
  simp only [meRun, List.foldl_cons, List.foldl_nil, step, begin, hfresh', Option.isNone_none, if_true, getMe,
    getCurrentUserFromToken, verifyAccess, verified_access, hkey, Pool.start, Program.bind, Program.advance]
  have hanswer : answers exampleLib none .reached { users := [bob] } (.isTokenBlacklisted "token_blocklist:jti") =
      (false, { users := [bob] }) := by rfl
  have hsubject : subject accessClaims = .ok bob.id := by
    have hsub : accessClaims.get "sub" = some (.text bob.id.str) :=
      (Dict.get_set_of_ne _ _ _ (by decide)).trans ((stamp_sub ..).trans (sub_claims bob))
    simp only [subject, hsub, if_neg (Uuid.str_ne_empty _), Uuid.parse_str]
  have hfound : answers exampleLib none .reached { users := [bob] } (.getById bob.id) =
      (.ok (some bob), { users := [bob] }) := by rfl
  simp only [Pool.act, Function.update_self, hanswer, Pool.resume, Pool.start, Bool.false_eq_true, if_false, Program.bind,
    hsubject, Program.lift, getUser, await, Program.advance, hfound, raising]
  exact congrArg (· ++ [(⟨bob, 0⟩ : Admission)]) hadmitted

theorem run_me : ((loginRun ++ meRun).foldl (step exampleLib) opening).store.admitted = [⟨bob, 0⟩] := by
  rw [List.foldl_append]
  exact admitted_me (by rw [run_login]) (by rfl) (by rfl)

theorem unforged_me : AllMeet (step exampleLib) (Unforged exampleLib) opening (loginRun ++ meRun) := by
  refine allMeet_append.mpr ⟨?_, fun token htoken p hdecode => ?_, ?_⟩
  · refine ⟨?_, ?_, ?_, ?_, ?_, trivial⟩ <;> exact fun token htoken => (by cases htoken)
  · cases htoken
    rw [run_login]
    have hclock : (loginRun.foldl (step exampleLib) opening).world.clock = 0 := by rfl
    rw [hclock] at hdecode ⊢
    have hlive : (0 : ℚ) < 1800 := by decide +kernel
    simp only [exampleLib, exampleJwt, if_true, hlive] at hdecode
    cases hdecode
    refine ⟨List.mem_cons_self, fun exp hexp => ?_⟩
    cases exp_access.symm.trans hexp
    exact hlive
  · refine ⟨?_, ?_, trivial⟩ <;> exact fun token htoken => (by cases htoken)

theorem admitted_run_login : ∃ l ∈ ((loginRun ++ meRun).foldl (step exampleLib) opening).store.logins,
    Admitted exampleLib ⟨bob, 0⟩ l :=
  admitted_run _ unforged_me _ (run_me ▸ List.mem_singleton_self _)

end runs

end Utos.Api.Auth
