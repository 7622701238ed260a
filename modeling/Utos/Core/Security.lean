import Mathlib.Algebra.Order.Floor.Ring
import Mathlib.Data.NNRat.Defs
import Mathlib.Data.Rat.Floor
import Utos.Core.Dict
import Utos.Core.Json

namespace Utos.Core.Security

open Exceptions

abbrev Payload := Dict String Json

/-- The errors of jwt.decode that verify_token tells apart. -/
inductive JwtError
  | expiredSignature
  | invalidToken (message : String)
  deriving DecidableEq, Repr

/-- PyJWT with the key and the algorithm of the settings; decode asks the clock. -/
structure Jwt where
  encode : Payload → Except String String
  decode : ℚ → String → Except JwtError Payload

structure Settings where
  accessTokenExpireMinutes : Int := 30
  refreshTokenExpireDays : Int := 7
  deriving DecidableEq, Repr

/-- A host: its settings, how many seconds its local time is ahead of UTC, and what Python prints for a list or an object. -/
structure Host where
  jwt : Jwt
  settings : Settings := {}
  offset : ℚ
  display : Json → String

def authenticationError (message : String) : Exn := .other "AuthenticationError" message

/-- A datetime, given in seconds: its year is one of 1 to 9999. -/
def datetime (seconds : ℚ) : Option ℚ :=
  if -62135596800 ≤ seconds ∧ seconds < 253402300800 then some seconds else none

/-- The token lives as long as it is told to, unless that is no time at all. -/
def lifetime (expiresDelta : Option ℚ) (default : ℚ) : ℚ :=
  match expiresDelta with
  | some delta => if delta = 0 then default else delta
  | none => default

/-- to_encode.update; jwt.encode turns datetimes into whole seconds. -/
def stamp (data : Payload) (expire now : ℚ) (kind : String) : Payload :=
  ((data.set "exp" (.int ⌊expire⌋)).set "iat" (.int ⌊now⌋)).set "type" (.text kind)

variable (h : Host)

/-- The end of create_access_token and create_refresh_token. -/
def encoded (payload : ℚ → Payload) (expire : ℚ) (message : String) : Except Exn (String × Payload) :=
  match datetime expire with
  | some expire =>
      (match h.jwt.encode (payload expire) with
      | .ok token => .ok (token, payload expire)
      | .error _ => .error (authenticationError message))
  | none => .error (authenticationError message)

/-- TokenManager.create_access_token, with the payload of the token; jti is what token_urlsafe returns. -/
def createAccessToken (data : Payload) (expiresDelta : Option ℚ) (now : ℚ) (jti : String) : Except Exn (String × Payload) :=
  encoded h (fun expire => (stamp data expire now "access").set "jti" (.text jti))
    (now + lifetime expiresDelta (h.settings.accessTokenExpireMinutes * 60)) "Failed to create access token"

/-- TokenManager.create_refresh_token, with the payload of the token. -/
def createRefreshToken (data : Payload) (expiresDelta : Option ℚ) (now : ℚ) : Except Exn (String × Payload) :=
  encoded h (fun expire => stamp data expire now "refresh")
    (now + lifetime expiresDelta (h.settings.refreshTokenExpireDays * 86400)) "Failed to create refresh token"

/-- How a call finds Redis: get_redis returns none, a command is executed, or it raises. -/
inductive Reach
  | absent
  | reached
  | failed
  deriving DecidableEq, Repr

/-- The keys of Redis, with the times at which they expire. -/
abbrev Blocklist := String → Option ℚ

/-- await redis.exists(key) -/
def redisExists (blocklist : Blocklist) (key : String) (now : ℚ) : Bool :=
  match blocklist key with
  | some expiry => now < expiry
  | none => false

/-- The key of a jti, which is looked at if it is there and true. -/
def blockKey (payload : Payload) : Option String :=
  match payload.get "jti" with
  | some jti => if jti.truthy then some s!"token_blocklist:{jti.str h.display}" else none
  | none => none

/-- TokenManager.is_token_blacklisted, given the key. -/
def isTokenBlacklisted (blocklist : Blocklist) (reach : Reach) (key : String) (now : ℚ) : Bool :=
  match reach with
  | .reached => redisExists blocklist key now
  | .absent | .failed => false

def number : Json → Option ℚ
  | .int n => some n
  | .bool b => some (if b then 1 else 0)
  | .float value _ => value
  | _ => none

/-- datetime.fromtimestamp(exp), in the local time of the host. -/
def fromtimestamp (exp : Json) : Option ℚ := (number exp).bind (fun seconds => datetime (seconds + h.offset))

def verifyToken (blocklist : Blocklist) (reach : Reach) (now : ℚ) (token tokenType : String) : Except Exn Payload :=
  match h.jwt.decode now token with
  | .error .expiredSignature => .error (authenticationError "Token has expired")
  | .error (.invalidToken _) => .error (authenticationError "Invalid token")
  | .ok payload =>
      if !(payload.get "type").any (Json.isText tokenType) then
        .error (authenticationError s!"Invalid token type: expected {tokenType}")
      else match payload.get "exp" with
        | none | some .null => .error (authenticationError "Token has expired")
        | some exp => match fromtimestamp h exp with
          | some expiry =>
              if expiry < now then .error (authenticationError "Token has expired")
              else if tokenType = "access" ∧ (blockKey h payload).any (isTokenBlacklisted blocklist reach · now) then
                .error (authenticationError "Token has been revoked")
              else .ok payload
          | none => .error (authenticationError "Failed to verify token")

/-- int(value) -/
def truncate (x : ℚ) : Int := if x < 0 then ⌈x⌉ else ⌊x⌋

/-- TokenManager.revoke_token. What it raises is logged. -/
def revokeToken (blocklist : Blocklist) (reach : Reach) (now : ℚ) (token : String) : Blocklist :=
  if reach = .absent then blocklist
  else match h.jwt.decode now token with
    | .error _ => blocklist
    | .ok payload => match blockKey h payload, payload.get "exp" with
      | some key, some exp =>
          if !exp.truthy then blocklist
          else match number exp with
            | some seconds =>
                let ttl := truncate (seconds - now)
                if 0 < ttl ∧ reach = .reached then Function.update blocklist key (some (now + ttl)) else blocklist
            | none => blocklist
      | _, _ => blocklist

/-- A call; to create an access token a jti is drawn. -/
inductive Call
  | createAccessToken (data : Payload) (expiresDelta : Option ℚ) (jti : String)
  | createRefreshToken (data : Payload) (expiresDelta : Option ℚ)
  | revokeToken (token : String) (reach : Reach)
  | verifyToken (token tokenType : String) (reach : Reach)

/-- A call, at a time in seconds since 1970. -/
structure Event where
  now : ℚ≥0
  call : Call

/-- The blocklist, the tokens that were created, with their payloads, and those that revoke_token was called on. -/
structure Tokens where
  blocklist : Blocklist := fun _ => none
  created : List (String × Payload) := []
  revoked : List String := []

def Tokens.add (s : Tokens) : Except Exn (String × Payload) → Tokens
  | .ok token => { s with created := s.created ++ [token] }
  | .error _ => s

def step (s : Tokens) (e : Event) : Tokens :=
  match e.call with
  | .createAccessToken data expiresDelta jti => s.add (createAccessToken h data expiresDelta e.now jti)
  | .createRefreshToken data expiresDelta => s.add (createRefreshToken h data expiresDelta e.now)
  | .revokeToken token reach =>
      { s with blocklist := revokeToken h s.blocklist reach e.now token, revoked := s.revoked ++ [token] }
  | .verifyToken .. => s

end Utos.Core.Security
