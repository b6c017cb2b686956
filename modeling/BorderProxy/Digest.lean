import BorderProxy.Field.Credentials
import BorderProxy.Md5
import BorderProxy.Message
import BorderProxy.Settings
import BorderProxy.Time

/-! Digest authentication. A client that presents no valid credentials is challenged with a fresh nonce.
A nonce is good for five minutes and for one attempt: the attempt that gets as far as the digest spends
it, whether the digest matches or not. -/

namespace BorderProxy

structure IssuedNonce where
  nonce : Text
  issued : Instant
  deriving DecidableEq, Repr

/-- The nonces that are out, and the number of the next one. -/
structure Nonces where
  counter : Nat := 1
  nonces : List IssuedNonce := []
  deriving DecidableEq, Repr

namespace Nonces

def lifeTime : Duration := .seconds 300

/-- The nonces that are still good at a moment. -/
def fresh (s : Nonces) (now : Instant) : List IssuedNonce :=
  s.nonces.filter fun n => now.since n.issued < lifeTime

/-- The nonce with a number: the digest of the number, the wall-clock time and the process. -/
def nonceText (counter wallNanos processId : Nat) : Text :=
  Md5.hexDigest (Text.decimal counter ++ ':' :: Text.decimal wallNanos ++
    ':' :: Text.decimal processId)

def issue (s : Nonces) (clock : Clock) (processId : Nat) : Text × Nonces :=
  let nonce := nonceText s.counter clock.wallNanos processId
  let others := (s.fresh clock.now).filter fun n => n.nonce != nonce
  (nonce, { counter := s.counter + 1, nonces := ⟨nonce, clock.now⟩ :: others })

/-- The store without the nonces that are no longer good. -/
def prune (s : Nonces) (now : Instant) : Nonces := { s with nonces := s.fresh now }

def holds (s : Nonces) (nonce : Text) : Bool := s.nonces.any fun n => n.nonce == nonce

def spend (s : Nonces) (nonce : Text) : Nonces :=
  { s with nonces := s.nonces.filter fun n => n.nonce != nonce }

end Nonces

structure Authenticator where
  settings : AuthSettings
  processId : Nat
  store : Nonces := {}

inductive AuthVerdict where
  | authorized
  /-- The request is to be refused with this field. -/
  | challenge (field : Header)
  deriving DecidableEq, Repr

namespace Authenticator

def challengeText (realm nonce : Text) (stale : Bool) : Text :=
  "Digest realm=\"".toList ++ realm ++ "\", nonce=\"".toList ++ nonce ++ "\"".toList ++
    (if stale then ", stale=true".toList else []) ++ ", algorithm=MD5, qop=\"auth\"".toList

def challenge (a : Authenticator) (clock : Clock) (stale : Bool) : AuthVerdict × Authenticator :=
  let (nonce, store) := a.store.issue clock a.processId
  (.challenge (.of .proxyAuthenticate (challengeText a.settings.realm nonce stale)),
    { a with store := store })

/-- The password of a user: that of the first credential with the name. -/
def password? (a : Authenticator) (username : Text) : Option Text :=
  (a.settings.credentials.find? fun c => c.username == username).map (·.password)

/-- Texts with colons between them. -/
def joined (parts : List Text) : Text := Text.join [':'] parts

/-- The digest that a client has to present; none for an algorithm or protection that is not offered. -/
def expected? (c : Credentials) (method : Method) (realm password : Text) : Option Text :=
  if c.algorithm = some .other then none
  else
    let identity := Md5.hexDigest (joined [c.username, realm, password])
    let action := Md5.hexDigest (joined [method.text, c.uri.text])
    match c.protection with
    | none => some (Md5.hexDigest (joined [identity, c.nonce, action]))
    | some (.authentication clientNonce count) =>
      let count := Text.padZeros 8 (Text.hexadecimal count.toNat)
      some (Md5.hexDigest (joined [identity, c.nonce, count, clientNonce, "auth".toList, action]))
    | some (.integrity ..) => none

def authenticate (a : Authenticator) (clock : Clock) (r : Request) : AuthVerdict × Authenticator :=
  match (r.headers.value? .proxyAuthorization).bind Credentials.read with
  | none => a.challenge clock false
  | some c =>
    if !c.isDigest || c.realm != a.settings.realm then a.challenge clock false
    else
      match a.password? c.username with
      | none => a.challenge clock false
      | some password =>
        let pruned := { a with store := a.store.prune clock.now }
        if !pruned.store.holds c.nonce then pruned.challenge clock true
        else
          let spent := { pruned with store := pruned.store.spend c.nonce }
          match expected? c r.method a.settings.realm password with
          | none => spent.challenge clock true
          | some digest =>
            if digest = Text.lower c.response then (.authorized, spent)
            else spent.challenge clock true

end Authenticator

end BorderProxy
