import BorderProxy.Uri.Reader

/-! Credentials as a client presents them: a scheme and parameters in any order, of which the first with
each name counts. A quoted value ends at the next quote; any other value ends at the next comma ahead, or
else at the next space ahead, or else with the text. -/

namespace BorderProxy

inductive DigestAlgorithm where
  | md5
  | other
  deriving DecidableEq, Repr

/-- The protection that a client says it used, with its own nonce and count. -/
inductive Protection where
  | authentication (clientNonce : Text) (count : UInt8)
  | integrity (clientNonce : Text) (count : UInt8)
  deriving DecidableEq, Repr

structure Credentials where
  isDigest : Bool
  username : Text
  realm : Text
  nonce : Text
  uri : Uri
  response : Text
  algorithm : Option DigestAlgorithm
  protection : Option Protection
  deriving DecidableEq, Repr

namespace Credentials

def isGap (c : Char) : Bool := c == ' ' || c == '\t'

/-- A value without quotes and what follows it. -/
def readPlainValue (t : Text) : Text × Text :=
  if t.contains ',' then t.span (· != ',')
  else if t.contains ' ' then t.span (· != ' ')
  else (t, [])

def readValue (t : Text) : Text × Text :=
  match t with
  | '"' :: inner =>
    match Text.cut? '"' inner with
    | some parts => parts
    | none => readPlainValue t
  | _ => readPlainValue t

def skipComma : Text → Text
  | ',' :: rest => rest
  | t => t

/-- Reads parameters up to the end of the text; `steps` bounds their number. -/
def readParams : (steps : Nat) → Text → Option (List (Text × Text))
  | _, [] => some []
  | 0, _ => none
  | steps + 1, t =>
    match Text.cut? '=' (t.dropWhile isGap) with
    | none => none
    | some (name, rest) =>
      let (value, rest) := readValue rest
      (readParams steps (skipComma rest)).map ((name, value) :: ·)

/-- The first value of a name, in any case. -/
def find? (params : List (Text × Text)) (name : String) : Option Text :=
  (params.find? fun param => Text.sameLetters param.1 name.toList).map (·.2)

/-- The algorithms other than MD5 that a client may name. -/
def otherAlgorithms : List Text :=
  ["md5-sess", "sha256", "sha256-sess", "sha512", "sha512-sess"].map String.toList

def readAlgorithm (t : Text) : Option DigestAlgorithm :=
  if Text.lower t = "md5".toList then some .md5
  else if otherAlgorithms.contains (Text.lower t) then some .other
  else none

/-- The protection that the parameters describe, given its name. -/
def readProtection (params : List (Text × Text)) (name : Text) : Option Protection := do
  let clientNonce ← find? params "cnonce"
  let count ← Text.uint8? (← find? params "nc")
  if Text.lower name = "auth".toList then some (.authentication clientNonce count)
  else if Text.lower name = "auth-int".toList then some (.integrity clientNonce count)
  else none

def read (value : Text) : Option Credentials := do
  let (scheme, rest) := (value.dropWhile isGap).span (· != ' ')
  let params ← readParams rest.length rest
  if params = [] then none
  else
    let algorithm ←
      match find? params "algorithm" with
      | some name => (readAlgorithm name).map some
      | none => some none
    let protection ←
      match find? params "qop" with
      | some name => (readProtection params name).map some
      | none => some none
    return {
      isDigest := Text.sameLetters scheme "Digest".toList
      username := ← find? params "username"
      realm := ← find? params "realm"
      nonce := ← find? params "nonce"
      uri := ← Uri.read (← find? params "uri")
      response := ← find? params "response"
      algorithm := algorithm
      protection := protection }

end Credentials

end BorderProxy
