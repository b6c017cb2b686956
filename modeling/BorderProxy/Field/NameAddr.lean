import BorderProxy.Uri.Reader

/-! Header values that hold a URI: either in angle brackets with a display name in front and parameters
behind, or bare with parameters behind. -/

namespace BorderProxy

/-- Reads one parameter: its name and its value, both trimmed; the value is empty where there is none. -/
def readParam (piece : Text) : Text × Text :=
  match Text.cut? '=' piece with
  | some (name, value) => (Text.trim name, Text.trim value)
  | none => (Text.trim piece, [])

/-- The value of the first parameter with a name, in any case. -/
def paramAmong? (name : Text) (pieces : List Text) : Option Text :=
  ((pieces.map readParam).find? fun param => Text.sameLetters param.1 name).map (·.2)

namespace NameAddr

structure Parts where
  before : Text
  uri : Text
  after : Text
  /-- Whether the URI stands in angle brackets, which then end `before` and begin `after`. -/
  bracketed : Bool
  deriving DecidableEq, Repr

/-- Takes a value apart at its URI: what stands between the first opening bracket and the next closing
one, or, without an opening bracket, what stands before the first semicolon. -/
def parts? (value : Text) : Option Parts :=
  match Text.cut? '<' value with
  | some (before, inner) =>
    (Text.cut? '>' inner).map fun (uri, after) => ⟨before ++ ['<'], uri, '>' :: after, true⟩
  | none =>
    let before := value.takeWhile Text.isBlank
    let rest := Text.trimStart value
    let uri :=
      match Text.cut? ';' rest with
      | some (uri, _) => uri
      | none => Text.trimEnd rest
    if uri = [] then none else some ⟨before, uri, rest.drop uri.length, false⟩

def uriText? (value : Text) : Option Text := (parts? value).map fun parts => Text.trim parts.uri

/-- The URI, if its text can be read. -/
def uri? (value : Text) : Option Uri := (uriText? value).bind Uri.read

/-- The value with another URI in its place, which then stands in brackets. -/
def replaceUri (value : Text) (uri : Uri) : Text :=
  match parts? value with
  | some ⟨before, _, after, true⟩ => before ++ uri.text ++ after
  | some ⟨before, _, after, false⟩ => before ++ '<' :: uri.text ++ '>' :: after
  | none => '<' :: uri.text ++ ['>']

/-- The pieces that the parameters behind the URI are written in. -/
def paramPieces (value : Text) : List Text :=
  match Text.cutLast? '>' value with
  | some (_, behind) => Text.splitOn ';' behind
  | none => (Text.splitOn ';' value).drop 1

/-- The value of the parameter with a name, in any case, behind the URI. -/
def param? (value name : Text) : Option Text := paramAmong? name (paramPieces value)

/-- Whether the URI carries the mark of loose routing. -/
def isLoose (value : Text) : Bool :=
  match uriText? value with
  | some uri =>
    ((Text.splitOn ';' uri).drop 1).any fun piece =>
      Text.sameLetters (readParam piece).1 "lr".toList
  | none => false

end NameAddr

end BorderProxy
