import BorderProxy.Message
import BorderProxy.Uri.Reader

/-! Reading messages from datagrams. The start line is read from the text of the whole datagram, and all
that it covers must be well-formed. The header block ends at the first blank line, or else at the first
line end; it must be well-formed and consist of fields throughout. -/

namespace BorderProxy

def lineEnd : Text := "\r\n".toList

/-- Reads a version: the major number must be one or two, the minor number is any. -/
def Version.readFront (t : Text) : Option (Version × Text) := do
  let t ← Text.afterPrefix? "SIP/".toList t
  let major := t.takeWhile Char.isDigit
  match t.dropWhile Char.isDigit with
  | '.' :: t =>
    if t.takeWhile Char.isDigit = [] then none
    else
      let rest := t.dropWhile Char.isDigit
      if major = ['1'] then some (.one, rest)
      else if major = ['2'] then some (.two, rest)
      else none
  | _ => none

/-- Reads a request line: method, URI and version with one space between them. -/
def readRequestLine (t : Text) : Option ((Method × Uri × Version) × Text) := do
  let method ← Method.read (t.takeWhile isTokenChar)
  let t ← Text.afterPrefix? [' '] (t.dropWhile isTokenChar)
  let (uri, t) ← Uri.readFront t
  let t ← Text.afterPrefix? [' '] t
  let (version, t) ← Version.readFront t
  let t ← Text.afterPrefix? lineEnd t
  return ((method, uri, version), t)

/-- Reads a status line: version, blanks, a code of three characters, a space and a phrase. -/
def readStatusLine (t : Text) : Option ((Version × Status) × Text) := do
  let (version, t) ← Version.readFront t
  let isGap := fun c => c == ' ' || c == '\t'
  if (t.takeWhile isGap) = [] then none
  else
    let t := t.dropWhile isGap
    let code ← Text.uint16? (t.take 3)
    let t ← Text.afterPrefix? [' '] (t.drop 3)
    let (phrase, t) ← Text.cutAt? lineEnd t
    return ((version, .withPhrase code phrase), t)

/-- Reads header fields up to the end of the text; `steps` bounds their number. -/
def Headers.readAll : (steps : Nat) → Text → Option Headers
  | _, [] => some []
  | 0, _ => none
  | steps + 1, t =>
    let name := t.takeWhile isTokenChar
    if name = [] then none
    else
      match t.dropWhile isTokenChar with
      | ':' :: rest =>
        let rest := rest.dropWhile fun c => c == ' ' || c == '\t'
        match Text.cutAt? lineEnd rest with
        | some (value, more) => (readAll steps more).map (⟨.ofText name, value⟩ :: ·)
        | none => some [⟨.ofText name, rest⟩]
      | _ => none

def Headers.read (t : Text) : Option Headers := readAll t.length t

/-- The header block and the body in what follows a start line. -/
def splitBody (bytes : List UInt8) : Option (List UInt8 × List UInt8) :=
  let lineEnd : List UInt8 := [13, 10]
  (Text.cutAt? (lineEnd ++ lineEnd) bytes).or (Text.cutAt? lineEnd bytes)

/-- Reads a start line off the front of a datagram. What `read` covers of the datagram's text must be
well-formed there. -/
def readStartLine {α : Type} (read : Text → Option (α × Text)) (bytes : List UInt8) :
    Option (α × List UInt8) := do
  let t := Utf8.decodeLossy bytes
  let (line, rest) ← read t
  let covered := t.take (t.length - rest.length)
  let rest ← Text.afterPrefix? (Utf8.encode covered) bytes
  return (line, rest)

/-- Reads the header fields and the body that follow a start line. -/
def readFields (bytes : List UInt8) : Option (Headers × List UInt8) := do
  let (block, body) ← splitBody bytes
  let headers ← Headers.read (← Utf8.decode? block)
  return (headers, body)

def Response.read (bytes : List UInt8) : Option Response := do
  let ((version, status), rest) ← readStartLine readStatusLine bytes
  let (headers, body) ← readFields rest
  return ⟨version, status, headers, body⟩

def Request.read (bytes : List UInt8) : Option Request := do
  let ((method, uri, version), rest) ← readStartLine readRequestLine bytes
  let (headers, body) ← readFields rest
  return ⟨method, uri, version, headers, body⟩

def Message.readPlain (bytes : List UInt8) : Option Message :=
  ((Response.read bytes).map .response).or ((Request.read bytes).map .request)

end BorderProxy
