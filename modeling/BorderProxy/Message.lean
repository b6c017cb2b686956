import BorderProxy.Message.Header
import BorderProxy.Message.Status
import BorderProxy.Text.Utf8
import BorderProxy.Uri

/-! Messages of SIP and their text. -/

namespace BorderProxy

/-- The version of the protocol that a message names. -/
inductive Version where
  | one
  | two
  deriving DecidableEq, Repr

def Version.text : Version → Text
  | .one => "SIP/1.0".toList
  | .two => "SIP/2.0".toList

structure Request where
  method : Method
  uri : Uri
  version : Version
  headers : Headers
  body : List UInt8
  deriving DecidableEq, Repr

structure Response where
  version : Version
  status : Status
  headers : Headers
  body : List UInt8
  deriving DecidableEq, Repr

inductive Message where
  | request (r : Request)
  | response (r : Response)
  deriving DecidableEq, Repr

/-- The lines of header fields, the blank line and the body; damaged pieces of a body are replaced. -/
def Headers.textWithBody (hs : Headers) (body : List UInt8) : Text :=
  hs.flatMap (fun h => h.text ++ "\r\n".toList) ++ "\r\n".toList ++ Utf8.decodeLossy body

def Request.text (r : Request) : Text :=
  r.method.text ++ ' ' :: r.uri.text ++ ' ' :: r.version.text ++ "\r\n".toList ++
    r.headers.textWithBody r.body

def Response.text (r : Response) : Text :=
  r.version.text ++ ' ' :: r.status.text ++ "\r\n".toList ++ r.headers.textWithBody r.body

namespace Message

def headers : Message → Headers
  | .request r => r.headers
  | .response r => r.headers

def body : Message → List UInt8
  | .request r => r.body
  | .response r => r.body

def mapHeaders (edit : Headers → Headers) : Message → Message
  | .request r => .request { r with headers := edit r.headers }
  | .response r => .response { r with headers := edit r.headers }

/-- The message with a body, and with the length of the body announced. -/
def withBody (body : List UInt8) (m : Message) : Message :=
  let edit := Headers.setLast .contentLength (Text.decimal body.length)
  match m with
  | .request r => .request { r with headers := edit r.headers, body := body }
  | .response r => .response { r with headers := edit r.headers, body := body }

def text : Message → Text
  | .request r => r.text
  | .response r => r.text

def wire (m : Message) : List UInt8 := Utf8.encode m.text

end Message

end BorderProxy
