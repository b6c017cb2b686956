import BorderProxy.Md5
import BorderProxy.Message
import BorderProxy.Message.Fields

/-! Answers that the proxy gives itself. An answer repeats the Via, From, To, Call-ID and CSeq fields of
the request in their order; unless it is provisional, each To without a tag gets one. -/

namespace BorderProxy

/-- The tag of local answers: the first ten digits of the digest of the wall-clock time. -/
def answerTag (wallNanos : Nat) : Text := (Md5.hexDigest (Text.decimal wallNanos)).take 10

def answerTo (code : UInt16) (tag value : Text) : Text :=
  if 100 < code ∧ NameAddr.param? value "tag".toList = none then
    value ++ ";tag=".toList ++ tag
  else value

/-- The field that an answer repeats for a field of the request. -/
def Header.answer? (code : UInt16) (tag : Text) (h : Header) : Option Header :=
  match h.name with
  | .standard .via => some h
  | .standard .from => some h
  | .standard .callId => some h
  | .standard .cseq => some h
  | .standard .to => some (.of .to (answerTo code tag h.value))
  | _ => none

/-- The answer to a request: the repeated fields, extra ones, the product name and an empty body. -/
def Request.answer (r : Request) (status : Status) (extra : Headers) (product : Text)
    (wallNanos : Nat) : Response :=
  { version := .two
    status := status
    headers := r.headers.filterMap (Header.answer? status.code (answerTag wallNanos)) ++ extra ++
      [.of .userAgent product, .of .contentLength ['0']]
    body := [] }

end BorderProxy
