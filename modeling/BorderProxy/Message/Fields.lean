import BorderProxy.Fault
import BorderProxy.Field.Via
import BorderProxy.Message.Header

/-! What the proxy reads from header fields and writes into them. Where several fields have a name, the
first one counts, or the first one that can be read. -/

namespace BorderProxy.Headers

/-- The value of the topmost Via. -/
def topVia? (hs : Headers) : Option Text := hs.value? .via

/-- The Via values from the top. -/
def vias (hs : Headers) : List Text := hs.values .via

/-- The Route values in order. -/
def routes (hs : Headers) : List Text := hs.values .route

/-- The Record-Route values in order. -/
def recordRoutes (hs : Headers) : List Text := hs.values .recordRoute

def withRoutes (routes : List Text) (hs : Headers) : Headers := hs.replaceAll .route routes

def withRecordRoutes (routes : List Text) (hs : Headers) : Headers :=
  hs.replaceAllInFront .recordRoute routes

/-- The trimmed Call-ID. -/
def callId? (hs : Headers) : Option Text := (hs.value? .callId).map Text.trim

def fromUri? (hs : Headers) : Option Uri := (hs.value? .from).bind NameAddr.uri?

def toUri? (hs : Headers) : Option Uri := (hs.value? .to).bind NameAddr.uri?

def contactUri? (hs : Headers) : Option Uri := (hs.value? .contact).bind NameAddr.uri?

/-- The fields with another URI in the Contact field. -/
def withContactUri (uri : Uri) (hs : Headers) : Headers :=
  match hs.value? .contact with
  | some value => hs.replaceFirst .contact (NameAddr.replaceUri value uri)
  | none => hs

def readSequence (value : Text) : Option (UInt32 × Text) :=
  match Text.words value with
  | number :: method :: _ => (Text.uint32? number).map fun n => (n, method)
  | _ => none

/-- The number and method name of the first sequence field that can be read. -/
def sequence? (hs : Headers) : Option (UInt32 × Text) := (hs.values .cseq).findSome? readSequence

/-- The number in the first field of a name that holds one. -/
def number? (name : StandardName) (hs : Headers) : Option UInt32 :=
  (hs.values name).findSome? fun value => Text.uint32? (Text.trim value)

/-- How often the message may still be forwarded. -/
def maxForwards? (hs : Headers) : Option UInt32 := hs.number? .maxForwards

/-- The fields with how often the message may still be forwarded. -/
def withMaxForwards (n : UInt32) (hs : Headers) : Headers :=
  hs.setLast .maxForwards (Text.decimal n.toNat)

/-- The seconds that a binding is asked for. -/
def expires? (hs : Headers) : Option UInt32 := hs.number? .expires

def carriesSdp (hs : Headers) : Bool :=
  (hs.values .contentType).any fun value =>
    Text.startsWith "application/sdp".toList (Text.lower (Text.trim value))

/-- The fields with the source of the message noted in the topmost Via, if there is anything to note. -/
def stamp? (source : Endpoint) (hs : Headers) : Option Headers := do
  let via ← hs.topVia?
  let stamped ← Via.stamp? source via
  return hs.replaceFirst .via stamped

/-- The fields with the source of the message noted in the topmost Via. -/
def stamp (source : Endpoint) (hs : Headers) : Headers := (hs.stamp? source).getD hs

/-- Refuses fields without those that every message needs. -/
def checkComplete (hs : Headers) : Except Fault Unit :=
  if hs.topVia?.isNone then .error (.malformed .noVia)
  else if (hs.value? .from).isNone then .error (.malformed .noFrom)
  else if (hs.value? .to).isNone then .error (.malformed .noTo)
  else if hs.callId?.isNone then .error (.malformed .noCallId)
  else if hs.sequence?.isNone then .error (.malformed .noSequence)
  else .ok ()

end BorderProxy.Headers
