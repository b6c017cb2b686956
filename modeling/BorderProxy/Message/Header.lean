import BorderProxy.Text

/-! Header fields. A field with a standard name is printed with that name's own spelling; any other name
stays as it was received. -/

namespace BorderProxy

inductive StandardName where
  | accept
  | acceptEncoding
  | acceptLanguage
  | alertInfo
  | allow
  | authenticationInfo
  | authorization
  | cseq
  | callId
  | callInfo
  | contact
  | contentDisposition
  | contentEncoding
  | contentLanguage
  | contentLength
  | contentType
  | date
  | errorInfo
  | event
  | expires
  | from
  | inReplyTo
  | maxForwards
  | mimeVersion
  | minExpires
  | organization
  | priority
  | proxyAuthenticate
  | proxyAuthorization
  | proxyRequire
  | recordRoute
  | replyTo
  | require
  | retryAfter
  | route
  | server
  | subject
  | supported
  | timestamp
  | to
  | unsupported
  | userAgent
  | via
  | warning
  | wwwAuthenticate
  deriving DecidableEq, Repr

def StandardName.text : StandardName → Text
  | .accept => "Accept".toList
  | .acceptEncoding => "Accept-Encoding".toList
  | .acceptLanguage => "Accept-Language".toList
  | .alertInfo => "Alert-Info".toList
  | .allow => "Allow".toList
  | .authenticationInfo => "Authentication-Info".toList
  | .authorization => "Authorization".toList
  | .cseq => "CSeq".toList
  | .callId => "Call-ID".toList
  | .callInfo => "Call-Info".toList
  | .contact => "Contact".toList
  | .contentDisposition => "Content-Disposition".toList
  | .contentEncoding => "Content-Encoding".toList
  | .contentLanguage => "Content-Language".toList
  | .contentLength => "Content-Length".toList
  | .contentType => "Content-Type".toList
  | .date => "Date".toList
  | .errorInfo => "Error-Info".toList
  | .event => "Event".toList
  | .expires => "Expires".toList
  | .from => "From".toList
  | .inReplyTo => "In-Reply-To".toList
  | .maxForwards => "Max-Forwards".toList
  | .mimeVersion => "Mime-Version".toList
  | .minExpires => "Min-Expires".toList
  | .organization => "Organization".toList
  | .priority => "Priority".toList
  | .proxyAuthenticate => "Proxy-Authenticate".toList
  | .proxyAuthorization => "Proxy-Authorization".toList
  | .proxyRequire => "Proxy-Require".toList
  | .recordRoute => "Record-Route".toList
  | .replyTo => "Reply-To".toList
  | .require => "Require".toList
  | .retryAfter => "Retry-After".toList
  | .route => "Route".toList
  | .server => "Server".toList
  | .subject => "Subject".toList
  | .supported => "Supported".toList
  | .timestamp => "Timestamp".toList
  | .to => "To".toList
  | .unsupported => "Unsupported".toList
  | .userAgent => "User-Agent".toList
  | .via => "Via".toList
  | .warning => "Warning".toList
  | .wwwAuthenticate => "WWW-Authenticate".toList

def StandardName.all : List StandardName :=
  [.accept, .acceptEncoding, .acceptLanguage, .alertInfo, .allow, .authenticationInfo,
   .authorization, .cseq, .callId, .callInfo, .contact, .contentDisposition, .contentEncoding,
   .contentLanguage, .contentLength, .contentType, .date, .errorInfo, .event, .expires, .from,
   .inReplyTo, .maxForwards, .mimeVersion, .minExpires, .organization, .priority,
   .proxyAuthenticate, .proxyAuthorization, .proxyRequire, .recordRoute, .replyTo, .require,
   .retryAfter, .route, .server, .subject, .supported, .timestamp, .to, .unsupported, .userAgent,
   .via, .warning, .wwwAuthenticate]

inductive HeaderName where
  | standard (name : StandardName)
  | other (spelling : Text)
  deriving DecidableEq, Repr

def HeaderName.text : HeaderName → Text
  | .standard name => name.text
  | .other spelling => spelling

/-- The name that a text spells; standard names are known in any case. -/
def HeaderName.ofText (t : Text) : HeaderName :=
  match StandardName.all.find? fun name => Text.sameLetters name.text t with
  | some name => .standard name
  | none => .other t

structure Header where
  name : HeaderName
  value : Text
  deriving DecidableEq, Repr

abbrev Header.of (name : StandardName) (value : Text) : Header := ⟨.standard name, value⟩

def Header.isNamed (name : StandardName) (h : Header) : Bool := h.name == .standard name

def Header.text (h : Header) : Text := h.name.text ++ ':' :: ' ' :: h.value

/-- Header fields in order. -/
abbrev Headers := List Header

namespace Headers

/-- The values of the fields with a name, in order. -/
def values (name : StandardName) (hs : Headers) : List Text :=
  (hs.filter (Header.isNamed name)).map (·.value)

def value? (name : StandardName) (hs : Headers) : Option Text :=
  (hs.find? (Header.isNamed name)).map (·.value)

def eraseFirst (name : StandardName) (hs : Headers) : Headers := hs.eraseP (Header.isNamed name)

/-- The fields with a new value in the first one of a name. -/
def replaceFirst (name : StandardName) (value : Text) : Headers → Headers
  | [] => []
  | h :: hs =>
    if h.isNamed name then .of name value :: hs else h :: replaceFirst name value hs

def before (name : StandardName) (hs : Headers) : Headers := hs.takeWhile fun h => !h.isNamed name

def fromFirst (name : StandardName) (hs : Headers) : Headers := hs.dropWhile fun h => !h.isNamed name

def without (name : StandardName) (hs : Headers) : Headers := hs.filter fun h => !h.isNamed name

/-- The fields with one more of a name above all others of it, or at the front. -/
def pushAbove (name : StandardName) (value : Text) (hs : Headers) : Headers :=
  if hs.any (Header.isNamed name) then
    hs.before name ++ .of name value :: hs.fromFirst name
  else .of name value :: hs

/-- The fields with all of a name replaced by the given values, which stand where the first one stood;
where there was none, they stand at the end. -/
def replaceAll (name : StandardName) (values : List Text) (hs : Headers) : Headers :=
  hs.before name ++ values.map (.of name) ++ (hs.fromFirst name).without name

/-- As `replaceAll`; where there was none, the values stand at the front. -/
def replaceAllInFront (name : StandardName) (values : List Text) (hs : Headers) : Headers :=
  if hs.any (Header.isNamed name) then hs.replaceAll name values
  else values.map (.of name) ++ hs

/-- The fields with a single one of a name, which stands at the end. -/
def setLast (name : StandardName) (value : Text) (hs : Headers) : Headers :=
  hs.without name ++ [.of name value]

/-- The trimmed value of the first field that is printed under a name, in any case. -/
def named? (name : Text) (hs : Headers) : Option Text :=
  (hs.find? fun h => Text.sameLetters h.name.text name).map fun h => Text.trim h.value

end Headers

end BorderProxy
