import BorderProxy.Address.Literal
import BorderProxy.Message.Method
import BorderProxy.Settings

/-! URIs as messages carry them, and their text. Parameters are kept in the spelling that they are
written in. -/

namespace BorderProxy

inductive Scheme where
  | sip
  | sips
  | other (name : Text)
  deriving DecidableEq, Repr

/-- A host: an address, or a name with any other text. -/
inductive Host where
  | ip (address : Ip)
  | domain (name : Text)
  deriving DecidableEq, Repr

structure HostPort where
  host : Host
  port : Option UInt16
  deriving DecidableEq, Repr

structure UserInfo where
  user : Text
  password : Option Text
  deriving DecidableEq, Repr

structure UriParam where
  name : Text
  value : Option Text
  deriving DecidableEq, Repr

structure Uri where
  scheme : Option Scheme
  userInfo : Option UserInfo
  hostPort : HostPort
  params : List UriParam
  deriving DecidableEq, Repr

def Scheme.text : Scheme → Text
  | .sip => "sip:".toList
  | .sips => "sips:".toList
  | .other name => name ++ "://".toList

/-- The text of a host; an address of version 6 stands without brackets. -/
def Host.text : Host → Text
  | .ip address => address.text
  | .domain name => name

def Host.ofText (t : Text) : Host :=
  match Ip.read t with
  | some address => .ip address
  | none => .domain t

def HostPort.text (h : HostPort) : Text :=
  h.host.text ++
    match h.port with
    | some port => ':' :: Text.decimal port.toNat
    | none => []

/-- The text of a user part with the mark that ends it. -/
def UserInfo.text (u : UserInfo) : Text :=
  u.user ++
    (match u.password with
      | some password => ':' :: password
      | none => []) ++ ['@']

/-- The text of a parameter with the mark that begins it. -/
def UriParam.text (p : UriParam) : Text :=
  ';' :: p.name ++
    match p.value with
    | some value => '=' :: value
    | none => []

namespace Uri

def text (u : Uri) : Text :=
  (match u.scheme with
    | some scheme => scheme.text
    | none => []) ++
  (match u.userInfo with
    | some info => info.text
    | none => []) ++
  u.hostPort.text ++ u.params.flatMap UriParam.text

def hostText (u : Uri) : Text := u.hostPort.host.text

/-- The port, or that of SIP where none is given. -/
def port (u : Uri) : UInt16 := u.hostPort.port.getD sipPort

/-- The scheme, or that of SIP where none is given. -/
def schemeOrSip (u : Uri) : Scheme := u.scheme.getD .sip

def user (u : Uri) : Option Text := u.userInfo.map (·.user)

end Uri

end BorderProxy
