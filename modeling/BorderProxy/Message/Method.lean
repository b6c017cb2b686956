import BorderProxy.Text

/-! The request methods of SIP and the characters of tokens. -/

namespace BorderProxy

/-- The characters of tokens: ASCII letters, digits and a few marks. -/
def isTokenChar (c : Char) : Bool :=
  c.isAlphanum || "-.!%*_+`'~".toList.contains c

inductive Method where
  | ack
  | bye
  | cancel
  | info
  | invite
  | message
  | notify
  | options
  | prack
  | publish
  | refer
  | register
  | subscribe
  | update
  deriving DecidableEq, Repr

namespace Method

def all : List Method :=
  [.ack, .bye, .cancel, .info, .invite, .message, .notify, .options, .prack, .publish, .refer,
   .register, .subscribe, .update]

def text : Method → Text
  | .ack => "ACK".toList
  | .bye => "BYE".toList
  | .cancel => "CANCEL".toList
  | .info => "INFO".toList
  | .invite => "INVITE".toList
  | .message => "MESSAGE".toList
  | .notify => "NOTIFY".toList
  | .options => "OPTIONS".toList
  | .prack => "PRACK".toList
  | .publish => "PUBLISH".toList
  | .refer => "REFER".toList
  | .register => "REGISTER".toList
  | .subscribe => "SUBSCRIBE".toList
  | .update => "UPDATE".toList

def read (t : Text) : Option Method := all.find? fun m => Text.sameLetters m.text t

end Method

end BorderProxy
