import BorderProxy.Md5
import BorderProxy.Message.Fields
import BorderProxy.Message

/-! Branches. The branch of a forwarded request is a digest of what identifies its transaction. The method
is left out, so that a CANCEL gets the branch of the request that it cancels. -/

namespace BorderProxy

/-- The start of every branch. -/
def branchMark : Text := "z9hG4bK".toList

structure TransactionKey where
  uri : Text
  /-- The branch of the lowest Via. -/
  originBranch : Text
  callId : Text
  sequence : Nat
  fromTag : Text
  toTag : Text
  deriving DecidableEq, Repr

def TransactionKey.branch (k : TransactionKey) : Text :=
  branchMark ++ Md5.hexDigest (Text.join ['|']
    [k.uri, k.originBranch, k.callId, Text.decimal k.sequence, k.fromTag, k.toTag])

def Headers.tag (name : StandardName) (hs : Headers) : Text :=
  ((hs.value? name).bind fun value => NameAddr.param? value "tag".toList).getD []

def Request.transactionKey (r : Request) : TransactionKey :=
  { uri := r.uri.text
    originBranch :=
      (r.headers.vias.getLast?.bind fun via => Via.param? via "branch".toList).getD []
    callId := r.headers.callId?.getD []
    sequence := ((r.headers.sequence?).map fun s => s.1.toNat).getD 0
    fromTag := r.headers.tag .from
    toTag := r.headers.tag .to }

def Request.branch (r : Request) : Text := r.transactionKey.branch

end BorderProxy
