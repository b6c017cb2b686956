import BorderProxy.Proxy.World

/-! What becomes of a message, and processing that may come to an early end. -/

namespace BorderProxy

/-- Why a message is dropped. -/
inductive DropReason where
  | fault (cause : Fault)
  | ackWithoutHops
  | loopedAck
  | unmatchedAck
  | foreignVia
  | unmatchedResponse
  | notARequest
  | notAResponse
  deriving DecidableEq, Repr

def DropReason.message : DropReason → Text
  | .fault cause => cause.message
  | .ackWithoutHops => "ACK with Max-Forwards 0".toList
  | .loopedAck => "looped ACK".toList
  | .unmatchedAck => "unmatched ACK".toList
  | .foreignVia => "topmost Via is not ours".toList
  | .unmatchedResponse => "response matches no registration".toList
  | .notARequest => "not a request".toList
  | .notAResponse => "not a response".toList

/-- What becomes of a message. -/
inductive Routed where
  | forward (message : Message) (destination : Endpoint)
  | respond (response : Response) (destination : Endpoint)
  /-- A plugin answered the message. -/
  | consumed
  | drop (reason : DropReason)
  deriving DecidableEq, Repr

/-- Processing of a message that may come to an early end. -/
abbrev Processing := ExceptT Routed Act

def finish {α : Type} (outcome : Routed) : Processing α := throw outcome

def Processing.outcome (p : Processing Routed) : Act Routed := do
  match ← p.run with
  | .ok outcome => return outcome
  | .error outcome => return outcome

/-- Calls the plugins for a stage; processing ends where one of them answers the message. -/
def consult (stage : Stage) (t : Ticket) : Processing Ticket := do
  let w ← get
  let (outcome, t, plugins) := w.plugins.run stage t
  set { w with plugins := plugins }
  if outcome = .responded then finish .consumed else return t

def requestOf (t : Ticket) : Processing Request :=
  match t.message with
  | .request r => return r
  | .response _ => finish (.drop .notARequest)

def responseOf (t : Ticket) : Processing Response :=
  match t.message with
  | .response r => return r
  | .request _ => finish (.drop .notAResponse)

/-- Forwards a message, or drops it where there is no destination. -/
def forwardTo (m : Message) : Except Fault Endpoint → Routed
  | .ok destination => .forward m destination
  | .error fault => .drop (.fault fault)

end BorderProxy
