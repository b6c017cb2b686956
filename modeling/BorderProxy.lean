import BorderProxy.Proxy.Routing
import BorderProxy.Proofs.Arena.Entries
import BorderProxy.Proofs.StreamTable.Entries
import BorderProxy.Proofs.StreamTable.Invariant
import BorderProxy.Proofs.StreamTable.Run
import BorderProxy.Proofs.DelayQueue.Chain
import BorderProxy.Proofs.DelayQueue.DelayList
import BorderProxy.Proofs.DelayQueue.Refinement
import BorderProxy.Proofs.DelayQueue.Run
import BorderProxy.Proofs.Relay.Teardown
import BorderProxy.Proofs.Relay.Ledger
import BorderProxy.Proofs.Address.Literal
import BorderProxy.Proofs.Text.Utf8
import BorderProxy.Proofs.Sdp.Lines
import BorderProxy.Proofs.Sdp.Facing
import BorderProxy.Proofs.Sdp.Redirected
import BorderProxy.Proofs.Sdp.Passing
import BorderProxy.Proofs.Sdp.Relayed
import BorderProxy.Proofs.Sdp.Unrelayed
import BorderProxy.Proofs.StreamTable.Home
import BorderProxy.Proofs.Proxy.Anchoring
import BorderProxy.Proofs.Message.Values
import BorderProxy.Proofs.Proxy.Forwarding
import BorderProxy.Proofs.Proxy.Running
import BorderProxy.Proofs.Proxy.Anchored
import BorderProxy.Proofs.Digest.Attempt
import BorderProxy.Proofs.Digest.Run
import BorderProxy.Proofs.Field.Via
import BorderProxy.Proofs.Proxy.Answers
import BorderProxy.Proofs.Proxy.Bindings
import BorderProxy.Proofs.Proxy.Contacts
import BorderProxy.Proofs.Proxy.Branches
import BorderProxy.Proofs.Proxy.Loops
import BorderProxy.Proofs.Proxy.Hops
import BorderProxy.Proofs.Registration.Twins
import BorderProxy.Proofs.Proxy.Legs
import BorderProxy.Proofs.Proxy.Announced
import BorderProxy.Proofs.Proxy.Forwarded
import BorderProxy.Proofs.Proxy.Registering
import BorderProxy.Proofs.Relay.Calls
import BorderProxy.Proofs.Relay.Destinations
import BorderProxy.Proofs.Proxy.Commands
import BorderProxy.Proofs.Proxy.Expired
import BorderProxy.Proofs.Proxy.Confined
import BorderProxy.Proofs.StreamTable.Repeated
import BorderProxy.Proofs.Proxy.Retransmission
import BorderProxy.Proofs.Proxy.Presented
import BorderProxy.Proofs.Proxy.Recognised
import BorderProxy.Proofs.Field.Stamp
import BorderProxy.Proofs.Proxy.LocalAnswers
import BorderProxy.Proofs.StreamTable.Links
import BorderProxy.Proofs.Relay.Sources
import BorderProxy.Proofs.Proxy.Reinvitation
import BorderProxy.Proofs.Proxy.Bodies
import BorderProxy.Proofs.StreamTable.Handles
import BorderProxy.Proofs.StreamTable.Search
import BorderProxy.Proofs.Jitter.Source
import BorderProxy.Proofs.Jitter.Window
import BorderProxy.Proofs.Field.CommaList
import BorderProxy.Proofs.Field.NameAddr
import BorderProxy.Proofs.Field.Written
import BorderProxy.Proofs.Message.Normal
import BorderProxy.Proofs.Field.Replaced
import BorderProxy.Proofs.Proxy.OwnRoutes
import BorderProxy.Proofs.Address.Letters
import BorderProxy.Proofs.Address.History
import BorderProxy.Proofs.Uri.Identity
import BorderProxy.Proofs.Message.Answer
import BorderProxy.Proofs.Proxy.Echoes
import BorderProxy.Proofs.Field.Loose
import BorderProxy.Proofs.Proxy.NextHops
import BorderProxy.Proofs.Proxy.ContactExpiry
import BorderProxy.Proofs.Proxy.Plugins
import BorderProxy.Proofs.Message.Places
import BorderProxy.Proofs.Message.Stamping
