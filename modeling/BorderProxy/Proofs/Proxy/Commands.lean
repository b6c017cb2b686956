import BorderProxy.Proofs.Proxy.Vias
import BorderProxy.Proofs.Relay.Calls

/-! The commands that routing a message gives to the relay. They can be told from the course that the message
is settled on, before it is sent; and what routing does to the relay is what they do, one after the other. -/

namespace BorderProxy

/-! Steps that give commands to the relay. -/

/-- A world after commands to its relay, if it has one. -/
def World.command (w : World) (commands : List RelayCommand) : World :=
  match w.relay with
  | none => w
  | some relay =>
    let after := RelayCommand.carryOutAll w.clock.now commands (relay, w.network)
    { w with relay := some after.1, network := after.2 }

theorem World.command_of_some {w : World} {relay : Relay} (h : w.relay = some relay)
    (commands : List RelayCommand) :
    w.command commands =
      { w with
        relay := some (RelayCommand.carryOutAll w.clock.now commands (relay, w.network)).1
        network := (RelayCommand.carryOutAll w.clock.now commands (relay, w.network)).2 } := by
  rw [World.command, h]

theorem World.command_nil (w : World) : w.command [] = w := by
  cases h : w.relay with
  | none => rw [World.command, h]
  | some relay => rw [World.command_of_some h, RelayCommand.carryOutAll, List.foldl_nil, ← h]

theorem World.command_append (w : World) (first rest : List RelayCommand) :
    w.command (first ++ rest) = (w.command first).command rest := by
  cases h : w.relay with
  | none =>
      unfold World.command
      simp only [h]
  | some relay =>
      rw [World.command_of_some h, World.command_of_some h, RelayCommand.carryOutAll, List.foldl_append]
      rfl

theorem startStream_snd (q : StreamRequest) (w : World) : (startStream q w).2 = w.command [.start q] := by
  cases h : w.relay with
  | none =>
      unfold startStream World.command
      rw [act_bind, withRelay_of_none _ h, h]
      rfl
  | some relay =>
      rw [startStream_of_some h, World.command_of_some h]
      rfl

theorem stopDirection_snd (callId : CallId) (direction : Direction) (w : World) :
    (stopDirection callId direction w).2 = w.command [.stop callId direction] := by
  unfold stopDirection
  cases h : w.relay with
  | none =>
      unfold World.command
      rw [act_bind, withRelay_of_none _ h, h]
      rfl
  | some relay =>
      rw [act_bind, withRelay_of_some _ h, World.command_of_some h]
      rfl

/-- The commands that start the streams of sections. -/
def startCommands (request : MediaOffer → Option StreamRequest) (media : List MediaOffer) :
    List RelayCommand :=
  (media.filterMap request).map .start

theorem startSections_snd (request : MediaOffer → Option StreamRequest) (media : List MediaOffer)
    (w : World) : (startSections request media w).2 = w.command (startCommands request media) := by
  induction media generalizing w with
  | nil => exact w.command_nil.symm
  | cons m rest ih =>
      unfold startCommands
      cases hm : request m with
      | none =>
          rw [startSections_cons_of_none hm, List.filterMap_cons_none hm]
          exact ih w
      | some q =>
          rw [startSections_cons_of_some hm, List.filterMap_cons_some hm, List.map_cons]
          show (startSections request rest (startStream q w).2).2 = _
          rw [ih, startStream_snd]
          exact (w.command_append [.start q] _).symm

/-- The commands for anchoring a message. -/
def Context.anchorCommands (cx : Context) (relay : Relay) (direction : Direction) (client : Text)
    (m : Message) : List RelayCommand :=
  match m.description? with
  | some (callId, _, sdp) => startCommands (cx.requests relay callId direction client) sdp.media
  | none => []

theorem anchorMedia_snd {w : World} {relay : Relay} (h : w.relay = some relay) (cx : Context)
    (direction : Direction) (client : Text) (m : Message) :
    (anchorMedia cx direction client m w).2 =
      w.command (cx.anchorCommands relay direction client m) := by
  unfold Context.anchorCommands
  rw [anchorMedia_eq, h]
  cases m.description? with
  | none => exact w.command_nil.symm
  | some description => exact startSections_snd _ _ w

/-- The commands that end the call of a message. -/
def Headers.stopCommands (hs : Headers) : List RelayCommand :=
  match hs.callId? with
  | some id => RelayCommand.stopBoth (.ofText id)
  | none => []

theorem stopStreams_snd (hs : Headers) (w : World) : (stopStreams hs w).2 = w.command hs.stopCommands := by
  unfold stopStreams Headers.stopCommands
  cases hs.callId? with
  | none => exact w.command_nil.symm
  | some id =>
      show (stopDirection (.ofText id) .outgoing (stopDirection (.ofText id) .incoming w).2).2 = _
      rw [stopDirection_snd, stopDirection_snd, ← World.command_append]
      rfl

/-! The commands of messages. -/

/-- The commands for a request of which the course is settled. -/
def RequestCourse.commands (cx : Context) (relay : Relay) (source : Endpoint) (c : RequestCourse) :
    List RelayCommand :=
  match c.method with
  | .invite | .ack | .update =>
    cx.anchorCommands relay c.direction (clientOf c.ticket.message.headers source) (.request c.request)
  | .bye | .cancel => c.request.headers.stopCommands
  | _ => []

/-- The commands for a response of which the course is settled. -/
def ResponseCourse.commands (cx : Context) (relay : Relay) (source : Endpoint) (c : ResponseCourse) :
    List RelayCommand :=
  cx.anchorCommands relay c.direction (clientOf c.ticket.message.headers source) (.response c.response) ++
    if endsCall c.response.headers c.response.status.code then c.response.headers.stopCommands else []

/-- A message of which the course is settled. -/
inductive Course where
  | request (c : RequestCourse)
  | response (c : ResponseCourse)

def Course.headers : Course → Headers
  | .request c => c.request.headers
  | .response c => c.response.headers

def Course.commands (cx : Context) (relay : Relay) (source : Endpoint) : Course → List RelayCommand
  | .request c => c.commands cx relay source
  | .response c => c.commands cx relay source

/-- The course that a message takes, if it gets as far as having one. -/
def Ticket.settled? (cx : Context) (w : World) (t : Ticket) : Option Course :=
  match t.message.headers.checkComplete, t.message with
  | .ok (), .request _ => (settleRequest cx t w).1.toOption.map .request
  | .ok (), .response _ => (settleResponse cx t w).1.toOption.map .response
  | .error _, _ => none

/-- The commands that the relay is given when a message is routed. -/
def Ticket.commands (cx : Context) (w : World) (t : Ticket) : List RelayCommand :=
  match w.relay, t.settled? cx w with
  | some relay, some course => course.commands cx relay t.source
  | _, _ => []

/-! Sending a message gives its commands, and nothing else changes the relay. -/

/-- A request that faces the other side, but for its media. -/
def RequestCourse.faced (cx : Context) (w : World) (c : RequestCourse) : Request :=
  let aimed := c.request.aimAt c.direction c.registration
  { aimed with
    headers := cx.forwardHeaders c.method c.direction c.branch
      (presentContact w.knownHosts w.clock.now w.registrations c.direction aimed.headers) }

theorem RequestCourse.values_faced (cx : Context) (w : World) (c : RequestCourse) {n : StandardName}
    (hn : n.isKept = true) : (c.faced cx w).headers.values n = c.request.headers.values n := by
  have hfaced := Headers.apartFrom_faced (List.Subset.refl _) cx w c.method c.direction c.branch
    (c.request.aimAt c.direction c.registration).headers
  rw [Request.headers_aimAt] at hfaced
  refine Headers.values_of_apartFrom ?_ (StandardName.notMem_routingNames hn)
  rw [← hfaced, RequestCourse.faced, Request.headers_aimAt]

theorem RequestCourse.body_faced (cx : Context) (w : World) (c : RequestCourse) :
    (c.faced cx w).body = c.request.body := by
  show (c.request.aimAt c.direction c.registration).body = c.request.body
  unfold Request.aimAt
  split <;> rfl

theorem Context.anchorCommands_congr (cx : Context) (relay : Relay) (direction : Direction) (client : Text)
    {m m' : Message} (h : m.description? = m'.description?) :
    cx.anchorCommands relay direction client m = cx.anchorCommands relay direction client m' := by
  rw [Context.anchorCommands, Context.anchorCommands, h]

theorem Headers.stopCommands_congr {hs hs' : Headers} (h : hs.callId? = hs'.callId?) :
    hs.stopCommands = hs'.stopCommands := by
  rw [Headers.stopCommands, Headers.stopCommands, h]

theorem handleMedia_snd {w : World} {relay : Relay} (h : w.relay = some relay) (cx : Context)
    (v : World) (source : Endpoint) (c : RequestCourse) :
    (handleMedia cx c.method c.direction (clientOf c.ticket.message.headers source)
      (c.faced cx v) w).2 = w.command (c.commands cx relay source) := by
  have hdescription : (Message.request (c.faced cx v)).description? =
      (Message.request c.request).description? :=
    description?_congr (c.body_faced cx v) fun n hn => c.values_faced cx v hn
  have hanchor : ∀ client, (anchorMedia cx c.direction client (.request (c.faced cx v)) w).2 =
      w.command (cx.anchorCommands relay c.direction client (.request c.request)) := by
    intro client
    rw [anchorMedia_snd h, cx.anchorCommands_congr relay c.direction client hdescription]
  have hstop : (stopStreams (c.faced cx v).headers w).2 = w.command c.request.headers.stopCommands := by
    rw [stopStreams_snd, Headers.stopCommands_congr (Headers.callId?_congr (c.values_faced cx v rfl))]
  unfold handleMedia RequestCourse.commands
  cases c.method with
  | invite => exact hanchor _
  | ack => exact hanchor _
  | update => exact hanchor _
  | bye => exact hstop
  | cancel => exact hstop
  | _ => exact w.command_nil.symm

/-- The relay of a world with the network around it. -/
def World.relayed (w : World) : Option Relay × Network := (w.relay, w.network)

theorem sendRequest_relayed {w : World} {relay : Relay} (h : w.relay = some relay) (cx : Context)
    (source : Endpoint) (c : RequestCourse) :
    (sendRequest cx source c w).2.relayed = (w.command (c.commands cx relay source)).relayed := by
  unfold sendRequest
  rw [processing_bind, processing_get]
  refine (Keeps.of_andThen World.relayed (fun before m => ?_) w).trans
    (congrArg World.relayed (handleMedia_snd h cx w source c))
  exact keeps_passRequest (fun _ hv => hv) (keeps_consult fun _ hv => hv) _ _ _

theorem sendResponse_relayed {w : World} {relay : Relay} (h : w.relay = some relay) (cx : Context)
    (source : Endpoint) (c : ResponseCourse) :
    (sendResponse cx source c w).2.relayed = (w.command (c.commands cx relay source)).relayed := by
  have hsame : (Message.response (c.response.prepared cx w c.direction)).description? =
      (Message.response c.response).description? :=
    description?_congr rfl fun n hn => c.response.values_prepared cx w c.direction hn
  have hanchored := anchorMedia_snd h cx c.direction (clientOf c.ticket.message.headers source)
    (.response (c.response.prepared cx w c.direction))
  rw [cx.anchorCommands_congr relay _ _ hsame] at hanchored
  have hcall := Headers.callId?_congr ((Headers.values_of_without (n := .callId) (by decide)
    (without_anchorMedia cx c.direction (clientOf c.ticket.message.headers source)
      (.response (c.response.prepared cx w c.direction)) w)).trans
        (c.response.values_prepared cx w c.direction rfl))
  unfold Response.prepared at hanchored hcall
  unfold sendResponse ResponseCourse.commands
  rw [processing_bind, processing_get]
  dsimp only
  rw [processing_bind, processing_lift]
  dsimp only
  generalize anchorMedia cx c.direction (clientOf c.ticket.message.headers source) _ w = anchored at *
  have hpassed : ∀ relayed t, Keeps (fun v => v.relayed = relayed) (passResponse c.registration t).run :=
    fun _ t => keeps_passResponse (fun _ hv => hv) (keeps_consult fun _ hv => hv) c.registration t
  split
  · refine (Keeps.of_andThen World.relayed (fun relayed _ => hpassed relayed _) _).trans ?_
    show (stopStreams anchored.1.headers anchored.2).2.relayed = _
    rw [stopStreams_snd, Headers.stopCommands_congr hcall, hanchored, World.command_append]
  · refine (Keeps.same World.relayed (fun relayed => hpassed relayed _) _).trans ?_
    rw [hanchored, List.append_nil]

/-- Commands do the same to one relay in one network at one time. -/
theorem World.relayed_command {w v : World} (hrelayed : v.relayed = w.relayed) (hclock : v.clock = w.clock)
    (commands : List RelayCommand) : (v.command commands).relayed = (w.command commands).relayed := by
  obtain ⟨hrelay, hnetwork⟩ := Prod.mk.inj hrelayed
  unfold World.command
  rw [hrelay]
  cases w.relay with
  | none => exact hrelayed
  | some relay =>
      rw [hnetwork, hclock]
      rfl

/-- If the first part of a sequence leaves the relay as it is, the commands are those of the rest. -/
theorem relayed_andThen {α : Type} {x : Processing α} {f : α → Processing Routed}
    (hx : ∀ c, Keeps (fun v => (v.relayed, v.clock) = c) x.run) {relay : Relay}
    {commands : α → List RelayCommand}
    (hf : ∀ a {v}, v.relay = some relay → (f a v).2.relayed = (v.command (commands a)).relayed)
    {w : World} (h : w.relay = some relay) :
    ((x >>= f) w).2.relayed =
      (w.command (((x w).1.toOption.map commands).getD [])).relayed := by
  have hkept := Keeps.same (fun v : World => (v.relayed, v.clock)) hx w
  rw [processing_bind]
  generalize x w = first at hkept ⊢
  obtain ⟨hrelayed, hclock⟩ := Prod.mk.inj hkept
  rcases first with ⟨outcome | a, v⟩
  · show v.relayed = (w.command []).relayed
    rw [w.command_nil]
    exact hrelayed
  · have hv : v.relay = some relay := (Prod.mk.inj hrelayed).1.trans h
    exact (hf a hv).trans (World.relayed_command hrelayed hclock _)

/-- Routing a message does to the relay what its commands do. -/
theorem relayed_route (cx : Context) (t : Ticket) {w : World} {relay : Relay} (h : w.relay = some relay) :
    (route cx t w).2.relayed = (w.command (t.commands cx w)).relayed := by
  have hlasting : ∀ c, World.Lasting fun v => (v.relayed, v.clock) = c :=
    fun c => ⟨fun _ hv => hv, fun _ hv => hv, fun _ hv => hv⟩
  unfold Ticket.commands Ticket.settled?
  rw [h]
  cases hcomplete : t.message.headers.checkComplete with
  | error fault =>
      rw [route_of_incomplete cx hcomplete]
      exact (congrArg World.relayed w.command_nil).symm
  | ok u =>
      rw [route_of_complete cx hcomplete]
      cases hmessage : t.message with
      | request q =>
          dsimp only
          rw [processRequest_eq, outcome_snd, relayed_andThen
            (fun c => keeps_settleRequest (hlasting c) (keeps_consult fun _ hv => hv) cx t)
            (fun c _ hv => sendRequest_relayed hv cx t.source c) h]
          cases (settleRequest cx t w).1 <;> rfl
      | response q =>
          dsimp only
          rw [processResponse_eq, outcome_snd, relayed_andThen
            (fun c => keeps_settleResponse (keeps_consult fun _ hv => hv) cx t)
            (fun c _ hv => sendResponse_relayed hv cx t.source c) h]
          cases (settleResponse cx t w).1 <;> rfl

end BorderProxy
