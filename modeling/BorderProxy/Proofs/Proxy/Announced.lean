import BorderProxy.Proofs.Proxy.Legs
import BorderProxy.Proofs.Relay.Destinations

/-! The ports that messages announce. The stream of a section sends its media packets to the address and port
that the section says, and its control packets to the port after it. The port is never zero, for sections with
that port are not relayed; but the port after the last one is, and a party that announces the last port has
the other party's stream closed as soon as a control packet arrives. -/

namespace BorderProxy

variable {cx : Context}

/-! Requests of the proxy. -/

theorem Context.Asks.atHome {q : StreamRequest} (h : cx.Asks q) : StreamTable.AtHome cx.ipTowards q := by
  obtain ⟨callId, client, direction, dejitter, m, hq⟩ := h
  unfold MediaOffer.streamRequest at hq
  split at hq
  · obtain ⟨ip, -, rfl⟩ := Option.map_eq_some_iff.mp hq
    rfl
  · cases hq

/-- The proxy asks for no stream to port zero. -/
theorem Context.Asks.port_ne_zero {q : StreamRequest} (h : cx.Asks q) : q.remote.port ≠ 0 := by
  obtain ⟨callId, client, direction, dejitter, m, hq⟩ := h
  unfold MediaOffer.streamRequest at hq
  split at hq
  · rename_i hrelay
    obtain ⟨ip, -, rfl⟩ := Option.map_eq_some_iff.mp hq
    unfold MediaOffer.canRelay at hrelay
    simpa using (Bool.and_eq_true_iff.mp hrelay).1
  · cases hq

/-! Relays of proxies. -/

/-- A relay whose streams are at home, and send no media packets to port zero. -/
structure Relay.Announced (home : Direction → Ip) (r : Relay) : Prop where
  settled : r.table.Settled home
  remotes : r.table.Remotes fun remote => remote.port ≠ 0

theorem announced_idle (home : Direction → Ip) (m : MediaSettings) (devices : List (Ip × Text))
    (now : Instant) : (Relay.idle m devices now).Announced home :=
  ⟨StreamTable.settled_empty home _ _ _, StreamTable.remotes_empty _ _ _ _⟩

theorem Relay.Announced.start {home : Direction → Ip} {r : Relay} (hr : r.Announced home)
    (network : Network) (now : Instant) {q : StreamRequest} (hhome : StreamTable.AtHome home q)
    (hport : q.remote.port ≠ 0) : (r.start network q now).2.1.Announced home := by
  unfold Relay.start
  split
  · exact hr
  · exact ⟨hr.settled.start network hhome now, hr.remotes.start hr.settled.sound.slots network hport now⟩

theorem steady_announced (cx : Context) : cx.Steady (Relay.Announced cx.ipTowards) where
  start network now _ hq hr := hr.start network now hq.atHome hq.port_ne_zero
  stop network callId direction hr :=
    ⟨Relay.lasts_stop (StreamTable.lasting_settled _) hr.settled network callId direction .all,
      Relay.lasts_stop (StreamTable.lasting_remotes _) hr.remotes network callId direction .all⟩
  settle network now hr :=
    ⟨Relay.lasts_settle (StreamTable.lasting_settled _) hr.settled network now,
      Relay.lasts_settle (StreamTable.lasting_remotes _) hr.remotes network now⟩
  receiveAt {r} network now endpoint payload hr := by
    cases hresult : r.receiveAt network endpoint payload now with
    | none => exact hr
    | some result =>
        exact ⟨Relay.lasts_receiveAt (StreamTable.lasting_settled _) hr.settled network now endpoint
            payload hresult,
          Relay.lasts_receiveAt (StreamTable.lasting_remotes _) hr.remotes network now endpoint payload
            hresult⟩
  shutdown network hr :=
    ⟨Relay.lasts_shutdown (StreamTable.lasting_settled _) hr.settled network,
      Relay.lasts_shutdown (StreamTable.lasting_remotes _) hr.remotes network⟩

/-- A proxy never has a stream that is not where its direction is at home, or that sends to port zero. -/
theorem holds_announced (cx : Context) (s : Settings) (plugins : List Plugin) (network : Network)
    (clock : Clock) (processId : Nat) (events : List ProxyEvent) :
    ((World.initial s plugins network clock processId).run cx events).Holds
      (Relay.Announced cx.ipTowards) :=
  holds_run (steady_announced cx) (holds_initial (announced_idle _) s plugins network clock processId)
    events

/-! Sections. -/

/-- A section of a message that has a stream on a pair of ports, which sends where the section says. -/
def Message.Served (m : Message) (after : World) (direction : Direction) (client : Text) (i : Nat)
    (port : UInt16) : Prop :=
  ∃ callId text sdp offer ip relay h stream,
    m.description? = some (callId, text, sdp) ∧ sdp.media[i]? = some offer ∧
      offer.connection = some ip ∧ offer.port ≠ 0 ∧ after.relay = some relay ∧
      relay.table.get? h = some stream ∧
      stream.key = StreamTable.storedKey ⟨callId, direction, i, client⟩ ∧ stream.rtpPort = port ∧
      stream.remote = ⟨ip, offer.port⟩

theorem anchorMedia_serves {w : World} (hw : w.Holds fun relay => relay.table.Settled cx.ipTowards)
    {direction : Direction} {client : Text} {m : Message} {i : Nat} {port : UInt16}
    (hport : Sdp.portOf (anchorPorts cx direction client m w) i = some port) :
    m.Served (anchorMedia cx direction client m w).2 direction client i port := by
  rw [anchorMedia_eq]
  unfold anchorPorts at hport
  cases hrelay : w.relay with
  | none =>
      rw [hrelay] at hport
      cases hport
  | some relay =>
      cases hdescription : m.description? with
      | none =>
          rw [hrelay, hdescription] at hport
          cases hport
      | some description =>
          obtain ⟨callId, text, sdp⟩ := description
          rw [hrelay, hdescription] at hport
          dsimp only at hport ⊢
          obtain ⟨after, network, hworld, hopened⟩ := startSections_spec
            (atHome_of_request cx relay callId direction client)
            (keysDiffer_media cx relay callId direction client sdp) hrelay (hw relay hrelay)
          obtain ⟨offer, q, hoffer, hq, h, stream, hstream, hkey, -, hrtp, hremote⟩ :=
            hopened.serves i port hport
          have hasks : cx.Asks q := ⟨callId, client, direction, relay.dejitter, offer, hq⟩
          have hnonzero := hasks.port_ne_zero
          obtain ⟨ip, hip, -, rfl⟩ := requests_eq_some hq
          have hindex : offer.index = i := by
            rw [Sdp.getElem?_media] at hoffer
            obtain ⟨part, -, rfl⟩ := Option.map_eq_some_iff.mp hoffer
            rfl
          rw [hindex] at hkey
          exact ⟨callId, text, sdp, offer, ip, after, h, stream, hdescription, hoffer, hip, hnonzero, by rw [hworld],
            hstream, hkey, hrtp, hremote⟩

/-- Whatever a proxy went through and whatever message it then anchors, each section that is given a port has
a stream on it that sends its media packets where the section says. No stream of the proxy sends media packets
to port zero. Control packets go to the next port, which is zero exactly after the last one; so a control
packet cannot be sent exactly if the party announced the last port, has an address of the other family or is
out of reach, and then the stream loses an opposite. -/
theorem anchored_destinations (cx : Context) (s : Settings) (plugins : List Plugin) (network : Network)
    (clock : Clock) (processId : Nat) (events : List ProxyEvent) (direction : Direction) (client : Text)
    (m : Message) :
    let w := (World.initial s plugins network clock processId).run cx events
    let after := (anchorMedia cx direction client m w).2
    (∀ i port, Sdp.portOf (anchorPorts cx direction client m w) i = some port →
      m.Served after direction client i port) ∧
    ∀ relay h stream, after.relay = some relay → relay.table.get? h = some stream →
      stream.Addressed ∧
        ∀ surroundings payload now, ∃ a, relay.Controls surroundings h stream payload now a := by
  intro w after
  have hw : w.Holds (Relay.Announced cx.ipTowards) :=
    holds_announced cx s plugins network clock processId events
  have hafter : after.Holds (Relay.Announced cx.ipTowards) :=
    holds_anchorMedia (steady_announced cx) direction client m w hw
  refine ⟨fun i port hport => anchorMedia_serves (fun relay hrelay => (hw relay hrelay).settled) hport,
    fun relay h stream hrelay hstream => ?_⟩
  have hannounced := hafter relay hrelay
  exact ⟨Stream.addressed (hannounced.remotes h stream hstream), fun surroundings payload now =>
    Relay.exists_controls hannounced.settled hstream surroundings payload now⟩

namespace OutgoingCall

/-- The invitation of a caller that receives its media at a port. -/
def invitationAt (port : String) : Ticket :=
  ticket .invite (.v4 192 0 2 9)
    [field .to "<sip:bob@192.0.2.9>", field .cseq "2 INVITE", field .contentType "application/sdp"]
    ("v=0\nc=IN IP4 10.0.0.5\nm=audio " ++ port ++ " RTP/AVP 0\n")

/-- The ports of the streams of an answered call, what comes of a control packet of the callee, and the ports
of the streams after it. -/
def controlled? (t : Ticket) : Option (List UInt16 × List (Endpoint × Delivery) × List UInt16) := do
  let invited := route (.ofSettings settings) t registered
  let sent ← invited.1.forwarded?
  let w := (route (.ofSettings settings) (reply ["<sip:bob@192.0.2.9>"] sent.1) invited.2).2
  let relay ← w.relay
  let (attempts, after, _) ← relay.receiveAt w.network ⟨.v4 192 0 2 1, 7071⟩
    [0x80, 200, 0, 1, 0, 0, 0, 1] w.clock.now
  return (relay.table.entries.map (·.2.rtpPort),
    attempts.map fun a => (a.datagram.destination, a.delivery), after.table.entries.map (·.2.rtpPort))

end OutgoingCall

open OutgoingCall in
theorem destinations_invitationAt :
    ∃ relay h stream,
      (anchorMedia (.ofSettings settings) .outgoing "10.0.0.5".toList (invitationAt "4000").message
        registered).2.relay = some relay ∧
        relay.table.get? h = some stream ∧ stream.destination .rtp = ⟨.v4 10 0 0 5, 4000⟩ ∧
        stream.Addressed ∧ ∃ a, relay.Controls {} h stream [] 0 a := by
  have hport : Sdp.portOf (anchorPorts (.ofSettings settings) .outgoing "10.0.0.5".toList
      (invitationAt "4000").message registered) 0 = some 7070 := by
    decide +kernel
  have hoffer : (invitationAt "4000").message.description?.map (fun d => d.2.2.media) =
      some [⟨0, "audio".toList, 4000, some (.v4 10 0 0 5)⟩] := by
    decide +kernel
  have hdestinations := anchored_destinations (.ofSettings settings) settings [] {} ⟨0, 0⟩ 1
    [.message registration] .outgoing "10.0.0.5".toList (invitationAt "4000").message
  rw [← registered] at hdestinations
  obtain ⟨hserved, haddressed⟩ := hdestinations
  obtain ⟨callId, text, sdp, offer, ip, relay, h, stream, hdescription, hmedia, hip, -, hrelay, hstream, -, -,
    hremote⟩ := hserved 0 7070 hport
  rw [hdescription, Option.map_some, Option.some.injEq] at hoffer
  rw [hoffer] at hmedia
  obtain rfl := Option.some.inj hmedia
  obtain rfl := Option.some.inj hip
  obtain ⟨hstreams, hcontrols⟩ := haddressed relay h stream hrelay hstream
  exact ⟨relay, h, stream, hrelay, hstream, hremote, hstreams, hcontrols {} [] 0⟩

open OutgoingCall in
/-- A section that announces the last port is relayed, and the first control packet of the callee closes the
callee's stream. -/
theorem last_port_closes_opposite :
    (invitationAt "65535").relayPorts (.ofSettings settings) registered = [some 7070] ∧
      controlled? (invitationAt "65535") =
        some ([7070, 7072], [(⟨.v4 10 0 0 5, 0⟩, .failed)], [7070]) := by
  decide +kernel

open OutgoingCall in
example : controlled? (invitationAt "65534") =
    some ([7070, 7072], [(⟨.v4 10 0 0 5, 65535⟩, .sent)], [7070, 7072]) := by
  decide +kernel

end BorderProxy
