import BorderProxy.Proofs.Proxy.Answers

/-! The two legs of a call. An invitation that goes out opens a stream for each of its sections in the name
of the caller, the response that comes in one in the name of the callee. Where the two names differ, the
streams of a section are opposite to each other, and stay so in all that the proxy goes through. A party is
named by the host and port of its contact, of which the first characters count, or, if its message has none,
by the sender in a Via or the source of the message. -/

namespace BorderProxy

/-- A world in which a stream with this key is open on the pair that begins with a port. -/
def World.HasLeg (w : World) (key : StreamKey) (port : UInt16) : Prop :=
  ∃ relay h s, w.relay = some relay ∧ relay.table.get? h = some s ∧ s.key = key ∧ s.rtpPort = port

/-- Wherever streams with these two keys are open, and no further one of their call and section, looking
for the opposite of either gives the other. -/
def StreamTable.Pairs (t : StreamTable) (k k' : StreamKey) : Prop :=
  ∀ a b s r, t.get? a = some s → t.get? b = some r → s.key = k → r.key = k' →
    (∀ g u, t.get? g = some u → u.key.callId = k.callId → u.key.sectionIndex = k.sectionIndex →
      g = a ∨ g = b) →
    (t.linkPeer a).1 = some b ∧ (t.linkPeer b).1 = some a

theorem StreamTable.Settled.pairs {home : Direction → Ip} {t : StreamTable} (ht : t.Settled home)
    {k k' : StreamKey} (h : k.opposes k' = true) : t.Pairs k k' := by
  rintro a b s r hs hr rfl rfl honly
  obtain ⟨hcall, hsection, -, -⟩ := StreamKey.opposes_iff.mp h
  refine ⟨ht.peers.linkPeer_eq ht.sound.aligned hs hr h honly,
    ht.peers.linkPeer_eq ht.sound.aligned hr hs (StreamKey.opposes_symm h) ?_⟩
  intro g u hu hcall' hsection'
  exact (honly g u hu (hcall'.trans hcall.symm) (hsection'.trans hsection.symm)).symm

theorem Headers.contactUri?_congr {hs hs' : Headers} (h : hs.values .contact = hs'.values .contact) :
    hs.contactUri? = hs'.contactUri? := by
  rw [contactUri?, contactUri?, value?_eq_head?, value?_eq_head?, h]

/-- The name of a party: its contact, or else the sender in a Via, or else the source of its message. -/
def partyName (contact : Option Uri) (via : Option Text) (source : Endpoint) : Text :=
  cutIdentifier <|
    match contact with
    | some contact => contact.hostPort.text
    | none =>
      match via.bind Via.sentBy? with
      | some (host, port) => host ++ ':' :: Text.decimal (port.getD sipPort).toNat
      | none => source.text

/-- The Via that tells who sent a message: the topmost one of a request, in which its source is noted, and of
a response the one below the proxy's own. -/
def Ticket.senderVia? (t : Ticket) : Option Text :=
  match t.message with
  | .request r => (r.headers.stamp t.source).topVia?
  | .response r => r.headers.vias.tail.head?

section

variable {cx : Context} {w : World} {t : Ticket} {direction : Direction} {client : Text} {contact : Uri}

/-- The name of the sender of a message is a matter of the message and of where it came from. -/
theorem Ticket.client_eq (hcourse : t.course? cx w = some (direction, client)) :
    client = partyName t.message.headers.contactUri? t.senderVia? t.source := by
  unfold Ticket.course? at hcourse
  unfold Ticket.senderVia?
  cases hmessage : t.message with
  | request r =>
      rw [hmessage] at hcourse
      obtain ⟨found, -, hfound⟩ := Option.map_eq_some_iff.mp hcourse
      have hvalues : (r.received cx w t.source).headers.values .contact = r.headers.values .contact := by
        rw [Request.received, Headers.values_stripRoutes (by decide), Headers.values_stamp (by decide)]
      have hvia := Headers.topVia?_congr (r.vias_received cx w t.source)
      rw [← (Prod.mk.inj hfound).2]
      show partyName (r.received cx w t.source).headers.contactUri?
        (r.received cx w t.source).headers.topVia? t.source = _
      rw [Headers.contactUri?_congr hvalues, hvia]
      rfl
  | response r =>
      rw [hmessage] at hcourse
      obtain ⟨found, -, hfound⟩ := Option.map_eq_some_iff.mp hcourse
      have hvalues : r.received.headers.values .contact = r.headers.values .contact :=
        Headers.values_eraseFirst_other (by decide) r.headers
      have hvia : r.received.headers.topVia? = r.headers.vias.tail.head? := by
        rw [Headers.topVia?_eq_head?]
        exact congrArg List.head? (Headers.values_eraseFirst .via r.headers)
      rw [← (Prod.mk.inj hfound).2]
      show partyName r.received.headers.contactUri? r.received.headers.topVia? t.source = _
      rw [Headers.contactUri?_congr hvalues, hvia]
      rfl

/-- The sender of a message with a contact is named by it, however its Vias and Routes are edited. -/
theorem Ticket.client_of_contact (hcourse : t.course? cx w = some (direction, client))
    (hcontact : t.message.headers.contactUri? = some contact) :
    client = cutIdentifier contact.hostPort.text := by
  rw [client_eq hcourse, hcontact]
  rfl

theorem hasLeg_of_anchors {after : World} {m : Message} (h : Anchors cx t w after m)
    (hcourse : t.course? cx w = some (direction, client)) {i : Nat} {port : UInt16}
    (hport : Sdp.portOf (t.relayPorts cx w) i = some port) :
    ∃ id, t.message.headers.callId? = some id ∧
      after.HasLeg ⟨.ofText id, direction, i, client⟩ port := by
  obtain ⟨direction', client', callId, text, sdp, relay, hcourse', hdescription, hrelay, hbody, -⟩ := h
  rw [hcourse] at hcourse'
  obtain ⟨rfl, rfl⟩ := Prod.mk.inj (Option.some.inj hcourse')
  obtain ⟨-, -, -, id, hid, rfl⟩ := Message.description?_eq_some hdescription
  obtain ⟨body, sdp', -, -, -, hanchored⟩ := hbody
  obtain ⟨old, new, part, -, -, -, hat⟩ := hanchored i port hport
  obtain ⟨h, s, remote, hs, hkey, -, hrtp, -⟩ := hat.stream
  exact ⟨id, hid, relay, h, s, hrelay, hs, hkey, hrtp⟩

theorem some_port {ports : List (Option UInt16)} {i : Nat} {port : UInt16}
    (h : Sdp.portOf ports i = some port) : ports.all Option.isNone = false := by
  rw [Sdp.portOf, Option.join_eq_some_iff] at h
  exact List.all_eq_false.mpr ⟨some port, List.mem_of_getElem? h, by simp⟩

end

/-- An invitation that goes out from a party named `caller`, and a response to it that comes in from one
named `callee`, whatever the proxy went through between them. -/
structure AnsweredCall (cx : Context) (t t' : Ticket) (w after w' after' : World) (q : Request)
    (r : Response) (caller callee : Text) : Prop where
  reachable : w.Reachable cx
  reachable' : w'.Reachable cx
  request : t.message = .request q
  invite : q.method = .invite
  response : t'.message = .response r
  sent : ∃ m destination, route cx t w = (.forward m destination, after) ∧ r.Answers q m
  returned : ∃ m destination, route cx t' w' = (.forward m destination, after')
  outgoing : t.course? cx w = some (.outgoing, caller)
  incoming : t'.course? cx w' = some (.incoming, callee)

section

variable {cx : Context} {t t' : Ticket} {w after w' after' : World} {q : Request} {r : Response}
  {caller callee : Text}

/-- Both parties are named by the messages. A callee without a contact is named as a caller without one is:
by the topmost Via of the invitation, for that is what the response has below the proxy's own. -/
theorem AnsweredCall.names (h : AnsweredCall cx t t' w after w' after' q r caller callee) :
    caller = partyName q.headers.contactUri? (q.headers.stamp t.source).topVia? t.source ∧
      callee = partyName r.headers.contactUri? (q.headers.stamp t.source).topVia? t'.source := by
  have hcaller := Ticket.client_eq h.outgoing
  have hcallee := Ticket.client_eq h.incoming
  rw [Ticket.senderVia?, h.request] at hcaller
  rw [Ticket.senderVia?, h.response] at hcallee
  obtain ⟨m, destination, hroute, hanswers⟩ := h.sent
  obtain ⟨top, extra, below, hm, hr⟩ := hanswers.returns
  obtain ⟨facing, registration, next, hpasses⟩ :=
    request_passes h.request h.reachable.ready.plugins hroute
  have hvias := hpasses.vias
  rw [Request.vias_received] at hvias
  obtain ⟨-, hbelow⟩ := List.cons.inj (hm.symm.trans hvias)
  have hsame : r.headers.vias.tail.head? = (q.headers.stamp t.source).topVia? := by
    rw [hr, List.tail_cons, hbelow, ← Headers.topVia?_eq_head?]
  exact ⟨hcaller, hsame ▸ hcallee⟩

/-- Each section that both messages relay has a stream in the name of either party. -/
theorem AnsweredCall.hasLegs (h : AnsweredCall cx t t' w after w' after' q r caller callee) {i : Nat}
    {port port' : UInt16} (hport : Sdp.portOf (t.relayPorts cx w) i = some port)
    (hport' : Sdp.portOf (t'.relayPorts cx w') i = some port') :
    ∃ id, q.headers.callId? = some id ∧ after.HasLeg ⟨.ofText id, .outgoing, i, caller⟩ port ∧
      after'.HasLeg ⟨.ofText id, .incoming, i, callee⟩ port' := by
  obtain ⟨m, destination, hroute, hanswers⟩ := h.sent
  obtain ⟨m', destination', hroute'⟩ := h.returned
  have hanchors := request_anchors h.reachable.ready h.request hroute (some_port hport)
  have hanchors' := response_anchors h.reachable'.ready h.response hroute' (some_port hport')
  obtain ⟨id, hid, hleg⟩ := hasLeg_of_anchors hanchors h.outgoing hport
  obtain ⟨id', hid', hleg'⟩ := hasLeg_of_anchors hanchors' h.incoming hport'
  rw [h.request] at hid
  rw [h.response] at hid'
  -- A response repeats the name of the call.
  have hsame : id' = id := by
    have hcall := Headers.callId?_congr hanswers.callId
    exact Option.some.inj (hid'.symm.trans (hcall.trans hid))
  exact ⟨id, hid, hleg, hsame ▸ hleg'⟩

/-- A party with a contact is named by its host and port. Where the parties of an answered call have
different names, each section that both messages relay has a stream for either party, and the two are
opposite to each other: in every world that the proxy comes to, wherever both are open and the call has no
further stream of the section, looking for the opposite of either gives the other. -/
theorem answered_legs_pair (h : AnsweredCall cx t t' w after w' after' q r caller callee)
    (hdiffer : caller ≠ callee) :
    (∀ contact, q.headers.contactUri? = some contact → caller = cutIdentifier contact.hostPort.text) ∧
      (∀ contact, r.headers.contactUri? = some contact →
        callee = cutIdentifier contact.hostPort.text) ∧
      ∀ i port port', Sdp.portOf (t.relayPorts cx w) i = some port →
        Sdp.portOf (t'.relayPorts cx w') i = some port' →
        ∃ id, q.headers.callId? = some id ∧
          let leg : StreamKey := ⟨.ofText id, .outgoing, i, caller⟩
          let leg' : StreamKey := ⟨.ofText id, .incoming, i, callee⟩
          after.HasLeg leg port ∧ after'.HasLeg leg' port' ∧
            leg.opposes leg' = true ∧ leg'.opposes leg = true ∧
            ∀ (v : World) (relay : Relay), v.Reachable cx → v.relay = some relay →
              relay.table.Pairs leg leg' := by
  refine ⟨fun contact hcontact => ?_, fun contact hcontact => ?_, fun i port port' hport hport' => ?_⟩
  · exact Ticket.client_of_contact h.outgoing (by rw [h.request]; exact hcontact)
  · exact Ticket.client_of_contact h.incoming (by rw [h.response]; exact hcontact)
  · obtain ⟨id, hid, hleg, hleg'⟩ := h.hasLegs hport hport'
    have hopposes : StreamKey.opposes ⟨.ofText id, .outgoing, i, caller⟩
        ⟨.ofText id, .incoming, i, callee⟩ = true :=
      StreamKey.opposes_iff.mpr ⟨rfl, rfl, rfl, hdiffer⟩
    exact ⟨id, hid, hleg, hleg', hopposes, StreamKey.opposes_symm hopposes,
      fun v relay hv hrelay => (hv.ready.settled relay hrelay).pairs hopposes⟩

/-! Answered calls of the registered party, with the contacts that the two parties give. -/

/-- A response may carry other contacts, and give the receiver a tag. -/
theorem Response.Answers.of_values {m : Message} {r' : Response} (h : r.Answers q m)
    (hvalues : ∀ n, n ≠ .contact → n ≠ .to → r'.headers.values n = r.headers.values n)
    (hto : ∀ party, r.headers.value? .to = some party →
      ∃ tag, r'.headers.value? .to = some (party ++ tag)) : r'.Answers q m := by
  obtain ⟨top, extra, below, hm, hr⟩ := h.returns
  obtain ⟨party, tag, hq, hparty⟩ := h.receiver
  obtain ⟨tag', hto⟩ := hto _ hparty
  refine ⟨⟨top, extra, below, hm, (hvalues .via (by decide) (by decide)).trans hr⟩,
    (hvalues .from (by decide) (by decide)).trans h.sender,
    (hvalues .callId (by decide) (by decide)).trans h.callId,
    (hvalues .cseq (by decide) (by decide)).trans h.sequence, party, tag ++ tag', hq, ?_⟩
  rw [hto, List.append_assoc]

end

/-- What a message tells about its side of a call. -/
structure CallSide where
  course : Option (Direction × Text)
  ports : List (Option UInt16)
  contact : Option Uri
  deriving DecidableEq

def Ticket.side (cx : Context) (w : World) (t : Ticket) : CallSide :=
  ⟨t.course? cx w, t.relayPorts cx w, t.message.headers.contactUri?⟩

namespace OutgoingCall

def withContacts (uris : List String) (hs : Headers) : Headers :=
  hs.replaceAll .contact (uris.map String.toList)

/-- The invitation of a caller with these contacts. -/
def invitationFrom (contacts : List String) : Ticket :=
  { invitation with message := invitation.message.mapHeaders (withContacts contacts) }

/-- The answer of a called party with these contacts to a message that reaches it. -/
def accepted (contacts : List String) (m : Message) : Response :=
  { answer m with
    headers := withContacts contacts m.headers
    body := Utf8.encode "v=0\nc=IN IP4 192.0.2.9\nm=audio 5000 RTP/AVP 0\nm=video 0 RTP/AVP 31\n".toList }

def reply (contacts : List String) (m : Message) : Ticket :=
  { message := .response (accepted contacts m), source := ⟨.v4 192 0 2 9, 5060⟩ }

/-- Both sides of a call, if the invitation and the answer to it are forwarded. -/
def sides? (t : Ticket) (contacts : List String) : Option (CallSide × CallSide) :=
  let result := route (.ofSettings settings) t registered
  result.1.forwarded?.bind fun sent =>
    let t' := reply contacts sent.1
    (route (.ofSettings settings) t' result.2).1.forwarded?.map fun _ =>
      (t.side (.ofSettings settings) registered, t'.side (.ofSettings settings) result.2)

theorem exists_answeredCall {t : Ticket} {q : Request} (hq : t.message = .request q)
    (hinvite : q.method = .invite) {contacts : List String} {caller callee : Text}
    {ports ports' : List (Option UInt16)} {contact contact' : Option Uri}
    (h : sides? t contacts = some (⟨some (.outgoing, caller), ports, contact⟩,
      ⟨some (.incoming, callee), ports', contact'⟩)) :
    ∃ t' after after' r,
      AnsweredCall (.ofSettings settings) t t' registered after after after' q r caller callee ∧
        t.relayPorts (.ofSettings settings) registered = ports ∧
        t'.relayPorts (.ofSettings settings) after = ports' ∧
        q.headers.contactUri? = contact ∧ r.headers.contactUri? = contact' := by
  rcases hroute : route (.ofSettings settings) t registered with ⟨outcome, after⟩
  unfold sides? at h
  rw [hroute] at h
  obtain ⟨⟨m, destination⟩, hsent, h⟩ := Option.bind_eq_some_iff.mp h
  obtain ⟨⟨m', destination'⟩, hreturned, h⟩ := Option.map_eq_some_iff.mp h
  obtain rfl := Routed.forwarded?_eq_some_iff.mp hsent
  obtain ⟨hside, hside'⟩ := Prod.mk.inj h
  obtain ⟨hcourse, hports, hcontact⟩ := CallSide.mk.inj hside
  obtain ⟨hcourse', hports', hcontact'⟩ := CallSide.mk.inj hside'
  have hreachable := reachable_registered
  have hanswer := Response.answers_of_headers (r := answer m) hq hreachable.ready.plugins hroute rfl
  have hvalues : ∀ n, n ≠ .contact → (accepted contacts m).headers.values n = m.headers.values n :=
    fun n hn => Headers.values_replaceAll_other hn _ m.headers
  have hanswers : (accepted contacts m).Answers q m :=
    hanswer.of_values (fun n hn _ => hvalues n hn) fun party hparty => ⟨[], by
      rw [List.append_nil, Headers.value?_eq_head?, hvalues .to (by decide), ← Headers.value?_eq_head?]
      exact hparty⟩
  have hroute' : route (.ofSettings settings) (reply contacts m) after =
      (.forward m' destination', (route (.ofSettings settings) (reply contacts m) after).2) :=
    Prod.ext (Routed.forwarded?_eq_some_iff.mp hreturned) rfl
  have hafter : after.Reachable (.ofSettings settings) := by
    have hnext := hreachable.route t
    rwa [hroute] at hnext
  rw [hq] at hcontact
  exact ⟨reply contacts m, after, _, accepted contacts m,
    ⟨hreachable, hafter, hq, hinvite, rfl, ⟨m, destination, hroute, hanswers⟩,
      ⟨m', destination', hroute'⟩, hcourse, hcourse'⟩, hports, hports', hcontact, hcontact'⟩

def portsOf (port : UInt16) : List (Option UInt16) := [some port, none]

end OutgoingCall

open OutgoingCall in
/-- The general statement at a call between two parties with a contact each. -/
theorem legs_pair_outgoingCall :
    ∃ t' after after' q r,
      AnsweredCall (.ofSettings settings) (invitationFrom ["<sip:alice@10.0.0.5>"]) t' registered after
          after after' q r "10.0.0.5".toList "192.0.2.9".toList ∧
        "10.0.0.5".toList ≠ "192.0.2.9".toList ∧
        ∃ id, q.headers.callId? = some id ∧
          let leg : StreamKey := ⟨.ofText id, .outgoing, 0, "10.0.0.5".toList⟩
          let leg' : StreamKey := ⟨.ofText id, .incoming, 0, "192.0.2.9".toList⟩
          after.HasLeg leg 7070 ∧ after'.HasLeg leg' 7072 ∧ leg.opposes leg' = true ∧
            leg'.opposes leg = true ∧
            ∀ (v : World) (relay : Relay), v.Reachable (.ofSettings settings) → v.relay = some relay →
              relay.table.Pairs leg leg' := by
  have hsides : sides? (invitationFrom ["<sip:alice@10.0.0.5>"]) ["<sip:bob@192.0.2.9>"] =
      some (⟨some (.outgoing, "10.0.0.5".toList), portsOf 7070, Uri.read "sip:alice@10.0.0.5".toList⟩,
        ⟨some (.incoming, "192.0.2.9".toList), portsOf 7072, Uri.read "sip:bob@192.0.2.9".toList⟩) := by
    decide +kernel
  obtain ⟨t', after, after', r, hcall, hports, hports', -⟩ := exists_answeredCall rfl rfl hsides
  have hdiffer : "10.0.0.5".toList ≠ "192.0.2.9".toList := by decide
  obtain ⟨-, -, hpairs⟩ := answered_legs_pair hcall hdiffer
  exact ⟨t', after, after', _, r, hcall, hdiffer,
    hpairs 0 7070 7072 (by rw [hports]; rfl) (by rw [hports']; rfl)⟩

/-- An answered call with a section that both messages relay and whose two streams are not opposite,
although the callee gives no contact with the host and port of the caller's. -/
def LegsApart (cx : Context) (t : Ticket) : Prop :=
  ∃ t' w after w' after' q r caller callee id port port',
    AnsweredCall cx t t' w after w' after' q r caller callee ∧
      (∀ contact contact', q.headers.contactUri? = some contact →
        r.headers.contactUri? = some contact' → contact'.hostPort ≠ contact.hostPort) ∧
      Sdp.portOf (t.relayPorts cx w) 0 = some port ∧ Sdp.portOf (t'.relayPorts cx w') 0 = some port' ∧
      after.HasLeg ⟨.ofText id, .outgoing, 0, caller⟩ port ∧
      after'.HasLeg ⟨.ofText id, .incoming, 0, callee⟩ port' ∧
      StreamKey.opposes ⟨.ofText id, .outgoing, 0, caller⟩ ⟨.ofText id, .incoming, 0, callee⟩ = false

open OutgoingCall in
theorem legsApart_of_sides {t : Ticket} {q : Request} (hq : t.message = .request q)
    (hinvite : q.method = .invite) {contacts : List String} {name : Text} {contact contact' : Option Uri}
    (h : sides? t contacts = some (⟨some (.outgoing, name), portsOf 7070, contact⟩,
      ⟨some (.incoming, name), portsOf 7072, contact'⟩))
    (hcontacts : ∀ u u', contact = some u → contact' = some u' → u'.hostPort ≠ u.hostPort) :
    LegsApart (.ofSettings settings) t := by
  obtain ⟨t', after, after', r, hcall, hports, hports', hcontact, hcontact'⟩ :=
    exists_answeredCall hq hinvite h
  have hport : Sdp.portOf (t.relayPorts (.ofSettings settings) registered) 0 = some 7070 := by
    rw [hports]
    rfl
  have hport' : Sdp.portOf (t'.relayPorts (.ofSettings settings) after) 0 = some 7072 := by
    rw [hports']
    rfl
  obtain ⟨id, -, hleg, hleg'⟩ := hcall.hasLegs hport hport'
  refine ⟨t', registered, after, after, after', q, r, name, name, id, 7070, 7072, hcall, ?_, hport, hport',
    hleg, hleg', by simp [StreamKey.opposes]⟩
  rw [hcontact, hcontact']
  exact hcontacts

namespace OutgoingCall

/-- A host whose name is longer than what counts of it. -/
def longHost (department : String) : String :=
  "gateway.telephony.research-and-development.headquarters.example-" ++ department

end OutgoingCall

open OutgoingCall in
/-- The streams of a call are not opposite where the contacts differ only behind the first characters, and
where the callee gives no contact and the caller's is the one in its Via. -/
theorem legs_apart_outgoingCall :
    LegsApart (.ofSettings settings) (invitationFrom ["<sip:alice@" ++ longHost "east.org>"]) ∧
      LegsApart (.ofSettings settings) (invitationFrom ["<sip:alice@10.0.0.5:5060>"]) := by
  constructor
  · have hsides : sides? (invitationFrom ["<sip:alice@" ++ longHost "east.org>"])
          ["<sip:bob@" ++ longHost "west.org>"] =
        some (⟨some (.outgoing, (longHost "").toList), portsOf 7070,
            Uri.read ("sip:alice@" ++ longHost "east.org").toList⟩,
          ⟨some (.incoming, (longHost "").toList), portsOf 7072,
            Uri.read ("sip:bob@" ++ longHost "west.org").toList⟩) := by
      decide +kernel
    have hcontacts : ∀ u ∈ Uri.read ("sip:alice@" ++ longHost "east.org").toList,
        ∀ u' ∈ Uri.read ("sip:bob@" ++ longHost "west.org").toList, u'.hostPort ≠ u.hostPort := by
      decide +kernel
    exact legsApart_of_sides rfl rfl hsides fun u u' hu hu' => hcontacts u hu u' hu'
  · have hsides : sides? (invitationFrom ["<sip:alice@10.0.0.5:5060>"]) [] =
        some (⟨some (.outgoing, "10.0.0.5:5060".toList), portsOf 7070,
            Uri.read "sip:alice@10.0.0.5:5060".toList⟩,
          ⟨some (.incoming, "10.0.0.5:5060".toList), portsOf 7072, none⟩) := by
      decide +kernel
    exact legsApart_of_sides rfl rfl hsides fun _ _ _ hnone => by cases hnone

end BorderProxy
