import BorderProxy.Proofs.Message.Values
import BorderProxy.Proofs.Proxy.Forwarding
import BorderProxy.Proofs.Proxy.Running
import BorderProxy.Proofs.Text.Utf8

/-! Forwarded messages with anchored media. The body is a description with as many sections of the same
kinds; a section that was given a port is received at the proxy on that port, and a stream carries it from
there to where it was received before. -/

namespace BorderProxy

/-! The fields that media depend on are not edited on the way. -/

/-- The names of the fields by which a request is routed, which are edited on the way. -/
def routingNames : List StandardName := [.via, .route, .recordRoute, .maxForwards, .contact]

namespace Headers

theorem without_stripRoutes (own : OwnAddresses) (known : KnownHosts) (hs : Headers) :
    (own.stripRoutes known hs).1.without .route = hs.without .route := by
  unfold OwnAddresses.stripRoutes
  dsimp only
  split
  · rfl
  · exact without_replaceAll .route _ hs

theorem without_faceRecordRoutes (own : OwnAddresses) (known : KnownHosts) (ip : Ip) (hs : Headers) :
    (own.faceRecordRoutes known ip hs).1.without .recordRoute = hs.without .recordRoute := by
  unfold OwnAddresses.faceRecordRoutes
  dsimp only
  split
  · rfl
  · exact without_replaceAllInFront .recordRoute _ hs

theorem without_presentContact (known : KnownHosts) (now : Instant) (t : Registrations)
    (direction : Direction) (hs : Headers) :
    (presentContact known now t direction hs).without .contact = hs.without .contact := by
  unfold presentContact
  split
  · rfl
  · dsimp only
    split
    · rfl
    · split
      · rfl
      · exact without_withContactUri _ hs

theorem apartFrom_forwardHeaders {names : List StandardName} (hnames : [.via, .recordRoute, .maxForwards] ⊆ names)
    (cx : Context) (method : Method) (direction : Direction) (branch : Text) (hs : Headers) :
    (cx.forwardHeaders method direction branch hs).apartFrom names = hs.apartFrom names := by
  have hcounted := apartFrom_of_without (hnames (by decide)) (without_setLast .maxForwards
    (Text.decimal ((hs.maxForwards?.map oneLess).getD defaultHops).toNat) hs)
  unfold Context.forwardHeaders
  dsimp only
  rw [apartFrom_of_without (hnames (by decide)) (without_pushAbove .via _ _)]
  split
  · exact hcounted
  · exact (apartFrom_of_without (hnames (by decide))
      (without_replaceAllInFront .recordRoute _ _)).trans hcounted

theorem values_forwardHeaders {n : StandardName} (hn : n ∉ [.via, .recordRoute, .maxForwards]) (cx : Context)
    (method : Method) (direction : Direction) (branch : Text) (hs : Headers) :
    values n (cx.forwardHeaders method direction branch hs) = values n hs :=
  values_of_apartFrom (apartFrom_forwardHeaders (List.Subset.refl _) cx method direction branch hs) hn

/-- Facing the other side edits a message in the fields by which it is routed only. -/
theorem apartFrom_faced {names : List StandardName} (hnames : routingNames ⊆ names) (cx : Context)
    (w : World) (method : Method) (direction : Direction) (branch : Text) (hs : Headers) :
    (cx.forwardHeaders method direction branch
      (presentContact w.knownHosts w.clock.now w.registrations direction hs)).apartFrom names =
        hs.apartFrom names := by
  rw [apartFrom_forwardHeaders (List.Subset.trans (by decide) hnames),
    apartFrom_of_without (hnames (by decide)) (without_presentContact _ _ _ _ _)]

theorem values_stripRoutes {n : StandardName} (hne : n ≠ .route) (own : OwnAddresses) (known : KnownHosts)
    (hs : Headers) : values n (own.stripRoutes known hs).1 = values n hs :=
  values_of_without hne (without_stripRoutes own known hs)

theorem values_faceRecordRoutes {n : StandardName} (hne : n ≠ .recordRoute) (own : OwnAddresses)
    (known : KnownHosts) (ip : Ip) (hs : Headers) :
    values n (own.faceRecordRoutes known ip hs).1 = values n hs :=
  values_of_without hne (without_faceRecordRoutes own known ip hs)

theorem values_presentContact {n : StandardName} (hne : n ≠ .contact) (known : KnownHosts) (now : Instant)
    (t : Registrations) (direction : Direction) (hs : Headers) :
    values n (presentContact known now t direction hs) = values n hs :=
  values_of_without hne (without_presentContact known now t direction hs)

end Headers

/-- A name that no edit of a forwarded message concerns. -/
def StandardName.isKept (n : StandardName) : Bool :=
  n != .via && n != .route && n != .recordRoute && n != .maxForwards && n != .contact

theorem StandardName.notMem_routingNames {n : StandardName} (hn : n.isKept = true) : n ∉ routingNames := by
  simpa [isKept, routingNames, and_assoc] using hn

theorem Request.headers_aimAt (direction : Direction) (registration : Option Registration) (r : Request) :
    (r.aimAt direction registration).headers = r.headers := by
  unfold aimAt
  split <;> rfl

/-- Up to its media a request is edited in the fields by which it is routed only. -/
theorem Request.apartFrom_prepared {names : List StandardName} (hnames : routingNames ⊆ names)
    (cx : Context) (w next : World) (source : Endpoint) (direction : Direction)
    (registration : Option Registration) (r : Request) :
    ((r.received cx w source).prepared cx next direction registration).headers.apartFrom names =
      r.headers.apartFrom names := by
  unfold Request.prepared
  dsimp only
  rw [Headers.apartFrom_faced hnames, headers_aimAt, Request.received,
    Headers.apartFrom_of_without (hnames (by decide)) (Headers.without_stripRoutes _ _ _),
    Headers.apartFrom_of_without (hnames (by decide)) (Headers.without_stamp _ _)]

theorem Request.values_prepared (cx : Context) (w next : World) (source : Endpoint)
    (direction : Direction) (registration : Option Registration) (r : Request) {n : StandardName}
    (hn : n.isKept = true) :
    ((r.received cx w source).prepared cx next direction registration).headers.values n =
      r.headers.values n := by
  have hsame := r.apartFrom_prepared (List.Subset.refl _) cx w next source direction registration
  exact Headers.values_of_apartFrom hsame (StandardName.notMem_routingNames hn)

theorem Response.values_received (r : Response) {n : StandardName} (hn : n.isKept = true) :
    r.received.headers.values n = r.headers.values n := by
  simp only [StandardName.isKept, Bool.and_eq_true, bne_iff_ne] at hn
  exact Headers.values_eraseFirst_other hn.1.1.1.1 _

theorem Response.values_prepared (cx : Context) (w : World) (direction : Direction) (r : Response)
    {n : StandardName} (hn : n.isKept = true) :
    (r.prepared cx w direction).headers.values n = r.headers.values n := by
  simp only [StandardName.isKept, Bool.and_eq_true, bne_iff_ne] at hn
  obtain ⟨⟨⟨⟨-, -⟩, hrecord⟩, -⟩, hcontact⟩ := hn
  unfold Response.prepared
  dsimp only
  rw [Headers.values_presentContact hcontact, Headers.values_faceRecordRoutes hrecord]

theorem description?_congr {m m' : Message} (hbody : m.body = m'.body)
    (hvalues : ∀ n : StandardName, n.isKept = true → m.headers.values n = m'.headers.values n) :
    m.description? = m'.description? := by
  unfold Message.description?
  rw [hbody, Headers.callId?_congr (hvalues .callId rfl), Headers.carriesSdp_congr (hvalues .contentType rfl)]

theorem Request.body_prepared (cx : Context) (w : World) (direction : Direction)
    (registration : Option Registration) (r : Request) :
    (r.prepared cx w direction registration).body = r.body := by
  show (r.aimAt direction registration).body = r.body
  unfold Request.aimAt
  split <;> rfl

theorem Request.description?_prepared (cx : Context) (w next : World) (source : Endpoint)
    (direction : Direction) (registration : Option Registration) (r : Request) :
    (Message.request ((r.received cx w source).prepared cx next direction registration)).description? =
      (Message.request r).description? :=
  description?_congr (Request.body_prepared cx next direction registration _)
    fun _ hn => r.values_prepared cx w next source direction registration hn

theorem anchorPorts_congr (cx : Context) (direction : Direction) (client : Text) {m m' : Message}
    (h : m.description? = m'.description?) (w : World) :
    anchorPorts cx direction client m w = anchorPorts cx direction client m' w := by
  unfold anchorPorts
  rw [h]

/-! What anchoring a message leads to. -/

/-- A section that is anchored: the new description says that it is received at an address on a port, and
its stream carries it from there to where the old one said. -/
structure AnchoredAt (key : StreamKey) (ip : Ip) (port : UInt16) (old new : MediaOffer)
    (part : SdpSection) (table : StreamTable) : Prop where
  hasPort : new.port = port
  hasAddress : new.connection = some ip
  rtcp : ∀ l ∈ part.lines, l.item = .rtcp →
    ∃ next, l.rtcpPort? = some next ∧ next.toNat = port.toNat + 1
  stream : ∃ h s remote, table.get? h = some s ∧ s.key = key ∧ s.localIp = ip ∧ s.rtpPort = port ∧
    old.connection = some remote ∧ s.remote = ⟨remote, old.port⟩

/-- A body in which the sections of a description that were given ports are anchored. -/
def AnchoredBody (callId : CallId) (direction : Direction) (client : Text) (ip : Ip) (sdp : Sdp)
    (ports : List (Option UInt16)) (table : StreamTable) (body : List UInt8) : Prop :=
  ∃ text sdp', Utf8.decode? body = some text ∧ Sdp.read text = .ok sdp' ∧
    sdp'.media.map (·.kind) = sdp.media.map (·.kind) ∧
    ∀ i port, Sdp.portOf ports i = some port →
      ∃ old new part, sdp.media[i]? = some old ∧ sdp'.media[i]? = some new ∧
        sdp'.sections[i]? = some part ∧
        AnchoredAt ⟨callId, direction, i, client⟩ ip port old new part table

theorem toNat_nextPort {port : UInt16} {range : PortRange} (h : range.Fits port) :
    (RelayTarget.nextPort port).toNat = port.toNat + 1 := by
  have hmax := h.le_max
  have hlt := range.max.toNat_lt
  rw [RelayTarget.nextPort, UInt16.toNat_ofNat']
  omega

theorem anchoredAt_of_serves {cx : Context} {relay : Relay} {callId : CallId} {direction : Direction}
    {client : Text} (hclient : cutIdentifier client = client) (text : Text) {sdp : Sdp}
    {ports : List (Option UInt16)} {table : StreamTable} (htable : table.Sound) {i : Nat} {port : UInt16}
    (hport : Sdp.portOf ports i = some port) {old : MediaOffer} (hold : sdp.media[i]? = some old)
    {q : StreamRequest} (hrequest : cx.requests relay callId direction client old = some q)
    (hserves : table.Serves q port) :
    ∃ new part,
      (sdp.redirected ⟨cx.ipTowards direction, Sdp.newlineOf text⟩ ports).media[i]? = some new ∧
      (sdp.redirected ⟨cx.ipTowards direction, Sdp.newlineOf text⟩ ports).sections[i]? = some part ∧
      AnchoredAt ⟨callId, direction, i, client⟩ (cx.ipTowards direction) port old new part table := by
  obtain ⟨part, hpart, holdEq⟩ := Option.map_eq_some_iff.mp ((Sdp.getElem?_media sdp i).symm.trans hold)
  -- Only a section that can be relayed asks for a stream, so it had an address that names a host.
  obtain ⟨ip, hconnection, hspec, hq⟩ := requests_eq_some hrequest
  have hindex : old.index = i := by rw [← holdEq]
  have hsdpIp : sdp.connectionOf part = some ip := by rw [← hconnection, ← holdEq]
  generalize htarget : (⟨cx.ipTowards direction, Sdp.newlineOf text⟩ : RelayTarget) = t
  have htargetIp : t.ip = cx.ipTowards direction := by rw [← htarget]
  have hfit : t.IsFit := htarget ▸ Sdp.isFit_newlineOf _ text
  have hnew : (sdp.redirected t ports).sections[i]? = some (t.facedSection port part) := by
    rw [Sdp.getElem?_redirected, hpart, Option.map_some, Sdp.redirectedSection, hport]
  refine ⟨_, _, by rw [Sdp.getElem?_media, hnew, Option.map_some], hnew, rfl, ?_, ?_, ?_⟩
  · dsimp only
    rw [Sdp.connectionOf_redirected t hpart hport hsdpIp hspec, htargetIp]
  · intro l hl hitem
    exact ⟨_, t.rtcpPort?_facedSection hfit port part l hl hitem,
      toNat_nextPort (StreamTable.Serves.fits htable hserves)⟩
  · obtain ⟨h, s, hget, hkey, hip, hrtp, hremote⟩ := hserves
    refine ⟨h, s, ip, hget, ?_, ?_, hrtp, hconnection, ?_⟩
    · rw [hkey, hq, StreamTable.storedKey, hclient, hindex]
    · rw [hip, hq]
    · rw [hremote, hq]

/-- Anchoring a message of whose sections some are given ports puts the description pointed at them into
its body. -/
theorem anchorMedia_anchors {cx : Context} {w : World} (hw : w.Ready cx.ipTowards) {direction : Direction}
    {client : Text} (hclient : cutIdentifier client = client) {m : Message} {callId : CallId} {text : Text}
    {sdp : Sdp} (hdescription : m.description? = some (callId, text, sdp))
    (hsome : (anchorPorts cx direction client m w).all Option.isNone = false) :
    ∃ relay body, (anchorMedia cx direction client m w).2.relay = some relay ∧
      (anchorMedia cx direction client m w).1 = m.withBody body ∧
      AnchoredBody callId direction client (cx.ipTowards direction) sdp
        (anchorPorts cx direction client m w) relay.table body := by
  cases hrelay : w.relay with
  | none =>
      rw [anchorPorts, hrelay] at hsome
      cases hsome
  | some relay =>
      have hports : anchorPorts cx direction client m w =
          (startSections (cx.requests relay callId direction client) sdp.media w).1 := by
        rw [anchorPorts, hrelay, hdescription]
      obtain ⟨after, network, hworld, hopened⟩ := startSections_spec
        (atHome_of_request cx relay callId direction client)
        (keysDiffer_media cx relay callId direction client sdp) hrelay (hw.settled relay hrelay)
      rw [← hports] at hopened
      have hresult := anchorMedia_eq cx direction client m w
      rw [hrelay, hdescription] at hresult
      dsimp only at hresult
      rw [← hports, hsome] at hresult
      obtain ⟨-, -, hread, -⟩ := Message.description?_eq_some hdescription
      refine ⟨after, _, by rw [hresult, hworld], by rw [hresult]; rfl, _, _, Utf8.decode?_encode _,
        Sdp.read_pointAt hread (Sdp.isFit_newlineOf _ text) _, Sdp.kinds_redirected sdp _ _, ?_⟩
      intro i port hport
      obtain ⟨old, q, hold, hrequest, hserves⟩ := hopened.serves i port hport
      obtain ⟨new, part, hnew, hpart, hanchored⟩ := anchoredAt_of_serves hclient text
        hopened.settled.sound hport hold hrequest hserves
      exact ⟨old, new, part, hold, hnew, hpart, hanchored⟩

/-! Routed messages. -/

theorem cutIdentifier_clientOf (hs : Headers) (source : Endpoint) :
    cutIdentifier (clientOf hs source) = clientOf hs source := by
  unfold clientOf
  exact cutIdentifier_idem _

/-- The direction in which a message is forwarded, and the name of the party that sent it. -/
def Ticket.course? (cx : Context) (w : World) (t : Ticket) : Option (Direction × Text) :=
  match t.message with
  | .request r =>
    let r := r.received cx w t.source
    (directionOfRequest w.knownHosts w.clock.now w.registrations t.source.ip r).map fun found =>
      (found.1, clientOf r.headers t.source)
  | .response r =>
    let r := r.received
    (directionOfResponse w.knownHosts w.clock.now w.registrations t.source.ip r.headers).map fun found =>
      (found.1, clientOf r.headers t.source)

/-- Whether the media of a message are anchored: it is an INVITE, ACK or UPDATE, or a response that does
not end its call. -/
def Message.mayAnchor : Message → Bool
  | .request r => r.method = .invite || r.method = .ack || r.method = .update
  | .response r => !endsCall r.received.headers r.status.code

/-- The relay ports that the sections of a message are given when it is routed. -/
def Ticket.relayPorts (cx : Context) (w : World) (t : Ticket) : List (Option UInt16) :=
  match t.course? cx w with
  | some (direction, client) =>
    if t.message.mayAnchor then anchorPorts cx direction client t.message w else []
  | none => []

theorem body_promoteStrictRoute (m : Message) : m.promoteStrictRoute.1.body = m.body := by
  cases m with
  | response r => rfl
  | request r =>
      unfold Message.promoteStrictRoute Request.promoteStrictRoute
      dsimp only
      split
      · rfl
      · split
        · rfl
        · split <;> rfl

theorem without_promoteStrictRoute (m : Message) :
    m.promoteStrictRoute.1.headers.without .route = m.headers.without .route := by
  cases m with
  | response r => rfl
  | request r =>
      unfold Message.promoteStrictRoute Request.promoteStrictRoute
      dsimp only
      split
      · rfl
      · split
        · rfl
        · split
          · rfl
          · exact Headers.without_replaceAll .route _ _

theorem values_promoteStrictRoute {n : StandardName} (hne : n ≠ .route) (m : Message) :
    m.promoteStrictRoute.1.headers.values n = m.headers.values n :=
  Headers.values_of_without hne (without_promoteStrictRoute m)

theorem body_withBody (m : Message) (body : List UInt8) : (m.withBody body).body = body := by
  cases m <;> rfl

theorem contentLength_withBody (m : Message) (body : List UInt8) :
    (m.withBody body).headers.values .contentLength = [Text.decimal body.length] := by
  cases m <;> exact Headers.values_setLast _ _ _

section

variable {cx : Context} {w after : World} {t : Ticket} {direction : Direction} {m : Message}
  {destination : Endpoint}

/-- Looking up the target of a request leaves the relay as it is. -/
theorem Request.Passes.relay_eq {next : World} {r : Request} {registration : Option Registration}
    (h : r.Passes cx t w direction registration next m destination after) :
    after.relay = (r.handled cx t.source direction registration next).2.relay := by
  obtain ⟨r', -, htarget⟩ := h.target
  have hrelay := keeps_requestTarget
    (P := fun v => v.relay = (r.handled cx t.source direction registration next).2.relay)
    (fun _ hv => hv) cx r' direction t.nextHop
    (r.handled cx t.source direction registration next).1.promoteStrictRoute.2
    (r.handled cx t.source direction registration next).2 rfl
  rw [htarget] at hrelay
  exact hrelay

theorem Response.Passes.relay_eq {r : Response} {registration : Registration}
    (h : r.Passes cx t w direction registration m destination after) :
    after.relay = (r.received.handled cx t.source direction w).2.relay := by
  have htarget := h.target
  cases hhop : t.nextHop with
  | some endpoint =>
      rw [hhop] at htarget
      rw [htarget.2]
  | none =>
      rw [hhop] at htarget
      have hrelay := keeps_responseTarget
        (P := fun v => v.relay = (r.received.handled cx t.source direction w).2.relay)
        (fun _ hv => hv) m.headers registration (r.received.handled cx t.source direction w).2 rfl
      rw [htarget] at hrelay
      exact hrelay

theorem Request.handled_of_mayAnchor {r : Request}
    (h : r.method = .invite ∨ r.method = .ack ∨ r.method = .update) (cx : Context) (source : Endpoint)
    (direction : Direction) (registration : Option Registration) (w : World) :
    r.handled cx source direction registration w =
      anchorMedia cx direction (clientOf r.headers source)
        (.request (r.prepared cx w direction registration)) w := by
  unfold Request.handled handleMedia
  rcases h with h | h | h <;> rw [h]

theorem Response.handled_of_mayAnchor {r : Response} (h : endsCall r.headers r.status.code = false)
    (cx : Context) (source : Endpoint) (direction : Direction) (w : World) :
    r.handled cx source direction w =
      anchorMedia cx direction (clientOf r.headers source) (.response (r.prepared cx w direction)) w := by
  unfold Response.handled
  rw [h]
  rfl

/-- What a forwarded message with anchored media is like. -/
def Anchors (cx : Context) (t : Ticket) (w after : World) (m : Message) : Prop :=
  ∃ direction client callId text sdp relay,
    t.course? cx w = some (direction, client) ∧
    t.message.description? = some (callId, text, sdp) ∧
    after.relay = some relay ∧
    AnchoredBody callId direction client (cx.ipTowards direction) sdp (t.relayPorts cx w) relay.table
      m.body ∧
    m.headers.values .contentLength = [Text.decimal m.body.length]

theorem exists_description {client : Text}
    (h : (anchorPorts cx direction client m w).all Option.isNone = false) :
    ∃ callId text sdp, m.description? = some (callId, text, sdp) := by
  cases hdescription : m.description? with
  | some description => exact ⟨description.1, description.2.1, description.2.2, rfl⟩
  | none =>
      unfold anchorPorts at h
      rw [hdescription] at h
      cases hrelay : w.relay <;> simp [hrelay] at h

/-- Ports are given only to the sections of a message that has a direction and whose media are anchored. -/
theorem relayPorts_spec (h : (t.relayPorts cx w).all Option.isNone = false) :
    ∃ direction client, t.course? cx w = some (direction, client) ∧ t.message.mayAnchor = true ∧
      t.relayPorts cx w = anchorPorts cx direction client t.message w := by
  unfold Ticket.relayPorts at h ⊢
  cases hcourse : t.course? cx w with
  | none =>
      rw [hcourse] at h
      cases h
  | some course =>
      obtain ⟨direction, client⟩ := course
      rw [hcourse] at h
      dsimp only at h ⊢
      cases hmay : t.message.mayAnchor with
      | false =>
          rw [hmay] at h
          cases h
      | true => exact ⟨direction, client, rfl, rfl, if_pos rfl⟩

/-- A message that is sent with the body that anchoring gave it, and with its length. -/
theorem anchors_of_anchorMedia (hw : w.Ready cx.ipTowards) {client : Text}
    (hcourse : t.course? cx w = some (direction, client))
    (hclient : cutIdentifier client = client)
    (hports : t.relayPorts cx w = anchorPorts cx direction client t.message w)
    (hsome : (t.relayPorts cx w).all Option.isNone = false) (prepared : Message)
    (hsame : prepared.description? = t.message.description?)
    (hrelay : after.relay = (anchorMedia cx direction client prepared w).2.relay)
    (hbody : m.body = (anchorMedia cx direction client prepared w).1.body)
    (hlength : m.headers.values .contentLength =
      (anchorMedia cx direction client prepared w).1.headers.values .contentLength) :
    Anchors cx t w after m := by
  have hprepared := anchorPorts_congr cx direction client hsame w
  rw [← hprepared] at hports
  rw [hports] at hsome
  obtain ⟨callId, text, sdp, hdescription⟩ := exists_description hsome
  obtain ⟨relay, body, hafter, hm, hanchored⟩ := anchorMedia_anchors hw hclient hdescription hsome
  rw [hm, body_withBody] at hbody
  rw [hm, contentLength_withBody] at hlength
  refine ⟨direction, client, callId, text, sdp, relay, hcourse, hsame ▸ hdescription,
    hrelay.trans hafter, ?_, ?_⟩
  · rw [hports, hbody]
    exact hanchored
  · rw [hlength, hbody]

/-- A request that is no REGISTER is given its direction in the world that it arrives in. -/
theorem Request.Passes.course {q : Request} (hmessage : t.message = .request q)
    (hmethod : q.method ≠ .register) {next : World} {registration : Option Registration}
    (h : (q.received cx w t.source).Passes cx t w direction registration next m destination after) :
    next = w ∧ t.course? cx w = some (direction, clientOf (q.received cx w t.source).headers t.source) := by
  have hreceived : (q.received cx w t.source).method ≠ .register := hmethod
  obtain ⟨hnext, found, -, hdirection⟩ := directRequest_eq_ok hreceived h.directed
  refine ⟨hnext, ?_⟩
  unfold Ticket.course?
  rw [hmessage]
  dsimp only
  rw [hdirection]
  rfl

theorem request_anchors (hw : w.Ready cx.ipTowards) {r : Request} (hmessage : t.message = .request r)
    (hroute : route cx t w = (.forward m destination, after))
    (hsome : (t.relayPorts cx w).all Option.isNone = false) : Anchors cx t w after m := by
  obtain ⟨direction, client, hcourse, hmay, hports⟩ := relayPorts_spec hsome
  have hmethod : r.method = .invite ∨ r.method = .ack ∨ r.method = .update := by
    rw [hmessage] at hmay
    simpa [Message.mayAnchor, or_assoc] using hmay
  have hregister : r.method ≠ .register := by
    intro h
    simp [h] at hmethod
  obtain ⟨direction', registration, next, hpasses⟩ := request_passes hmessage hw.plugins hroute
  obtain ⟨rfl, hfound⟩ := hpasses.course hmessage hregister
  obtain ⟨rfl, hclient⟩ := Prod.mk.inj (Option.some.inj (hfound.symm.trans hcourse))
  have hhandled := Request.handled_of_mayAnchor (r := r.received cx next t.source) hmethod cx t.source
    direction' registration next
  rw [hclient] at hhandled
  have hrelay := hpasses.relay_eq
  rw [hhandled] at hrelay
  refine anchors_of_anchorMedia hw hcourse (hclient ▸ cutIdentifier_clientOf _ _) hports hsome
    (.request ((r.received cx next t.source).prepared cx next direction' registration)) ?_ hrelay ?_ ?_
  · rw [hmessage, r.description?_prepared]
  · rw [hpasses.sent, body_promoteStrictRoute, hhandled]
  · rw [hpasses.sent, values_promoteStrictRoute (by decide), hhandled]

theorem response_anchors (hw : w.Ready cx.ipTowards) {r : Response} (hmessage : t.message = .response r)
    (hroute : route cx t w = (.forward m destination, after))
    (hsome : (t.relayPorts cx w).all Option.isNone = false) : Anchors cx t w after m := by
  obtain ⟨direction, client, hcourse, hmay, hports⟩ := relayPorts_spec hsome
  have hends : endsCall r.received.headers r.received.status.code = false := by
    rw [hmessage] at hmay
    exact Bool.not_eq_true' _ ▸ hmay
  obtain ⟨direction', registration, hpasses⟩ := response_passes hmessage hw.plugins hroute
  have hfound : (direction', clientOf r.received.headers t.source) = (direction, client) := by
    unfold Ticket.course? at hcourse
    rw [hmessage] at hcourse
    dsimp only at hcourse
    rw [hpasses.directed] at hcourse
    exact Option.some.inj hcourse
  obtain ⟨rfl, hclient⟩ := Prod.mk.inj hfound
  have hhandled := Response.handled_of_mayAnchor hends cx t.source direction' w
  rw [hclient] at hhandled
  have hrelay := hpasses.relay_eq
  rw [hhandled] at hrelay
  refine anchors_of_anchorMedia hw hcourse (hclient ▸ cutIdentifier_clientOf _ _) hports hsome
    (.response (r.received.prepared cx w direction')) ?_ hrelay ?_ ?_
  · rw [hmessage]
    exact description?_congr rfl fun n hn =>
      (r.received.values_prepared cx w direction' hn).trans (r.values_received hn)
  · rw [hpasses.sent, hhandled]
  · rw [hpasses.sent, hhandled]

end

/-- Whatever the proxy has been through, the media of a message that it forwards are anchored where their
sections are given ports. -/
theorem route_anchors {cx : Context} {w after : World} (hw : w.Reachable cx) (t : Ticket) {m : Message}
    {destination : Endpoint} (hroute : route cx t w = (.forward m destination, after))
    (hsome : (t.relayPorts cx w).all Option.isNone = false) : Anchors cx t w after m := by
  cases hmessage : t.message with
  | request r => exact request_anchors hw.ready hmessage hroute hsome
  | response r => exact response_anchors hw.ready hmessage hroute hsome

/-! A call from a registered party, which offers audio and declines video. -/

namespace OutgoingCall

def settings : Settings :=
  { sip := { inbound := { address := .v4 10 0 0 1 }, outbound := { address := .v4 192 0 2 1 } } }

def party : Endpoint := ⟨.v4 10 0 0 5, 5060⟩

def field (name : StandardName) (value : String) : Header := ⟨.standard name, value.toList⟩

def hostUri (ip : Ip) : Uri :=
  { scheme := some .sip, userInfo := none, hostPort := ⟨.ip ip, none⟩, params := [] }

def ticket (method : Method) (host : Ip) (headers : Headers) (body : String) : Ticket :=
  { message := .request
      { method := method
        uri := hostUri host
        version := .two
        headers :=
          [field .via "SIP/2.0/UDP 10.0.0.5;branch=z9hG4bK1",
            field .from "<sip:alice@192.0.2.1>;tag=1",
            field .contact "<sip:alice@10.0.0.5>",
            field .callId "a",
            field .maxForwards "70"] ++ headers
        body := Utf8.encode body.toList }
    source := party }

def registration : Ticket :=
  ticket .register (.v4 192 0 2 1) [field .to "<sip:alice@192.0.2.1>", field .cseq "1 REGISTER"] ""

def invitation : Ticket :=
  ticket .invite (.v4 192 0 2 9)
    [field .to "<sip:bob@192.0.2.9>", field .cseq "2 INVITE", field .contentType "application/sdp"]
    "v=0\nc=IN IP4 10.0.0.5\nm=audio 4000 RTP/AVP 0\na=rtcp:4001\nm=video 0 RTP/AVP 31\n"

/-- The world once the party is registered. -/
def registered : World :=
  (World.initial settings [] {} ⟨0, 0⟩ 1).run (.ofSettings settings) [.message registration]

end OutgoingCall

/-- The message that is forwarded, if one is. -/
def Routed.forwarded? : Routed → Option (Message × Endpoint)
  | .forward m destination => some (m, destination)
  | _ => none

theorem Routed.forwarded?_eq_some_iff {outcome : Routed} {m : Message} {destination : Endpoint} :
    outcome.forwarded? = some (m, destination) ↔ outcome = .forward m destination := by
  cases outcome <;> simp [Routed.forwarded?]

theorem Routed.exists_of_forwarded {outcome : Routed} (h : outcome.forwarded?.isSome) :
    ∃ m destination, outcome = .forward m destination := by
  obtain ⟨⟨m, destination⟩, hsent⟩ := Option.isSome_iff_exists.mp h
  exact ⟨m, destination, forwarded?_eq_some_iff.mp hsent⟩

open OutgoingCall in
theorem anchors_outgoingCall :
    invitation.relayPorts (.ofSettings settings) registered = [some 7070, none] ∧
      ∃ m destination after,
        route (.ofSettings settings) invitation registered = (.forward m destination, after) ∧
          Anchors (.ofSettings settings) invitation registered after m := by
  have hreachable : registered.Reachable (.ofSettings settings) :=
    ⟨settings, {}, ⟨0, 0⟩, 1, [.message registration], rfl⟩
  have hports : invitation.relayPorts (.ofSettings settings) registered = [some 7070, none] := by
    decide +kernel
  have hforwarded : (route (.ofSettings settings) invitation registered).1.forwarded?.isSome := by
    decide +kernel
  rcases hroute : route (.ofSettings settings) invitation registered with ⟨outcome, after⟩
  rw [hroute] at hforwarded
  obtain ⟨m, destination, rfl⟩ := Routed.exists_of_forwarded hforwarded
  exact ⟨hports, m, destination, after, rfl,
    route_anchors hreachable invitation hroute (by rw [hports]; rfl)⟩

end BorderProxy
