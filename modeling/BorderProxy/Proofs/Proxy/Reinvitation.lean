import BorderProxy.Proofs.Proxy.Confined
import BorderProxy.Proofs.Proxy.Legs

/-! Invitations within a call. An INVITE opens streams for what it offers and refreshes those that it finds,
and a message that does not end its call closes none. So the streams of a call stay open while it is offered
something else, and when the offer is refused for lack of authentication. Any other refusal closes all of
them, those of the session that the offer was to change included. -/

namespace BorderProxy

/-! Streams that stay open. -/

theorem Stream.SamePlace.trans {s r u : Stream} (h : s.SamePlace r) (h' : r.SamePlace u) :
    s.SamePlace u := by
  obtain ⟨hkey, hip, hport⟩ := h
  obtain ⟨hkey', hip', hport'⟩ := h'
  exact ⟨hkey.trans hkey', hip.trans hip', hport.trans hport'⟩

namespace Relay

/-- Whether every open stream of a relay is still open in a later one, on the same pair of ports. -/
def KeepsStreams (r after : Relay) : Prop :=
  ∀ h s, r.table.get? h = some s → ∃ s', after.table.get? h = some s' ∧ s.SamePlace s'

theorem KeepsStreams.refl (r : Relay) : r.KeepsStreams r := fun _ s hs => ⟨s, hs, rfl, rfl, rfl⟩

theorem KeepsStreams.trans {r r' after : Relay} (h : r.KeepsStreams r') (h' : r'.KeepsStreams after) :
    r.KeepsStreams after := by
  intro x s hs
  obtain ⟨s', hs', hplace⟩ := h x s hs
  obtain ⟨s'', hs'', hplace'⟩ := h' x s' hs'
  exact ⟨s'', hs'', hplace.trans hplace'⟩

theorem Tidy.keepsStreams_start {r : Relay} (h : r.Tidy) (network : Network) (request : StreamRequest)
    (now : Instant) : r.KeepsStreams (r.start network request now).2.1 := by
  obtain ⟨l, hready⟩ := h.ready
  unfold Relay.start
  split
  · exact .refl r
  · intro x s hs
    obtain ⟨s', hs', hplace, -⟩ := hready.table.get?_start network request now hs
    exact ⟨s', hs', hplace⟩

/-- Commands that only open streams close none. -/
theorem Tidy.keepsStreams_starts {r : Relay} (h : r.Tidy) (network : Network) (now : Instant)
    {commands : List RelayCommand} (hstarts : ∀ command ∈ commands, ∃ request, command = .start request) :
    r.KeepsStreams (RelayCommand.carryOutAll now commands (r, network)).1 := by
  induction commands generalizing r network with
  | nil => exact .refl r
  | cons command rest ih =>
      obtain ⟨request, rfl⟩ := hstarts command List.mem_cons_self
      have hrest := ih (h.carryOut network now (.start request)) (r.start network request now).2.2
        fun c hc => hstarts c (List.mem_cons_of_mem _ hc)
      exact (h.keepsStreams_start network request now).trans hrest

end Relay

/-! Messages that do not end their call. -/

theorem start_of_mem_anchorCommands {cx : Context} {relay : Relay} {direction : Direction} {client : Text}
    {m : Message} {command : RelayCommand} (h : command ∈ cx.anchorCommands relay direction client m) :
    ∃ request, command = .start request := by
  unfold Context.anchorCommands at h
  split at h
  · obtain ⟨request, -, rfl⟩ := List.mem_map.mp h
    exact ⟨request, rfl⟩
  · cases h

theorem Course.start_of_mem_commands {course : Course} (hends : course.endsCall = false) {cx : Context}
    {relay : Relay} {source : Endpoint} {command : RelayCommand}
    (h : command ∈ course.commands cx relay source) : ∃ request, command = .start request := by
  cases course with
  | request c =>
      have hmethod : c.method ≠ .bye ∧ c.method ≠ .cancel := by simpa [Course.endsCall] using hends
      change command ∈ c.commands cx relay source at h
      unfold RequestCourse.commands at h
      split at h
      · exact start_of_mem_anchorCommands h
      · exact start_of_mem_anchorCommands h
      · exact start_of_mem_anchorCommands h
      · rename_i hbye
        exact absurd hbye hmethod.1
      · rename_i hcancel
        exact absurd hcancel hmethod.2
      · cases h
  | response c =>
      have hnot : BorderProxy.endsCall c.response.headers c.response.status.code = false := hends
      change command ∈ c.commands cx relay source at h
      unfold ResponseCourse.commands at h
      rw [hnot, if_neg Bool.false_ne_true, List.append_nil] at h
      exact start_of_mem_anchorCommands h

section

variable {cx : Context} {t : Ticket} {w : World} {relay : Relay}

theorem exists_relay_route (cx : Context) (t : Ticket) (hw : w.relay = some relay) :
    ∃ after, (route cx t w).2.relay = some after := by
  have hafter := congrArg Prod.fst (relayed_route cx t hw)
  rw [World.command_of_some hw] at hafter
  exact ⟨_, hafter⟩

/-- Whether a message as it came ends its call. -/
def Message.endsCall : Message → Bool
  | .request q => q.method = .bye || q.method = .cancel
  | .response r => BorderProxy.endsCall r.headers r.status.code

theorem endsCall_congr {hs hs' : Headers} (h : hs.values .cseq = hs'.values .cseq) (code : UInt16) :
    endsCall hs code = endsCall hs' code := by
  rw [endsCall, endsCall, answeredMethod?, answeredMethod?, Headers.sequence?, Headers.sequence?, h]

theorem Message.isOffRoute_endsCall : IsOffRoute Message.endsCall := by
  intro m edit hedit
  have hsequence := isOffRoute_values (n := .cseq) (by decide) m edit hedit
  cases m with
  | request q => rfl
  | response r => exact endsCall_congr hsequence r.status.code

/-- A message whose course is settled ends its call if it did when it came. -/
theorem Ticket.endsCall_settled (hkeeps : w.plugins.KeepsMessages) {course : Course}
    (h : t.settled? cx w = some course) : course.endsCall = t.message.endsCall := by
  cases course with
  | request c =>
      obtain ⟨v, -, hsettled⟩ := exists_settled h
      have hmethod := method_settleRequest (hkeeps.keepsPart Message.method?) hsettled
      cases hmessage : t.message with
      | request q =>
          rw [hmessage] at hmethod
          rw [Message.endsCall, Option.some.inj hmethod]
          rfl
      | response r =>
          rw [hmessage] at hmethod
          cases hmethod
  | response c => exact part_settled Message.isOffRoute_endsCall (hkeeps.keepsPart _) h

/-- Routing a message that does not end its call closes no stream. -/
theorem route_keepsStreams (hrelay : relay.Reachable) (hw : w.relay = some relay)
    (hkeeps : w.plugins.KeepsMessages) (hends : t.message.endsCall = false) :
    ∃ after, (route cx t w).2.relay = some after ∧ relay.KeepsStreams after := by
  have hafter := congrArg Prod.fst (relayed_route cx t hw)
  rw [World.command_of_some hw] at hafter
  refine ⟨_, hafter, hrelay.tidy.keepsStreams_starts w.network w.clock.now fun command hcommand => ?_⟩
  cases hsettled : t.settled? cx w with
  | none =>
      rw [Ticket.commands, hw, hsettled] at hcommand
      cases hcommand
  | some course =>
      rw [Ticket.commands_of_settled hw hsettled] at hcommand
      exact Course.start_of_mem_commands ((Ticket.endsCall_settled hkeeps hsettled).trans hends) hcommand

/-- Routing a message that ends its call, if it is forwarded, leaves no stream of it. -/
theorem route_ends_call (hrelay : relay.Reachable) (hw : w.relay = some relay)
    (hkeeps : w.plugins.KeepsMessages) (hends : t.message.endsCall = true) {m : Message}
    {destination : Endpoint} {after : World} (hroute : route cx t w = (.forward m destination, after))
    {id : Text} (hid : t.message.headers.callId? = some id) :
    ∃ relay', after.relay = some relay' ∧ Relay.Over (.ofText id) relay relay' := by
  obtain ⟨course, v, hsettled, -⟩ := Ticket.settled_of_forward hroute
  have hcalls : w.plugins.KeepsCallIds := hkeeps.keepsPart fun m => m.headers.callId?
  have hheaders := (t.callId?_settledHeaders cx hcalls).trans hid
  obtain ⟨-, -, relay', hafter, -, -, hover⟩ := route_confines hrelay hw hheaders
  rw [hroute] at hafter
  exact ⟨relay', hafter, hover course hsettled ((Ticket.endsCall_settled hkeeps hsettled).trans hends)⟩

end

/-- An INVITE that is forwarded, and a response that refuses it, which is forwarded as well, whatever the
proxy went through between them. Plugins leave both as they are. -/
structure RefusedInvitation (cx : Context) (t t' : Ticket) (w after v after' : World) (q : Request)
    (r : Response) : Prop where
  runs : w.RunsRelay
  runs' : v.RunsRelay
  keeps : w.plugins.KeepsMessages
  keeps' : v.plugins.KeepsMessages
  request : t.message = .request q
  invite : q.method = .invite
  response : t'.message = .response r
  failure : 400 ≤ r.status.code
  sent : ∃ m destination, route cx t w = (.forward m destination, after) ∧ r.Answers q m
  returned : ∃ m destination, route cx t' v = (.forward m destination, after')

section

variable {cx : Context} {t t' : Ticket} {w after v after' : World} {q : Request} {r : Response}

/-- The status of the response alone decides whether it ends the call. -/
theorem RefusedInvitation.endsCall_iff (h : RefusedInvitation cx t t' w after v after' q r)
    (hnamed : answeredMethod? q.headers = some "INVITE".toList) :
    t'.message.endsCall = true ↔ r.status.code ≠ 401 ∧ r.status.code ≠ 407 := by
  obtain ⟨m, destination, -, hanswers⟩ := h.sent
  rw [h.response, Message.endsCall, endsCall_congr hanswers.sequence, endsCall, hnamed]
  simp [h.failure]

theorem RefusedInvitation.exists_offered (h : RefusedInvitation cx t t' w after v after' q r)
    {relay : Relay} (hw : w.relay = some relay) : ∃ offered, after.relay = some offered := by
  obtain ⟨m, destination, hroute, -⟩ := h.sent
  have hoffered := exists_relay_route cx t hw
  rwa [hroute] at hoffered

/-- An INVITE that is forwarded closes no stream. If the response to it asks for authentication, neither
does that, and streams that stayed open between them are open in the end; if it refuses the INVITE in any
other way, no stream of the call is left. -/
theorem refused_invitation (h : RefusedInvitation cx t t' w after v after' q r) {relay between : Relay}
    (hw : w.relay = some relay) (hv : v.relay = some between) :
    ∃ id offered refused, q.headers.callId? = some id ∧ after.relay = some offered ∧
      after'.relay = some refused ∧ relay.KeepsStreams offered ∧
      (r.status.code = 401 ∨ r.status.code = 407 →
        between.KeepsStreams refused ∧ (offered.KeepsStreams between → relay.KeepsStreams refused)) ∧
      (answeredMethod? q.headers = some "INVITE".toList → r.status.code ≠ 401 → r.status.code ≠ 407 →
        Relay.Over (.ofText id) between refused) := by
  obtain ⟨m, destination, hroute, hanswers⟩ := h.sent
  obtain ⟨m', destination', hroute'⟩ := h.returned
  obtain ⟨hcomplete, -⟩ := route_eq_forward hroute
  rw [h.request, Headers.checkComplete_eq_ok_iff] at hcomplete
  obtain ⟨id, hid⟩ := Option.isSome_iff_exists.mp hcomplete.2.2.2.1
  have hinvites : t.message.endsCall = false := by
    rw [h.request, Message.endsCall, h.invite]
    rfl
  obtain ⟨offered, hoffered, hstay⟩ := route_keepsStreams (h.runs relay hw) hw h.keeps hinvites
  obtain ⟨refused, hrefused⟩ := exists_relay_route cx t' hv
  rw [hroute] at hoffered
  rw [hroute'] at hrefused
  refine ⟨id, offered, refused, hid, hoffered, hrefused, hstay, fun hcode => ?_,
    fun hnamed hcode hcode' => ?_⟩
  · have hopen : t'.message.endsCall = false := by
      rw [h.response, Message.endsCall, endsCall]
      rcases hcode with hcode | hcode <;> simp [hcode]
    obtain ⟨last, hlast, hkept⟩ := route_keepsStreams (h.runs' between hv) hv h.keeps' hopen
    rw [hroute', hrefused] at hlast
    obtain rfl := Option.some.inj hlast
    exact ⟨hkept, fun hcarried => (hstay.trans hcarried).trans hkept⟩
  · have hcall : t'.message.headers.callId? = some id := by
      rw [h.response]
      exact (Headers.callId?_congr hanswers.callId).trans hid
    have hends := (h.endsCall_iff hnamed).mpr ⟨hcode, hcode'⟩
    obtain ⟨last, hlast, hover⟩ := route_ends_call (h.runs' between hv) hv h.keeps' hends hroute' hcall
    rw [hrefused] at hlast
    obtain rfl := Option.some.inj hlast
    exact hover

end

/-- A request within the dialog of a call: it has the Call-ID and the tags of both parties. -/
structure Request.IsWithin (q₁ q : Request) (r : Response) : Prop where
  callId : q₁.headers.values .callId = q.headers.values .callId
  sender : q₁.headers.tag .from = q.headers.tag .from
  receiver : q₁.headers.tag .to = r.headers.tag .to
  tagged : q₁.headers.tag .to ≠ []

/-- The call of a stream and its port, while the stream is open. -/
def World.leg? (w : World) (h : StreamRef) : Option (CallId × UInt16) := do
  let s ← (← w.relay).table.get? h
  return (s.key.callId, s.rtpPort)

theorem World.leg?_eq_some {w : World} {h : StreamRef} {callId : CallId} {port : UInt16}
    (hleg : w.leg? h = some (callId, port)) :
    ∃ relay s, w.relay = some relay ∧ relay.table.get? h = some s ∧ s.key.callId = callId ∧
      s.rtpPort = port := by
  obtain ⟨relay, hrelay, hfound⟩ := Option.bind_eq_some_iff.mp hleg
  obtain ⟨s, hs, hfields⟩ := Option.bind_eq_some_iff.mp hfound
  obtain ⟨hcall, hport⟩ := Prod.mk.inj (Option.some.inj hfields)
  exact ⟨relay, s, hrelay, hs, hcall, hport⟩

theorem Relay.KeepsStreams.leg?_eq {w after : World} {relay relay' : Relay} (h : relay.KeepsStreams relay')
    (hw : w.relay = some relay) (hafter : after.relay = some relay') {x : StreamRef}
    {leg : CallId × UInt16} (hleg : w.leg? x = some leg) : after.leg? x = some leg := by
  obtain ⟨found, s, hfound, hs, hcall, hport⟩ := World.leg?_eq_some hleg
  rw [hw, Option.some.injEq] at hfound
  subst hfound
  obtain ⟨s', hs', hkey, -, hport'⟩ := h x s hs
  rw [World.leg?, hafter, Option.bind_eq_bind, Option.bind_some, hs', Option.bind_eq_bind, Option.bind_some,
    ← hkey, ← hport', hcall, hport]
  rfl

/-! The answered call of the registered party, in which it offers another port. -/

namespace OutgoingCall

/-- The answer that gives the call the tag of the called party. -/
def pickedUp (m : Message) : Response :=
  let r := accepted ["<sip:bob@192.0.2.9>"] m
  let party := (m.headers.value? .to).getD []
  { r with headers := r.headers.replaceFirst .to (party ++ ";tag=2".toList) }

def pickUp (m : Message) : Ticket := { answered m with message := .response (pickedUp m) }

/-- The offer within the call. -/
def reinvitation : Ticket :=
  ticket .invite (.v4 192 0 2 9)
    [field .to "<sip:bob@192.0.2.9>;tag=2", field .cseq "3 INVITE", field .contentType "application/sdp"]
    "v=0\nc=IN IP4 10.0.0.5\nm=audio 4002 RTP/AVP 0\n"

def refused (code : UInt16) (m : Message) : Response := { answer m with status := .ofCode code }

def refusal (code : UInt16) (m : Message) : Ticket :=
  { answered m with message := .response (refused code m) }

/-- The sides of the call, the tag of the called party, and the caller's leg before the offer within the
call and after that was refused. -/
structure RefusedOffer where
  caller : CallSide
  callee : CallSide
  tag : Text
  before : Option (CallId × UInt16)
  after : Option (CallId × UInt16)
  deriving DecidableEq

/-- The call in which an offer is refused with a status, if all four messages are forwarded. -/
def refusedOffer? (code : UInt16) : Option RefusedOffer :=
  let cx := Context.ofSettings settings
  let invited := route cx invitation registered
  invited.1.forwarded?.bind fun sent =>
    let answered := route cx (pickUp sent.1) invited.2
    answered.1.forwarded?.bind fun _ =>
      let offered := route cx reinvitation answered.2
      offered.1.forwarded?.bind fun sent' =>
        let after := route cx (refusal code sent'.1) offered.2
        after.1.forwarded?.map fun _ =>
          { caller := invitation.side cx registered
            callee := (pickUp sent.1).side cx invited.2
            tag := (pickedUp sent.1).headers.tag .to
            before := answered.2.leg? ⟨0, 0⟩
            after := after.2.leg? ⟨0, 0⟩ }

theorem pickedUp_answers {m : Message} {q : Request} (h : (answer m).Answers q m) :
    (pickedUp m).Answers q m := by
  have hother : ∀ n, n ≠ .contact → (accepted ["<sip:bob@192.0.2.9>"] m).headers.values n =
      m.headers.values n :=
    fun n hn => Headers.values_replaceAll_other hn _ m.headers
  refine h.of_values (fun n hcontact hto => ?_) fun party hparty => ⟨";tag=2".toList, ?_⟩
  · exact (Headers.values_of_without hto (Headers.without_replaceFirst .to _ _)).trans (hother n hcontact)
  · have hvalues := Headers.values_replaceFirst .to (party ++ ";tag=2".toList)
      (accepted ["<sip:bob@192.0.2.9>"] m).headers
    have hgiven : m.headers.value? .to = some party := hparty
    have hhead := hgiven
    rw [Headers.value?_eq_head?, ← hother .to (by decide)] at hhead
    rw [pickedUp, hgiven, Headers.value?_eq_head?]
    obtain ⟨below, hbelow⟩ := List.head?_eq_some_iff.mp hhead
    rw [hbelow] at hvalues
    exact congrArg List.head? hvalues

/-- An answered call in which an offer is refused has all its messages forwarded. -/
theorem exists_refusedInvitation {code : UInt16} (hcode : 400 ≤ code) {story : RefusedOffer}
    (h : refusedOffer? code = some story) {caller callee : Text}
    (hcaller : story.caller.course = some (.outgoing, caller))
    (hcallee : story.callee.course = some (.incoming, callee)) (htag : story.tag = "2".toList) :
    ∃ t' t₁' invited answered offered after q r q₁ r₁,
      AnsweredCall (.ofSettings settings) invitation t' registered invited invited answered q r caller
          callee ∧
        r.status.code = 200 ∧ invitation.relayPorts (.ofSettings settings) registered = story.caller.ports ∧
        t'.relayPorts (.ofSettings settings) invited = story.callee.ports ∧ q₁.IsWithin q r ∧
        RefusedInvitation (.ofSettings settings) reinvitation t₁' answered offered offered after q₁ r₁ ∧
        r₁.status.code = code ∧ answeredMethod? q₁.headers = some "INVITE".toList ∧
        answered.leg? ⟨0, 0⟩ = story.before ∧ after.leg? ⟨0, 0⟩ = story.after := by
  have hreachable := reachable_registered
  unfold refusedOffer? at h
  dsimp only at h
  rcases hinvited : route (.ofSettings settings) invitation registered with ⟨outcome, invited⟩
  rw [hinvited] at h
  obtain ⟨⟨m, destination⟩, hsent, h⟩ := Option.bind_eq_some_iff.mp h
  obtain rfl := Routed.forwarded?_eq_some_iff.mp hsent
  have hreachable₁ : invited.Reachable (.ofSettings settings) := by
    have hnext := hreachable.route invitation
    rwa [hinvited] at hnext
  rcases hanswered : route (.ofSettings settings) (pickUp m) invited with ⟨outcome, answered⟩
  rw [hanswered] at h
  obtain ⟨⟨m', destination'⟩, hreturned, h⟩ := Option.bind_eq_some_iff.mp h
  obtain rfl := Routed.forwarded?_eq_some_iff.mp hreturned
  have hreachable₂ : answered.Reachable (.ofSettings settings) := by
    have hnext := hreachable₁.route (pickUp m)
    rwa [hanswered] at hnext
  rcases hoffered : route (.ofSettings settings) reinvitation answered with ⟨outcome, offered⟩
  rw [hoffered] at h
  obtain ⟨⟨m₁, destination₁⟩, hsent₁, h⟩ := Option.bind_eq_some_iff.mp h
  obtain rfl := Routed.forwarded?_eq_some_iff.mp hsent₁
  have hreachable₃ : offered.Reachable (.ofSettings settings) := by
    have hnext := hreachable₂.route reinvitation
    rwa [hoffered] at hnext
  rcases hrefused : route (.ofSettings settings) (refusal code m₁) offered with ⟨outcome, after⟩
  rw [hrefused] at h
  obtain ⟨⟨m₁', destination₁'⟩, hreturned₁, rfl⟩ := Option.map_eq_some_iff.mp h
  obtain rfl := Routed.forwarded?_eq_some_iff.mp hreturned₁
  dsimp only [Ticket.side] at hcaller hcallee htag ⊢
  obtain ⟨q, hq, hinvite⟩ : ∃ q, invitation.message = .request q ∧ q.method = .invite := ⟨_, rfl, rfl⟩
  obtain ⟨q₁, hq₁, hinvite₁⟩ : ∃ q, reinvitation.message = .request q ∧ q.method = .invite :=
    ⟨_, rfl, rfl⟩
  have hfields :
      reinvitation.message.headers.values .callId = invitation.message.headers.values .callId ∧
        reinvitation.message.headers.tag .from = invitation.message.headers.tag .from ∧
        reinvitation.message.headers.tag .to = "2".toList ∧
        answeredMethod? reinvitation.message.headers = some "INVITE".toList := by
    decide +kernel
  rw [hq, hq₁] at hfields
  obtain ⟨hcall, hsender, hreceiver, hnamed⟩ := hfields
  have hanswers := pickedUp_answers
    (Response.answers_of_headers (r := answer m) hq hreachable.ready.plugins hinvited rfl)
  have hanswers₁ := Response.answers_of_headers (r := refused code m₁) hq₁ hreachable₂.ready.plugins
    hoffered rfl
  have hstatus : (refused code m₁).status.code = code := Status.code_ofCode code
  have hwithin : q₁.IsWithin q (pickedUp m) :=
    ⟨hcall, hsender, hreceiver.trans htag.symm, fun hnone => by
      rw [show q₁.headers.tag .to = "2".toList from hreceiver] at hnone
      cases hnone⟩
  have hrefusal : RefusedInvitation (.ofSettings settings) reinvitation (refusal code m₁) answered offered
      offered after q₁ (refused code m₁) :=
    ⟨hreachable₂.runsRelay, hreachable₃.runsRelay,
      PluginChain.keepsMessages_of_none hreachable₂.ready.plugins,
      PluginChain.keepsMessages_of_none hreachable₃.ready.plugins, hq₁, hinvite₁, rfl,
      by rw [hstatus]; exact hcode, ⟨m₁, destination₁, hoffered, hanswers₁⟩,
      ⟨m₁', destination₁', hrefused⟩⟩
  exact ⟨pickUp m, refusal code m₁, invited, answered, offered, after, q, pickedUp m, q₁,
    refused code m₁, ⟨hreachable, hreachable₁, hq, hinvite, rfl, ⟨m, destination, hinvited, hanswers⟩,
      ⟨m', destination', hanswered⟩, hcaller, hcallee⟩, Status.code_ofCode 200, rfl, rfl, hwithin,
    hrefusal, hstatus, hnamed, rfl, rfl⟩

/-- What is seen of the call in which an offer is refused. -/
def RefusedOffer.Seen (story : RefusedOffer) (after : Option (CallId × UInt16)) : Prop :=
  story.caller.course = some (.outgoing, "10.0.0.5".toList) ∧ story.caller.ports = portsOf 7070 ∧
    story.callee.course = some (.incoming, "192.0.2.9".toList) ∧ story.callee.ports = portsOf 7072 ∧
    story.tag = "2".toList ∧ story.before = some (.ofText "a".toList, 7070) ∧ story.after = after

instance (story : RefusedOffer) (after : Option (CallId × UInt16)) : Decidable (story.Seen after) :=
  inferInstanceAs (Decidable (_ ∧ _))

theorem exists_refusedOffer_seen :
    (∃ story, refusedOffer? 407 = some story ∧ story.Seen (some (.ofText "a".toList, 7070))) ∧
      ∃ story, refusedOffer? 488 = some story ∧ story.Seen none := by
  have hseen : ∀ {code after}, (refusedOffer? code).any (fun story => story.Seen after) = true →
      ∃ story, refusedOffer? code = some story ∧ story.Seen after := by
    intro code after h
    cases hstory : refusedOffer? code with
    | none =>
        rw [hstory] at h
        cases h
    | some story =>
        rw [hstory] at h
        exact ⟨story, rfl, of_decide_eq_true h⟩
  exact ⟨hseen (by decide +kernel), hseen (by decide +kernel)⟩

end OutgoingCall

open OutgoingCall in
/-- The general statement at the call whose offer is refused: the streams stay after a 407, and are gone
after a 488. -/
theorem refused_invitation_outgoingCall :
    (∃ t' answered offered after q r,
      RefusedInvitation (.ofSettings settings) reinvitation t' answered offered offered after q r ∧
        r.status.code = 407 ∧ answered.leg? ⟨0, 0⟩ = some (.ofText "a".toList, 7070) ∧
        after.leg? ⟨0, 0⟩ = some (.ofText "a".toList, 7070)) ∧
      ∃ t' answered offered after q r relay relay' id,
        RefusedInvitation (.ofSettings settings) reinvitation t' answered offered offered after q r ∧
          r.status.code = 488 ∧ answered.leg? ⟨0, 0⟩ = some (.ofText "a".toList, 7070) ∧
          q.headers.callId? = some id ∧ offered.relay = some relay ∧ after.relay = some relay' ∧
          Relay.Over (.ofText id) relay relay' := by
  obtain ⟨⟨story, hstory, hseen⟩, ⟨story', hstory', hseen'⟩⟩ := exists_refusedOffer_seen
  obtain ⟨hcaller, -, hcallee, -, htag, hbefore, -⟩ := hseen
  obtain ⟨hcaller', -, hcallee', -, htag', hbefore', -⟩ := hseen'
  constructor
  · obtain ⟨-, t', -, answered, offered, after, -, -, q, r, -, -, -, -, -, hrefused, hcode, -, hleg, -⟩ :=
      exists_refusedInvitation (by decide) hstory hcaller hcallee htag
    rw [hbefore] at hleg
    obtain ⟨relay, -, hw, -⟩ := World.leg?_eq_some hleg
    obtain ⟨between, hv⟩ := hrefused.exists_offered hw
    obtain ⟨id, offers, last, -, hoffered, hafter, -, hkept, -⟩ := refused_invitation hrefused hw hv
    rw [hv, Option.some.injEq] at hoffered
    subst hoffered
    have hstays := (hkept (.inr hcode)).2 (Relay.KeepsStreams.refl _)
    exact ⟨t', answered, offered, after, q, r, hrefused, hcode, hleg, hstays.leg?_eq hw hafter hleg⟩
  · obtain ⟨-, t', -, answered, offered, after, -, -, q, r, -, -, -, -, -, hrefused, hcode, hnamed, hleg,
      -⟩ := exists_refusedInvitation (by decide) hstory' hcaller' hcallee' htag'
    rw [hbefore'] at hleg
    obtain ⟨relay, -, hw, -⟩ := World.leg?_eq_some hleg
    obtain ⟨between, hv⟩ := hrefused.exists_offered hw
    obtain ⟨id, -, last, hid, -, hafter, -, -, hover⟩ := refused_invitation hrefused hw hv
    exact ⟨t', answered, offered, after, q, r, between, last, id, hrefused, hcode, hleg, hid, hv, hafter,
      hover hnamed (by rw [hcode]; decide) (by rw [hcode]; decide)⟩

open OutgoingCall in
/-- An offer within an answered call is refused with a 488, and the caller's stream, which the call had
before, is closed. -/
theorem refused_offer_closes_stream :
    ∃ t' t₁' invited answered offered after q r q₁ r₁,
      AnsweredCall (.ofSettings settings) invitation t' registered invited invited answered q r
          "10.0.0.5".toList "192.0.2.9".toList ∧
        r.status.code = 200 ∧ Sdp.portOf (invitation.relayPorts (.ofSettings settings) registered) 0 = some 7070 ∧
        Sdp.portOf (t'.relayPorts (.ofSettings settings) invited) 0 = some 7072 ∧ q₁.IsWithin q r ∧
        RefusedInvitation (.ofSettings settings) reinvitation t₁' answered offered offered after q₁ r₁ ∧
        r₁.status.code = 488 ∧ answered.leg? ⟨0, 0⟩ = some (.ofText "a".toList, 7070) ∧
        after.leg? ⟨0, 0⟩ = none := by
  obtain ⟨-, story, hstory, hcaller, hports, hcallee, hports', htag, hbefore, hafter⟩ :=
    exists_refusedOffer_seen
  obtain ⟨t', t₁', invited, answered, offered, after, q, r, q₁, r₁, hcall, hstatus, hrelayed, hrelayed',
    hwithin, hrefused, hcode, -, hleg, hlost⟩ :=
    exists_refusedInvitation (by decide) hstory hcaller hcallee htag
  refine ⟨t', t₁', invited, answered, offered, after, q, r, q₁, r₁, hcall, hstatus, ?_, ?_, hwithin,
    hrefused, hcode, hleg.trans hbefore, hlost.trans hafter⟩
  · rw [hrelayed, hports]
    rfl
  · rw [hrelayed', hports']
    rfl

end BorderProxy
