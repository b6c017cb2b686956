import BorderProxy.Field.CommaList
import BorderProxy.Proofs.Proxy.Commands
import BorderProxy.Proofs.Proxy.Contacts

/-! Contacts of forwarded messages. In a message that goes out the first Contact is rewritten, as far as its
first URI, for the first binding that reaches it, whatever its port; all other Contacts go out as they
came. So a message with one contact, of a user agent that shares its host with no other, hides it, and
others need not. -/

namespace BorderProxy

namespace Registrations

/-- A Contact value as it goes out. -/
def presentedValue (known : KnownHosts) (now : Instant) (t : Registrations) (value : Text) : Text :=
  match NameAddr.uri? value with
  | none => value
  | some contact =>
    match t.reachedAt? known now contact with
    | none => value
    | some found =>
      if found.presented.hostPort = contact.hostPort then value
      else NameAddr.replaceUri value (found.outward contact)

/-- A binding to the very place of a contact is reached by it, though the first one reached may be
another. -/
theorem reachedAt?_of_samePlace {known : KnownHosts} {now : Instant} {t : Registrations} {r : Registration}
    {contact : Uri} (hr : r ∈ t.current now) (hplace : Uri.samePlace known r.contact contact = true) :
    ∃ front found back, t.reachedAt? known now contact = some found ∧
      t.current now = front ++ found :: back ∧ found.isReachedAt known contact = true ∧
      (∀ r' ∈ front, r'.isReachedAt known contact = false) ∧ (found = r ∨ r ∈ back) := by
  have hreached : r.isReachedAt known contact = true := by
    unfold Registration.isReachedAt Uri.samePartyPinned
    rw [(Bool.and_eq_true_iff.mp hplace).1, Bool.true_or]
  unfold reachedAt?
  cases hfound : (t.current now).find? (Registration.isReachedAt known contact) with
  | none => exact absurd hreached (List.find?_eq_none.mp hfound r hr)
  | some found =>
      obtain ⟨hfirst, front, back, hsplit, hfront⟩ := List.find?_eq_some_iff_append.mp hfound
      refine ⟨front, found, back, rfl, hsplit, hfirst, fun r' hr' => by simpa using hfront r' hr', ?_⟩
      rw [hsplit] at hr
      rcases List.mem_append.mp hr with hmem | hmem
      · have hnot := hfront r hmem
        rw [hreached] at hnot
        cases hnot
      · exact (List.mem_cons.mp hmem).imp Eq.symm id

end Registrations

/-- Presenting the contact of a message that goes out rewrites the value of its first Contact. -/
theorem Headers.values_presentContact_outgoing (known : KnownHosts) (now : Instant) (t : Registrations)
    (hs : Headers) :
    (presentContact known now t .outgoing hs).values .contact =
      (hs.values .contact).modifyHead (t.presentedValue known now) := by
  have hcontact : hs.contactUri? = ((hs.values .contact).head?).bind NameAddr.uri? := by
    rw [Headers.contactUri?, Headers.value?_eq_head?]
  cases hvalues : hs.values .contact with
  | nil =>
      rw [hvalues] at hcontact
      unfold presentContact
      rw [hcontact]
      exact hvalues
  | cons value others =>
      rw [hvalues] at hcontact
      unfold presentContact
      rw [List.modifyHead_cons, hcontact]
      unfold Registrations.presentedValue Registrations.reachedAt?
      dsimp only [List.head?_cons, Option.bind_some]
      cases NameAddr.uri? value with
      | none => exact hvalues
      | some contact =>
          dsimp only
          cases (t.current now).find? (Registration.isReachedAt known contact) with
          | none => exact hvalues
          | some found =>
              dsimp only [Option.map_some]
              split
              · exact hvalues
              · unfold Headers.withContactUri
                rw [Headers.value?_eq_head?, hvalues]
                dsimp only [List.head?_cons]
                rw [Headers.values_replaceFirst, hvalues]
                rfl

/-! Messages. -/

def Course.direction : Course → Direction
  | .request c => c.direction
  | .response c => c.direction

/-- The world in which the course of a message is settled. -/
def Ticket.settledWorld (cx : Context) (w : World) (t : Ticket) : World :=
  match t.message with
  | .request _ => (settleRequest cx t w).2
  | .response _ => (settleResponse cx t w).2

/-- The Contact values of a message that goes out. -/
def World.presentedContacts (w : World) (hs : Headers) : List Text :=
  (hs.values .contact).modifyHead (w.registrations.presentedValue w.knownHosts w.clock.now)

section

variable {cx : Context} {t : Ticket} {w after : World} {m : Message} {destination : Endpoint}

theorem Request.Passes.settled {q : Request} (hmessage : t.message = .request q)
    (hplugins : w.plugins.plugins = []) {direction : Direction} {registration : Option Registration}
    {next : World}
    (h : (q.received cx w t.source).Passes cx t w direction registration next m destination after) :
    ∃ c, settleRequest cx t w = (.ok c, next) ∧ c.direction = direction := by
  have hnext := no_plugins_of_directed h.directed hplugins
  unfold settleRequest
  rw [processing_bind, receiveRequest_eq cx hmessage hplugins]
  dsimp only
  rw [processing_bind, h.checked]
  dsimp only
  rw [processing_bind, h.directed]
  dsimp only
  rw [processing_bind, consult_of_no_plugins _ _ hnext]
  exact ⟨_, rfl, rfl⟩

theorem Response.Passes.settled {r : Response} (hmessage : t.message = .response r)
    (hplugins : w.plugins.plugins = []) {direction : Direction} {registration : Registration}
    (h : r.Passes cx t w direction registration m destination after) :
    ∃ c, settleResponse cx t w = (.ok c, w) ∧ c.direction = direction := by
  have hreceived := receiveResponse_eq cx hmessage hplugins
  rw [if_pos h.own] at hreceived
  unfold settleResponse
  rw [processing_bind, hreceived]
  dsimp only
  rw [processing_bind, processing_get]
  dsimp only
  rw [h.directed]
  dsimp only
  rw [processing_bind, consult_of_no_plugins _ _ hplugins]
  exact ⟨_, rfl, rfl⟩

/-- The course of a request that is no REGISTER is settled in the world that it arrives in. -/
theorem Ticket.settledWorld_of_forward {q : Request} (hmessage : t.message = .request q)
    (hmethod : q.method ≠ .register) (hplugins : w.plugins.plugins = [])
    (hroute : route cx t w = (.forward m destination, after)) : t.settledWorld cx w = w := by
  obtain ⟨direction, registration, next, hpasses⟩ := request_passes hmessage hplugins hroute
  obtain ⟨rfl, -⟩ := hpasses.course hmessage hmethod
  obtain ⟨c, hcourse, -⟩ := hpasses.settled hmessage hplugins
  unfold settledWorld
  rw [hmessage, hcourse]

theorem Request.contacts_handled (cx : Context) (source : Endpoint) (registration : Option Registration)
    (r : Request) (v : World) :
    (r.handled cx source .outgoing registration v).1.headers.values .contact =
      v.presentedContacts r.headers := by
  rw [Request.values_handled (by decide)]
  show (cx.forwardHeaders _ _ _ (presentContact _ _ _ _ _)).values .contact = _
  rw [Headers.values_forwardHeaders (by decide), Headers.values_presentContact_outgoing, headers_aimAt]
  rfl

theorem Response.contacts_handled (cx : Context) (source : Endpoint) (r : Response) (v : World) :
    (r.handled cx source .outgoing v).1.headers.values .contact = v.presentedContacts r.headers := by
  rw [Response.values_handled (by decide)]
  unfold Response.prepared
  dsimp only
  rw [Headers.values_presentContact_outgoing, Headers.values_faceRecordRoutes (by decide)]
  rfl

/-- A message that goes out has the Contacts that it came with, the first one as it is presented. -/
theorem contacts_of_forward (hplugins : w.plugins.plugins = [])
    (hroute : route cx t w = (.forward m destination, after)) {course : Course}
    (hsettled : t.settled? cx w = some course) (hdirection : course.direction = .outgoing) :
    m.headers.values .contact = (t.settledWorld cx w).presentedContacts t.message.headers := by
  obtain ⟨hcomplete, -⟩ := route_eq_forward hroute
  unfold Ticket.settledWorld
  rw [Ticket.settled?, hcomplete] at hsettled
  cases hmessage : t.message with
  | request q =>
      obtain ⟨direction, registration, next, hpasses⟩ := request_passes hmessage hplugins hroute
      obtain ⟨c, hcourse, rfl⟩ := hpasses.settled hmessage hplugins
      rw [hmessage, hcourse] at hsettled
      obtain rfl := Option.some.inj hsettled
      have hout : c.direction = .outgoing := hdirection
      rw [hcourse, hpasses.sent, values_promoteStrictRoute (by decide), hout, Request.contacts_handled]
      have hcontacts : (q.received cx w t.source).headers.values .contact = q.headers.values .contact := by
        unfold Request.received
        rw [Headers.values_stripRoutes (by decide), Headers.values_stamp (by decide)]
      exact congrArg (List.modifyHead _) hcontacts
  | response r =>
      obtain ⟨direction, registration, hpasses⟩ := response_passes hmessage hplugins hroute
      obtain ⟨c, hcourse, rfl⟩ := hpasses.settled hmessage hplugins
      rw [hmessage, hcourse] at hsettled
      obtain rfl := Option.some.inj hsettled
      have hout : c.direction = .outgoing := hdirection
      rw [hcourse, hpasses.sent, hout, Response.contacts_handled]
      exact congrArg (List.modifyHead _) (Headers.values_eraseFirst_other (by decide) r.headers)

end

/-- A message that goes out has the Contacts that it came with, but for the first one. If the first URI of
that is the place of an unexpired binding, it goes out with the place that the first binding presents which
it reaches, whatever its port: the binding itself, or one before it. -/
theorem first_contact_presented {cx : Context} {t : Ticket} {w after : World} {m : Message}
    {destination : Endpoint} (hplugins : w.plugins.plugins = [])
    (hroute : route cx t w = (.forward m destination, after)) {course : Course}
    (hsettled : t.settled? cx w = some course) (hdirection : course.direction = .outgoing)
    {value : Text} {others : List Text} (hvalues : t.message.headers.values .contact = value :: others)
    {contact : Uri} (hcontact : NameAddr.uri? value = some contact) {v : World}
    (hworld : t.settledWorld cx w = v) {r : Registration}
    (hr : r ∈ v.registrations.current v.clock.now)
    (hplace : Uri.samePlace v.knownHosts r.contact contact = true) :
    ∃ front found back, v.registrations.current v.clock.now = front ++ found :: back ∧
      found.isReachedAt v.knownHosts contact = true ∧
      (∀ r' ∈ front, r'.isReachedAt v.knownHosts contact = false) ∧ (found = r ∨ r ∈ back) ∧
      m.headers.values .contact =
        (if found.presented.hostPort = contact.hostPort then value
          else NameAddr.replaceUri value (found.outward contact)) :: others := by
  obtain ⟨front, found, back, hfound, hsplit, hfirst, hfront, hwhere⟩ :=
    Registrations.reachedAt?_of_samePlace hr hplace
  refine ⟨front, found, back, hsplit, hfirst, hfront, hwhere, ?_⟩
  rw [contacts_of_forward hplugins hroute hsettled hdirection, hworld, World.presentedContacts, hvalues,
    List.modifyHead_cons]
  unfold Registrations.presentedValue
  rw [hcontact]
  dsimp only
  rw [hfound]

/-! Contacts that are not hidden. -/

/-- The URIs of all elements of all Contact fields. -/
def Headers.contactUris (hs : Headers) : List Uri :=
  ((hs.values .contact).flatMap CommaList.items).filterMap NameAddr.uri?

/-- Whether every contact of a message at the very place of a binding has gone out with the place that
such a binding presents. -/
def World.Hides (v : World) (arrived sent : Headers) : Prop :=
  ∀ contact ∈ arrived.contactUris,
    (∃ r ∈ v.registrations.current v.clock.now, Uri.samePlace v.knownHosts r.contact contact = true) →
      ∃ r ∈ v.registrations.current v.clock.now,
        Uri.samePlace v.knownHosts r.contact contact = true ∧ r.outward contact ∈ sent.contactUris

instance (v : World) (arrived sent : Headers) : Decidable (v.Hides arrived sent) :=
  inferInstanceAs (Decidable (∀ _ ∈ _, _))

namespace SharedHost

open OutgoingCall (settings party field hostUri)

def ticket (method : Method) (host : Ip) (fields : Headers) : Ticket :=
  { message := .request
      { method := method
        uri := hostUri host
        version := .two
        headers :=
          [field .via "SIP/2.0/UDP 10.0.0.5;branch=z9hG4bK1", field .from "<sip:alice@a.example>;tag=1",
            field .callId "a"] ++ fields
        body := [] }
    source := party }

/-- The registration of a contact for a party, with the proxy itself. -/
def registration (registered contact : String) : Ticket :=
  ticket .register (.v4 192 0 2 1)
    [field .to registered, field .contact contact, field .cseq "1 REGISTER"]

/-- The world in which a user of two domains has a contact on one host for each, and another user one on
another host. -/
def world : World :=
  (World.initial settings [] {} ⟨0, 0⟩ 1).run (.ofSettings settings)
    [.message (registration "<sip:alice@a.example>" "<sip:alice@10.0.0.5>"),
      .message (registration "<sip:alice@b.example>" "<sip:alice@10.0.0.5:5070>"),
      .message (registration "<sip:bob@a.example>" "<sip:bob@10.0.0.6>")]

/-- A query that goes out with Contacts. -/
def query (contacts : List String) : Ticket :=
  ticket .options (.v4 192 0 2 9)
    ([field .to "<sip:carol@192.0.2.9>", field .cseq "2 OPTIONS"] ++ contacts.map (field .contact))

/-- A query that goes out without hiding its contacts. -/
def Leaks (contacts : List String) : Prop :=
  ∃ sent ∈ (route (.ofSettings settings) (query contacts) world).1.forwarded?,
    ((query contacts).settled? (.ofSettings settings) world).map Course.direction = some .outgoing ∧
      ¬World.Hides ((query contacts).settledWorld (.ofSettings settings) world)
        (query contacts).message.headers sent.1.headers

instance (contacts : List String) : Decidable (Leaks contacts) :=
  inferInstanceAs (Decidable (∃ _ ∈ _, _))

end SharedHost

open SharedHost in
open OutgoingCall (settings) in
/-- The first contact goes out as the first binding presents it, the second one as it came. -/
theorem first_contact_presented_query :
    ∃ m destination after contact found,
      route (.ofSettings settings) (query ["<sip:alice@10.0.0.5>;q=1", "<sip:bob@10.0.0.6>"]) world =
          (.forward m destination, after) ∧
        found ∈ world.registrations.current world.clock.now ∧
        found.isReachedAt world.knownHosts contact = true ∧
        m.headers.values .contact =
          (if found.presented.hostPort = contact.hostPort then "<sip:alice@10.0.0.5>;q=1".toList
            else NameAddr.replaceUri "<sip:alice@10.0.0.5>;q=1".toList (found.outward contact)) ::
              ["<sip:bob@10.0.0.6>".toList] ∧
        m.headers.values .contact = ["<sip:alice@a.example>;q=1".toList, "<sip:bob@10.0.0.6>".toList] := by
  have hfacts :
      ∃ sent ∈ (route (.ofSettings settings) (query ["<sip:alice@10.0.0.5>;q=1", "<sip:bob@10.0.0.6>"])
          world).1.forwarded?,
        sent.1.headers.values .contact =
            ["<sip:alice@a.example>;q=1".toList, "<sip:bob@10.0.0.6>".toList] ∧
          ∃ course ∈ (query ["<sip:alice@10.0.0.5>;q=1", "<sip:bob@10.0.0.6>"]).settled?
              (.ofSettings settings) world,
            course.direction = .outgoing ∧
              ∃ contact ∈ NameAddr.uri? "<sip:alice@10.0.0.5>;q=1".toList,
                ∃ r ∈ world.registrations.current world.clock.now,
                  Uri.samePlace world.knownHosts r.contact contact = true := by
    decide +kernel
  obtain ⟨⟨m, destination⟩, hsent, hpresented, course, hsettled, hdirection, contact, hcontact, r, hr,
    hplace⟩ := hfacts
  rcases hroute : route (.ofSettings settings)
    (query ["<sip:alice@10.0.0.5>;q=1", "<sip:bob@10.0.0.6>"]) world with ⟨outcome, after⟩
  rw [hroute] at hsent
  obtain rfl := Routed.forwarded?_eq_some_iff.mp hsent
  have hplugins : world.plugins.plugins = [] := by decide +kernel
  obtain ⟨front, found, back, hsplit, hreached, -, -, hvalues⟩ :=
    first_contact_presented hplugins hroute hsettled hdirection rfl hcontact
      (Ticket.settledWorld_of_forward rfl (by decide) hplugins hroute) hr hplace
  exact ⟨m, destination, after, contact, found, rfl, by rw [hsplit]; simp, hreached, hvalues, hpresented⟩

open SharedHost in
/-- The contacts in a second field, in a second element of a field, and of a party that shares its host with
another are not hidden. -/
theorem contacts_leak :
    Leaks ["<sip:alice@10.0.0.5>", "<sip:bob@10.0.0.6>"] ∧
      Leaks ["<sip:alice@10.0.0.5>, <sip:bob@10.0.0.6>"] ∧ Leaks ["<sip:alice@10.0.0.5:5070>"] :=
  ⟨by decide +kernel, by decide +kernel, by decide +kernel⟩

end BorderProxy
