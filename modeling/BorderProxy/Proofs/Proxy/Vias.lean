import BorderProxy.Proofs.Field.Via
import BorderProxy.Proofs.Proxy.Anchored
import BorderProxy.Proofs.Proxy.LookUps

/-! The Vias of forwarded messages. A request is forwarded with the proxy's own Via above those that it
arrived with. A response that comes back with them is known by the own Via, whatever was added behind it,
and goes on with the Vias that the request arrived with. -/

namespace BorderProxy

/-! The proxy's own Via. -/

theorem Resolver.cached_text (r : Resolver) (now : Instant) (ip : Ip) : r.cached now ip.text = some ip := by
  unfold cached
  rw [Ip.readHost_text]

theorem OwnAddresses.ownsHost_text {own : OwnAddresses} {ip : Ip} (r : Resolver) (now : Instant)
    (hown : ip ∈ own.ips) : own.ownsHost (r.cached now) ip.text = true := by
  unfold ownsHost
  rw [Resolver.cached_text, Bool.or_eq_true]
  exact .inr (List.contains_iff_mem.mpr hown)

theorem ownVia_eq (ip : Ip) (port : UInt16) (branch : Text) :
    ownVia ip port branch = "SIP/2.0/UDP".toList ++ ' ' ::
      ((ip.hostText ++ ':' :: Text.decimal port.toNat) ++ ';' :: ("branch".toList ++ '=' :: branch)) := by
  have hprotocol : "SIP/2.0/UDP ".toList = "SIP/2.0/UDP".toList ++ [' '] := by decide +kernel
  have hname : ";branch=".toList = ';' :: ("branch".toList ++ ['=']) := by decide +kernel
  unfold ownVia
  rw [hprotocol, hname]
  generalize "SIP/2.0/UDP".toList = protocol
  generalize "branch".toList = name
  simp only [List.append_assoc, List.cons_append, List.nil_append]

theorem semicolon_not_mem_ownSender (ip : Ip) (port : UInt16) :
    ';' ∉ "SIP/2.0/UDP".toList ++ ' ' :: (ip.hostText ++ ':' :: Text.decimal port.toNat) := by
  have hprotocol : ';' ∉ "SIP/2.0/UDP".toList := by decide
  have hsender := Via.semicolon_not_mem_written ip port
  simp only [List.mem_append, List.mem_cons, not_or] at hsender ⊢
  exact ⟨hprotocol, by decide, hsender⟩

theorem sentBy?_ownVia (ip : Ip) (port : UInt16) (branch extra : Text) :
    Via.sentBy? (ownVia ip port branch ++ extra) = some (ip.text, some port) := by
  have hword : Text.IsWord "SIP/2.0/UDP".toList := by decide
  rw [ownVia_eq]
  generalize "SIP/2.0/UDP".toList = protocol at hword ⊢
  generalize "branch".toList = name
  have hwritten := Via.sentBy?_written hword (Via.isWord_written ip port)
    (Via.semicolon_not_mem_written ip port) (name ++ '=' :: (branch ++ extra))
  rw [Via.readSender_written] at hwritten
  simpa only [List.append_assoc, List.cons_append, List.nil_append] using hwritten

theorem Context.ipTowards_mem_ownIps (s : Settings) (direction : Direction) :
    (Context.ofSettings s).ipTowards direction ∈ (Context.ofSettings s).own.ips := by
  show _ ∈ Context.ownIps s.sip
  have hside : (Context.ofSettings s).ipTowards direction ∈
      [s.sip.inbound.address, s.sip.outbound.address] := by
    cases direction <;> simp [Context.ipTowards, Context.ofSettings]
  unfold Context.ownIps
  dsimp only
  split
  · exact hside
  · exact List.mem_append_left _ hside

/-- The proxy knows its own Via again, whatever was added behind it and whatever its resolver knows. -/
theorem ownsVia_ownVia (s : Settings) (w : World) (direction : Direction) (branch extra : Text) :
    (Context.ofSettings s).own.ownsVia w.knownHosts
      (ownVia ((Context.ofSettings s).ipTowards direction) (Context.ofSettings s).ownPort branch ++
        extra) = true := by
  have hhost : (Context.ofSettings s).own.ownsHost w.knownHosts
      ((Context.ofSettings s).ipTowards direction).text = true :=
    OwnAddresses.ownsHost_text w.resolver w.clock.now (Context.ipTowards_mem_ownIps s direction)
  unfold OwnAddresses.ownsVia
  rw [sentBy?_ownVia]
  dsimp only
  rw [hhost, Bool.and_true, beq_iff_eq]
  rfl

/-! The Vias on the way. -/

theorem without_withBody (body : List UInt8) (m : Message) :
    (m.withBody body).headers.without .contentLength = m.headers.without .contentLength := by
  cases m <;> exact Headers.without_setLast .contentLength _ _

theorem without_anchorMedia (cx : Context) (direction : Direction) (client : Text) (m : Message)
    (w : World) :
    (anchorMedia cx direction client m w).1.headers.without .contentLength =
      m.headers.without .contentLength := by
  rw [anchorMedia_eq]
  split
  · dsimp only
    split
    · rfl
    · exact without_withBody _ m
  · rfl

theorem Request.without_handled (cx : Context) (source : Endpoint) (direction : Direction)
    (registration : Option Registration) (r : Request) (w : World) :
    (r.handled cx source direction registration w).1.headers.without .contentLength =
      (r.prepared cx w direction registration).headers.without .contentLength := by
  have hanchored := without_anchorMedia cx direction (clientOf r.headers source)
    (.request (r.prepared cx w direction registration)) w
  unfold Request.handled
  cases r.method <;> first | exact hanchored | rfl

theorem Request.values_handled {n : StandardName} (hne : n ≠ .contentLength) (cx : Context)
    (source : Endpoint) (direction : Direction) (registration : Option Registration) (r : Request)
    (w : World) :
    (r.handled cx source direction registration w).1.headers.values n =
      (r.prepared cx w direction registration).headers.values n :=
  Headers.values_of_without hne (r.without_handled cx source direction registration w)

theorem Response.values_handled {n : StandardName} (hne : n ≠ .contentLength) (cx : Context)
    (source : Endpoint) (direction : Direction) (r : Response) (w : World) :
    (r.handled cx source direction w).1.headers.values n =
      (r.prepared cx w direction).headers.values n := by
  have hanchored := Headers.values_of_without hne (without_anchorMedia cx direction
    (clientOf r.headers source) (.response (r.prepared cx w direction)) w)
  unfold Response.handled
  dsimp only
  split <;> exact hanchored

theorem Context.vias_forwardHeaders (cx : Context) (method : Method) (direction : Direction)
    (branch : Text) (hs : Headers) :
    (cx.forwardHeaders method direction branch hs).vias =
      ownVia (cx.ipTowards direction) cx.ownPort branch :: hs.vias := by
  unfold Context.forwardHeaders Headers.vias
  dsimp only
  rw [Headers.values_pushAbove]
  refine congrArg (_ :: ·) ?_
  split
  · exact Headers.values_setLast_other (by decide) _ hs
  · rw [Headers.recordRoute, Headers.withRecordRoutes, Headers.values_replaceAllInFront_other (by decide)]
    exact Headers.values_setLast_other (by decide) _ hs

/-- A request is forwarded with the proxy's own Via above the others. -/
theorem Request.Passes.vias {cx : Context} {t : Ticket} {w next after : World} {r : Request}
    {direction : Direction} {registration : Option Registration} {m : Message} {destination : Endpoint}
    (h : r.Passes cx t w direction registration next m destination after) :
    m.headers.vias = ownVia (cx.ipTowards direction) cx.ownPort r.branch :: r.headers.vias := by
  rw [h.sent, Headers.vias, values_promoteStrictRoute (by decide), Request.values_handled (by decide)]
  show (cx.forwardHeaders _ _ _ _).vias = _
  rw [cx.vias_forwardHeaders, Headers.vias, Headers.values_presentContact (by decide), headers_aimAt]
  rfl

/-- A forwarded request keeps the values of the names that no edit concerns. -/
theorem Request.Passes.values {cx : Context} {t : Ticket} {w next after : World} {q : Request}
    {direction : Direction} {registration : Option Registration} {m : Message} {destination : Endpoint}
    (h : (q.received cx w t.source).Passes cx t w direction registration next m destination after)
    {n : StandardName} (hn : n.isKept = true) (hlength : n ≠ .contentLength) :
    m.headers.values n = q.headers.values n := by
  have hroute : n ≠ .route := by
    rintro rfl
    cases hn
  rw [h.sent, values_promoteStrictRoute hroute, Request.values_handled hlength,
    Request.values_prepared cx w next t.source direction registration q hn]

theorem Request.vias_received (cx : Context) (w : World) (source : Endpoint) (r : Request) :
    (r.received cx w source).headers.vias = (r.headers.stamp source).vias :=
  Headers.values_stripRoutes (by decide) _ _ _

theorem Request.maxForwards?_received (cx : Context) (w : World) (source : Endpoint) (r : Request) :
    (r.received cx w source).headers.maxForwards? = r.headers.maxForwards? := by
  rw [received, Headers.maxForwards?, Headers.maxForwards?, Headers.number?, Headers.number?,
    Headers.values_stripRoutes (by decide), Headers.values_stamp (by decide)]

/-- A response goes on without the Via that it came back to. -/
theorem Response.vias_handled (cx : Context) (source : Endpoint) (direction : Direction) (r : Response)
    (w : World) :
    (r.received.handled cx source direction w).1.headers.vias = r.headers.vias.tail := by
  rw [Headers.vias, Response.values_handled (by decide)]
  unfold Response.prepared
  dsimp only
  rw [Headers.values_presentContact (by decide), Headers.values_faceRecordRoutes (by decide)]
  exact Headers.values_eraseFirst .via r.headers

/-! Responses to forwarded requests. -/

theorem Ticket.sentOn_ne_foreignVia (t : Ticket) (registration : Registration)
    (handled : Message × World) : (t.sentOn registration handled).1 ≠ .drop .foreignVia := by
  unfold Ticket.sentOn
  split
  · exact fun h => by cases h
  · dsimp only
    cases (responseTarget handled.1.headers registration handled.2).1 <;> exact fun h => by cases h

theorem route_ne_foreignVia {cx : Context} {t : Ticket} {r : Response} (hmessage : t.message = .response r)
    {w : World} (hplugins : w.plugins.plugins = [])
    (hown : (r.headers.topVia?.map (cx.own.ownsVia w.knownHosts)).getD false = true) :
    (route cx t w).1 ≠ .drop .foreignVia := by
  cases hcomplete : t.message.headers.checkComplete with
  | error fault =>
      rw [route_of_incomplete cx hcomplete]
      exact fun h => by cases h
  | ok u =>
      rw [route_of_complete cx hcomplete, hmessage]
      dsimp only
      rw [processResponse_of_own hmessage hplugins hown]
      split
      · exact fun h => by cases h
      · exact t.sentOn_ne_foreignVia _ _

/-- Where a response goes that comes in for a registration, with the Via of a request below the proxy's
own: along that Via, or else along the one that the registration was made with. -/
def World.wayBack? (w : World) (hs : Headers) (found : Registration) : Option Endpoint :=
  (w.replyEndpoint? hs.topVia?).or (w.replyEndpoint? found.returnVia)

/-- A response whose media are handled is targeted along the way back of the Vias below its topmost one, as
it was before its media were. -/
theorem Response.target_handled (cx : Context) (source : Endpoint) (direction : Direction) {r : Response}
    {hs : Headers} (hbelow : r.headers.vias.tail = hs.vias) (found : Registration) (w : World) :
    (responseTarget (r.received.handled cx source direction w).1.headers found
      (r.received.handled cx source direction w).2).1.toOption = w.wayBack? hs found := by
  have hvias := r.vias_handled cx source direction w
  have hlooks := r.received.looksUpAs_handled cx source direction w
  rw [responseTarget_toOption, Headers.topVia?_congr (hvias.trans hbelow), hlooks.replyEndpoint?_eq,
    hlooks.replyEndpoint?_eq, World.wayBack?]

/-- A response that comes back with the Vias of a message; on the way, text may have been added behind the
topmost one. -/
def Response.ReturnsTo (m : Message) (r : Response) : Prop :=
  ∃ top extra below, m.headers.vias = top :: below ∧ r.headers.vias = (top ++ extra) :: below

section

variable {s : Settings} {t t' : Ticket} {q : Request} {r : Response} {w after w' : World} {m : Message}
  {destination : Endpoint}

/-- A response that comes back to a forwarded request is known by the proxy's own Via, and the Vias below
are those that the request arrived with. -/
theorem Response.ReturnsTo.spec (hq : t.message = .request q) (hplugins : w.plugins.plugins = [])
    (hroute : route (.ofSettings s) t w = (.forward m destination, after)) (hreturns : r.ReturnsTo m)
    (w' : World) :
    (r.headers.topVia?.map ((Context.ofSettings s).own.ownsVia w'.knownHosts)).getD false = true ∧
      r.headers.vias.tail = (q.headers.stamp t.source).vias := by
  obtain ⟨direction, registration, next, hpasses⟩ := request_passes hq hplugins hroute
  have hvias := hpasses.vias
  rw [Request.vias_received] at hvias
  obtain ⟨top, extra, below, hm, hr⟩ := hreturns
  obtain ⟨rfl, rfl⟩ := List.cons.inj (hm.symm.trans hvias)
  refine ⟨?_, by rw [hr, List.tail_cons]⟩
  rw [Headers.topVia?_eq_head?, hr, List.head?_cons, Option.map_some, Option.getD_some]
  exact ownsVia_ownVia s w' direction _ extra

theorem Response.returnsTo_of_headers (hq : t.message = .request q) (hplugins : w.plugins.plugins = [])
    (hroute : route (.ofSettings s) t w = (.forward m destination, after)) (hr : r.headers = m.headers) :
    r.ReturnsTo m := by
  obtain ⟨direction, registration, next, hpasses⟩ := request_passes hq hplugins hroute
  exact ⟨_, [], _, hpasses.vias, by rw [hr, List.append_nil]; exact hpasses.vias⟩

/-- Whatever happened in between, a response that comes back with the Vias of a forwarded request is taken
for the proxy's own; where it is forwarded, it has the Vias that the request arrived with, its source noted
in the topmost one, and goes where that one says if its host can be looked up. -/
theorem route_unwinds_vias (hq : t.message = .request q) (hplugins : w.plugins.plugins = [])
    (hroute : route (.ofSettings s) t w = (.forward m destination, after))
    (hr : t'.message = .response r) (hhop : t'.nextHop = none) (hplugins' : w'.plugins.plugins = [])
    (hreturns : r.ReturnsTo m) :
    (route (.ofSettings s) t' w').1 ≠ .drop .foreignVia ∧
      ∀ m' destination' after', route (.ofSettings s) t' w' = (.forward m' destination', after') →
        m'.headers.vias = (q.headers.stamp t.source).vias ∧
          ∀ endpoint, w'.replyEndpoint? (q.headers.stamp t.source).topVia? = some endpoint →
            destination' = endpoint := by
  obtain ⟨hown, hbelow⟩ := hreturns.spec hq hplugins hroute w'
  refine ⟨route_ne_foreignVia hr hplugins' hown, fun m' destination' after' hroute' => ?_⟩
  obtain ⟨direction, registration, hpasses⟩ := response_passes hr hplugins' hroute'
  have hvias : m'.headers.vias = (q.headers.stamp t.source).vias := by
    rw [hpasses.sent, Response.vias_handled, hbelow]
  refine ⟨hvias, fun endpoint hendpoint => ?_⟩
  have hsent := hpasses.target
  have htarget := r.target_handled (.ofSettings s) t'.source direction hbelow registration w'
  rw [hhop] at hsent
  rw [← hpasses.sent, hsent, World.wayBack?, hendpoint] at htarget
  exact Option.some.inj htarget

end

namespace OutgoingCall

theorem reachable_registered : registered.Reachable (.ofSettings settings) :=
  ⟨settings, {}, ⟨0, 0⟩, 1, [.message registration], rfl⟩

/-- The answer of the called party to a message that reaches it. -/
def answer (m : Message) : Response := ⟨.two, .ofCode 200, m.headers, []⟩

def answered (m : Message) : Ticket := { message := .response (answer m), source := ⟨.v4 192 0 2 9, 5060⟩ }

end OutgoingCall

open OutgoingCall in
theorem unwinds_outgoingCall :
    ∃ m destination after m' destination' after',
      route (.ofSettings settings) invitation registered = (.forward m destination, after) ∧
        route (.ofSettings settings) (answered m) after = (.forward m' destination', after') ∧
          m'.headers.vias = ["SIP/2.0/UDP 10.0.0.5;branch=z9hG4bK1".toList] ∧ destination' = party := by
  have hfacts :
      let result := route (.ofSettings settings) invitation registered
      result.1.forwarded?.isSome ∧
        (result.1.forwarded?.bind fun sent =>
          (route (.ofSettings settings) (answered sent.1) result.2).1.forwarded?).isSome ∧
        result.2.replyEndpoint? (some "SIP/2.0/UDP 10.0.0.5;branch=z9hG4bK1".toList) = some party := by
    decide +kernel
  have hreachable := reachable_registered
  have hplugins := (hreachable.route invitation).ready.plugins
  rcases hroute : route (.ofSettings settings) invitation registered with ⟨outcome, after⟩
  rw [hroute] at hfacts hplugins
  obtain ⟨hforwarded, hanswered, hendpoint⟩ := hfacts
  obtain ⟨m, destination, rfl⟩ := Routed.exists_of_forwarded hforwarded
  obtain ⟨m', destination', hanswer⟩ := Routed.exists_of_forwarded hanswered
  rcases hroute' : route (.ofSettings settings) (answered m) after with ⟨outcome', after'⟩
  obtain rfl : outcome' = .forward m' destination' := by rw [hroute'] at hanswer; exact hanswer
  have hreturns := Response.returnsTo_of_headers (r := answer m) rfl hreachable.ready.plugins hroute rfl
  have hresponse : (answered m).message = .response (answer m) := rfl
  obtain ⟨-, hunwinds⟩ := route_unwinds_vias rfl hreachable.ready.plugins hroute hresponse rfl hplugins
    hreturns
  obtain ⟨hvias, hdestination⟩ := hunwinds m' destination' after' hroute'
  exact ⟨m, destination, after, m', destination', after', rfl, hroute', hvias,
    hdestination party hendpoint⟩

end BorderProxy
