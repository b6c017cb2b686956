import BorderProxy.Proofs.Proxy.Hops

/-! What forwarding does to a request. The proxy writes its own Via above the others, counts the hop and
records itself; the fields by which requests are routed may change, and those that describe the body where
media are anchored. All other fields go on as they came: the same names and values, as often as they came
and in the same order. -/

namespace BorderProxy

/-- The Record-Routes with which a request of a method is forwarded from an address. -/
def Context.recorded (cx : Context) (ip : Ip) (method : Method) (routes : List Text) : List Text :=
  if method = .register then routes else ownRecordRoute ip cx.ownPort :: routes

/-- A request that counts one hop less than the first Max-Forwards of another that could be read, or that
counts from the default where none could. -/
def Request.CountsDown (q f : Request) : Prop :=
  ∃ n : UInt32, f.headers.values .maxForwards = [Text.decimal n.toNat] ∧
    match q.headers.maxForwards? with
    | some given => given.toNat = n.toNat + 1
    | none => n = defaultHops

/-- The names of the fields that forwarding a request may change. -/
def forwardedNames : List StandardName := .contentLength :: routingNames

/-- How a request is forwarded from an address, beside how it came from its source. -/
structure Request.ForwardedAs (cx : Context) (source : Endpoint) (ip : Ip) (q f : Request) : Prop where
  vias : ∃ branch, f.headers.vias = ownVia ip cx.ownPort branch :: (q.headers.stamp source).vias
  hops : q.CountsDown f
  recordRoutes : f.headers.recordRoutes = cx.recorded ip q.method q.headers.recordRoutes
  others : f.headers.apartFrom forwardedNames = q.headers.apartFrom forwardedNames

/-- A request that is forwarded with the body that it came with, and with what its fields say of it. -/
structure Request.KeepsBody (q f : Request) : Prop where
  body : f.body = q.body
  contentLength : f.headers.values .contentLength = q.headers.values .contentLength
  others : f.headers.apartFrom routingNames = q.headers.apartFrom routingNames

theorem Context.recordRoutes_forwardHeaders (cx : Context) (method : Method) (direction : Direction)
    (branch : Text) (hs : Headers) :
    (cx.forwardHeaders method direction branch hs).recordRoutes =
      cx.recorded (cx.ipTowards direction) method hs.recordRoutes := by
  have hcounted : ∀ n, (hs.withMaxForwards n).recordRoutes = hs.recordRoutes :=
    fun _ => Headers.values_setLast_other (by decide) _ hs
  unfold Context.forwardHeaders Context.recorded
  dsimp only
  rw [Headers.recordRoutes, Headers.values_pushAbove_other (by decide)]
  split
  · exact hcounted _
  · rw [Headers.recordRoute, Headers.withRecordRoutes, Headers.values_replaceAllInFront, hcounted]

section

variable {cx : Context} {t : Ticket} {w next after : World} {q : Request} {direction : Direction}
  {registration : Option Registration} {m : Message} {destination : Endpoint}

theorem Request.Passes.recordRoutes
    (h : (q.received cx w t.source).Passes cx t w direction registration next m destination after) :
    m.headers.recordRoutes = cx.recorded (cx.ipTowards direction) q.method q.headers.recordRoutes := by
  rw [h.sent, Headers.recordRoutes, values_promoteStrictRoute (by decide),
    Request.values_handled (by decide)]
  show (cx.forwardHeaders _ _ _ _).recordRoutes = _
  rw [cx.recordRoutes_forwardHeaders, Headers.recordRoutes, Headers.values_presentContact (by decide),
    Request.headers_aimAt, Request.received, Headers.values_stripRoutes (by decide),
    Headers.values_stamp (by decide), Headers.recordRoutes]

theorem Request.Passes.countsDown {f : Request} (hf : m = .request f)
    (h : (q.received cx w t.source).Passes cx t w direction registration next m destination after) :
    q.CountsDown f := by
  obtain ⟨hleft, n, hvalues, hn⟩ := h.hops
  rw [hf] at hvalues
  refine ⟨n, hvalues, ?_⟩
  unfold Headers.hopsLeft at hleft hn
  cases hgiven : q.headers.maxForwards? with
  | some given =>
      rw [hgiven] at hleft hn
      dsimp only at hleft hn ⊢
      omega
  | none =>
      rw [hgiven] at hn
      exact UInt32.toNat_inj.mp hn

/-- The fields with other names are those of the received request. -/
theorem Request.Passes.apartFrom {names : List StandardName} (hnames : routingNames ⊆ names)
    (h : (q.received cx w t.source).Passes cx t w direction registration next m destination after)
    (hhandled : ((q.received cx w t.source).handled cx t.source direction registration next).1.headers.apartFrom
        names =
      ((q.received cx w t.source).prepared cx next direction registration).headers.apartFrom names) :
    m.headers.apartFrom names = q.headers.apartFrom names := by
  calc m.headers.apartFrom names
      = ((q.received cx w t.source).handled cx t.source direction registration next).1.headers.apartFrom
          names := by
        rw [h.sent]
        exact Headers.apartFrom_of_without (hnames (by decide)) (without_promoteStrictRoute _)
    _ = ((q.received cx w t.source).prepared cx next direction registration).headers.apartFrom names :=
        hhandled
    _ = q.headers.apartFrom names := q.apartFrom_prepared hnames cx w next t.source direction registration

theorem anchorMedia_of_none {client : Text}
    (hnone : (anchorPorts cx direction client m w).all Option.isNone = true) :
    (anchorMedia cx direction client m w).1 = m := by
  unfold anchorPorts at hnone
  rw [anchorMedia_eq]
  split
  · rename_i hrelay hdescription
    rw [hrelay, hdescription] at hnone
    exact if_pos hnone
  · rfl

/-- A request whose media are not anchored goes through them as it is. -/
theorem Request.handled_of_unanchored {r : Request}
    (h : r.method ≠ .invite ∧ r.method ≠ .ack ∧ r.method ≠ .update) (source : Endpoint) :
    (r.handled cx source direction registration w).1 =
      .request (r.prepared cx w direction registration) := by
  obtain ⟨hinvite, hack, hupdate⟩ := h
  unfold Request.handled handleMedia
  cases hmethod : r.method with
  | invite => exact absurd hmethod hinvite
  | ack => exact absurd hmethod hack
  | update => exact absurd hmethod hupdate
  | _ => rfl

/-- Where no section is given a port, a request goes through media as it is. -/
theorem Request.Passes.handled_of_none (hq : t.message = .request q)
    (h : (q.received cx w t.source).Passes cx t w direction registration next m destination after)
    (hnone : (t.relayPorts cx w).all Option.isNone = true) :
    ((q.received cx w t.source).handled cx t.source direction registration next).1 =
      .request ((q.received cx w t.source).prepared cx next direction registration) := by
  cases hmay : t.message.mayAnchor with
  | false =>
      have hmethod : q.method ≠ .invite ∧ q.method ≠ .ack ∧ q.method ≠ .update := by
        rw [hq] at hmay
        simpa [Message.mayAnchor, and_assoc] using hmay
      exact Request.handled_of_unanchored (r := q.received cx w t.source) hmethod t.source
  | true =>
      have hmethod : q.method = .invite ∨ q.method = .ack ∨ q.method = .update := by
        rw [hq] at hmay
        simpa [Message.mayAnchor, or_assoc] using hmay
      have hregister : q.method ≠ .register := by
        intro heq
        simp [heq] at hmethod
      obtain ⟨rfl, hcourse⟩ := h.course hq hregister
      unfold Ticket.relayPorts at hnone
      rw [hcourse] at hnone
      dsimp only at hnone
      rw [hmay, if_pos rfl, hq, ← anchorPorts_congr cx direction _
        (q.description?_prepared cx next next t.source direction registration)] at hnone
      rw [Request.handled_of_mayAnchor (r := q.received cx next t.source) hmethod]
      exact anchorMedia_of_none hnone

theorem Request.Passes.keepsBody (hq : t.message = .request q) {f : Request} (hf : m = .request f)
    (h : (q.received cx w t.source).Passes cx t w direction registration next m destination after)
    (hnone : (t.relayPorts cx w).all Option.isNone = true) : q.KeepsBody f := by
  have hhandled := h.handled_of_none hq hnone
  have hothers := h.apartFrom (List.Subset.refl routingNames) (by rw [hhandled]; rfl)
  have hbody : m.body = q.body := by
    rw [h.sent, body_promoteStrictRoute, hhandled]
    exact Request.body_prepared cx next direction registration _
  rw [hf] at hothers hbody
  exact ⟨hbody, Headers.values_of_apartFrom hothers (by decide), hothers⟩

end

/-- A request that is forwarded without plugins has the proxy's Via above its own, whose topmost one notes
the source; it counts one hop less, and the proxy is recorded above its Record-Routes unless it is a
REGISTER. But for these, Route, Contact and Content-Length its fields go on as they came; and where no
section of its description is given a port, so do its Content-Length and its body. -/
theorem route_frames_request {cx : Context} {t : Ticket} {q : Request} (hq : t.message = .request q)
    {w after : World} (hplugins : w.plugins.plugins = []) {m : Message} {destination : Endpoint}
    (hroute : route cx t w = (.forward m destination, after)) :
    ∃ f direction, m = .request f ∧ q.ForwardedAs cx t.source (cx.ipTowards direction) f ∧
      ((t.relayPorts cx w).all Option.isNone = true → q.KeepsBody f) := by
  obtain ⟨direction, registration, next, hpasses⟩ := request_passes hq hplugins hroute
  obtain ⟨f, hf, -⟩ := hpasses.target
  have hvias := hpasses.vias
  rw [Request.vias_received] at hvias
  have hothers := hpasses.apartFrom (List.subset_cons_self .contentLength routingNames)
    (Headers.apartFrom_of_without List.mem_cons_self (Request.without_handled _ _ _ _ _ _))
  have hrecorded := hpasses.recordRoutes
  rw [hf] at hvias hothers hrecorded
  exact ⟨f, direction, hf, ⟨⟨_, hvias⟩, hpasses.countsDown hf, hrecorded, hothers⟩,
    hpasses.keepsBody hq hf⟩

namespace OutgoingCall

/-- The call to the registered party as it arrives from the other party. -/
def callBackTicket : Ticket := { message := .request callBack, source := ⟨.v4 192 0 2 9, 5060⟩ }

end OutgoingCall

open OutgoingCall in
theorem frames_callBack :
    ∃ f destination after,
      route (.ofSettings settings) callBackTicket registered = (.forward (.request f) destination, after) ∧
        f.headers.values .maxForwards = ["1".toList] ∧ f.body = [] := by
  have hreachable := reachable_registered
  have hfacts :
      (route (.ofSettings settings) callBackTicket registered).1.forwarded?.isSome ∧
        callBack.headers.maxForwards? = some 2 ∧
        (callBackTicket.relayPorts (.ofSettings settings) registered).all Option.isNone = true := by
    decide +kernel
  obtain ⟨hforwarded, hgiven, hnone⟩ := hfacts
  obtain ⟨m, destination, hsent⟩ := Routed.exists_of_forwarded hforwarded
  rcases hroute : route (.ofSettings settings) callBackTicket registered with ⟨outcome, after⟩
  obtain rfl : outcome = .forward m destination := by rw [hroute] at hsent; exact hsent
  have hmessage : callBackTicket.message = .request callBack := rfl
  obtain ⟨f, direction, rfl, hforwardedAs, hkeeps⟩ :=
    route_frames_request hmessage hreachable.ready.plugins hroute
  obtain ⟨n, hvalues, hn⟩ := hforwardedAs.hops
  rw [hgiven] at hn
  have hone : n.toNat = 1 := Nat.succ.inj hn.symm
  refine ⟨f, destination, after, rfl, ?_, (hkeeps hnone).body⟩
  rw [hvalues, hone]
  decide

end BorderProxy
