import BorderProxy.Proxy.Routing

/-! The steps that processing is made of, and what a sequence of them keeps. Whatever does not depend on
the resolver, the registrations and the authenticator is kept by the routing of a message if the plugins
and the steps that concern media keep it. -/

namespace BorderProxy

variable {α β : Type}

/-! Sequences of steps. -/

theorem act_bind (x : Act α) (f : α → Act β) (w : World) : (x >>= f) w = f (x w).1 (x w).2 := rfl

theorem act_get (w : World) : (get : Act World) w = (w, w) := rfl

theorem act_pure (a : α) (w : World) : (pure a : Act α) w = (a, w) := rfl

theorem processing_bind (x : Processing α) (f : α → Processing β) (w : World) :
    (x >>= f) w =
      match x w with
      | (.ok a, w') => f a w'
      | (.error outcome, w') => (.error outcome, w') := by
  simp only [bind, ExceptT.bind, ExceptT.mk, StateT.bind]
  rcases x w with ⟨a | a, w'⟩ <;> rfl

/-- A sequence goes on to its end only if its first part does. -/
theorem processing_bind_eq_ok {x : Processing α} {f : α → Processing β} {w after : World} {b : β}
    (h : (x >>= f) w = (.ok b, after)) : ∃ a next, x w = (.ok a, next) ∧ f a next = (.ok b, after) := by
  rw [processing_bind] at h
  rcases hstep : x w with ⟨outcome | a, next⟩
  · rw [hstep] at h
    cases (Prod.mk.inj h).1
  · rw [hstep] at h
    exact ⟨a, next, rfl, h⟩

theorem processing_pure (a : α) (w : World) : (pure a : Processing α) w = (.ok a, w) := rfl

theorem processing_get (w : World) : (get : Processing World) w = (.ok w, w) := rfl

theorem processing_set (v w : World) : (set v : Processing PUnit) w = (.ok ⟨⟩, v) := rfl

theorem processing_lift (x : Act α) (w : World) :
    (liftM x : Processing α) w = (.ok (x w).1, (x w).2) := rfl

theorem processing_finish (outcome : Routed) (w : World) :
    (finish outcome : Processing α) w = (.error outcome, w) := rfl

theorem outcome_eq (p : Processing Routed) (w : World) :
    p.outcome w =
      match p w with
      | (.ok outcome, w') => (outcome, w')
      | (.error outcome, w') => (outcome, w') := by
  unfold Processing.outcome
  rw [act_bind, ExceptT.run]
  rcases p w with ⟨outcome | outcome, w'⟩ <;> rfl

theorem outcome_snd (p : Processing Routed) (w : World) : (p.outcome w).2 = (p w).2 := by
  rw [outcome_eq]
  rcases p w with ⟨outcome | outcome, after⟩ <;> rfl

/-- The plugins change nothing but themselves. -/
theorem consult_eq (stage : Stage) (t : Ticket) (w : World) :
    consult stage t w =
      (if (w.plugins.run stage t).1 = .responded then .error .consumed
        else .ok (w.plugins.run stage t).2.1,
        { w with plugins := (w.plugins.run stage t).2.2 }) := by
  unfold consult
  rw [processing_bind, processing_get]
  dsimp only
  rw [processing_bind, processing_set]
  dsimp only
  split <;> rfl

theorem consult_of_no_plugins (stage : Stage) (t : Ticket) {w : World} (h : w.plugins.plugins = []) :
    consult stage t w = (.ok t, w) := by
  rw [consult_eq, PluginChain.run, h]
  rfl

/-! A message goes through two stages. First its course is settled, and then, after a change of its media, it
is sent. -/

/-- A request whose course is settled: it has a direction, with its registration, and the plugins have
seen it. -/
structure RequestCourse where
  method : Method
  branch : Text
  direction : Direction
  registration : Option Registration
  ticket : Ticket
  request : Request

/-- Receives a request, checks it and settles its course. -/
def settleRequest (cx : Context) (t : Ticket) : Processing RequestCourse := do
  let source := t.source
  let (t, r) ← receiveRequest cx t
  let branch ← checkLoop cx r source
  let (direction, registration) ← directRequest cx r source
  let t ← consult .determineTarget { t with message := .request r, direction := some direction }
  let request ← requestOf t
  return ⟨r.method, branch, direction, registration, t, request⟩

/-- Sends a request to its next hop. -/
def passRequest (cx : Context) (direction : Direction) (strict : Bool) (t : Ticket) :
    Processing Routed := do
  let t ← consult .postProxy t
  let r ← requestOf t
  return forwardTo t.message (← requestTarget cx r direction t.nextHop strict)

/-- Changes a request for the other side, and sends it to its next hop. -/
def sendRequest (cx : Context) (source : Endpoint) (c : RequestCourse) : Processing Routed := do
  let client := clientOf c.ticket.message.headers source
  let w ← get
  let r := c.request.aimAt c.direction c.registration
  let headers := presentContact w.knownHosts w.clock.now w.registrations c.direction r.headers
  let r := { r with headers := cx.forwardHeaders c.method c.direction c.branch headers }
  let m ← handleMedia cx c.method c.direction client r
  let (m, strict) := m.promoteStrictRoute
  passRequest cx c.direction strict { c.ticket with message := m }

theorem processRequest_eq (cx : Context) (t : Ticket) :
    processRequest cx t = settleRequest cx t >>= sendRequest cx t.source := by
  unfold processRequest settleRequest
  rw [bind_assoc]
  refine bind_congr fun received => ?_
  obtain ⟨t', r⟩ := received
  rw [bind_assoc]
  refine bind_congr fun branch => ?_
  rw [bind_assoc]
  refine bind_congr fun directed => ?_
  obtain ⟨direction, registration⟩ := directed
  rw [bind_assoc]
  refine bind_congr fun t'' => ?_
  rw [bind_assoc]
  refine bind_congr fun request => ?_
  rw [pure_bind]
  rfl

/-- A response whose course is settled. -/
structure ResponseCourse where
  direction : Direction
  registration : Registration
  ticket : Ticket
  response : Response

/-- Receives a response and settles its course. -/
def settleResponse (cx : Context) (t : Ticket) : Processing ResponseCourse := do
  let source := t.source
  let (t, r) ← receiveResponse cx t
  let w ← get
  match directionOfResponse w.knownHosts w.clock.now w.registrations source.ip r.headers with
  | none => finish (.drop .unmatchedResponse)
  | some (direction, registration) =>
    let t ← consult .determineTarget
      { t with message := .response r, direction := some direction }
    let response ← responseOf t
    return ⟨direction, registration, t, response⟩

/-- Sends a response where a plugin said, or else to its target. -/
def passResponse (registration : Registration) (t : Ticket) : Processing Routed := do
  let t ← consult .postProxy t
  match t.nextHop with
  | some endpoint => return forwardTo t.message (.ok endpoint)
  | none => return forwardTo t.message (← responseTarget t.message.headers registration)

/-- Changes a response for the other side, and sends it on. -/
def sendResponse (cx : Context) (source : Endpoint) (c : ResponseCourse) : Processing Routed := do
  let client := clientOf c.ticket.message.headers source
  let ends := endsCall c.response.headers c.response.status.code
  let w ← get
  let headers := (cx.own.faceRecordRoutes w.knownHosts (cx.ipTowards c.direction) c.response.headers).1
  let headers := presentContact w.knownHosts w.clock.now w.registrations c.direction headers
  let m ← anchorMedia cx c.direction client
    (.response { c.response with status := cx.passedStatus c.response, headers := headers })
  if ends then stopStreams m.headers
  passResponse c.registration { c.ticket with message := m }

theorem processResponse_eq (cx : Context) (t : Ticket) :
    processResponse cx t = settleResponse cx t >>= sendResponse cx t.source := by
  unfold processResponse settleResponse
  rw [bind_assoc]
  refine bind_congr fun received => ?_
  obtain ⟨t', r⟩ := received
  rw [bind_assoc]
  refine bind_congr fun w => ?_
  dsimp only
  cases directionOfResponse w.knownHosts w.clock.now w.registrations t.source.ip r.headers with
  | none => rfl
  | some directed =>
      obtain ⟨direction, registration⟩ := directed
      rw [bind_assoc]
      refine bind_congr fun t'' => ?_
      rw [bind_assoc]
      refine bind_congr fun response => ?_
      rw [pure_bind]
      rfl

/-! What steps keep. -/

/-- A step after which the world has a property that it had before. -/
def Keeps (P : World → Prop) (step : Act α) : Prop := ∀ w, P w → P (step w).2

namespace Keeps

variable {P : World → Prop}

theorem pure (a : α) : Keeps P (Pure.pure a : Act α) := fun _ hw => hw

theorem get : Keeps P (MonadState.get : Act World) := fun _ hw => hw

theorem bind {x : Act α} {f : α → Act β} (hx : Keeps P x) (hf : ∀ a, Keeps P (f a)) :
    Keeps P (x >>= f) := fun w hw => hf _ _ (hx w hw)

theorem done (a : α) : Keeps P (Pure.pure a : Processing α).run := fun _ hw => hw

theorem look : Keeps P (MonadState.get : Processing World).run := fun _ hw => hw

theorem lift {x : Act α} (hx : Keeps P x) : Keeps P (liftM x : Processing α).run := hx

theorem finish (outcome : Routed) : Keeps P (BorderProxy.finish outcome : Processing α).run :=
  fun _ hw => hw

theorem andThen {x : Processing α} {f : α → Processing β} (hx : Keeps P x.run)
    (hf : ∀ a, Keeps P (f a).run) : Keeps P (x >>= f).run := by
  intro w hw
  have hafter := hx w hw
  rw [ExceptT.run] at hafter ⊢
  rw [processing_bind]
  rcases hstep : x w with ⟨outcome | a, w'⟩
  · rw [hstep] at hafter
    exact hafter
  · rw [hstep] at hafter
    exact hf a w' hafter

theorem andThenIf {x : Act Unit} {f : Unit → Processing α} {b : Prop} [Decidable b] (hx : Keeps P x)
    (hf : Keeps P (f ()).run) : Keeps P (if b then (liftM x : Processing Unit) >>= f else f ()).run := by
  split
  · exact (lift hx).andThen fun _ => hf
  · exact hf

theorem outcome {p : Processing Routed} (hp : Keeps P p.run) : Keeps P p.outcome :=
  bind hp fun result => by cases result <;> exact pure _

theorem same {γ : Type} (part : World → γ) {x : Processing α}
    (hx : ∀ c, Keeps (fun v => part v = c) x.run) (w : World) : part (x w).2 = part w := hx _ w rfl

/-- What later steps keep is as the first ones left it. -/
theorem of_andThen {γ : Type} (part : World → γ) {x : Processing α} {f : α → Processing β}
    (hf : ∀ c a, Keeps (fun v => part v = c) (f a).run) (w : World) :
    part ((x >>= f) w).2 = part (x w).2 := by
  rw [processing_bind]
  rcases x w with ⟨early | a, next⟩
  · rfl
  · exact hf _ a next rfl

end Keeps

theorem keeps_consult {P : World → Prop}
    (hP : ∀ {w : World} (plugins : PluginChain), P w → P { w with plugins := plugins }) (stage : Stage)
    (t : Ticket) : Keeps P (consult stage t).run := by
  intro w hw
  rw [ExceptT.run, consult_eq]
  exact hP _ hw

/-! The steps that concern media open streams and close them. They change nothing but the relay and the
network. -/

section Media

variable {P : World → Prop}

section Any

variable (hP : ∀ {w : World} (relay : Option Relay) (network : Network),
    P w → P { w with relay := relay, network := network })

include hP

theorem keeps_withRelay (step : Relay → Network → Instant → α × Relay × Network) :
    Keeps P (withRelay step) := by
  intro w hw
  unfold withRelay
  rw [act_bind, act_get]
  cases w.relay with
  | none => exact hw
  | some relay => exact hP _ _ hw

theorem keeps_startStream (request : StreamRequest) : Keeps P (startStream request) :=
  (keeps_withRelay hP _).bind fun _ => Keeps.pure _

theorem keeps_stopDirection (callId : CallId) (direction : Direction) :
    Keeps P (stopDirection callId direction) :=
  (keeps_withRelay hP _).bind fun _ => Keeps.pure _

end Any

theorem keeps_startSections {request : MediaOffer → Option StreamRequest}
    (hstart : ∀ m q, request m = some q → Keeps P (startStream q)) (media : List MediaOffer) :
    Keeps P (startSections request media) := by
  induction media with
  | nil => exact Keeps.pure _
  | cons m rest ih =>
      rw [startSections]
      have hrest : ∀ port, Keeps P (do return port :: (← startSections request rest)) :=
        fun _ => ih.bind fun _ => Keeps.pure _
      split
      · rename_i q hq
        exact (hstart m q hq).bind hrest
      · exact (Keeps.pure _).bind hrest

/-- A stream that a section asks for which the proxy relays. -/
def Context.Asks (cx : Context) (q : StreamRequest) : Prop :=
  ∃ callId client direction dejitter m,
    MediaOffer.streamRequest callId client direction (cx.ipTowards direction) dejitter m = some q

theorem keeps_anchorMedia_of_asks {cx : Context} (hstart : ∀ q, cx.Asks q → Keeps P (startStream q))
    (direction : Direction) (client : Text) (m : Message) :
    Keeps P (anchorMedia cx direction client m) := by
  refine Keeps.get.bind fun v => ?_
  split
  · split
    · split
      · exact Keeps.pure _
      · refine (keeps_startSections (fun offer q hq => hstart q ⟨_, _, _, _, offer, hq⟩) _).bind
          fun ports => ?_
        split <;> exact Keeps.pure _
    · exact Keeps.pure _
  · exact Keeps.pure _

theorem keeps_anchorMedia (hstart : ∀ request, Keeps P (startStream request)) (cx : Context)
    (direction : Direction) (client : Text) (m : Message) :
    Keeps P (anchorMedia cx direction client m) :=
  keeps_anchorMedia_of_asks (fun q _ => hstart q) direction client m

theorem keeps_stopStreams (hstop : ∀ callId direction, Keeps P (stopDirection callId direction))
    (hs : Headers) : Keeps P (stopStreams hs) := by
  unfold stopStreams
  split
  · exact Keeps.pure _
  · exact (hstop _ _).bind fun _ => hstop _ _

end Media

/-! Looking up hosts changes the resolver only, and so do answers and the search for a target. -/

section LookUps

variable {P : World → Prop}
  (hP : ∀ {w : World} (resolver : Resolver), P w → P { w with resolver := resolver })

include hP

theorem keeps_lookUpHost (host : Text) : Keeps P (lookUpHost host) := fun _ hw => hP _ hw

theorem keeps_lookUpEndpoint (host : Text) (port : UInt16) : Keeps P (lookUpEndpoint host port) :=
  (keeps_lookUpHost hP host).bind fun _ => Keeps.pure _

theorem keeps_lookUpUri (uri : Uri) : Keeps P (lookUpUri uri) := keeps_lookUpEndpoint hP _ _

theorem keeps_answerTarget (hs : Headers) (source : Endpoint) : Keeps P (answerTarget hs source) := by
  unfold answerTarget
  split
  · exact Keeps.pure _
  · exact (keeps_lookUpEndpoint hP _ _).bind fun _ => Keeps.pure _

theorem keeps_respondWith (r : Request) (source : Endpoint) (answer : Nat → Response) :
    Keeps P (respondWith r source answer) :=
  Keeps.get.bind fun _ => (keeps_answerTarget hP _ _).bind fun _ => Keeps.pure _

theorem keeps_refuse (cx : Context) (r : Request) (source : Endpoint) (code : UInt16)
    (reason : DropReason) : Keeps P (refuse cx r source code reason : Processing α).run := by
  unfold refuse
  split
  · exact Keeps.finish _
  · exact (Keeps.lift (keeps_respondWith hP r source _)).andThen fun _ => Keeps.finish _

theorem keeps_checkLoop (cx : Context) (r : Request) (source : Endpoint) :
    Keeps P (checkLoop cx r source).run := by
  unfold checkLoop
  split
  · exact keeps_refuse hP cx r source _ _
  · refine Keeps.look.andThen fun _ => ?_
    split
    · exact keeps_refuse hP cx r source _ _
    · exact Keeps.done _

theorem keeps_requestTarget (cx : Context) (r : Request) (direction : Direction)
    (nextHop : Option Endpoint) (strict : Bool) :
    Keeps P (requestTarget cx r direction nextHop strict) := by
  unfold requestTarget
  split
  · exact Keeps.pure _
  · dsimp only
    split
    · exact keeps_lookUpEndpoint hP _ _
    · split
      · exact keeps_lookUpEndpoint hP _ _
      · exact Keeps.pure _
    · exact keeps_lookUpUri hP _

theorem keeps_responseTarget (hs : Headers) (registration : Registration) :
    Keeps P (responseTarget hs registration) := by
  unfold responseTarget
  split
  · refine (keeps_lookUpEndpoint hP _ _).bind fun next => ?_
    dsimp only
    split
    · exact keeps_lookUpEndpoint hP _ _
    · exact Keeps.pure _
  · refine (Keeps.pure _).bind fun next => ?_
    dsimp only
    split
    · exact keeps_lookUpEndpoint hP _ _
    · exact Keeps.pure _

end LookUps

/-- What depends neither on the resolver nor on the registrations nor on the authenticator. -/
structure World.Lasting (P : World → Prop) : Prop where
  resolver : ∀ {w : World} (resolver : Resolver), P w → P { w with resolver := resolver }
  registrations : ∀ {w : World} (registrations : Registrations),
    P w → P { w with registrations := registrations }
  authenticator : ∀ {w : World} (authenticator : Option Authenticator),
    P w → P { w with authenticator := authenticator }

/-! Registration, and how the course of a message is settled. -/

section Settling

variable {P : World → Prop} (hP : World.Lasting P)

include hP

theorem keeps_authenticate (r : Request) : Keeps P (authenticate r) := by
  intro w hw
  unfold authenticate
  rw [act_bind, act_get]
  cases w.authenticator with
  | none => exact hw
  | some a => exact hP.authenticator _ hw

theorem keeps_unregister (registered : Uri) (contact : Option Uri) :
    Keeps P (unregister registered contact) := fun _ hw => hP.registrations _ hw

theorem keeps_bindContact (cx : Context) (r : Request) (source : Endpoint) (registered contact : Uri)
    (expiry : UInt32) : Keeps P (bindContact cx r source registered contact expiry) := by
  have hlook : ∀ host, Keeps P (lookUpHost host) := keeps_lookUpHost hP.resolver
  refine (hlook _).bind fun contactIp => (hlook _).bind fun registeredIp =>
    (hlook _).bind fun presentedIp => ?_
  intro w hw
  rw [act_bind, act_get]
  dsimp only
  generalize Registrations.upsert _ _ _ = result
  rcases result with fault | ⟨slot, registrations⟩
  · exact hw
  · exact hP.registrations _ hw

theorem keeps_register (cx : Context) (r : Request) (source : Endpoint) :
    Keeps P (register cx r source) := by
  refine (keeps_authenticate hP r).bind fun verdict => ?_
  split
  · exact Keeps.pure _
  · split
    · dsimp only
      split
      · exact (keeps_unregister hP _ _).bind fun _ => Keeps.pure _
      · split
        · exact (keeps_unregister hP _ _).bind fun _ => Keeps.pure _
        · exact keeps_bindContact hP cx r source _ _ _
    · exact Keeps.pure _

theorem keeps_processRegister (cx : Context) (r : Request) (source : Endpoint) :
    Keeps P (processRegister cx r source).run := by
  have hanswer : ∀ (v : World) (result : RegisterResult) (isAccepted : Bool), Keeps P (do
      if isAccepted && !cx.isRegistrarOf v.knownHosts r then return
      else finish (← respondWith r source (cx.registerAnswer r result)) : Processing Unit).run := by
    intro v result isAccepted
    split
    · exact Keeps.done _
    · exact (Keeps.lift (keeps_respondWith hP.resolver r source _)).andThen fun _ => Keeps.finish _
  exact (Keeps.lift (keeps_register hP cx r source)).andThen fun result => Keeps.look.andThen fun v =>
    hanswer v result _

theorem keeps_directRequest (cx : Context) (r : Request) (source : Endpoint) :
    Keeps P (directRequest cx r source).run := by
  unfold directRequest
  split
  · refine (keeps_processRegister hP cx r source).andThen fun _ => Keeps.look.andThen fun v => ?_
    split <;> exact Keeps.done _
  · refine Keeps.look.andThen fun v => ?_
    split
    · exact Keeps.done _
    · exact keeps_refuse hP.resolver cx r source _ _

omit hP in
theorem keeps_requestOf (t : Ticket) : Keeps P (requestOf t).run := by
  unfold requestOf
  split
  · exact Keeps.done _
  · exact Keeps.finish _

omit hP in
theorem keeps_responseOf (t : Ticket) : Keeps P (responseOf t).run := by
  unfold responseOf
  split
  · exact Keeps.done _
  · exact Keeps.finish _

variable (hconsult : ∀ stage t, Keeps P (consult stage t).run)

include hconsult

omit hP in
theorem keeps_receiveRequest (cx : Context) (t : Ticket) : Keeps P (receiveRequest cx t).run :=
  (hconsult _ _).andThen fun _ => (keeps_requestOf _).andThen fun _ => Keeps.look.andThen fun _ =>
    Keeps.done _

omit hP in
theorem keeps_receiveResponse (cx : Context) (t : Ticket) : Keeps P (receiveResponse cx t).run := by
  refine (hconsult _ _).andThen fun _ => (keeps_responseOf _).andThen fun _ => Keeps.look.andThen fun _ => ?_
  split
  · exact Keeps.done _
  · exact Keeps.finish _

theorem keeps_settleRequest (cx : Context) (t : Ticket) : Keeps P (settleRequest cx t).run := by
  refine (keeps_receiveRequest hconsult cx t).andThen fun received => ?_
  refine (keeps_checkLoop hP.resolver cx _ _).andThen fun branch => ?_
  refine (keeps_directRequest hP cx _ _).andThen fun directed => ?_
  exact (hconsult _ _).andThen fun _ => (keeps_requestOf _).andThen fun _ => Keeps.done _

omit hP in
theorem keeps_settleResponse (cx : Context) (t : Ticket) : Keeps P (settleResponse cx t).run := by
  refine (keeps_receiveResponse hconsult cx t).andThen fun received => Keeps.look.andThen fun v => ?_
  split
  · exact Keeps.finish _
  · exact (hconsult _ _).andThen fun _ => (keeps_responseOf _).andThen fun _ => Keeps.done _

end Settling

section Sending

variable {P : World → Prop}
  (hP : ∀ {w : World} (resolver : Resolver), P w → P { w with resolver := resolver })
  (hconsult : ∀ stage t, Keeps P (consult stage t).run) {cx : Context}
  (hanchor : ∀ direction client m, Keeps P (anchorMedia cx direction client m))
  (hstop : ∀ hs, Keeps P (stopStreams hs))

include hanchor hstop

theorem keeps_handleMedia (method : Method) (direction : Direction) (client : Text) (r : Request) :
    Keeps P (handleMedia cx method direction client r) := by
  unfold handleMedia
  split
  · exact hanchor _ _ _
  · exact hanchor _ _ _
  · exact hanchor _ _ _
  · exact (hstop _).bind fun _ => Keeps.pure _
  · exact (hstop _).bind fun _ => Keeps.pure _
  · exact Keeps.pure _

include hP hconsult

omit hanchor hstop in
theorem keeps_passRequest (direction : Direction) (strict : Bool) (t : Ticket) :
    Keeps P (passRequest cx direction strict t).run :=
  (hconsult _ _).andThen fun _ => (keeps_requestOf _).andThen fun _ =>
    (Keeps.lift (keeps_requestTarget hP cx _ _ _ _)).andThen fun _ => Keeps.done _

theorem keeps_sendRequest (source : Endpoint) (c : RequestCourse) :
    Keeps P (sendRequest cx source c).run := by
  have hmedia := fun method direction client r =>
    Keeps.lift (keeps_handleMedia hanchor hstop method direction client r)
  exact Keeps.look.andThen fun _ => (hmedia _ _ _ _).andThen fun _ =>
    keeps_passRequest hP hconsult _ _ _

omit hanchor hstop in
theorem keeps_passResponse (registration : Registration) (t : Ticket) :
    Keeps P (passResponse registration t).run := by
  refine (hconsult _ _).andThen fun t => ?_
  split
  · exact Keeps.done _
  · exact (Keeps.lift (keeps_responseTarget hP _ _)).andThen fun _ => Keeps.done _

theorem keeps_sendResponse (source : Endpoint) (c : ResponseCourse) :
    Keeps P (sendResponse cx source c).run := by
  refine Keeps.look.andThen fun _ => (Keeps.lift (hanchor _ _ _)).andThen fun _ => ?_
  exact Keeps.andThenIf (hstop _) (keeps_passResponse hP hconsult _ _)

end Sending

/-- Routing a message keeps what the plugins and the steps that concern media keep. -/
theorem keeps_route {P : World → Prop} (hP : World.Lasting P)
    (hconsult : ∀ stage t, Keeps P (consult stage t).run) {cx : Context}
    (hanchor : ∀ direction client m, Keeps P (anchorMedia cx direction client m))
    (hstop : ∀ hs, Keeps P (stopStreams hs)) (t : Ticket) : Keeps P (route cx t) := by
  unfold route
  split
  · exact Keeps.pure _
  · split
    · rw [processRequest_eq]
      exact ((keeps_settleRequest hP hconsult cx t).andThen
        fun c => keeps_sendRequest hP.resolver hconsult hanchor hstop t.source c).outcome
    · rw [processResponse_eq]
      exact ((keeps_settleResponse hconsult cx t).andThen
        fun c => keeps_sendResponse hP.resolver hconsult hanchor hstop t.source c).outcome

end BorderProxy
