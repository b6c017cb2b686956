import BorderProxy.Proofs.Proxy.Anchoring

/-! Two runs side by side. A step goes in lockstep in worlds that are related if it has the same result in
both and leaves worlds that are related again. Routing goes so wherever the plugins do, and the finding of a
direction, if the worlds differ neither in their hosts nor in their relays nor in the registrations that are
current. -/

namespace BorderProxy

variable {α β : Type}

/-- A step that has the same result in related worlds, and leaves them related. -/
def Lockstep (R : World → World → Prop) (step : Act α) : Prop :=
  ∀ w v, R w v → (step v).1 = (step w).1 ∧ R (step w).2 (step v).2

namespace Lockstep

variable {R : World → World → Prop}

theorem pure (a : α) : Lockstep R (Pure.pure a : Act α) := fun _ _ h => ⟨rfl, h⟩

theorem bind {x : Act α} {f : α → Act β} (hx : Lockstep R x) (hf : ∀ a, Lockstep R (f a)) :
    Lockstep R (x >>= f) := by
  intro w v h
  obtain ⟨hresult, hafter⟩ := hx w v h
  rw [act_bind, act_bind, hresult]
  exact hf _ _ _ hafter

/-- A step may read the world if what it makes of it is the same in related worlds. -/
theorem read {f : World → Act β} (hsame : ∀ {w v}, R w v → f v = f w) (hf : ∀ w, Lockstep R (f w)) :
    Lockstep R (MonadState.get >>= f) := by
  intro w v h
  rw [act_bind, act_bind, act_get, act_get]
  dsimp only
  rw [hsame h]
  exact hf w w v h

theorem done (a : α) : Lockstep R (Pure.pure a : Processing α).run := fun _ _ h => ⟨rfl, h⟩

theorem lift {x : Act α} (hx : Lockstep R x) : Lockstep R (liftM x : Processing α).run :=
  fun w v h => ⟨congrArg Except.ok (hx w v h).1, (hx w v h).2⟩

theorem finish (outcome : Routed) : Lockstep R (BorderProxy.finish outcome : Processing α).run :=
  fun _ _ h => ⟨rfl, h⟩

theorem andThen {x : Processing α} {f : α → Processing β} (hx : Lockstep R x.run)
    (hf : ∀ a, Lockstep R (f a).run) : Lockstep R (x >>= f).run := by
  intro w v h
  obtain ⟨hresult, hafter⟩ := hx w v h
  rw [ExceptT.run] at hresult hafter ⊢
  rw [processing_bind, processing_bind]
  generalize x w = first at hresult hafter ⊢
  generalize x v = second at hresult hafter ⊢
  obtain ⟨outcome | a, w'⟩ := first
  · obtain ⟨result, v'⟩ := second
    obtain rfl : result = .error outcome := hresult
    exact ⟨rfl, hafter⟩
  · obtain ⟨result, v'⟩ := second
    obtain rfl : result = .ok a := hresult
    exact hf a w' v' hafter

theorem look {f : World → Processing β} (hsame : ∀ {w v}, R w v → f v = f w)
    (hf : ∀ w, Lockstep R (f w).run) : Lockstep R (MonadState.get >>= f : Processing β).run := by
  intro w v h
  rw [ExceptT.run, processing_bind, processing_bind, processing_get, processing_get]
  dsimp only
  rw [hsame h]
  exact hf w w v h

theorem outcome {p : Processing Routed} (hp : Lockstep R p.run) : Lockstep R p.outcome :=
  bind hp fun result => by cases result <;> exact pure _

end Lockstep

/-! What is read of the registrations are those that are current. -/

section Reading

variable {now : Instant} {table table' : Registrations} (h : table'.current now = table.current now)

include h

theorem ofContactIp?_of_current (ip : Ip) : table'.ofContactIp? now ip = table.ofContactIp? now ip := by
  rw [Registrations.ofContactIp?, Registrations.ofContactIp?, h]

theorem directionOfRequest_of_current (known : KnownHosts) (source : Ip) (r : Request) :
    directionOfRequest known now table' source r = directionOfRequest known now table source r := by
  rw [directionOfRequest, directionOfRequest, ofContactIp?_of_current h, h]

theorem directionOfResponse_of_current (known : KnownHosts) (source : Ip) (hs : Headers) :
    directionOfResponse known now table' source hs = directionOfResponse known now table source hs := by
  rw [directionOfResponse, directionOfResponse, ofContactIp?_of_current h, h]

theorem presentContact_of_current (known : KnownHosts) (direction : Direction) (hs : Headers) :
    presentContact known now table' direction hs = presentContact known now table direction hs := by
  unfold presentContact
  rw [h]

end Reading

/-- Worlds that are related agree in all that routing reads apart from plugins and authenticator, and stay
related when hosts are looked up or media are relayed in both. -/
structure World.Agreement (R : World → World → Prop) : Prop where
  clock : ∀ {w v}, R w v → v.clock = w.clock
  network : ∀ {w v}, R w v → v.network = w.network
  resolver : ∀ {w v}, R w v → v.resolver = w.resolver
  relay : ∀ {w v}, R w v → v.relay = w.relay
  current : ∀ {w v}, R w v → v.registrations.current w.clock.now = w.registrations.current w.clock.now
  lookUp : ∀ {w v} (resolver : Resolver), R w v →
    R { w with resolver := resolver } { v with resolver := resolver }
  media : ∀ {w v} (relay : Option Relay) (network : Network), R w v →
    R { w with relay := relay, network := network } { v with relay := relay, network := network }

theorem lockstep_requestOf {R : World → World → Prop} (t : Ticket) : Lockstep R (requestOf t).run := by
  unfold requestOf
  split
  · exact Lockstep.done _
  · exact Lockstep.finish _

theorem lockstep_responseOf {R : World → World → Prop} (t : Ticket) : Lockstep R (responseOf t).run := by
  unfold responseOf
  split
  · exact Lockstep.done _
  · exact Lockstep.finish _

section Agreeing

variable {R : World → World → Prop} (hR : World.Agreement R)

include hR

theorem World.Agreement.knownHosts {w v : World} (h : R w v) : v.knownHosts = w.knownHosts := by
  rw [World.knownHosts, World.knownHosts, hR.resolver h, hR.clock h]

theorem lockstep_lookUpHost (host : Text) : Lockstep R (lookUpHost host) := by
  intro w v h
  have hsame : v.resolver.resolve v.network v.clock.now host =
      w.resolver.resolve w.network w.clock.now host := by
    rw [hR.resolver h, hR.network h, hR.clock h]
  have hlookUp : ∀ u, lookUpHost host u = ((u.resolver.resolve u.network u.clock.now host).1,
      { u with resolver := (u.resolver.resolve u.network u.clock.now host).2 }) := fun _ => rfl
  rw [hlookUp w, hlookUp v, hsame]
  exact ⟨rfl, hR.lookUp _ h⟩

theorem lockstep_lookUpEndpoint (host : Text) (port : UInt16) : Lockstep R (lookUpEndpoint host port) :=
  (lockstep_lookUpHost hR host).bind fun _ => Lockstep.pure _

theorem lockstep_answerTarget (hs : Headers) (source : Endpoint) :
    Lockstep R (answerTarget hs source) := by
  unfold answerTarget
  split
  · exact Lockstep.pure _
  · exact (lockstep_lookUpEndpoint hR _ _).bind fun _ => Lockstep.pure _

theorem lockstep_respondWith (r : Request) (source : Endpoint) (answer : Nat → Response) :
    Lockstep R (respondWith r source answer) := by
  refine Lockstep.read (fun h => ?_) fun _ =>
    (lockstep_answerTarget hR _ _).bind fun _ => Lockstep.pure _
  rw [hR.clock h]

theorem lockstep_refuse (cx : Context) (r : Request) (source : Endpoint) (code : UInt16)
    (reason : DropReason) : Lockstep R (refuse cx r source code reason : Processing α).run := by
  unfold refuse
  split
  · exact Lockstep.finish _
  · exact (Lockstep.lift (lockstep_respondWith hR r source _)).andThen fun _ => Lockstep.finish _

theorem lockstep_checkLoop (cx : Context) (r : Request) (source : Endpoint) :
    Lockstep R (checkLoop cx r source).run := by
  unfold checkLoop
  split
  · exact lockstep_refuse hR cx r source _ _
  · refine Lockstep.look (fun h => ?_) fun _ => ?_
    · rw [hR.knownHosts h]
    · split
      · exact lockstep_refuse hR cx r source _ _
      · exact Lockstep.done _

theorem lockstep_requestTarget (cx : Context) (r : Request) (direction : Direction)
    (nextHop : Option Endpoint) (strict : Bool) :
    Lockstep R (requestTarget cx r direction nextHop strict) := by
  unfold requestTarget
  split
  · exact Lockstep.pure _
  · dsimp only
    split
    · exact lockstep_lookUpEndpoint hR _ _
    · split
      · exact lockstep_lookUpEndpoint hR _ _
      · exact Lockstep.pure _
    · exact lockstep_lookUpEndpoint hR _ _

theorem lockstep_responseTarget (hs : Headers) (registration : Registration) :
    Lockstep R (responseTarget hs registration) := by
  unfold responseTarget
  split
  · refine (lockstep_lookUpEndpoint hR _ _).bind fun next => ?_
    dsimp only
    split
    · exact lockstep_lookUpEndpoint hR _ _
    · exact Lockstep.pure _
  · refine (Lockstep.pure _).bind fun next => ?_
    dsimp only
    split
    · exact lockstep_lookUpEndpoint hR _ _
    · exact Lockstep.pure _

/-! Steps that concern media. -/

theorem lockstep_withRelay (step : Relay → Network → Instant → α × Relay × Network) :
    Lockstep R (withRelay step) := by
  intro w v h
  have hsame := hR.relay h
  rcases Option.eq_none_or_eq_some w.relay with hrelay | ⟨relay, hrelay⟩
  · rw [hrelay] at hsame
    rw [withRelay_of_none step hrelay, withRelay_of_none step hsame]
    exact ⟨rfl, h⟩
  · rw [hrelay] at hsame
    have hstep : step relay v.network v.clock.now = step relay w.network w.clock.now := by
      rw [hR.network h, hR.clock h]
    rw [withRelay_of_some step hrelay, withRelay_of_some step hsame, hstep]
    exact ⟨rfl, hR.media _ _ h⟩

theorem lockstep_startSections (request : MediaOffer → Option StreamRequest) (media : List MediaOffer) :
    Lockstep R (startSections request media) := by
  have hstart : ∀ q, Lockstep R (startStream q) := fun q =>
    (lockstep_withRelay hR _).bind fun _ => Lockstep.pure _
  induction media with
  | nil => exact Lockstep.pure _
  | cons m rest ih =>
      rw [startSections]
      have hrest : ∀ port, Lockstep R (do return port :: (← startSections request rest)) :=
        fun _ => ih.bind fun _ => Lockstep.pure _
      split
      · exact (hstart _).bind hrest
      · exact (Lockstep.pure _).bind hrest

theorem lockstep_anchorMedia (cx : Context) (direction : Direction) (client : Text) (m : Message) :
    Lockstep R (anchorMedia cx direction client m) := by
  refine Lockstep.read (fun h => ?_) fun v => ?_
  · rw [hR.relay h]
  · split
    · split
      · split
        · exact Lockstep.pure _
        · refine (lockstep_startSections hR _ _).bind fun ports => ?_
          split <;> exact Lockstep.pure _
      · exact Lockstep.pure _
    · exact Lockstep.pure _

theorem lockstep_stopStreams (hs : Headers) : Lockstep R (stopStreams hs) := by
  have hstop : ∀ callId direction, Lockstep R (stopDirection callId direction) := fun _ _ =>
    (lockstep_withRelay hR _).bind fun _ => Lockstep.pure _
  unfold stopStreams
  split
  · exact Lockstep.pure _
  · exact (hstop _ _).bind fun _ => hstop _ _

theorem lockstep_handleMedia (cx : Context) (method : Method) (direction : Direction) (client : Text)
    (r : Request) : Lockstep R (handleMedia cx method direction client r) := by
  unfold handleMedia
  split
  · exact lockstep_anchorMedia hR _ _ _ _
  · exact lockstep_anchorMedia hR _ _ _ _
  · exact lockstep_anchorMedia hR _ _ _ _
  · exact (lockstep_stopStreams hR _).bind fun _ => Lockstep.pure _
  · exact (lockstep_stopStreams hR _).bind fun _ => Lockstep.pure _
  · exact Lockstep.pure _

/-! Settling the course of a message and sending it. -/

theorem lockstep_directRequest (cx : Context) {r : Request} {source : Endpoint}
    (hregister : r.method = .register → Lockstep R (processRegister cx r source).run) :
    Lockstep R (directRequest cx r source).run := by
  have hsame : ∀ {w v : World}, R w v →
      directionOfRequest v.knownHosts v.clock.now v.registrations source.ip r =
        directionOfRequest w.knownHosts w.clock.now w.registrations source.ip r := by
    intro w v h
    rw [hR.knownHosts h, hR.clock h, directionOfRequest_of_current (hR.current h)]
  unfold directRequest
  split
  · rename_i hmethod
    refine (hregister hmethod).andThen fun _ => Lockstep.look (fun h => by rw [hsame h]) fun _ => ?_
    split <;> exact Lockstep.done _
  · refine Lockstep.look (fun h => by rw [hsame h]) fun _ => ?_
    split
    · exact Lockstep.done _
    · exact lockstep_refuse hR cx r source _ _

variable (hconsult : ∀ stage t, Lockstep R (consult stage t).run)

include hconsult

theorem lockstep_passRequest (cx : Context) (direction : Direction) (strict : Bool) (t : Ticket) :
    Lockstep R (passRequest cx direction strict t).run :=
  (hconsult _ _).andThen fun _ => (lockstep_requestOf _).andThen fun _ =>
    (Lockstep.lift (lockstep_requestTarget hR cx _ _ _ _)).andThen fun _ => Lockstep.done _

theorem lockstep_sendRequest (cx : Context) (source : Endpoint) (c : RequestCourse) :
    Lockstep R (sendRequest cx source c).run := by
  refine Lockstep.look (fun h => ?_) fun _ => ?_
  · dsimp only
    rw [hR.knownHosts h, hR.clock h, presentContact_of_current (hR.current h)]
  · exact (Lockstep.lift (lockstep_handleMedia hR cx _ _ _ _)).andThen fun _ =>
      lockstep_passRequest hR hconsult cx _ _ _

theorem lockstep_passResponse (registration : Registration) (t : Ticket) :
    Lockstep R (passResponse registration t).run := by
  refine (hconsult _ _).andThen fun t => ?_
  split
  · exact Lockstep.done _
  · exact (Lockstep.lift (lockstep_responseTarget hR _ _)).andThen fun _ => Lockstep.done _

theorem lockstep_sendResponse (cx : Context) (source : Endpoint) (c : ResponseCourse) :
    Lockstep R (sendResponse cx source c).run := by
  refine Lockstep.look (fun h => ?_) fun _ => ?_
  · dsimp only
    rw [hR.knownHosts h, hR.clock h, presentContact_of_current (hR.current h)]
  · refine (Lockstep.lift (lockstep_anchorMedia hR cx _ _ _)).andThen fun m => ?_
    dsimp only
    split
    · exact (Lockstep.lift (lockstep_stopStreams hR _)).andThen fun _ =>
        lockstep_passResponse hR hconsult _ _
    · exact lockstep_passResponse hR hconsult _ _

theorem lockstep_settleResponse (cx : Context) (t : Ticket) :
    Lockstep R (settleResponse cx t).run := by
  have hreceive : Lockstep R (receiveResponse cx t).run := by
    refine (hconsult _ _).andThen fun _ => (lockstep_responseOf _).andThen fun _ => ?_
    refine Lockstep.look (fun h => ?_) fun _ => ?_
    · rw [hR.knownHosts h]
    · split
      · exact Lockstep.done _
      · exact Lockstep.finish _
  refine hreceive.andThen fun received => Lockstep.look (fun h => ?_) fun _ => ?_
  · rw [hR.knownHosts h, hR.clock h, directionOfResponse_of_current (hR.current h)]
  · split
    · exact Lockstep.finish _
    · exact (hconsult _ _).andThen fun _ => (lockstep_responseOf _).andThen fun _ => Lockstep.done _

theorem lockstep_settleRequest {cx : Context}
    (hdirect : ∀ r source, Lockstep R (directRequest cx r source).run) (t : Ticket) :
    Lockstep R (settleRequest cx t).run := by
  have hreceive : Lockstep R (receiveRequest cx t).run := by
    refine (hconsult _ _).andThen fun _ => (lockstep_requestOf _).andThen fun _ => ?_
    refine Lockstep.look (fun h => ?_) fun _ => Lockstep.done _
    rw [hR.knownHosts h]
  refine hreceive.andThen fun received => ?_
  refine (lockstep_checkLoop hR cx _ _).andThen fun branch => (hdirect _ _).andThen fun directed => ?_
  exact (hconsult _ _).andThen fun _ => (lockstep_requestOf _).andThen fun _ => Lockstep.done _

/-- Routing a message goes in lockstep if the plugins do and if finding the direction of a request does. -/
theorem lockstep_route {cx : Context}
    (hdirect : ∀ r source, Lockstep R (directRequest cx r source).run) (t : Ticket) :
    Lockstep R (route cx t) := by
  unfold route
  split
  · exact Lockstep.pure _
  · split
    · rw [processRequest_eq]
      exact ((lockstep_settleRequest hR hconsult hdirect t).andThen fun c =>
        lockstep_sendRequest hR hconsult cx t.source c).outcome
    · rw [processResponse_eq]
      exact ((lockstep_settleResponse hR hconsult cx t).andThen fun c =>
        lockstep_sendResponse hR hconsult cx t.source c).outcome

end Agreeing

end BorderProxy
