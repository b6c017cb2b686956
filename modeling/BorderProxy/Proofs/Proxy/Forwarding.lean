import BorderProxy.Proofs.Proxy.Steps

/-! How a message came to be forwarded. Processing that ends early ends by a drop or by a local answer and
never by forwarding, so without plugins a forwarded message has gone through every step, and each step has had
the result with which processing goes on. -/

namespace BorderProxy

variable {α : Type}

/-! Early ends. -/

/-- Processing that ends early only in some ways. -/
def EndsBy (P : Routed → World → Prop) (p : Processing α) : Prop :=
  ∀ w outcome after, p w = (.error outcome, after) → P outcome after

section

variable {P : Routed → World → Prop}

theorem endsBy_pure (a : α) : EndsBy P (pure a : Processing α) := by
  intro w outcome after h
  cases (Prod.mk.inj h).1

theorem endsBy_get : EndsBy P (get : Processing World) := by
  intro w outcome after h
  cases (Prod.mk.inj h).1

theorem endsBy_finish {outcome : Routed} (hP : ∀ w, P outcome w) : EndsBy P (finish outcome : Processing α) := by
  intro w outcome' after h
  rw [processing_finish] at h
  rw [← Except.error.inj (Prod.mk.inj h).1]
  exact hP after

theorem EndsBy.andThen {β : Type} {x : Processing β} {f : β → Processing α} (hx : EndsBy P x)
    (hf : ∀ b, EndsBy P (f b)) : EndsBy P (x >>= f) := by
  intro w outcome after h
  rw [processing_bind] at h
  rcases hstep : x w with ⟨early | b, next⟩
  · rw [hstep] at h
    obtain ⟨heq, hafter⟩ := Prod.mk.inj h
    rw [← Except.error.inj heq, ← hafter]
    exact hx w early next hstep
  · rw [hstep] at h
    exact hf b next outcome after h

/-- A step that does not end processing goes on with its result. -/
theorem endsBy_lift_andThen {β : Type} {x : Act β} {f : β → Processing α}
    (hf : ∀ w, EndsBy P (f (x w).1)) : EndsBy P (liftM x >>= f) := by
  intro w outcome after h
  rw [processing_bind, processing_lift] at h
  exact hf w _ _ _ h

theorem endsBy_consult (hP : ∀ w, P .consumed w) (stage : Stage) (t : Ticket) : EndsBy P (consult stage t) := by
  intro w outcome after h
  rw [consult_eq] at h
  have hresult := (Prod.mk.inj h).1
  split at hresult
  · rw [← Except.error.inj hresult]
    exact hP after
  · cases hresult

variable (hP : ∀ reason w, P (.drop reason) w)

include hP

theorem endsBy_requestOf (t : Ticket) : EndsBy P (requestOf t) := by
  unfold requestOf
  split
  · exact endsBy_pure _
  · exact endsBy_finish (hP _)

theorem endsBy_responseOf (t : Ticket) : EndsBy P (responseOf t) := by
  unfold responseOf
  split
  · exact endsBy_pure _
  · exact endsBy_finish (hP _)

end

/-- Processing that does not end early by forwarding a message. -/
def EndsUnsent : Processing α → Prop :=
  EndsBy fun outcome _ => ∀ m destination, outcome ≠ .forward m destination

/-- A sequence of steps ends with its first part, or goes on to its second one. -/
theorem ends_or_goesOn {x : Processing α} {f : α → Processing Routed} {w after : World} {outcome : Routed}
    (h : (x >>= f).outcome w = (outcome, after)) :
    x w = (.error outcome, after) ∨
      ∃ a next, x w = (.ok a, next) ∧ (f a).outcome next = (outcome, after) := by
  rw [outcome_eq, processing_bind] at h
  rcases hstep : x w with ⟨early | a, next⟩
  · rw [hstep] at h
    obtain ⟨rfl, rfl⟩ := Prod.mk.inj h
    exact .inl rfl
  · rw [hstep] at h
    exact .inr ⟨a, next, rfl, by rw [outcome_eq]; exact h⟩

theorem forward_of_andThen {x : Processing α} {f : α → Processing Routed} (hx : EndsUnsent x)
    {w after : World} {m : Message} {destination : Endpoint}
    (h : (x >>= f).outcome w = (.forward m destination, after)) :
    ∃ a next, x w = (.ok a, next) ∧ (f a).outcome next = (.forward m destination, after) :=
  (ends_or_goesOn h).resolve_left fun hends => hx w _ after hends m destination rfl

/-- What becomes of a request of a method that is refused with a status: it is answered with the status, or
dropped if it is an ACK. -/
def Routed.Refuses (outcome : Routed) (method : Method) (code : UInt16) (reason : DropReason) : Prop :=
  if method = .ack then outcome = .drop reason
  else ∃ response destination, outcome = .respond response destination ∧ response.status.code = code

theorem Status.code_ofCode (code : UInt16) : (Status.ofCode code).code = code := by
  unfold Status.ofCode Status.withPhrase
  split <;> rfl

theorem refuse_spec (cx : Context) (r : Request) (source : Endpoint) (code : UInt16) (reason : DropReason)
    (w : World) : ∃ outcome after, (refuse cx r source code reason : Processing α) w =
      (.error outcome, after) ∧ outcome.Refuses r.method code reason := by
  unfold refuse Routed.Refuses
  split
  · exact ⟨_, w, rfl, rfl⟩
  · refine ⟨(respond cx r source code w).1, (respond cx r source code w).2, ?_, ?_⟩
    · rw [processing_bind, processing_lift]
      rfl
    · unfold respond respondWith
      rw [act_bind, act_bind]
      exact ⟨_, _, rfl, Status.code_ofCode code⟩

theorem refuse_ne_ok {cx : Context} {r : Request} {source : Endpoint} {code : UInt16}
    {reason : DropReason} {w after : World} {a : α}
    (h : refuse cx r source code reason w = (.ok a, after)) : False := by
  obtain ⟨outcome, after', heq, -⟩ := refuse_spec (α := α) cx r source code reason w
  rw [heq] at h
  cases (Prod.mk.inj h).1

/-- The answers that the proxy gives to a request from a source: it refuses one that is no ACK with a status that is
not provisional, and tells what became of a REGISTER. -/
inductive Request.HasAnswer (cx : Context) (r : Request) (source : Endpoint) : (Nat → Response) → Prop where
  | refusal (code : UInt16) (hcode : 100 < code) (hmethod : r.method ≠ .ack) :
      HasAnswer cx r source (r.answer (.ofCode code) [] cx.product)
  | registration (hmethod : r.method = .register) (v : World) :
      HasAnswer cx r source (cx.registerAnswer r (register cx r source v).1)

/-- Processing that ends early only by dropping its message or by giving such an answer. -/
def EndsAnswered (cx : Context) (r : Request) (source : Endpoint) : Processing α → Prop :=
  EndsBy fun outcome after => (∃ reason, outcome = .drop reason) ∨
    ∃ answer v, r.HasAnswer cx source answer ∧ respondWith r source answer v = (outcome, after)

theorem EndsAnswered.unsent {cx : Context} {r : Request} {source : Endpoint} {p : Processing α}
    (h : EndsAnswered cx r source p) : EndsUnsent p := by
  intro w outcome after hends m destination hforward
  rcases h w outcome after hends with ⟨reason, hdrop⟩ | ⟨answer, v, -, hanswer⟩
  · rw [hdrop] at hforward
    cases hforward
  · unfold respondWith at hanswer
    rw [act_bind, act_bind] at hanswer
    rw [← (Prod.mk.inj hanswer).1] at hforward
    cases hforward

section

variable {cx : Context} {r : Request} {source : Endpoint}

theorem endsAnswered_drop (reason : DropReason) :
    EndsAnswered cx r source (finish (.drop reason) : Processing α) :=
  endsBy_finish fun _ => .inl ⟨reason, rfl⟩

theorem endsAnswered_respondWith {answer : Nat → Response} (hanswer : r.HasAnswer cx source answer) :
    EndsAnswered cx r source (do finish (← respondWith r source answer) : Processing α) := by
  intro w outcome after h
  rw [processing_bind, processing_lift] at h
  obtain ⟨houtcome, hafter⟩ := Prod.mk.inj h
  exact .inr ⟨answer, w, hanswer, Prod.ext (Except.error.inj houtcome) hafter⟩

theorem endsAnswered_refuse {code : UInt16} (hcode : 100 < code) (reason : DropReason) :
    EndsAnswered cx r source (refuse cx r source code reason : Processing α) := by
  unfold refuse
  split
  · exact endsAnswered_drop reason
  · rename_i hmethod
    exact endsAnswered_respondWith (.refusal code hcode hmethod)

end

theorem endsUnsent_consult (stage : Stage) (t : Ticket) : EndsUnsent (consult stage t) :=
  endsBy_consult (fun _ _ _ h => by cases h) stage t

theorem endsUnsent_requestOf (t : Ticket) : EndsUnsent (requestOf t) :=
  endsBy_requestOf (fun _ _ _ _ h => by cases h) t

/-! The steps of a request. -/

theorem endsAnswered_checkLoop (cx : Context) (r : Request) (source : Endpoint) :
    EndsAnswered cx r source (checkLoop cx r source) := by
  unfold checkLoop
  split
  · exact endsAnswered_refuse (by decide) _
  · refine endsBy_get.andThen fun _ => ?_
    split
    · exact endsAnswered_refuse (by decide) _
    · exact endsBy_pure _

/-- A request that passes the check has hops left and has not been forwarded by the proxy before. -/
theorem checkLoop_eq_ok {cx : Context} {r : Request} {source : Endpoint} {w after : World} {branch : Text}
    (h : checkLoop cx r source w = (.ok branch, after)) :
    after = w ∧ branch = r.branch ∧ r.headers.maxForwards? ≠ some 0 ∧
      cx.isLooped w.knownHosts r.headers r.branch = false := by
  unfold checkLoop at h
  split at h
  · exact (refuse_ne_ok h).elim
  · rename_i hhops
    dsimp only at h
    rw [processing_bind, processing_get] at h
    dsimp only at h
    by_cases hlooped : cx.isLooped w.knownHosts r.headers r.branch = true
    · rw [if_pos hlooped] at h
      exact (refuse_ne_ok h).elim
    · rw [if_neg hlooped, processing_pure] at h
      obtain ⟨hbranch, hafter⟩ := Prod.mk.inj h
      exact ⟨hafter.symm, (Except.ok.inj hbranch).symm, hhops, by simpa using hlooped⟩

theorem endsAnswered_processRegister (cx : Context) {r : Request} (hmethod : r.method = .register)
    (source : Endpoint) : EndsAnswered cx r source (processRegister cx r source) := by
  have hrest : ∀ (v w : World) (isAccepted : Bool), EndsAnswered cx r source (do
      if isAccepted && !cx.isRegistrarOf w.knownHosts r then return
      else finish (← respondWith r source (cx.registerAnswer r (register cx r source v).1)) :
        Processing Unit) := by
    intro v w isAccepted
    split
    · exact endsBy_pure _
    · exact endsAnswered_respondWith (.registration hmethod v)
  exact endsBy_lift_andThen fun v => endsBy_get.andThen fun w => hrest v w _

theorem endsAnswered_directRequest (cx : Context) (r : Request) (source : Endpoint) :
    EndsAnswered cx r source (directRequest cx r source) := by
  unfold directRequest
  split
  · rename_i hmethod
    refine (endsAnswered_processRegister cx hmethod source).andThen fun _ => endsBy_get.andThen fun v => ?_
    split <;> exact endsBy_pure _
  · refine endsBy_get.andThen fun v => ?_
    split
    · exact endsBy_pure _
    · exact endsAnswered_refuse (by decide) _

/-- Classifying a request that is no REGISTER changes nothing. -/
theorem directRequest_eq_ok {cx : Context} {r : Request} (hmethod : r.method ≠ .register)
    {source : Endpoint} {w after : World} {direction : Direction} {registration : Option Registration}
    (h : directRequest cx r source w = (.ok (direction, registration), after)) :
    after = w ∧ ∃ found, registration = some found ∧
      directionOfRequest w.knownHosts w.clock.now w.registrations source.ip r =
        some (direction, found) := by
  unfold directRequest at h
  rw [if_neg hmethod] at h
  dsimp only at h
  rw [processing_bind, processing_get] at h
  dsimp only at h
  cases hdirection : directionOfRequest w.knownHosts w.clock.now w.registrations source.ip r with
  | none =>
      rw [hdirection] at h
      dsimp only at h
      rw [if_neg hmethod] at h
      exact (refuse_ne_ok h).elim
  | some result =>
      obtain ⟨direction', found⟩ := result
      rw [hdirection] at h
      dsimp only at h
      rw [if_neg hmethod, processing_pure] at h
      obtain ⟨hok, hafter⟩ := Prod.mk.inj h
      obtain ⟨rfl, rfl⟩ := Prod.mk.inj (Except.ok.inj hok)
      exact ⟨hafter.symm, found, rfl, rfl⟩

/-- A request that is no REGISTER has the direction that classifying it gives. -/
theorem directRequest_of_directed {cx : Context} {r : Request} (hmethod : r.method ≠ .register)
    {source : Endpoint} {w : World} {direction : Direction} {registration : Registration}
    (h : directionOfRequest w.knownHosts w.clock.now w.registrations source.ip r =
      some (direction, registration)) :
    directRequest cx r source w = (.ok (direction, some registration), w) := by
  unfold directRequest
  rw [if_neg hmethod]
  dsimp only
  rw [processing_bind, processing_get]
  dsimp only
  rw [h]
  dsimp only
  rw [if_neg hmethod]
  rfl

theorem outcome_of_ok {x : Processing α} {f : α → Processing Routed} {w next : World} {a : α}
    (h : x w = (.ok a, next)) : (x >>= f).outcome w = (f a).outcome next := by
  rw [outcome_eq, processing_bind, h, outcome_eq]

theorem outcome_of_error {x : Processing α} {f : α → Processing Routed} {w after : World} {outcome : Routed}
    (h : x w = (.error outcome, after)) : (x >>= f).outcome w = (outcome, after) := by
  rw [outcome_eq, processing_bind, h]

/-- A request as it is received: its source is noted, and own Routes at the ends of the list are off. -/
def Request.received (cx : Context) (w : World) (source : Endpoint) (r : Request) : Request :=
  { r with headers := (cx.own.stripRoutes w.knownHosts (r.headers.stamp source)).1 }

theorem receiveRequest_eq (cx : Context) {t : Ticket} {r : Request} (hmessage : t.message = .request r)
    {w : World} (h : w.plugins.plugins = []) :
    receiveRequest cx t w =
      (.ok ({ t with message := .request { r with headers := r.headers.stamp t.source } },
        r.received cx w t.source), w) := by
  unfold receiveRequest
  rw [hmessage, processing_bind, consult_of_no_plugins _ _ h]
  rfl

/-- A request as it is forwarded, but for its media. -/
def Request.prepared (cx : Context) (w : World) (direction : Direction)
    (registration : Option Registration) (r : Request) : Request :=
  let aimed := r.aimAt direction registration
  { aimed with
    headers := cx.forwardHeaders r.method direction r.branch
      (presentContact w.knownHosts w.clock.now w.registrations direction aimed.headers) }

/-- What media become of a received request that is forwarded in a direction. -/
def Request.handled (cx : Context) (source : Endpoint) (direction : Direction)
    (registration : Option Registration) (r : Request) (w : World) : Message × World :=
  handleMedia cx r.method direction (clientOf r.headers source) (r.prepared cx w direction registration) w

/-- How a request comes to be forwarded: it passes the check, is given a direction, and has a target. -/
structure Request.Passes (cx : Context) (t : Ticket) (w : World) (r : Request) (direction : Direction)
    (registration : Option Registration) (next : World) (m : Message) (destination : Endpoint)
    (after : World) : Prop where
  checked : checkLoop cx r t.source w = (.ok r.branch, w)
  directed : directRequest cx r t.source w = (.ok (direction, registration), next)
  sent : m = (r.handled cx t.source direction registration next).1.promoteStrictRoute.1
  target : ∃ r', m = .request r' ∧
    requestTarget cx r' direction t.nextHop
      (r.handled cx t.source direction registration next).1.promoteStrictRoute.2
      (r.handled cx t.source direction registration next).2 = (.ok destination, after)

theorem route_of_incomplete (cx : Context) {t : Ticket} {fault : Fault}
    (h : t.message.headers.checkComplete = .error fault) (w : World) :
    route cx t w = (.drop (.fault fault), w) := by
  unfold route
  rw [h]
  rfl

theorem route_of_complete (cx : Context) {t : Ticket} (h : t.message.headers.checkComplete = .ok ())
    (w : World) :
    route cx t w =
      (match t.message with
        | .request _ => (processRequest cx t).outcome
        | .response _ => (processResponse cx t).outcome) w := by
  unfold route
  generalize t.message.headers.checkComplete = checked at h ⊢
  subst h
  rfl

theorem route_eq_forward {cx : Context} {t : Ticket} {w after : World} {m : Message}
    {destination : Endpoint} (h : route cx t w = (.forward m destination, after)) :
    t.message.headers.checkComplete = .ok () ∧
      (match t.message with
        | .request _ => (processRequest cx t).outcome
        | .response _ => (processResponse cx t).outcome) w = (.forward m destination, after) := by
  cases hcomplete : t.message.headers.checkComplete with
  | error fault =>
      rw [route_of_incomplete cx hcomplete] at h
      cases (Prod.mk.inj h).1
  | ok u =>
      rw [route_of_complete cx hcomplete] at h
      exact ⟨rfl, h⟩

theorem forwardTo_eq_forward {m m' : Message} {target : Except Fault Endpoint} {destination : Endpoint}
    (h : forwardTo m target = .forward m' destination) : m' = m ∧ target = .ok destination := by
  cases target with
  | error fault => cases h
  | ok endpoint =>
      simp only [forwardTo, Routed.forward.injEq] at h
      exact ⟨h.1.symm, by rw [h.2]⟩

theorem noPlugins_lasting : World.Lasting fun w => w.plugins.plugins = [] where
  resolver _ hw := hw
  registrations _ hw := hw
  authenticator _ hw := hw

theorem requestOf_eq_ok {t : Ticket} {r : Request} {w after : World}
    (h : requestOf t w = (.ok r, after)) : t.message = .request r ∧ after = w := by
  obtain ⟨message, source, direction, nextHop⟩ := t
  cases message with
  | request r' =>
      obtain ⟨hok, hafter⟩ := Prod.mk.inj h
      exact ⟨by rw [Except.ok.inj hok], hafter.symm⟩
  | response r' => cases (Prod.mk.inj h).1

theorem forward_of_sent {cx : Context} {t : Ticket} {direction : Direction} {strict : Bool}
    {w after : World} (hplugins : w.plugins.plugins = []) {m : Message} {destination : Endpoint}
    (h : (passRequest cx direction strict t).outcome w = (.forward m destination, after)) :
    m = t.message ∧ ∃ r, m = .request r ∧
      requestTarget cx r direction t.nextHop strict w = (.ok destination, after) := by
  rw [passRequest, outcome_of_ok (consult_of_no_plugins _ _ hplugins)] at h
  obtain ⟨r, same, hrequest, h⟩ := forward_of_andThen (endsUnsent_requestOf t) h
  obtain ⟨hmessage, hsame⟩ := requestOf_eq_ok hrequest
  rw [hsame, outcome_of_ok (processing_lift _ _), outcome_eq, processing_pure] at h
  obtain ⟨hforward, hafter⟩ := Prod.mk.inj h
  obtain ⟨hm, htarget⟩ := forwardTo_eq_forward hforward
  exact ⟨hm, r, hm.trans hmessage, Prod.ext htarget hafter⟩

/-- A request that the plugins have seen is sent to its target. -/
theorem outcome_passRequest {cx : Context} {t t' : Ticket} {direction : Direction} {strict : Bool} {w v : World}
    (hconsult : consult .postProxy t w = (.ok t', v)) {sent : Request} (hmessage : t'.message = .request sent) :
    (passRequest cx direction strict t).outcome w =
      (forwardTo (.request sent) (requestTarget cx sent direction t'.nextHop strict v).1,
        (requestTarget cx sent direction t'.nextHop strict v).2) := by
  have hrequest : requestOf t' v = (.ok sent, v) := by
    unfold requestOf
    rw [hmessage]
    rfl
  unfold passRequest
  rw [outcome_of_ok hconsult, outcome_of_ok hrequest, outcome_of_ok (processing_lift _ _), outcome_eq,
    processing_pure, hmessage]

theorem no_plugins_of_directed {cx : Context} {r : Request} {source : Endpoint} {w next : World}
    {directed : Direction × Option Registration} (h : directRequest cx r source w = (.ok directed, next))
    (hplugins : w.plugins.plugins = []) : next.plugins.plugins = [] := by
  have hkept := keeps_directRequest noPlugins_lasting cx r source w hplugins
  rwa [ExceptT.run, h] at hkept

/-- A request that passes the check and is given a direction is sent on as it is handled. -/
theorem processRequest_of_directed {cx : Context} {t : Ticket} {r : Request}
    (hmessage : t.message = .request r) {w next : World} (hplugins : w.plugins.plugins = [])
    {direction : Direction} {registration : Option Registration}
    (hchecked : checkLoop cx (r.received cx w t.source) t.source w =
      (.ok (r.received cx w t.source).branch, w))
    (hdirected : directRequest cx (r.received cx w t.source) t.source w =
      (.ok (direction, registration), next)) :
    let handled := (r.received cx w t.source).handled cx t.source direction registration next
    handled.2.plugins.plugins = [] ∧
      (processRequest cx t).outcome w =
        (passRequest cx direction handled.1.promoteStrictRoute.2
          { t with message := handled.1.promoteStrictRoute.1, direction := some direction }).outcome
            handled.2 := by
  have hnext := no_plugins_of_directed hdirected hplugins
  refine ⟨keeps_handleMedia (P := fun w => w.plugins.plugins = [])
    (keeps_anchorMedia (keeps_startStream fun _ _ hw => hw) cx)
    (keeps_stopStreams (keeps_stopDirection fun _ _ hw => hw)) r.method direction
    (clientOf (r.received cx w t.source).headers t.source)
    ((r.received cx w t.source).prepared cx next direction registration) next hnext, ?_⟩
  unfold processRequest
  rw [outcome_of_ok (receiveRequest_eq cx hmessage hplugins)]
  dsimp only
  rw [outcome_of_ok hchecked, outcome_of_ok hdirected]
  dsimp only
  rw [outcome_of_ok (consult_of_no_plugins _ _ hnext)]
  dsimp only [requestOf]
  rw [outcome_of_ok (processing_pure _ _), outcome_of_ok (processing_get _),
    outcome_of_ok (processing_lift _ _)]
  rfl

/-- A request that is forwarded without plugins passes. -/
theorem request_passes {cx : Context} {t : Ticket} {r : Request} (hmessage : t.message = .request r)
    {w after : World} (hplugins : w.plugins.plugins = []) {m : Message} {destination : Endpoint}
    (h : route cx t w = (.forward m destination, after)) :
    ∃ direction registration next,
      (r.received cx w t.source).Passes cx t w direction registration next m destination after := by
  obtain ⟨-, h⟩ := route_eq_forward h
  rw [hmessage] at h
  dsimp only at h
  have hsteps := h
  unfold processRequest at hsteps
  rw [outcome_of_ok (receiveRequest_eq cx hmessage hplugins)] at hsteps
  dsimp only at hsteps
  obtain ⟨branch, same, hchecked, hsteps⟩ := forward_of_andThen (endsAnswered_checkLoop cx _ _).unsent hsteps
  obtain ⟨hsame, hbranch, -, -⟩ := checkLoop_eq_ok hchecked
  rw [hsame, hbranch] at hchecked
  rw [hsame] at hsteps
  obtain ⟨⟨direction, registration⟩, next, hdirected, -⟩ :=
    forward_of_andThen (endsAnswered_directRequest cx _ _).unsent hsteps
  obtain ⟨hmedia, hsent⟩ := processRequest_of_directed hmessage hplugins hchecked hdirected
  rw [hsent] at h
  obtain ⟨hm, htarget⟩ := forward_of_sent hmedia h
  exact ⟨direction, registration, next, hchecked, hdirected, hm, htarget⟩

/-- A request that passes is forwarded. -/
theorem route_of_passes {cx : Context} {t : Ticket} {r : Request} (hmessage : t.message = .request r)
    (hcomplete : t.message.headers.checkComplete = .ok ()) {w after : World}
    (hplugins : w.plugins.plugins = []) {direction : Direction} {registration : Option Registration}
    {m : Message} {destination : Endpoint}
    (h : (r.received cx w t.source).Passes cx t w direction registration w m destination after) :
    route cx t w = (.forward m destination, after) := by
  obtain ⟨r', hm, htarget⟩ := h.target
  have hsent := h.sent
  subst hsent
  obtain ⟨hmedia, hpass⟩ := processRequest_of_directed hmessage hplugins h.checked h.directed
  rw [route_of_complete cx hcomplete, hmessage]
  dsimp only
  rw [hpass]
  rw [outcome_passRequest (consult_of_no_plugins _ _ hmedia) hm, htarget, ← hm]
  rfl

/-! The steps of a response. -/

/-- A response without the Via that it came back to. -/
def Response.received (r : Response) : Response := { r with headers := r.headers.eraseFirst .via }

/-- A response as it is forwarded, but for its media. -/
def Response.prepared (cx : Context) (w : World) (direction : Direction) (r : Response) : Response :=
  { r with
    status := cx.passedStatus r
    headers := presentContact w.knownHosts w.clock.now w.registrations direction
      (cx.own.faceRecordRoutes w.knownHosts (cx.ipTowards direction) r.headers).1 }

/-- What media become of a received response that is forwarded in a direction. -/
def Response.handled (cx : Context) (source : Endpoint) (direction : Direction) (r : Response)
    (w : World) : Message × World :=
  let anchored :=
    anchorMedia cx direction (clientOf r.headers source) (.response (r.prepared cx w direction)) w
  if endsCall r.headers r.status.code then
    (anchored.1, (stopStreams anchored.1.headers anchored.2).2)
  else anchored

/-- How a response comes to be forwarded: it came back to the proxy, is given a direction, and has a
target. -/
structure Response.Passes (cx : Context) (t : Ticket) (w : World) (r : Response) (direction : Direction)
    (registration : Registration) (m : Message) (destination : Endpoint) (after : World) : Prop where
  own : (r.headers.topVia?.map (cx.own.ownsVia w.knownHosts)).getD false = true
  directed : directionOfResponse w.knownHosts w.clock.now w.registrations t.source.ip
    r.received.headers = some (direction, registration)
  sent : m = (r.received.handled cx t.source direction w).1
  target : match t.nextHop with
    | some endpoint => destination = endpoint ∧ after = (r.received.handled cx t.source direction w).2
    | none => responseTarget m.headers registration (r.received.handled cx t.source direction w).2 =
        (.ok destination, after)

theorem receiveResponse_eq (cx : Context) {t : Ticket} {r : Response} (hmessage : t.message = .response r)
    {w : World} (hplugins : w.plugins.plugins = []) :
    receiveResponse cx t w =
      if (r.headers.topVia?.map (cx.own.ownsVia w.knownHosts)).getD false then (.ok (t, r.received), w)
      else (.error (.drop .foreignVia), w) := by
  unfold receiveResponse
  rw [processing_bind, consult_of_no_plugins _ _ hplugins]
  dsimp only
  unfold responseOf
  rw [hmessage]
  dsimp only
  rw [processing_bind, processing_pure]
  dsimp only
  rw [processing_bind, processing_get]
  dsimp only
  split <;> rfl

/-- What becomes of a response whose media are handled: it is sent where a plugin said, or else to its
target. -/
def Ticket.sentOn (t : Ticket) (registration : Registration) (handled : Message × World) :
    Routed × World :=
  match t.nextHop with
  | some endpoint => (.forward handled.1 endpoint, handled.2)
  | none =>
    let target := responseTarget handled.1.headers registration handled.2
    (forwardTo handled.1 target.1, target.2)

theorem outcome_of_handled (t : Ticket) (registration : Registration) (m : Message) {w : World}
    (hplugins : w.plugins.plugins = []) :
    (passResponse registration { t with message := m }).outcome w = t.sentOn registration (m, w) := by
  rw [passResponse, outcome_of_ok (consult_of_no_plugins _ _ hplugins), Ticket.sentOn]
  dsimp only
  cases t.nextHop with
  | some endpoint => rfl
  | none =>
      dsimp only
      rw [outcome_of_ok (processing_lift _ _)]
      rfl

/-- A response that came back to the proxy is dropped if it has no direction, and is sent on otherwise. -/
theorem processResponse_of_own {cx : Context} {t : Ticket} {r : Response}
    (hmessage : t.message = .response r) {w : World} (hplugins : w.plugins.plugins = [])
    (hown : (r.headers.topVia?.map (cx.own.ownsVia w.knownHosts)).getD false = true) :
    (processResponse cx t).outcome w =
      match directionOfResponse w.knownHosts w.clock.now w.registrations t.source.ip
        r.received.headers with
      | none => (.drop .unmatchedResponse, w)
      | some (direction, registration) =>
        t.sentOn registration (r.received.handled cx t.source direction w) := by
  unfold processResponse
  have hreceived := receiveResponse_eq cx hmessage hplugins
  rw [if_pos hown] at hreceived
  rw [outcome_of_ok hreceived, outcome_of_ok (processing_get _)]
  dsimp only
  cases directionOfResponse w.knownHosts w.clock.now w.registrations t.source.ip r.received.headers with
  | none => rfl
  | some directed =>
      obtain ⟨direction, registration⟩ := directed
      dsimp only
      rw [outcome_of_ok (consult_of_no_plugins _ _ hplugins)]
      dsimp only [responseOf]
      rw [outcome_of_ok (processing_pure _ _), outcome_of_ok (processing_get _),
        outcome_of_ok (processing_lift _ _)]
      have hmedia := keeps_anchorMedia (P := fun w => w.plugins.plugins = [])
        (keeps_startStream fun _ _ hw => hw) cx direction (clientOf r.received.headers t.source)
        (.response (r.received.prepared cx w direction)) w hplugins
      have hstopped := keeps_stopStreams (P := fun w => w.plugins.plugins = [])
        (keeps_stopDirection fun _ _ hw => hw)
        (anchorMedia cx direction (clientOf r.received.headers t.source)
          (.response (r.received.prepared cx w direction)) w).1.headers _ hmedia
      unfold Response.handled
      by_cases hends : endsCall r.received.headers r.received.status.code = true
      · rw [if_pos hends, if_pos hends, outcome_of_ok (processing_lift _ _)]
        exact outcome_of_handled { t with direction := some direction } registration _ hstopped
      · rw [if_neg hends, if_neg hends]
        exact outcome_of_handled { t with direction := some direction } registration _ hmedia

theorem processResponse_of_foreign {cx : Context} {t : Ticket} {r : Response}
    (hmessage : t.message = .response r) {w : World} (hplugins : w.plugins.plugins = [])
    (hforeign : (r.headers.topVia?.map (cx.own.ownsVia w.knownHosts)).getD false = false) :
    (processResponse cx t).outcome w = (.drop .foreignVia, w) := by
  have hreceived := receiveResponse_eq cx hmessage hplugins
  rw [hforeign] at hreceived
  rw [outcome_eq, processResponse, processing_bind, hreceived]
  rfl

/-- A response that is forwarded without plugins passes. -/
theorem response_passes {cx : Context} {t : Ticket} {r : Response} (hmessage : t.message = .response r)
    {w after : World} (hplugins : w.plugins.plugins = []) {m : Message} {destination : Endpoint}
    (h : route cx t w = (.forward m destination, after)) :
    ∃ direction registration, r.Passes cx t w direction registration m destination after := by
  obtain ⟨-, h⟩ := route_eq_forward h
  rw [hmessage] at h
  dsimp only at h
  cases hown : (r.headers.topVia?.map (cx.own.ownsVia w.knownHosts)).getD false with
  | false =>
      rw [processResponse_of_foreign hmessage hplugins hown] at h
      cases (Prod.mk.inj h).1
  | true =>
      rw [processResponse_of_own hmessage hplugins hown] at h
      cases hdirection : directionOfResponse w.knownHosts w.clock.now w.registrations t.source.ip
          r.received.headers with
      | none =>
          rw [hdirection] at h
          cases (Prod.mk.inj h).1
      | some directed =>
          obtain ⟨direction, registration⟩ := directed
          rw [hdirection] at h
          dsimp only at h
          refine ⟨direction, registration, ?_⟩
          unfold Ticket.sentOn at h
          cases hhop : t.nextHop with
          | some endpoint =>
              rw [hhop] at h
              obtain ⟨hforward, hafter⟩ := Prod.mk.inj h
              obtain ⟨hm, hdestination⟩ := Routed.forward.inj hforward
              exact ⟨hown, hdirection, hm.symm, by rw [hhop]; exact ⟨hdestination.symm, hafter.symm⟩⟩
          | none =>
              rw [hhop] at h
              obtain ⟨hforward, hafter⟩ := Prod.mk.inj h
              obtain ⟨hm, htarget⟩ := forwardTo_eq_forward hforward
              exact ⟨hown, hdirection, hm, by rw [hhop, hm]; exact Prod.ext htarget hafter⟩

end BorderProxy
