import BorderProxy.Proofs.Field.Loose
import BorderProxy.Proofs.Proxy.Bodies

/-! Next hops of requests by their Routes. A router that expects its own address as the Request-URI is given it, and
the Request-URI waits at the end of the Route list. So both kinds of routers are reached by the URI of the first Route,
and what is written into the Route list is read there again, where it can be. -/

namespace BorderProxy

/-! Post-processing. -/

/-- A first Route that can be read and is not taken for a loose router. -/
def Request.FirstIsStrict (r : Request) : Prop :=
  ∃ first uri, r.headers.routes.head? = some first ∧ NameAddr.uri? first = some uri ∧
    NameAddr.isLoose first = false

theorem Request.promoteStrictRoute_of_strict {r : Request} {first : Text} {rest : List Text} {uri : Uri}
    (hroutes : r.headers.routes = first :: rest) (huri : NameAddr.uri? first = some uri)
    (hstrict : NameAddr.isLoose first = false) :
    r.promoteStrictRoute =
      ({ r with uri := uri, headers := r.headers.withRoutes (rest ++ ['<' :: r.uri.text ++ ['>']]) }, true) := by
  unfold promoteStrictRoute
  rw [hroutes]
  dsimp only
  rw [hstrict, huri]
  rfl

theorem Request.promoteStrictRoute_of_not_strict {r : Request} (h : ¬ r.FirstIsStrict) :
    r.promoteStrictRoute = (r, false) := by
  unfold promoteStrictRoute
  cases hroutes : r.headers.routes with
  | nil => rfl
  | cons first rest =>
      dsimp only
      cases hloose : NameAddr.isLoose first with
      | true => rfl
      | false =>
          cases huri : NameAddr.uri? first with
          | none => rfl
          | some uri => exact absurd ⟨first, uri, by rw [hroutes]; rfl, huri, hloose⟩ h

/-- What post-processing makes of a request. -/
structure Request.PostProcessed (old new : Request) : Prop where
  /-- A first Route that can be read and is not taken for a loose router becomes the Request-URI. The Request-URI
  followed by the Route URIs is then what the Route URIs followed by the Request-URI were, exactly if the old
  Request-URI is read again where it is written. -/
  shifted : ∀ first rest uri, old.headers.routes = first :: rest → NameAddr.uri? first = some uri →
    NameAddr.isLoose first = false →
      new.uri = uri ∧ new.headers.routes = rest ++ ['<' :: old.uri.text ++ ['>']] ∧
        (some new.uri :: new.headers.routes.map NameAddr.uri? =
            old.headers.routes.map NameAddr.uri? ++ [some old.uri] ↔
          NameAddr.uri? ('<' :: old.uri.text ++ ['>']) = some old.uri)
  /-- In all other cases nothing is changed. -/
  kept : ¬ old.FirstIsStrict → new = old
  /-- A first Route with a URI that is read to its end is taken for a loose router if its URI says so, or if what
  looks like the mark stands in front of the parameters, where it takes a semicolon in the scheme or the user part. -/
  marked : ∀ first text uri, old.headers.routes.head? = some first → NameAddr.uriText? first = some text →
    Uri.readFront text = some (uri, []) →
      ∃ front, uri.EndsBehind front text ∧
        NameAddr.isLoose first = (hasLooseMark front || uri.isLooseRouter) ∧
        (';' ∉ (uri.scheme.map Scheme.text).getD [] → ';' ∉ (uri.userInfo.map UserInfo.text).getD [] →
          NameAddr.isLoose first = uri.isLooseRouter)
  /-- A Request-URI that was read from a text is read again if its own text has no closing bracket and no blanks at
  its ends. -/
  readAgain : ∀ text, Uri.read text = some old.uri → '>' ∉ old.uri.text → Text.trim old.uri.text = old.uri.text →
    NameAddr.uri? ('<' :: old.uri.text ++ ['>']) = some old.uri

theorem Request.postProcessed (r : Request) : r.PostProcessed r.promoteStrictRoute.1 where
  shifted first rest uri hroutes huri hstrict := by
    rw [promoteStrictRoute_of_strict hroutes huri hstrict]
    have hnew : (r.headers.withRoutes (rest ++ ['<' :: r.uri.text ++ ['>']])).routes =
        rest ++ ['<' :: r.uri.text ++ ['>']] := Headers.values_replaceAll .route _ _
    refine ⟨rfl, hnew, ?_⟩
    dsimp only
    have hold : (first :: rest).map NameAddr.uri? = some uri :: rest.map NameAddr.uri? := by
      rw [List.map_cons, huri]
    rw [hnew, hroutes, hold, List.map_append, List.map_singleton]
    exact (List.append_right_inj (some uri :: rest.map NameAddr.uri?)).trans List.singleton_inj
  kept h := by rw [promoteStrictRoute_of_not_strict h]
  marked first text uri _ htext hwhole := by
    obtain ⟨front, hends, hfront⟩ := Uri.exists_endsBehind hwhole
    have hmark := (NameAddr.isLoose_of_uriText htext).trans hends.hasLooseMark
    refine ⟨front, hends, hmark, fun hscheme huser => ?_⟩
    rw [hmark, hasLooseMark_of_not_mem (hfront hscheme huser), Bool.false_or]
  readAgain text hread hclosing htrimmed := by
    rw [NameAddr.uri?_bracketed hclosing htrimmed]
    exact Uri.read_text hread

/-- Of a request that is post-processed, the target is the URI of its first Route, or else its Request-URI. -/
theorem Request.routeTarget_promoteStrictRoute (r : Request) {sent : Request}
    (huri : sent.uri = r.promoteStrictRoute.1.uri)
    (hroutes : sent.headers.routes = r.promoteStrictRoute.1.headers.routes) :
    routeTarget sent r.promoteStrictRoute.2 = r.headers.nextRoute?.getD r.uri := by
  by_cases hstrict : r.FirstIsStrict
  · obtain ⟨first, uri, hhead, hread, hmark⟩ := hstrict
    obtain ⟨rest, hwhole⟩ := List.head?_eq_some_iff.mp hhead
    rw [promoteStrictRoute_of_strict hwhole hread hmark] at huri ⊢
    rw [routeTarget, if_pos rfl, huri, Headers.nextRoute?, hhead]
    dsimp only [Option.bind_some]
    rw [hread, Option.getD_some]
  · rw [promoteStrictRoute_of_not_strict hstrict] at huri hroutes ⊢
    rw [routeTarget, if_neg Bool.false_ne_true, Headers.nextRoute?, hroutes, huri]
    rfl

/-! Targets. -/

/-- Whether a request is sent by its Routes and Request-URI: it comes in, or there is neither a proxy for its domain
nor one for all requests. -/
def Context.SendsByUri (cx : Context) (direction : Direction) (r : Request) : Prop :=
  direction = .incoming ∨ cx.settings.sip.outboundProxy = none ∧
    ∀ d ∈ cx.domainRoutes, Text.sameLetters d.domain r.uri.hostText = false

theorem requestTarget_of_sendsByUri {cx : Context} {direction : Direction} {r : Request}
    (h : cx.SendsByUri direction r) (strict : Bool) :
    requestTarget cx r direction none strict = lookUpUri (routeTarget r strict) := by
  unfold requestTarget
  rcases h with rfl | ⟨hproxy, hdomains⟩
  · cases cx.domainRoutes.find? _ <;> rfl
  · have hnone : (cx.domainRoutes.find? fun d => Text.sameLetters d.domain r.uri.hostText) = none := by
      rw [List.find?_eq_none]
      intro d hd
      rw [hdomains d hd]
      exact Bool.false_ne_true
    dsimp only
    rw [hnone, hproxy]
    cases direction <;> rfl

/-! Requests on their course. -/

/-- What media make of a request that faces the other side. -/
def RequestCourse.handled (cx : Context) (source : Endpoint) (w : World) (c : RequestCourse) : Message × World :=
  handleMedia cx c.method c.direction (clientOf c.ticket.message.headers source) (c.faced cx w) w

/-- Media leave a request its Request-URI and its Routes. -/
theorem handleMedia_keeps_uri (cx : Context) (method : Method) (direction : Direction) (client : Text) (r : Request)
    (w : World) : ∃ r', (handleMedia cx method direction client r w).1 = .request r' ∧ r'.uri = r.uri ∧
      r'.headers.routes = r.headers.routes := by
  have hanchored : ∃ r', (anchorMedia cx direction client (.request r) w).1 = .request r' ∧ r'.uri = r.uri ∧
      r'.headers.routes = r.headers.routes := by
    rw [anchorMedia_eq]
    split
    · dsimp only
      split
      · exact ⟨r, rfl, rfl, rfl⟩
      · exact ⟨_, rfl, rfl, Headers.values_setLast_other (by decide) _ r.headers⟩
    · exact ⟨r, rfl, rfl, rfl⟩
  unfold handleMedia
  cases method with
  | invite => exact hanchored
  | ack => exact hanchored
  | update => exact hanchored
  | _ => exact ⟨r, rfl, rfl, rfl⟩

theorem RequestCourse.routes_faced (cx : Context) (w : World) (c : RequestCourse) :
    (c.faced cx w).headers.routes = c.request.headers.routes := by
  unfold faced
  dsimp only
  rw [Headers.routes, Headers.values_forwardHeaders (by decide), Headers.values_presentContact (by decide),
    Request.headers_aimAt]
  rfl

/-- A request is sent on as it is handled and post-processed. -/
theorem outcome_sendRequest (cx : Context) (source : Endpoint) (c : RequestCourse) (w : World) {old : Request}
    {v : World} (h : c.handled cx source w = (.request old, v)) :
    (sendRequest cx source c).outcome w =
      (passRequest cx c.direction old.promoteStrictRoute.2
        { c.ticket with message := .request old.promoteStrictRoute.1 }).outcome v := by
  unfold sendRequest
  rw [outcome_of_ok (processing_get _), outcome_of_ok (processing_lift _ _)]
  unfold RequestCourse.handled RequestCourse.faced at h
  dsimp only at h ⊢
  rw [h]
  rfl

theorem Ticket.route_of_settled {cx : Context} {t : Ticket} {w : World} {c : RequestCourse}
    (h : t.settled? cx w = some (.request c)) :
    route cx t w = (sendRequest cx t.source c).outcome (t.settledWorld cx w) := by
  obtain ⟨v, hsettled⟩ := exists_settled h
  rw [hsettled.settledWorld]
  obtain ⟨hmethod, hsteps⟩ := hsettled
  cases hcomplete : t.message.headers.checkComplete with
  | error fault =>
      rw [settled?, hcomplete] at h
      cases h
  | ok u =>
      rw [route_of_complete cx hcomplete]
      cases hmessage : t.message with
      | response r =>
          rw [hmessage] at hmethod
          cases hmethod
      | request q =>
          dsimp only
          rw [processRequest_eq, outcome_of_ok hsteps]

/-- A request of which the course is settled faces the other side with the Request-URI of its direction and with its
Routes, and is post-processed. Where the plugins then leave its Request-URI and Routes and give no next hop, and it is
sent by these, its next hop is where the URI of the first Route from before post-processing leads, if that can be read,
whether or not the router is taken for a loose one, and else where the Request-URI leads. -/
theorem nextHop_of_settled {cx : Context} {t : Ticket} {w : World} {c : RequestCourse}
    (hsettled : t.settled? cx w = some (.request c)) :
    ∃ old v, c.handled cx t.source (t.settledWorld cx w) = (.request old, v) ∧
      old.uri = (c.request.aimAt c.direction c.registration).uri ∧
      old.headers.routes = c.request.headers.routes ∧
      (∀ t' after sent,
        consult .postProxy { c.ticket with message := .request old.promoteStrictRoute.1 } v = (.ok t', after) →
        t'.message = .request sent → sent.uri = old.promoteStrictRoute.1.uri →
        sent.headers.routes = old.promoteStrictRoute.1.headers.routes → t'.nextHop = none →
        cx.SendsByUri c.direction sent →
          let target := lookUpUri (old.headers.nextRoute?.getD old.uri) after
          route cx t w = (forwardTo (.request sent) target.1, target.2)) ∧
      old.PostProcessed old.promoteStrictRoute.1 := by
  obtain ⟨old, hold, huri, hroutes⟩ := handleMedia_keeps_uri cx c.method c.direction
    (clientOf c.ticket.message.headers t.source) (c.faced cx (t.settledWorld cx w)) (t.settledWorld cx w)
  refine ⟨old, (c.handled cx t.source (t.settledWorld cx w)).2, Prod.ext hold rfl, huri,
    hroutes.trans (c.routes_faced cx _), ?_, old.postProcessed⟩
  intro t' after sent hconsult hmessage hsameUri hsameRoutes hhop hsends target
  rw [Ticket.route_of_settled hsettled, outcome_sendRequest cx t.source c _ (Prod.ext hold rfl),
    outcome_passRequest hconsult hmessage, hhop, requestTarget_of_sendsByUri hsends,
    old.routeTarget_promoteStrictRoute hsameUri hsameRoutes]

namespace OutgoingCall

/-- The invitation with a Route. -/
def invitationBy (route : String) : Ticket :=
  { invitation with message := invitation.message.mapHeaders (Headers.pushAbove .route route.toList) }

/-- What decides where a request is sent. -/
structure Bearings where
  direction : Direction
  nextHop : Option Endpoint
  uri : Uri
  routes : List Text
  plugins : Nat
  deriving DecidableEq

/-- The bearings of a request once its course is settled. -/
def bearings? (t : Ticket) : Option Bearings :=
  match t.settled? (.ofSettings settings) registered with
  | some (.request c) =>
      let handled := c.handled (.ofSettings settings) t.source (t.settledWorld (.ofSettings settings) registered)
      some
        { direction := c.direction
          nextHop := c.ticket.nextHop
          uri := (c.request.aimAt c.direction c.registration).uri
          routes := c.request.headers.routes
          plugins := handled.2.plugins.plugins.length }
  | _ => none

end OutgoingCall

open OutgoingCall in
/-- A call with a Route without the mark goes to the router, which is given its own address as the Request-URI. -/
theorem nextHop_of_strict_invitation :
    ∃ sent after,
      route (.ofSettings settings) (invitationBy "<sip:198.51.100.9>") registered =
        (.forward (.request sent) ⟨.v4 198 51 100 9, 5060⟩, after) ∧
      sent.uri = hostUri (.v4 198 51 100 9) ∧ sent.headers.routes = ["<sip:192.0.2.9>".toList] := by
  have hfacts : bearings? (invitationBy "<sip:198.51.100.9>") =
      some ⟨.outgoing, none, hostUri (.v4 192 0 2 9), ["<sip:198.51.100.9>".toList], 0⟩ := by
    decide +kernel
  have huri : NameAddr.uri? "<sip:198.51.100.9>".toList = some (hostUri (.v4 198 51 100 9)) := by decide +kernel
  have hmark : NameAddr.isLoose "<sip:198.51.100.9>".toList = false := by decide +kernel
  generalize invitationBy "<sip:198.51.100.9>" = t at hfacts ⊢
  generalize "<sip:198.51.100.9>".toList = first at hfacts huri hmark
  unfold bearings? at hfacts
  split at hfacts
  · rename_i c hsettled
    obtain ⟨-, hhop, hasked, hroutes, hnone⟩ := Bearings.mk.inj (Option.some.inj hfacts)
    obtain ⟨old, v, hhandled, holdUri, holdRoutes, hsent, hprocessed⟩ := nextHop_of_settled hsettled
    rw [hhandled] at hnone
    have hfirst := holdRoutes.trans hroutes
    obtain ⟨hnewUri, hnewRoutes, -⟩ := hprocessed.shifted first [] _ hfirst huri hmark
    have hroute := hsent _ v _ (consult_of_no_plugins _ _ (List.eq_nil_of_length_eq_zero hnone)) rfl rfl rfl hhop
      (.inr ⟨rfl, fun d hd => absurd hd List.not_mem_nil⟩)
    have htarget : (lookUpUri (old.headers.nextRoute?.getD old.uri) v).1 = .ok ⟨.v4 198 51 100 9, 5060⟩ := by
      rw [Headers.nextRoute?, hfirst, List.head?_cons, Option.bind_some, huri, Option.getD_some]
      rfl
    dsimp only at hroute
    rw [htarget] at hroute
    refine ⟨_, _, hroute, hnewUri, ?_⟩
    rw [hnewRoutes, holdUri, hasked]
    decide +kernel
  · cases hfacts

open OutgoingCall in
/-- A user part hides that a router does not carry the mark, and the header fields of a URI hide that one does. -/
theorem marks_misread :
    let asked (value : Text) : Request :=
      { callBack with headers := Headers.pushAbove .route value callBack.headers }
    let hidden := "<sip:bob;lr=1@198.51.100.9>".toList
    let carried := "<sip:198.51.100.9;lr?Subject=x>".toList
    (NameAddr.uri? hidden).map Uri.isLooseRouter = some false ∧
      (asked hidden).promoteStrictRoute = (asked hidden, false) ∧
      (NameAddr.uri? carried).map Uri.isLooseRouter = some true ∧
      NameAddr.uri? carried = some (asked carried).promoteStrictRoute.1.uri ∧
      (asked carried).promoteStrictRoute.1.uri ≠ (asked carried).uri := by
  decide +kernel

end BorderProxy
