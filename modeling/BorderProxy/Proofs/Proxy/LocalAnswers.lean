import BorderProxy.Proofs.Field.Stamp
import BorderProxy.Proofs.Proxy.Answers
import BorderProxy.Proofs.Proxy.Parts

/-! Where local answers go. The proxy answers a request along its topmost Via, in which it has noted the
source of the request, or to the source itself. So an answer comes back to the address of the source, unless
the Via came with a "received" of its own, which the proxy keeps. -/

namespace BorderProxy

/-! The target of an answer. -/

/-- A local answer goes where the Via of its request leads once its host has been looked up, or else to the
source. -/
theorem destination_of_respondWith {r : Request} {source destination : Endpoint} {answer : Nat → Response}
    {response : Response} {w after : World}
    (h : respondWith r source answer w = (.respond response destination, after)) :
    destination = (after.replyEndpoint? r.headers.topVia?).getD source := by
  unfold respondWith at h
  rw [act_bind, act_bind] at h
  obtain ⟨hresponse, rfl⟩ := Prod.mk.inj h
  obtain ⟨-, rfl⟩ := Routed.respond.inj hresponse
  show (answerTarget r.headers source w).1 =
    ((answerTarget r.headers source w).2.replyEndpoint? r.headers.topVia?).getD source
  unfold answerTarget
  cases htarget : r.headers.topVia?.bind Via.replyTarget? with
  | none =>
      dsimp only
      rw [World.replyEndpoint?_of_none htarget]
      rfl
  | some target =>
      obtain ⟨host, port⟩ := target
      dsimp only
      rw [act_bind, World.replyEndpoint?_of_target htarget]
      show (lookUpEndpoint host port w).1.toOption.getD source =
        (((lookUpEndpoint host port w).2.lookedUp host).map fun ip => ⟨ip, port⟩).toOption.getD source
      rw [lookedUp_lookUpEndpoint, lookUpEndpoint_fst]

/-! Processing that ends by an answer. -/

theorem forwardTo_ne_respond (m : Message) (target : Except Fault Endpoint) (response : Response)
    (destination : Endpoint) : forwardTo m target ≠ .respond response destination := by
  cases target <;> exact fun h => by cases h

/-- Where a message is answered to, if it is answered locally. -/
def Routed.answeredTo? : Routed → Option Endpoint
  | .respond _ destination => some destination
  | _ => none

theorem Routed.answeredTo?_eq_some_iff {outcome : Routed} {destination : Endpoint} :
    outcome.answeredTo? = some destination ↔ ∃ response, outcome = .respond response destination := by
  cases outcome <;> simp [answeredTo?]

/-- Processing that does not end early by a local answer. -/
def EndsUnanswered {α : Type} : Processing α → Prop := EndsBy fun outcome _ => outcome.answeredTo? = none

section

variable {α : Type} {x : Processing α} {f : α → Processing Routed} {w after : World} {response : Response}
  {destination : Endpoint}

theorem respond_of_unanswered (hx : EndsUnanswered x)
    (h : (x >>= f).outcome w = (.respond response destination, after)) :
    ∃ a next, x w = (.ok a, next) ∧ (f a).outcome next = (.respond response destination, after) := by
  refine (ends_or_goesOn h).resolve_left fun hends => ?_
  cases hx w _ after hends

/-- Where processing ends by a local answer, a step of it ended so, or what followed the step. -/
theorem respond_of_andThen {cx : Context} {r : Request} {source : Endpoint} (hx : EndsAnswered cx r source x)
    (h : (x >>= f).outcome w = (.respond response destination, after)) :
    (∃ answer v, r.HasAnswer cx source answer ∧
        respondWith r source answer v = (.respond response destination, after)) ∨
      ∃ a next, x w = (.ok a, next) ∧ (f a).outcome next = (.respond response destination, after) := by
  refine (ends_or_goesOn h).imp_left fun hends => ?_
  refine (hx w _ after hends).resolve_left fun ⟨reason, hdrop⟩ => ?_
  cases hdrop

end

/-- Sending a request on is no answer to it. -/
theorem passRequest_ne_respond (cx : Context) (direction : Direction) (strict : Bool) (t : Ticket) {w after : World}
    {response : Response} {destination : Endpoint} :
    (passRequest cx direction strict t).outcome w ≠ (.respond response destination, after) := by
  have hconsult : EndsUnanswered (consult .postProxy t) := endsBy_consult (fun _ => rfl) _ _
  intro h
  obtain ⟨t', next, -, h⟩ := respond_of_unanswered hconsult h
  obtain ⟨r, next', -, h⟩ := respond_of_unanswered (endsBy_requestOf (fun _ _ => rfl) t') h
  rw [outcome_of_ok (processing_lift _ _), outcome_eq, processing_pure] at h
  exact forwardTo_ne_respond _ _ _ _ (congrArg Prod.fst h)

/-- Without plugins a local answer to a request is an answer to the request as it was received. -/
theorem answer_of_route {cx : Context} {t : Ticket} {r : Request} (hmessage : t.message = .request r)
    {w after : World} (hplugins : w.plugins.plugins = []) {response : Response} {destination : Endpoint}
    (h : route cx t w = (.respond response destination, after)) :
    r.headers.checkComplete = .ok () ∧
      ∃ answer v, (r.received cx w t.source).HasAnswer cx t.source answer ∧
        respondWith (r.received cx w t.source) t.source answer v = (.respond response destination, after) := by
  cases hcomplete : t.message.headers.checkComplete with
  | error fault =>
      rw [route_of_incomplete cx hcomplete] at h
      cases (Prod.mk.inj h).1
  | ok u =>
      rw [route_of_complete cx hcomplete, hmessage] at h
      rw [hmessage] at hcomplete
      dsimp only at h
      refine ⟨hcomplete, ?_⟩
      have hsteps := h
      unfold processRequest at hsteps
      rw [outcome_of_ok (receiveRequest_eq cx hmessage hplugins)] at hsteps
      dsimp only at hsteps
      rcases respond_of_andThen (endsAnswered_checkLoop cx _ _) hsteps with
        hanswer | ⟨branch, same, hchecked, hsteps⟩
      · exact hanswer
      obtain ⟨rfl, rfl, -, -⟩ := checkLoop_eq_ok hchecked
      rcases respond_of_andThen (endsAnswered_directRequest cx _ _) hsteps with
        hanswer | ⟨⟨direction, registration⟩, next, hdirected, -⟩
      · exact hanswer
      -- A request that is given a direction is forwarded or dropped.
      obtain ⟨-, hsent⟩ := processRequest_of_directed hmessage hplugins hchecked hdirected
      rw [hsent] at h
      exact absurd h (passRequest_ne_respond cx _ _ _)

/-- Sending a response on is no answer to it. -/
theorem passResponse_ne_respond (registration : Registration) (t : Ticket) {w after : World}
    {response : Response} {destination : Endpoint} :
    (passResponse registration t).outcome w ≠ (.respond response destination, after) := by
  have hconsult : EndsUnanswered (consult .postProxy t) := endsBy_consult (fun _ => rfl) _ _
  intro h
  obtain ⟨t', next, -, h⟩ := respond_of_unanswered hconsult h
  cases hhop : t'.nextHop with
  | some endpoint =>
      rw [hhop] at h
      cases (Prod.mk.inj h).1
  | none =>
      rw [hhop] at h
      dsimp only at h
      rw [outcome_of_ok (processing_lift _ _), outcome_eq, processing_pure] at h
      exact forwardTo_ne_respond _ _ _ _ (congrArg Prod.fst h)

/-- A response is not answered, whatever the plugins do. -/
theorem processResponse_ne_respond (cx : Context) (t : Ticket) {w after : World} {response : Response}
    {destination : Endpoint} :
    (processResponse cx t).outcome w ≠ (.respond response destination, after) := by
  have hsettle : EndsUnanswered (settleResponse cx t) :=
    endsBy_settleResponse (fun _ _ => rfl) (fun _ => rfl) cx t
  rw [processResponse_eq]
  intro h
  obtain ⟨c, next, -, h⟩ := respond_of_unanswered hsettle h
  unfold sendResponse at h
  dsimp only at h
  rw [outcome_of_ok (processing_get _), outcome_of_ok (processing_lift _ _)] at h
  split at h
  · rw [outcome_of_ok (processing_lift _ _)] at h
    exact passResponse_ne_respond _ _ h
  · exact passResponse_ne_respond _ _ h

/-! Answers come back. -/

/-- Where a Via leads in which a source was noted. -/
theorem World.replyEndpoint?_stamped {w : World} {source endpoint : Endpoint} {via : Text}
    (h : w.replyEndpoint? (some (Via.stamped source via)) = some endpoint) :
    (Via.param? via "received".toList = none → endpoint.ip = source.ip) ∧
      (Via.HasOpenRport via → endpoint.port = source.port) := by
  obtain ⟨⟨host, port⟩, htarget, h⟩ := Option.bind_eq_some_iff.mp h
  obtain ⟨ip, hlooked, h⟩ := Option.bind_eq_some_iff.mp h
  obtain rfl := Option.some.inj h
  obtain ⟨hhost, hport⟩ := Via.replyTarget?_stamped htarget
  refine ⟨fun hreceived => ?_, hport⟩
  have hliteral : w.lookedUp host = .ok source.ip := by
    have hcached : w.resolver.cached w.clock.now host = some source.ip := by
      unfold Resolver.cached
      rw [hhost hreceived]
    unfold lookedUp Resolver.resolve
    rw [hcached]
  rw [hliteral] at hlooked
  exact (Option.some.inj hlooked).symm

/-- A request that is answered locally has a Via, and the answer goes where that leads with the source noted
in it, or else to the source. Unless the Via has a "received" of its own, this is at the address of the source;
and where it has one "rport", which has no value, at the port of the source. -/
theorem local_answers_return {cx : Context} {t : Ticket} {q : Request} (hq : t.message = .request q)
    {w after : World} (hplugins : w.plugins.plugins = []) {response : Response} {destination : Endpoint}
    (hroute : route cx t w = (.respond response destination, after)) :
    ∃ via, q.headers.topVia? = some via ∧
      destination = (after.replyEndpoint? (some (Via.stamped t.source via))).getD t.source ∧
        (Via.param? via "received".toList = none → destination.ip = t.source.ip) ∧
          (Via.HasOpenRport via → destination.port = t.source.port) := by
  obtain ⟨hcomplete, answer, v, -, hanswer⟩ := answer_of_route hq hplugins hroute
  obtain ⟨hvia, -⟩ := (Headers.checkComplete_eq_ok_iff q.headers).mp hcomplete
  obtain ⟨via, hvia⟩ := Option.isSome_iff_exists.mp hvia
  have hreceived : (q.received cx w t.source).headers.topVia? = some (Via.stamped t.source via) := by
    rw [Headers.topVia?_eq_head?] at hvia
    obtain ⟨below, hvias⟩ := List.head?_eq_some_iff.mp hvia
    rw [Headers.topVia?_eq_head?, Request.vias_received, Headers.vias_stamp, hvias]
    rfl
  have hdestination := destination_of_respondWith hanswer
  rw [hreceived] at hdestination
  have hreturns : (Via.param? via "received".toList = none → destination.ip = t.source.ip) ∧
      (Via.HasOpenRport via → destination.port = t.source.port) := by
    rw [hdestination]
    cases hleads : after.replyEndpoint? (some (Via.stamped t.source via)) with
    | none => exact ⟨fun _ => rfl, fun _ => rfl⟩
    | some endpoint => exact World.replyEndpoint?_stamped hleads
  exact ⟨via, hvia, hdestination, hreturns⟩

/-! A query from a source that belongs to no registered party. -/

namespace Stranger

open OutgoingCall

def source : Endpoint := ⟨.v4 10 0 0 8, 5061⟩

def query (via : String) : Ticket :=
  { message := .request
      { method := .options
        uri := hostUri (.v4 192 0 2 9)
        version := .two
        headers :=
          [field .via via,
            field .from "<sip:carol@10.0.0.8>;tag=1",
            field .to "<sip:bob@192.0.2.9>",
            field .callId "b",
            field .cseq "1 OPTIONS",
            field .maxForwards "70"]
        body := [] }
    source := source }

end Stranger

open Stranger in
open OutgoingCall (settings registered) in
/-- The Via names its sender by a host and with another port than the source has. -/
theorem answer_returns_to_stranger :
    ∃ response destination after,
      route (.ofSettings settings) (query "SIP/2.0/UDP carol.example:5070;rport;branch=z9hG4bK1") registered =
          (.respond response destination, after) ∧
        Via.param? "SIP/2.0/UDP carol.example:5070;rport;branch=z9hG4bK1".toList "received".toList = none ∧
          Via.HasOpenRport "SIP/2.0/UDP carol.example:5070;rport;branch=z9hG4bK1".toList ∧
            destination.ip = source.ip ∧ destination.port = source.port := by
  generalize hvia : "SIP/2.0/UDP carol.example:5070;rport;branch=z9hG4bK1" = via
  have hanswered : (route (.ofSettings settings) (query via) registered).1.answeredTo?.isSome := by
    rw [← hvia]
    decide +kernel
  have hplugins : registered.plugins.plugins = [] := by decide +kernel
  have hreceived : Via.param? via.toList "received".toList = none := by
    rw [← hvia]
    decide +kernel
  have hopen : Via.HasOpenRport via.toList := by
    rw [← hvia]
    exact ⟨"rport".toList, by decide +kernel, by decide +kernel⟩
  obtain ⟨destination, hanswered⟩ := Option.isSome_iff_exists.mp hanswered
  rcases hroute : route (.ofSettings settings) (query via) registered with ⟨outcome, after⟩
  rw [hroute] at hanswered
  obtain ⟨response, rfl⟩ := Routed.answeredTo?_eq_some_iff.mp hanswered
  obtain ⟨value, hvalue, -, hip, hport⟩ := local_answers_return rfl hplugins hroute
  obtain rfl : via.toList = value := Option.some.inj hvalue
  exact ⟨response, destination, after, rfl, hreceived, hopen, hip hreceived, hport hopen⟩

open Stranger in
open OutgoingCall (settings registered) in
/-- A "received" that a request comes with leads its answer to another address than that of the source, and an
"rport" with an empty value does not lead it to the port of the source. -/
theorem answers_led_astray :
    ((route (.ofSettings settings)
          (query "SIP/2.0/UDP 10.0.0.8:5061;received=192.0.2.66;branch=z9hG4bK1") registered).1.answeredTo? =
        some ⟨.v4 192 0 2 66, 5061⟩ ∧ source.ip ≠ .v4 192 0 2 66) ∧
      (route (.ofSettings settings)
          (query "SIP/2.0/UDP 10.0.0.8:5070;rport=;branch=z9hG4bK1") registered).1.answeredTo? =
        some ⟨.v4 10 0 0 8, 5070⟩ ∧ source.port ≠ 5070 := by
  decide +kernel

end BorderProxy
