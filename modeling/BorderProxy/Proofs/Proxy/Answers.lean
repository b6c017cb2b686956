import BorderProxy.Proofs.Proxy.Vias

/-! Responses to requests that were forwarded. The request may have been told by its source, but the
response comes from elsewhere and is told by its sender: it comes in for the first registration that the
sender names, and is dropped where there is none. -/

namespace BorderProxy

/-- The first unexpired registration that the sender of a message names, as it is registered or as it is
presented. -/
def Registrations.ofSender? (known : KnownHosts) (now : Instant) (t : Registrations) (hs : Headers) :
    Option Registration := do
  let party ← hs.fromUri?
  (t.current now).find? fun r => r.isRegisteredAs known party || r.isPresentedAs known party

theorem directionOfResponse_of_foreign {known : KnownHosts} {now : Instant} {t : Registrations}
    {source : Ip} (h : t.ofContactIp? now source = none) (hs : Headers) :
    directionOfResponse known now t source hs =
      (t.ofSender? known now hs).map fun found => (.incoming, found) := by
  unfold directionOfResponse Registrations.ofSender?
  rw [h]
  cases hs.fromUri? with
  | none => rfl
  | some party =>
      simp only [Option.bind_eq_bind, Option.bind_some]
      cases (t.current now).find? fun r => r.isRegisteredAs known party || r.isPresentedAs known party <;>
        rfl

theorem ofSender?_congr {hs hs' : Headers} (h : hs.values .from = hs'.values .from) (known : KnownHosts)
    (now : Instant) (t : Registrations) : t.ofSender? known now hs = t.ofSender? known now hs' := by
  have hparty : hs.fromUri? = hs'.fromUri? := by
    rw [Headers.fromUri?, Headers.fromUri?, Headers.value?_eq_head?, Headers.value?_eq_head?, h]
  unfold Registrations.ofSender?
  rw [hparty]

/-- A response to a request that was forwarded as a message: it comes back with the message's Vias and
has the fields that tell which request it answers; the receiver may have been given a tag. -/
structure Response.Answers (q : Request) (m : Message) (r : Response) : Prop where
  returns : r.ReturnsTo m
  sender : r.headers.values .from = q.headers.values .from
  callId : r.headers.values .callId = q.headers.values .callId
  sequence : r.headers.values .cseq = q.headers.values .cseq
  receiver : ∃ party tag, q.headers.value? .to = some party ∧ r.headers.value? .to = some (party ++ tag)

theorem Response.Answers.complete {q : Request} {m : Message} {r : Response} (h : r.Answers q m)
    (hcomplete : q.headers.checkComplete = .ok ()) : r.headers.checkComplete = .ok () := by
  rw [Headers.checkComplete_eq_ok_iff] at hcomplete ⊢
  obtain ⟨-, hfrom, -, hcall, hsequence⟩ := hcomplete
  obtain ⟨top, extra, below, -, hvias⟩ := h.returns
  obtain ⟨party, tag, -, hto⟩ := h.receiver
  refine ⟨?_, ?_, ?_, ?_, ?_⟩
  · rw [Headers.topVia?_eq_head?, hvias]
    rfl
  · rw [Headers.value?_eq_head?, h.sender, ← Headers.value?_eq_head?]
    exact hfrom
  · rw [hto]
    rfl
  · rw [Headers.callId?_congr h.callId]
    exact hcall
  · rw [Headers.sequence?, h.sequence]
    exact hsequence

/-- A response that no plugin redirects is dropped with a fault if it has no target, and sent there
otherwise. -/
theorem Ticket.sentOn_of_target {t : Ticket} (hhop : t.nextHop = none) {registration : Registration}
    {handled : Message × World} {target : Option Endpoint}
    (htarget : (responseTarget handled.1.headers registration handled.2).1.toOption = target) :
    (target = none → ∃ fault, (t.sentOn registration handled).1 = .drop (.fault fault)) ∧
      ∀ destination, target = some destination → ∃ after,
        responseTarget handled.1.headers registration handled.2 = (.ok destination, after) ∧
          t.sentOn registration handled = (.forward handled.1 destination, after) := by
  subst htarget
  rw [sentOn, hhop]
  dsimp only
  rcases responseTarget handled.1.headers registration handled.2 with ⟨fault | endpoint, after⟩
  · refine ⟨fun _ => ⟨fault, rfl⟩, fun destination h => ?_⟩
    cases h
  · refine ⟨fun h => ?_, fun destination h => ?_⟩
    · cases h
    · obtain rfl : endpoint = destination := Option.some.inj h
      exact ⟨after, rfl, rfl⟩

section

variable {s : Settings} {t t' : Ticket} {q : Request} {r : Response} {w after w' : World} {m : Message}
  {destination : Endpoint}

/-- A response that repeats the fields of a forwarded request answers it. -/
theorem Response.answers_of_headers (hq : t.message = .request q) (hplugins : w.plugins.plugins = [])
    (hroute : route (.ofSettings s) t w = (.forward m destination, after)) (hr : r.headers = m.headers) :
    r.Answers q m := by
  obtain ⟨direction, registration, next, hpasses⟩ := request_passes hq hplugins hroute
  obtain ⟨hcomplete, -⟩ := route_eq_forward hroute
  rw [hq, Headers.checkComplete_eq_ok_iff] at hcomplete
  obtain ⟨party, hparty⟩ : ∃ party, q.headers.value? .to = some party :=
    Option.isSome_iff_exists.mp hcomplete.2.2.1
  refine ⟨returnsTo_of_headers hq hplugins hroute hr, ?_, ?_, ?_, party, [], hparty, ?_⟩
  · rw [hr, hpasses.values (by decide) (by decide)]
  · rw [hr, hpasses.values (by decide) (by decide)]
  · rw [hr, hpasses.values (by decide) (by decide)]
  · rw [hr, List.append_nil, Headers.value?_eq_head?, hpasses.values (by decide) (by decide),
      ← Headers.value?_eq_head?, hparty]

/-- What becomes of the response to a forwarded request when it arrives from the address of no registered
contact, whatever happened since the request was forwarded. It comes in exactly if the sender names a
registration and one of the Vias of the request and of that registration leads back. -/
theorem answer_comes_in (hq : t.message = .request q) (hplugins : w.plugins.plugins = [])
    (hroute : route (.ofSettings s) t w = (.forward m destination, after))
    (hr : t'.message = .response r) (hhop : t'.nextHop = none) (hplugins' : w'.plugins.plugins = [])
    (hanswers : r.Answers q m)
    (hforeign : w'.registrations.ofContactIp? w'.clock.now t'.source.ip = none) :
    (w'.registrations.ofSender? w'.knownHosts w'.clock.now q.headers = none →
      (route (.ofSettings s) t' w').1 = .drop .unmatchedResponse) ∧
    ∀ found, w'.registrations.ofSender? w'.knownHosts w'.clock.now q.headers = some found →
      (w'.wayBack? (q.headers.stamp t.source) found = none →
        ∃ fault, (route (.ofSettings s) t' w').1 = .drop (.fault fault)) ∧
      ∀ destination', w'.wayBack? (q.headers.stamp t.source) found = some destination' →
        ∃ m' after', route (.ofSettings s) t' w' = (.forward m' destination', after') ∧
          r.Passes (.ofSettings s) t' w' .incoming found m' destination' after' := by
  obtain ⟨hcomplete, -⟩ := route_eq_forward hroute
  rw [hq] at hcomplete
  have hanswered := hanswers.complete hcomplete
  obtain ⟨hown, hbelow⟩ := hanswers.returns.spec hq hplugins hroute w'
  have hsender : w'.registrations.ofSender? w'.knownHosts w'.clock.now r.received.headers =
      w'.registrations.ofSender? w'.knownHosts w'.clock.now q.headers := by
    refine ofSender?_congr ?_ _ _ _
    rw [Response.received, Headers.values_eraseFirst_other (by decide), hanswers.sender]
  have hdirection : directionOfResponse w'.knownHosts w'.clock.now w'.registrations t'.source.ip
      r.received.headers = (w'.registrations.ofSender? w'.knownHosts w'.clock.now q.headers).map
        fun found => (.incoming, found) := by
    rw [directionOfResponse_of_foreign hforeign, hsender]
  have hrouted : route (.ofSettings s) t' w' = (processResponse (.ofSettings s) t').outcome w' := by
    rw [route_of_complete _ (by rw [hr]; exact hanswered), hr]
  rw [processResponse_of_own hr hplugins' hown, hdirection] at hrouted
  refine ⟨fun hnone => ?_, fun found hfound => ?_⟩
  · rw [hrouted, hnone]
    rfl
  · rw [hfound] at hrouted hdirection
    dsimp only [Option.map_some] at hrouted
    have htarget := r.target_handled (.ofSettings s) t'.source .incoming hbelow found w'
    obtain ⟨hlost, hsent⟩ := Ticket.sentOn_of_target hhop htarget
    refine ⟨fun hnone => ?_, fun destination' hback => ?_⟩
    · rw [hrouted]
      exact hlost hnone
    · obtain ⟨after', htarget', hforward⟩ := hsent destination' hback
      refine ⟨_, after', hrouted.trans hforward, hown, hdirection, rfl, ?_⟩
      rw [hhop]
      exact htarget'

end

namespace OutgoingCall

/-- The invitation without the caller's name. -/
def anonymous : Ticket :=
  { invitation with
    message := invitation.message.mapHeaders
      (Headers.replaceFirst .from "<sip:anonymous@anonymous.invalid>;tag=1".toList) }

/-- A message that asks, in its Via, for replies to a host that cannot be looked up. -/
def astray (t : Ticket) : Ticket :=
  { t with
    message := t.message.mapHeaders
      (Headers.replaceFirst .via "SIP/2.0/UDP 10.0.0.5;received=astray.invalid;branch=z9hG4bK1".toList) }

/-- The world once the party is registered by such a message. -/
def registeredAstray : World :=
  (World.initial settings [] {} ⟨0, 0⟩ 1).run (.ofSettings settings) [.message (astray registration)]

end OutgoingCall

open OutgoingCall in
theorem answer_comes_in_outgoingCall :
    ∃ m destination after found m' after',
      route (.ofSettings settings) invitation registered = (.forward m destination, after) ∧
        route (.ofSettings settings) (answered m) after = (.forward m' party, after') ∧
          (answer m).Passes (.ofSettings settings) (answered m) after .incoming found m' party after' := by
  have hfacts :
      let result := route (.ofSettings settings) invitation registered
      result.1.forwarded?.isSome ∧
        result.2.registrations.ofContactIp? result.2.clock.now (.v4 192 0 2 9) = none ∧
        (result.2.registrations.ofSender? result.2.knownHosts result.2.clock.now
          [field .from "<sip:alice@192.0.2.1>;tag=1"]).map (fun found =>
            result.2.wayBack? [field .via "SIP/2.0/UDP 10.0.0.5;branch=z9hG4bK1"] found) =
          some (some party) := by
    decide +kernel
  have hreachable := reachable_registered
  have hplugins := (hreachable.route invitation).ready.plugins
  rcases hroute : route (.ofSettings settings) invitation registered with ⟨outcome, after⟩
  rw [hroute] at hfacts hplugins
  obtain ⟨hforwarded, hforeign, hsender⟩ := hfacts
  obtain ⟨m, destination, rfl⟩ := Routed.exists_of_forwarded hforwarded
  obtain ⟨found, hfound, hback⟩ := Option.map_eq_some_iff.mp hsender
  have hanswers := Response.answers_of_headers (r := answer m) rfl hreachable.ready.plugins hroute rfl
  have hanswer : (answered m).message = .response (answer m) := rfl
  obtain ⟨-, hcomes⟩ := answer_comes_in rfl hreachable.ready.plugins hroute hanswer rfl hplugins hanswers
    hforeign
  obtain ⟨m', after', hroute', hpasses⟩ := (hcomes found hfound).2 party hback
  exact ⟨m, destination, after, found, m', after', rfl, hroute', hpasses⟩

open OutgoingCall in
/-- A request of a registered party, forwarded because of its source, whose answer is dropped although the
party is still registered. -/
def LosesAnswer (t : Ticket) (w : World) (reason : DropReason) : Prop :=
  ∃ q found m destination after,
    t.message = .request q ∧ w.plugins.plugins = [] ∧
      w.registrations.ofContactIp? w.clock.now t.source.ip = some found ∧
      route (.ofSettings settings) t w = (.forward m destination, after) ∧ (answer m).Answers q m ∧
      after.registrations.ofContactIp? after.clock.now t.source.ip = some found ∧
      after.registrations.ofContactIp? after.clock.now (answered m).source.ip = none ∧
      (route (.ofSettings settings) (answered m) after).1 = .drop reason

open OutgoingCall in
theorem losesAnswer_of {t : Ticket} {q : Request} {w : World} {reason : DropReason}
    (hq : t.message = .request q) (hplugins : w.plugins.plugins = []) :
    let after := (route (.ofSettings settings) t w).2
    (w.registrations.ofContactIp? w.clock.now t.source.ip).isSome ∧
      after.registrations.ofContactIp? after.clock.now t.source.ip =
        w.registrations.ofContactIp? w.clock.now t.source.ip ∧
      after.registrations.ofContactIp? after.clock.now (.v4 192 0 2 9) = none ∧
      (route (.ofSettings settings) t w).1.forwarded?.map (fun sent =>
        (route (.ofSettings settings) (answered sent.1) after).1) = some (.drop reason) →
    LosesAnswer t w reason := by
  rintro after ⟨hsource, hstill, hforeign, hlost⟩
  obtain ⟨found, hfound⟩ := Option.isSome_iff_exists.mp hsource
  obtain ⟨⟨m, destination⟩, hsent, hdropped⟩ := Option.map_eq_some_iff.mp hlost
  have hroute : route (.ofSettings settings) t w = (.forward m destination, after) :=
    Prod.ext (Routed.forwarded?_eq_some_iff.mp hsent) rfl
  exact ⟨q, found, m, destination, after, hq, hplugins, hfound, hroute,
    Response.answers_of_headers hq hplugins hroute rfl, hstill.trans hfound, hforeign, hdropped⟩

open OutgoingCall in
/-- The answer is lost where the caller does not give its name, and where the caller asks for replies to a
host that cannot be looked up. -/
theorem answers_lost :
    LosesAnswer anonymous registered .unmatchedResponse ∧
      LosesAnswer (astray invitation) registeredAstray
        (.fault (.unresolvableHost "astray.invalid".toList)) :=
  ⟨losesAnswer_of rfl rfl (by decide +kernel), losesAnswer_of rfl rfl (by decide +kernel)⟩

end BorderProxy
