import BorderProxy.Proofs.Field.Stamp
import BorderProxy.Proofs.Proxy.Answers
import BorderProxy.Proofs.Proxy.Branches

/-! Requests that come back. A request that was forwarded with the Request-URI that it arrived with has the
branch of the proxy's own Via again when it returns, whatever other hops pushed above that Via and even if
its source is noted in it. So it is refused, and never goes round. -/

namespace BorderProxy

/-! Requests that were forwarded before. -/

/-- A request that was forwarded before is refused: for want of hops, if it has none left, or else as
looped. -/
theorem checkLoop_of_isLooped {cx : Context} {r : Request} {w : World}
    (h : cx.isLooped w.knownHosts r.headers r.branch = true) (source : Endpoint) :
    ∃ outcome after, checkLoop cx r source w = (.error outcome, after) ∧
      (r.headers.maxForwards? = some 0 → outcome.Refuses r.method 483 .ackWithoutHops) ∧
      (r.headers.maxForwards? ≠ some 0 → outcome.Refuses r.method 482 .loopedAck) := by
  unfold checkLoop
  by_cases hhops : r.headers.maxForwards? = some 0
  · obtain ⟨outcome, after, hrefuse, hrefuses⟩ :=
      refuse_spec (α := Text) cx r source 483 .ackWithoutHops w
    rw [if_pos hhops]
    exact ⟨outcome, after, hrefuse, fun _ => hrefuses, fun hnot => absurd hhops hnot⟩
  · obtain ⟨outcome, after, hrefuse, hrefuses⟩ := refuse_spec (α := Text) cx r source 482 .loopedAck w
    rw [if_neg hhops]
    refine ⟨outcome, after, ?_, fun hnone => absurd hnone hhops, fun _ => hrefuses⟩
    rw [processing_bind, processing_get]
    dsimp only
    rw [if_pos h]
    exact hrefuse

/-- Without plugins, routing a request that was forwarded before refuses it. -/
theorem route_of_isLooped {cx : Context} {t : Ticket} {r : Request} (hmessage : t.message = .request r)
    {w : World} (hplugins : w.plugins.plugins = []) (hcomplete : r.headers.checkComplete = .ok ())
    (h : cx.isLooped w.knownHosts (r.received cx w t.source).headers (r.received cx w t.source).branch =
      true) :
    (r.headers.maxForwards? = some 0 →
        (route cx t w).1.Refuses r.method 483 .ackWithoutHops) ∧
      (r.headers.maxForwards? ≠ some 0 → (route cx t w).1.Refuses r.method 482 .loopedAck) := by
  obtain ⟨outcome, after, hchecked, hrefuses⟩ := checkLoop_of_isLooped h t.source
  have hroute : route cx t w = (outcome, after) := by
    rw [route_of_complete cx (by rw [hmessage]; exact hcomplete), hmessage]
    dsimp only
    unfold processRequest
    rw [outcome_of_ok (receiveRequest_eq cx hmessage hplugins)]
    exact outcome_of_error hchecked
  rw [hroute]
  rw [r.maxForwards?_received] at hrefuses
  exact hrefuses

/-! The own Via of a request that comes back. -/

theorem ownsVia_congr {own : OwnAddresses} {known : KnownHosts} {via via' : Text}
    (h : Via.sentBy? via = Via.sentBy? via') : own.ownsVia known via = own.ownsVia known via' := by
  rw [OwnAddresses.ownsVia, OwnAddresses.ownsVia, h]

/-- The sender of the proxy's own Via is not changed where the source is noted in it. -/
theorem sentBy?_of_stamp?_ownVia {source : Endpoint} {ip : Ip} {port : UInt16} {branch stamped : Text}
    (h : Via.stamp? source (ownVia ip port branch) = some stamped) :
    Via.sentBy? stamped = Via.sentBy? (ownVia ip port branch) := by
  have hread := sentBy?_ownVia ip port branch []
  rw [List.append_nil] at hread
  have hstays := Via.sentBy?_stamped source hread (Ip.readHost_text ip)
  rw [Via.stamped, h, Option.getD_some] at hstays
  rw [hstays, hread]

theorem mem_vias_stamp (source : Endpoint) {hs : Headers} {via : Text} (h : via ∈ hs.vias) :
    ∃ via' ∈ (hs.stamp source).vias, via' = via ∨ Via.stamp? source via = some via' := by
  rw [Headers.vias_stamp]
  cases hvias : hs.vias with
  | nil => rw [hvias] at h; cases h
  | cons top below =>
      dsimp only
      rw [hvias] at h
      rcases List.mem_cons.mp h with rfl | h
      · refine ⟨_, List.mem_cons_self, ?_⟩
        cases Via.stamp? source via with
        | none => exact .inl rfl
        | some stamped => exact .inr rfl
      · exact ⟨via, List.mem_cons_of_mem _ h, .inl rfl⟩

/-- A request that has the proxy's own Via with its own branch among its Vias was forwarded before. -/
theorem isLooped_received {s : Settings} {w : World} {source : Endpoint} {r : Request}
    {direction : Direction}
    (h : ownVia ((Context.ofSettings s).ipTowards direction) (Context.ofSettings s).ownPort r.branch ∈
      r.headers.vias) :
    (Context.ofSettings s).isLooped w.knownHosts (r.received (.ofSettings s) w source).headers
      (r.received (.ofSettings s) w source).branch = true := by
  have hown := ownsVia_ownVia s w direction r.branch []
  have hbranch := branch?_ownVia ((Context.ofSettings s).ipTowards direction) (Context.ofSettings s).ownPort
    r.transactionKey.isWord_branch r.transactionKey.semicolon_not_mem_branch
  rw [List.append_nil] at hown
  obtain ⟨via, hmem, hvia⟩ := mem_vias_stamp source h
  have hsame : (Context.ofSettings s).own.ownsVia w.knownHosts via = true ∧
      Via.branch? via = some r.branch := by
    rcases hvia with rfl | hstamped
    · exact ⟨hown, hbranch⟩
    · rw [ownsVia_congr (sentBy?_of_stamp?_ownVia hstamped), branch?_stamp? hstamped]
      exact ⟨hown, hbranch⟩
  rw [Request.branch, Request.transactionKey_received, Context.isLooped, Request.vias_received,
    List.any_eq_true]
  exact ⟨via, hmem, by rw [hsame.1, Bool.true_and, beq_iff_eq]; exact hsame.2⟩

/-! Coming back. -/

/-- A request comes back: it is the one that was sent, with any Vias pushed above those it was sent with and
whatever else changed that does not tell its transaction. -/
structure Request.ComesBack (b f : Request) : Prop extends b.Repeats f where
  method : b.method = f.method
  receiver : b.headers.value? .to = f.headers.value? .to
  vias : ∃ more, b.headers.vias = more ++ f.headers.vias

theorem Request.Repeats.complete {r q : Request} (h : r.Repeats q)
    (hto : r.headers.value? .to = q.headers.value? .to) (hvias : r.headers.vias ≠ [])
    (hq : q.headers.checkComplete = .ok ()) : r.headers.checkComplete = .ok () := by
  rw [Headers.checkComplete_eq_ok_iff] at hq ⊢
  obtain ⟨-, hfrom, hreceiver, hcall, hsequence⟩ := hq
  refine ⟨?_, h.sender ▸ hfrom, hto ▸ hreceiver, h.callId ▸ hcall, ?_⟩
  · rw [Headers.topVia?_eq_head?, List.isSome_head?]
    exact hvias
  · rw [← Option.isSome_map, h.sequence, Option.isSome_map]
    exact hsequence

section

variable {s : Settings} {t t' : Ticket} {q f b : Request} {w w' after : World} {destination : Endpoint}

/-- A request that is forwarded with its Request-URI repeats what arrived, below the proxy's own Via. -/
theorem forwarded_repeats (hq : t.message = .request q) (hplugins : w.plugins.plugins = [])
    (hroute : route (.ofSettings s) t w = (.forward (.request f) destination, after))
    (huri : f.uri = q.uri) :
    f.Repeats q ∧ f.headers.values .to = q.headers.values .to ∧
      ∃ direction, f.headers.vias =
        ownVia ((Context.ofSettings s).ipTowards direction) (Context.ofSettings s).ownPort q.branch ::
          (q.headers.stamp t.source).vias := by
  obtain ⟨direction, registration, next, hpasses⟩ := request_passes hq hplugins hroute
  have hvalues : ∀ n : StandardName, n.isKept = true → n ≠ .contentLength →
      f.headers.values n = q.headers.values n := fun n => hpasses.values
  refine ⟨Request.repeats_of_values huri (hvalues _ rfl (by decide)) (hvalues _ rfl (by decide))
    (hvalues _ rfl (by decide)), hvalues _ rfl (by decide), direction, ?_⟩
  have hvias := hpasses.vias
  rw [Request.vias_received, Request.branch, Request.transactionKey_received] at hvias
  exact hvias

theorem vias_stamp_ne_nil {hs : Headers} (h : hs.checkComplete = .ok ()) (source : Endpoint) :
    (hs.stamp source).vias ≠ [] := by
  intro hnil
  have hbranches := hs.branches_stamp source
  rw [hnil, List.map_nil, eq_comm, List.map_eq_nil_iff] at hbranches
  obtain ⟨hvia, -⟩ := (Headers.checkComplete_eq_ok_iff hs).mp h
  rw [Headers.topVia?_eq_head?, hbranches] at hvia
  cases hvia

/-- A request that comes back has the branch that it was forwarded under. -/
theorem Request.ComesBack.branch_eq (hback : b.ComesBack f) (hq : t.message = .request q)
    (hplugins : w.plugins.plugins = [])
    (hroute : route (.ofSettings s) t w = (.forward (.request f) destination, after))
    (huri : f.uri = q.uri) : b.branch = q.branch := by
  obtain ⟨hrepeats, hto, direction, hvias⟩ := forwarded_repeats hq hplugins hroute huri
  obtain ⟨hcomplete, -⟩ := route_eq_forward hroute
  obtain ⟨more, hmore⟩ := hback.vias
  rw [hq] at hcomplete
  have hreceiver : b.headers.tag .to = q.headers.tag .to := by
    rw [Headers.tag, hback.receiver, ← Headers.tag, Headers.tag_congr hto]
  have hsent : f.headers.vias ≠ [] := by
    rw [hvias]
    exact List.cons_ne_nil _ _
  have horigin : b.headers.originBranch = q.headers.originBranch :=
    calc b.headers.originBranch
        = f.headers.originBranch := Headers.originBranch_of_pushed hsent hmore
      _ = (q.headers.stamp t.source).originBranch :=
          Headers.originBranch_of_pushed (vias_stamp_ne_nil hcomplete t.source)
            (hvias.trans List.singleton_append.symm)
      _ = q.headers.originBranch := Headers.originBranch_congr (q.headers.branches_stamp t.source)
  rw [Request.branch, Request.branch, (hback.toRepeats.trans hrepeats).transactionKey, hreceiver, horigin]
  rfl

/-- A request that was forwarded with the Request-URI that it arrived with, and that comes back at any later
time from anywhere, is refused: with 483 if it has no hops left, and with 482 otherwise. -/
theorem returned_request_is_refused (hq : t.message = .request q) (hplugins : w.plugins.plugins = [])
    (hroute : route (.ofSettings s) t w = (.forward (.request f) destination, after))
    (huri : f.uri = q.uri) (hb : t'.message = .request b) (hplugins' : w'.plugins.plugins = [])
    (hback : b.ComesBack f) :
    (b.headers.maxForwards? = some 0 →
        (route (.ofSettings s) t' w').1.Refuses b.method 483 .ackWithoutHops) ∧
      (b.headers.maxForwards? ≠ some 0 →
        (route (.ofSettings s) t' w').1.Refuses b.method 482 .loopedAck) := by
  obtain ⟨hrepeats, hto, direction, hvias⟩ := forwarded_repeats hq hplugins hroute huri
  obtain ⟨hcomplete, -⟩ := route_eq_forward hroute
  obtain ⟨more, hmore⟩ := hback.vias
  rw [hq] at hcomplete
  have hreceiver : b.headers.value? .to = q.headers.value? .to := by
    rw [hback.receiver, Headers.value?_eq_head?, Headers.value?_eq_head?, hto]
  have hown : ownVia ((Context.ofSettings s).ipTowards direction) (Context.ofSettings s).ownPort b.branch ∈
      b.headers.vias := by
    rw [hback.branch_eq hq hplugins hroute huri, hmore, hvias]
    exact List.mem_append_right more List.mem_cons_self
  exact route_of_isLooped hb hplugins' ((hback.toRepeats.trans hrepeats).complete hreceiver
    (List.ne_nil_of_mem hown) hcomplete) (isLooped_received hown)

end

theorem Request.comesBack_pushAbove (f : Request) (via : Text) :
    Request.ComesBack { f with headers := f.headers.pushAbove .via via } f where
  toRepeats := repeats_of_values rfl (Headers.values_pushAbove_other (by decide) via f.headers)
    (Headers.values_pushAbove_other (by decide) via f.headers)
    (Headers.values_pushAbove_other (by decide) via f.headers)
  method := rfl
  receiver := by
    rw [Headers.value?_eq_head?, Headers.value?_eq_head?, Headers.values_pushAbove_other (by decide)]
  vias := ⟨[via], Headers.values_pushAbove .via via f.headers⟩

namespace OutgoingCall

/-- A request that the called party sends back. -/
def sentBack (f : Request) : Request :=
  { f with headers := f.headers.pushAbove .via "SIP/2.0/UDP 192.0.2.9;branch=z9hG4bK9".toList }

def returned (f : Request) : Ticket := { message := .request (sentBack f), source := ⟨.v4 192 0 2 9, 5060⟩ }

/-- The request that is forwarded, if one is. -/
def requestSent? (outcome : Routed) : Option (Request × Endpoint) :=
  match outcome with
  | .forward (.request r) destination => some (r, destination)
  | _ => none

theorem requestSent?_eq_some {outcome : Routed} {r : Request} {destination : Endpoint}
    (h : requestSent? outcome = some (r, destination)) : outcome = .forward (.request r) destination := by
  unfold requestSent? at h
  split at h
  · obtain ⟨rfl, rfl⟩ := Prod.mk.inj (Option.some.inj h)
    rfl
  · cases h

end OutgoingCall

open OutgoingCall in
theorem returned_invitation_is_refused :
    ∃ f destination after,
      route (.ofSettings settings) invitation registered = (.forward (.request f) destination, after) ∧
        (route (.ofSettings settings) (returned f) after).1.Refuses .invite 482 .loopedAck := by
  have hfacts : ∃ sent ∈ requestSent? (route (.ofSettings settings) invitation registered).1,
      sent.1.uri = hostUri (.v4 192 0 2 9) ∧ (sentBack sent.1).method = .invite ∧
        (sentBack sent.1).headers.maxForwards? ≠ some 0 := by
    decide +kernel
  obtain ⟨q, hq, hinvited⟩ : ∃ q, invitation.message = .request q ∧ q.uri = hostUri (.v4 192 0 2 9) :=
    ⟨_, rfl, rfl⟩
  have hplugins := (reachable_registered.route invitation).ready.plugins
  rcases hroute : route (.ofSettings settings) invitation registered with ⟨outcome, after⟩
  rw [hroute] at hfacts hplugins
  obtain ⟨⟨f, destination⟩, hsent, huri, hmethod, hhops⟩ := hfacts
  obtain rfl := requestSent?_eq_some hsent
  have hreturned : (returned f).message = .request (sentBack f) := rfl
  obtain ⟨-, hrefused⟩ := returned_request_is_refused hq reachable_registered.ready.plugins hroute
    (huri.trans hinvited.symm) hreturned hplugins (f.comesBack_pushAbove _)
  have hrefuses := hrefused hhops
  rw [hmethod] at hrefuses
  exact ⟨f, destination, after, rfl, hrefuses⟩

end BorderProxy
