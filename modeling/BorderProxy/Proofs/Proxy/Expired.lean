import BorderProxy.Proofs.Proxy.Commands
import BorderProxy.Proofs.Proxy.Lockstep
import BorderProxy.Proofs.Proxy.Registering

/-! Registrations that have expired. They stay in the table until the timer ticks, but the table is read for
current registrations only, so routing a message goes as if they were gone already. This is a property of two
runs side by side: in worlds that differ in expired registrations only, every step but a registration has
the same result, and leaves such worlds. -/

namespace BorderProxy

variable {α : Type}

/-- Two worlds without plugins that differ in their registrations at most, and have the same ones that are
current. -/
def World.Alike (w v : World) : Prop :=
  ∃ table : Registrations, v = { w with registrations := table } ∧
    table.current w.clock.now = w.registrations.current w.clock.now ∧ w.plugins.plugins = []

/-- A world once the registrations that have expired are removed. -/
def World.aged (w : World) : World := (ageRegistrations w).2

theorem World.alike_aged {w : World} (hplugins : w.plugins.plugins = []) : w.Alike w.aged :=
  ⟨_, rfl, Registrations.current_age w.clock.now w.registrations, hplugins⟩

/-- A step that has the same result in worlds that are alike, and leaves them alike. -/
def Overlooks (step : Act α) : Prop :=
  ∀ w v, w.Alike v → (step v).1 = (step w).1 ∧ (step w).2.Alike (step v).2

/-- Worlds that are alike agree in all that routing reads. -/
theorem World.agreement_alike : World.Agreement World.Alike where
  clock := by
    rintro w _ ⟨table, rfl, -⟩
    rfl
  network := by
    rintro w _ ⟨table, rfl, -⟩
    rfl
  resolver := by
    rintro w _ ⟨table, rfl, -⟩
    rfl
  relay := by
    rintro w _ ⟨table, rfl, -⟩
    rfl
  current := by
    rintro w _ ⟨table, rfl, hcurrent, -⟩
    exact hcurrent
  lookUp := by
    rintro w _ resolver ⟨table, rfl, hcurrent, hplugins⟩
    exact ⟨table, rfl, hcurrent, hplugins⟩
  media := by
    rintro w _ relay network ⟨table, rfl, hcurrent, hplugins⟩
    exact ⟨table, rfl, hcurrent, hplugins⟩

theorem overlooks_consult (stage : Stage) (t : Ticket) : Overlooks (consult stage t).run := by
  rintro w _ ⟨table, rfl, halike⟩
  rw [ExceptT.run, consult_of_no_plugins stage t halike.2,
    consult_of_no_plugins stage t (w := { w with registrations := table }) halike.2]
  exact ⟨rfl, table, rfl, halike⟩

/-- Receiving a request leaves its method as it is. -/
theorem overlooks_receiveRequest_andThen (cx : Context) {t : Ticket} {q : Request}
    (hq : t.message = .request q) {f : Ticket × Request → Processing α}
    (hf : ∀ received, received.2.method = q.method → Overlooks (f received).run) :
    Overlooks (receiveRequest cx t >>= f).run := by
  rintro w _ ⟨table, rfl, halike⟩
  rw [ExceptT.run, processing_bind, processing_bind, receiveRequest_eq cx hq halike.2,
    receiveRequest_eq cx hq (w := { w with registrations := table }) halike.2]
  exact hf (_, q.received cx w t.source) rfl w _ ⟨table, rfl, halike⟩

theorem overlooks_settleRequest (cx : Context) {t : Ticket} {q : Request} (hq : t.message = .request q)
    (hmethod : q.method ≠ .register) : Overlooks (settleRequest cx t).run := by
  refine overlooks_receiveRequest_andThen cx hq fun received hreceived => ?_
  have hregister : received.2.method ≠ .register := hreceived ▸ hmethod
  refine (lockstep_checkLoop World.agreement_alike cx _ _).andThen fun branch => ?_
  refine (lockstep_directRequest World.agreement_alike cx fun h => absurd h hregister).andThen
    fun directed => ?_
  exact Lockstep.andThen (overlooks_consult _ _) fun _ => (lockstep_requestOf _).andThen fun _ =>
    Lockstep.done _

theorem overlooks_settleResponse (cx : Context) (t : Ticket) : Overlooks (settleResponse cx t).run :=
  lockstep_settleResponse World.agreement_alike overlooks_consult cx t

theorem overlooks_route (cx : Context) {t : Ticket}
    (hmethod : ∀ q, t.message = .request q → q.method ≠ .register) : Overlooks (route cx t) := by
  unfold route
  split
  · exact Lockstep.pure _
  · split
    · rename_i q hq
      rw [processRequest_eq]
      exact (Lockstep.andThen (overlooks_settleRequest cx hq (hmethod q hq)) fun c =>
        lockstep_sendRequest World.agreement_alike overlooks_consult cx t.source c).outcome
    · rw [processResponse_eq]
      exact (Lockstep.andThen (overlooks_settleResponse cx t) fun c =>
        lockstep_sendResponse World.agreement_alike overlooks_consult cx t.source c).outcome

/-- The commands for a message are the same in worlds that are alike. -/
theorem commands_of_alike (cx : Context) {t : Ticket}
    (hmethod : ∀ q, t.message = .request q → q.method ≠ .register) {w v : World} (h : w.Alike v) :
    t.commands cx v = t.commands cx w := by
  have hsettled : t.settled? cx v = t.settled? cx w := by
    unfold Ticket.settled?
    cases t.message.headers.checkComplete with
    | error fault => rfl
    | ok u =>
        cases hq : t.message with
        | request q =>
            have hsame := (overlooks_settleRequest cx hq (hmethod q hq) w v h).1
            rw [ExceptT.run] at hsame
            rw [hsame]
        | response r =>
            have hsame := (overlooks_settleResponse cx t w v h).1
            rw [ExceptT.run] at hsame
            rw [hsame]
  have hrelay : v.relay = w.relay := by
    obtain ⟨table, rfl, -⟩ := h
    rfl
  rw [Ticket.commands, Ticket.commands, hsettled, hrelay]

/-- Registrations that have expired have no influence on a message that is no REGISTER: whether they are
gone or still there, the same becomes of it, the relay is given the same commands, and the worlds after it
differ in nothing but the registrations, which stay as they were. -/
theorem route_overlooks_expired {cx : Context} {t : Ticket} {w : World} (hplugins : w.plugins.plugins = [])
    (hmethod : ∀ q, t.message = .request q → q.method ≠ .register) :
    (route cx t w.aged).1 = (route cx t w).1 ∧ t.commands cx w.aged = t.commands cx w ∧
      (route cx t w.aged).2 =
        { (route cx t w).2 with registrations := (w.registrations.age w.clock.now).2 } := by
  have halike := World.alike_aged hplugins
  obtain ⟨hresult, table, hafter, -⟩ := overlooks_route cx hmethod w w.aged halike
  refine ⟨hresult, commands_of_alike cx hmethod halike, ?_⟩
  have htable := registrations_route cx t (w := w.aged) hplugins
  rw [t.registering?_eq_none cx w.aged hmethod, hafter] at htable
  rw [hafter, ← show table = (w.registrations.age w.clock.now).2 from htable]

namespace OutgoingCall

/-- The world in which the registration of the party has expired, before the timers tick. -/
def lapsed : World := (passTime (.seconds 700) registered).2

end OutgoingCall

open OutgoingCall in
theorem overlooks_lapsed :
    lapsed.registrations.entries.length = 1 ∧ lapsed.aged.registrations.entries = [] ∧
      (route (.ofSettings settings) invitation lapsed.aged).1 =
        (route (.ofSettings settings) invitation lapsed).1 ∧
      invitation.commands (.ofSettings settings) lapsed.aged =
        invitation.commands (.ofSettings settings) lapsed := by
  have hreachable : lapsed.Reachable (.ofSettings settings) :=
    reachable_registered.passTime (.seconds 700)
  have htables : lapsed.registrations.entries.length = 1 ∧ lapsed.aged.registrations.entries = [] := by
    decide +kernel
  have hmethod : ∀ q, invitation.message = .request q → q.method ≠ .register := by
    intro q hq
    rw [← Message.request.inj hq]
    decide
  obtain ⟨hresult, hcommands, -⟩ := route_overlooks_expired hreachable.ready.plugins hmethod
  exact ⟨htables.1, htables.2, hresult, hcommands⟩

end BorderProxy
