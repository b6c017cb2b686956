import BorderProxy.Proofs.Proxy.Anchoring
import BorderProxy.Proofs.Relay.Calls

/-! A proxy as it runs. Between messages time passes, timers tick, packets arrive on streams, and the
network around the proxy changes as it likes. Whatever the order of all this, streams are found at the
homes of their directions. -/

namespace BorderProxy

/-- What happens to a proxy. -/
inductive ProxyEvent where
  | message (t : Ticket)
  | time (d : Duration)
  | tick
  | packet (endpoint : Endpoint) (payload : List UInt8)
  | close
  | surroundings (network : Network)

/-- What an event does to the world. -/
def ProxyEvent.effect (cx : Context) : ProxyEvent → Act Unit
  | .message t => do let _ ← route cx t
  | .time d => do let _ ← passTime d
  | .tick => BorderProxy.tick
  | .packet endpoint payload => do
    let _ ← withRelay fun relay network now =>
      (relay.receiveAt network endpoint payload now).getD ([], relay, network)
  | .close => do
    let _ ← withRelay fun relay network _ => ((), relay.shutdown network)
  | .surroundings network => modify fun w => { w with network := network }

/-- The world after events. -/
def World.run (cx : Context) (w : World) (events : List ProxyEvent) : World :=
  events.foldl (fun w event => (event.effect cx w).2) w

/-- A world that a proxy without plugins comes to. -/
def World.Reachable (cx : Context) (w : World) : Prop :=
  ∃ (s : Settings) (network : Network) (clock : Clock) (processId : Nat) (events : List ProxyEvent),
    w = (World.initial s [] network clock processId).run cx events

variable {home : Direction → Ip}

theorem ready_initial (s : Settings) (network : Network) (clock : Clock) (processId : Nat) :
    (World.initial s [] network clock processId).Ready home where
  plugins := rfl
  settled relay hrelay := by
    unfold World.initial at hrelay
    dsimp only at hrelay
    split at hrelay
    · unfold Relay.new at hrelay
      cases hcheck : s.media.check with
      | error fault =>
          rw [hcheck] at hrelay
          cases hrelay
      | ok u =>
          rw [hcheck] at hrelay
          rw [← Option.some.inj hrelay]
          exact StreamTable.settled_empty home _ _ _
    · cases hrelay

theorem readies_passTime (d : Duration) : Keeps (World.Ready home) (passTime d) := by
  have hclock : Keeps (World.Ready home) (modify fun w => { w with clock := w.clock.advance d }) :=
    fun _ hw => ⟨hw.plugins, hw.settled⟩
  refine hclock.bind fun _ => (readies_withRelay fun relay network now hrelay => ?_).bind fun _ =>
    Keeps.pure _
  exact Relay.lasts_settle (StreamTable.lasting_settled home) hrelay network now

theorem readies_tick : Keeps (World.Ready home) tick := by
  have hage : Keeps (World.Ready home) ageRegistrations := fun _ hw => ⟨hw.plugins, hw.settled⟩
  refine hage.bind fun _ w hw => ⟨?_, hw.settled⟩
  show w.plugins.callTimer.plugins = []
  rw [PluginChain.callTimer, hw.plugins]
  exact hw.plugins

theorem readies_effect (cx : Context) (event : ProxyEvent) :
    Keeps (World.Ready cx.ipTowards) (event.effect cx) := by
  cases event with
  | message t =>
      exact (keeps_route (lasting_ready cx.ipTowards) readies_consult (readies_anchorMedia cx)
        readies_stopStreams t).bind fun _ => Keeps.pure _
  | time d => exact (readies_passTime d).bind fun _ => Keeps.pure _
  | tick => exact readies_tick
  | packet endpoint payload =>
      refine (readies_withRelay fun relay network now hrelay => ?_).bind fun _ => Keeps.pure _
      cases hresult : relay.receiveAt network endpoint payload now with
      | none => exact hrelay
      | some result =>
          exact Relay.lasts_receiveAt (StreamTable.lasting_settled cx.ipTowards) hrelay network now
            endpoint payload hresult
  | close =>
      refine (readies_withRelay fun relay network now hrelay => ?_).bind fun _ => Keeps.pure _
      exact Relay.lasts_shutdown (StreamTable.lasting_settled cx.ipTowards) hrelay network
  | surroundings network => exact fun _ hw => ⟨hw.plugins, hw.settled⟩

theorem readies_run (cx : Context) {w : World} (hw : w.Ready cx.ipTowards) (events : List ProxyEvent) :
    (w.run cx events).Ready cx.ipTowards := by
  induction events generalizing w with
  | nil => exact hw
  | cons event rest ih => exact ih (readies_effect cx event w hw)

theorem World.Reachable.effect {cx : Context} {w : World} (hw : w.Reachable cx) (event : ProxyEvent) :
    World.Reachable cx (event.effect cx w).2 := by
  obtain ⟨s, network, clock, processId, events, rfl⟩ := hw
  refine ⟨s, network, clock, processId, events ++ [event], ?_⟩
  unfold World.run
  rw [List.foldl_append]
  rfl

theorem World.Reachable.route {cx : Context} {w : World} (hw : w.Reachable cx) (t : Ticket) :
    World.Reachable cx (route cx t w).2 :=
  hw.effect (.message t)

theorem World.Reachable.passTime {cx : Context} {w : World} (hw : w.Reachable cx) (d : Duration) :
    World.Reachable cx (passTime d w).2 :=
  hw.effect (.time d)

theorem World.Reachable.ready {cx : Context} {w : World} (hw : w.Reachable cx) :
    w.Ready cx.ipTowards := by
  obtain ⟨s, network, clock, processId, events, rfl⟩ := hw
  exact readies_run cx (ready_initial s network clock processId) events

/-! What holds of the relay of a proxy that runs, whatever plugins it has. -/

/-- What holds of the relay of a world, if it has one. -/
def World.Holds (P : Relay → Prop) (w : World) : Prop := ∀ relay, w.relay = some relay → P relay

/-- What every step keeps that a proxy has its relay take. -/
structure Context.Steady (cx : Context) (P : Relay → Prop) : Prop where
  start : ∀ {r : Relay} (network : Network) (now : Instant) {q : StreamRequest}, cx.Asks q → P r →
    P (r.start network q now).2.1
  stop : ∀ {r : Relay} (network : Network) (callId : CallId) (direction : Direction), P r →
    P (r.stop network callId direction .all).2.1
  settle : ∀ {r : Relay} (network : Network) (now : Instant), P r → P (r.settle network now).2.1
  receiveAt : ∀ {r : Relay} (network : Network) (now : Instant) (endpoint : Endpoint)
    (payload : List UInt8), P r →
      P ((r.receiveAt network endpoint payload now).getD ([], r, network)).2.1
  shutdown : ∀ {r : Relay} (network : Network), P r → P (r.shutdown network).1

theorem holds_withRelay {P : Relay → Prop} {α : Type}
    {step : Relay → Network → Instant → α × Relay × Network}
    (h : ∀ relay network now, P relay → P (step relay network now).2.1) :
    Keeps (World.Holds P) (withRelay step) := by
  intro w hw
  cases hrelay : w.relay with
  | none =>
      rw [withRelay_of_none step hrelay]
      exact hw
  | some relay =>
      rw [withRelay_of_some step hrelay]
      intro after hafter
      rw [← Option.some.inj hafter]
      exact h relay w.network w.clock.now (hw relay hrelay)

section

variable {cx : Context} {P : Relay → Prop} (hP : cx.Steady P)

include hP

theorem holds_anchorMedia (direction : Direction) (client : Text) (m : Message) :
    Keeps (World.Holds P) (anchorMedia cx direction client m) :=
  keeps_anchorMedia_of_asks (fun _ hq =>
    (holds_withRelay fun _ network now hr => hP.start network now hq hr).bind fun _ => Keeps.pure _)
    direction client m

theorem holds_route (t : Ticket) : Keeps (World.Holds P) (route cx t) := by
  have hstop : ∀ callId direction, Keeps (World.Holds P) (stopDirection callId direction) :=
    fun callId direction =>
      (holds_withRelay fun _ network _ hr => hP.stop network callId direction hr).bind
        fun _ => Keeps.pure _
  exact keeps_route ⟨fun _ hw => hw, fun _ hw => hw, fun _ hw => hw⟩ (keeps_consult fun _ hw => hw)
    (holds_anchorMedia hP) (keeps_stopStreams hstop) t

theorem holds_effect (event : ProxyEvent) : Keeps (World.Holds P) (event.effect cx) := by
  cases event with
  | message t => exact (holds_route hP t).bind fun _ => Keeps.pure _
  | time d =>
      have hclock : Keeps (World.Holds P) (modify fun w => { w with clock := w.clock.advance d }) :=
        fun _ hw => hw
      have hsettle := hclock.bind fun _ =>
        (holds_withRelay fun _ network now hr => hP.settle network now hr).bind fun attempts =>
          Keeps.pure (Attempt.sent (attempts.getD []))
      exact hsettle.bind fun _ => Keeps.pure _
  | tick => exact fun _ hw => hw
  | packet endpoint payload =>
      exact (holds_withRelay fun _ network now hr => hP.receiveAt network now endpoint payload hr).bind
        fun _ => Keeps.pure _
  | close =>
      exact (holds_withRelay fun _ network _ hr => hP.shutdown network hr).bind fun _ => Keeps.pure _
  | surroundings network => exact fun _ hw => hw

theorem holds_run {w : World} (hw : w.Holds P) (events : List ProxyEvent) : (w.run cx events).Holds P := by
  induction events generalizing w with
  | nil => exact hw
  | cons event rest ih => exact ih (holds_effect hP event w hw)

end

/-- A proxy begins with an idle relay, if it has one. -/
theorem holds_initial {P : Relay → Prop} (hidle : ∀ m devices now, P (.idle m devices now)) (s : Settings)
    (plugins : List Plugin) (network : Network) (clock : Clock) (processId : Nat) :
    (World.initial s plugins network clock processId).Holds P := by
  intro relay hrelay
  unfold World.initial at hrelay
  dsimp only at hrelay
  split at hrelay
  · unfold Relay.new at hrelay
    cases hcheck : s.media.check with
    | error fault =>
        rw [hcheck] at hrelay
        cases hrelay
    | ok u =>
        rw [hcheck] at hrelay
        rw [← Option.some.inj hrelay]
        exact hidle _ _ _
  · cases hrelay

/-! The relay of a proxy that runs has come about by steps of a relay. -/

/-- A world whose relay, if it has one, is one that runs lead to. -/
def World.RunsRelay (w : World) : Prop := ∀ relay, w.relay = some relay → relay.Reachable

theorem steady_reachable (cx : Context) : cx.Steady Relay.Reachable where
  start network now q _ hr := hr.perform network now (.start q)
  stop network callId direction hr := hr.perform network 0 (.stop callId direction .all)
  settle network now hr := hr.settle network now
  receiveAt network now endpoint payload hr := hr.receiveAt network now endpoint payload
  shutdown network hr := hr.perform network 0 .shutdown

theorem World.Reachable.runsRelay {cx : Context} {w : World} (hw : w.Reachable cx) : w.RunsRelay := by
  obtain ⟨s, network, clock, processId, events, rfl⟩ := hw
  have hidle : ∀ m devices now, (Relay.idle m devices now).Reachable :=
    fun m devices now => ⟨m, devices, now, [], rfl⟩
  exact holds_run (steady_reachable cx) (holds_initial hidle s [] network clock processId) events

end BorderProxy
