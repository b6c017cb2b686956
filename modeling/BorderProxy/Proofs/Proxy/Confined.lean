import BorderProxy.Proofs.Proxy.Parts
import BorderProxy.Proofs.Proxy.Registering

/-! Commands stay within one call. The commands for a message are about the call of that message, so the
streams of all other calls stay as they are; and a message that ends its call leaves no stream of it. -/

namespace BorderProxy

/-! The Call-ID on the way. -/

/-- Plugins that leave the Call-ID of a message as it is. -/
def PluginChain.KeepsCallIds (c : PluginChain) : Prop :=
  ∀ p ∈ c.plugins, ∀ log stage t,
    (p.process log stage t).2.message.headers.callId? = t.message.headers.callId?

theorem Message.isOffRoute_callId? : IsOffRoute fun m => m.headers.callId? :=
  fun m edit hedit => Headers.callId?_congr (isOffRoute_values (by decide) m edit hedit)

/-! Commands are about one call. -/

/-- The fields that a message has once its course is settled; those that it came with, if it does not get so
far. -/
def Ticket.settledHeaders (cx : Context) (w : World) (t : Ticket) : Headers :=
  ((t.settled? cx w).map Course.headers).getD t.message.headers

theorem Ticket.callId?_settledHeaders (cx : Context) {w : World} (t : Ticket)
    (hkeeps : w.plugins.KeepsCallIds) :
    (t.settledHeaders cx w).callId? = t.message.headers.callId? := by
  unfold settledHeaders
  cases hsettled : t.settled? cx w with
  | none => rfl
  | some course =>
      have hcall := Ticket.part_settled Message.isOffRoute_callId? hkeeps hsettled
      cases course <;> exact hcall

theorem callId_of_mem_anchorCommands {cx : Context} {relay : Relay} {direction : Direction}
    {client : Text} {m : Message} {command : RelayCommand}
    (h : command ∈ cx.anchorCommands relay direction client m) :
    ∃ id, m.headers.callId? = some id ∧ command.callId = .ofText id := by
  cases hdescription : m.description? with
  | none =>
      rw [Context.anchorCommands, hdescription] at h
      cases h
  | some description =>
      rw [Context.anchorCommands, hdescription] at h
      obtain ⟨callId, text, sdp⟩ := description
      obtain ⟨q, hq, rfl⟩ := List.mem_map.mp h
      obtain ⟨m', -, hrequest⟩ := List.mem_filterMap.mp hq
      obtain ⟨ip, -, -, rfl⟩ := requests_eq_some hrequest
      obtain ⟨-, -, -, id, hid, rfl⟩ := Message.description?_eq_some hdescription
      exact ⟨id, hid, rfl⟩

theorem callId_of_mem_stopCommands {hs : Headers} {command : RelayCommand} (h : command ∈ hs.stopCommands) :
    ∃ id, hs.callId? = some id ∧ command.callId = .ofText id := by
  cases hid : hs.callId? with
  | none =>
      rw [Headers.stopCommands, hid] at h
      cases h
  | some id =>
      rw [Headers.stopCommands, hid] at h
      exact ⟨id, rfl, RelayCommand.callId_stopBoth _ command h⟩

theorem Course.callId_of_mem_commands {cx : Context} {relay : Relay} {source : Endpoint} {course : Course}
    {command : RelayCommand} (h : command ∈ course.commands cx relay source) :
    ∃ id, course.headers.callId? = some id ∧ command.callId = .ofText id := by
  cases course with
  | request c =>
      change command ∈ c.commands cx relay source at h
      unfold RequestCourse.commands at h
      split at h
      · exact callId_of_mem_anchorCommands h
      · exact callId_of_mem_anchorCommands h
      · exact callId_of_mem_anchorCommands h
      · exact callId_of_mem_stopCommands h
      · exact callId_of_mem_stopCommands h
      · cases h
  | response c =>
      rcases List.mem_append.mp h with h | h
      · exact callId_of_mem_anchorCommands h
      · split at h
        · exact callId_of_mem_stopCommands h
        · cases h

theorem Ticket.commands_of_settled {cx : Context} {t : Ticket} {w : World} {relay : Relay}
    (hw : w.relay = some relay) {course : Course} (hsettled : t.settled? cx w = some course) :
    t.commands cx w = course.commands cx relay t.source := by
  rw [Ticket.commands, hw, hsettled]

/-- The commands for a message are about the call that it has when its course is settled. -/
theorem Ticket.callId_commands {cx : Context} {t : Ticket} {w : World} {id : Text}
    (hid : (t.settledHeaders cx w).callId? = some id) :
    ∀ command ∈ t.commands cx w, command.callId = .ofText id := by
  intro command hcommand
  unfold Ticket.commands at hcommand
  split at hcommand
  · rename_i hsettled
    rw [Ticket.settledHeaders, hsettled] at hid
    obtain ⟨id', hid', hcall⟩ := Course.callId_of_mem_commands hcommand
    obtain rfl := Option.some.inj (hid'.symm.trans hid)
    exact hcall
  · cases hcommand

/-- Without plugins the course of a request is settled once it has passed the checks and has a direction. -/
theorem Ticket.settled?_of_directed {cx : Context} {t : Ticket} {w : World} {q : Request}
    (hq : t.message = .request q) (hplugins : w.plugins.plugins = [])
    (hcomplete : t.message.headers.checkComplete = .ok ()) (hmethod : q.method ≠ .register)
    (hhops : (q.received cx w t.source).headers.maxForwards? ≠ some 0)
    (hnew : cx.isLooped w.knownHosts (q.received cx w t.source).headers
      (q.received cx w t.source).branch = false)
    {direction : Direction} {registration : Registration}
    (hdirection : directionOfRequest w.knownHosts w.clock.now w.registrations t.source.ip
      (q.received cx w t.source) = some (direction, registration)) :
    t.settled? cx w =
      some (.request
        { method := q.method
          branch := (q.received cx w t.source).branch
          direction := direction
          registration := some registration
          ticket :=
            { t with message := .request (q.received cx w t.source), direction := some direction }
          request := q.received cx w t.source }) := by
  have hregister : (q.received cx w t.source).method ≠ .register := hmethod
  unfold settled? settleRequest
  rw [hcomplete, hq, processing_bind, receiveRequest_eq cx hq hplugins]
  dsimp only
  rw [processing_bind, checkLoop_of_unlooped hhops hnew]
  dsimp only
  rw [processing_bind, directRequest_of_directed hregister hdirection]
  dsimp only
  rw [processing_bind, consult_of_no_plugins _ _ hplugins]
  rfl

/-- Whether a message ends its call: it is a BYE or a CANCEL, or a response that does. -/
def Course.endsCall : Course → Bool
  | .request c => c.method = .bye || c.method = .cancel
  | .response c => BorderProxy.endsCall c.response.headers c.response.status.code

/-- The commands for a message that ends its call stop it both ways in the end. -/
theorem Course.exists_commands_of_endsCall (course : Course) (cx : Context) (relay : Relay)
    (source : Endpoint) (hends : course.endsCall = true) {id : Text}
    (hid : course.headers.callId? = some id) :
    ∃ front, course.commands cx relay source = front ++ RelayCommand.stopBoth (.ofText id) := by
  have hstop : course.headers.stopCommands = RelayCommand.stopBoth (.ofText id) := by
    rw [Headers.stopCommands, hid]
  cases course with
  | request c =>
      refine ⟨[], ?_⟩
      have hmethod : c.method = .bye ∨ c.method = .cancel := by simpa [Course.endsCall] using hends
      show c.commands cx relay source = _
      unfold RequestCourse.commands
      rcases hmethod with h | h <;> rw [h] <;> exact hstop
  | response c =>
      refine ⟨cx.anchorCommands relay c.direction (clientOf c.ticket.message.headers source)
        (.response c.response), ?_⟩
      show c.commands cx relay source = _
      unfold ResponseCourse.commands
      rw [if_pos (show BorderProxy.endsCall c.response.headers c.response.status.code = true from hends)]
      exact congrArg _ hstop

/-- Whatever a relay has been through, the commands for a message are about the call that the message has
when its course is settled, which is the one that it came with unless a plugin gave it another. So the
streams of all other calls stay as they are, with their places, opposites and packets; and if the message ends
its call, that has no stream and no packet left. -/
theorem route_confines {cx : Context} {t : Ticket} {w : World} {relay : Relay} (hrelay : relay.Reachable)
    (hw : w.relay = some relay) {id : Text} (hid : (t.settledHeaders cx w).callId? = some id) :
    (w.plugins.KeepsCallIds → t.message.headers.callId? = some id) ∧
      (∀ command ∈ t.commands cx w, command.callId = .ofText id) ∧
      ∃ after, (route cx t w).2.relay = some after ∧
        after = (RelayCommand.carryOutAll w.clock.now (t.commands cx w) (relay, w.network)).1 ∧
        Relay.Spares (.ofText id) relay after ∧
        ∀ course, t.settled? cx w = some course → course.endsCall = true →
          Relay.Over (.ofText id) relay after := by
  have hcommands := Ticket.callId_commands hid
  have hafter := congrArg Prod.fst (relayed_route cx t hw)
  rw [World.command_of_some hw] at hafter
  refine ⟨fun hkeeps => (t.callId?_settledHeaders cx hkeeps).symm.trans hid, hcommands, _, hafter, rfl,
    (hrelay.tidy.carryOutAll w.network w.clock.now hcommands).2, fun course hsettled hends => ?_⟩
  rw [Ticket.settledHeaders, hsettled] at hid
  obtain ⟨front, hfront⟩ := course.exists_commands_of_endsCall cx relay t.source hends hid
  rw [Ticket.commands_of_settled hw hsettled, hfront] at hcommands ⊢
  exact hrelay.tidy.over_stopBoth w.network w.clock.now fun command hmem =>
    hcommands command (List.mem_append_left _ hmem)

namespace OutgoingCall

/-- The invitation to a second call of the party. -/
def secondInvitation : Ticket :=
  { invitation with message := invitation.message.mapHeaders fun hs => hs.setLast .callId "c".toList }

/-- The world in which the party has two calls. -/
def twoCalls : World :=
  (route (.ofSettings settings) secondInvitation (route (.ofSettings settings) invitation registered).2).2

/-- The end of the first call. -/
def goodbye : Ticket :=
  ticket .bye (.v4 192 0 2 9) [field .to "<sip:bob@192.0.2.9>;tag=2", field .cseq "3 BYE"] ""

end OutgoingCall

open OutgoingCall in
theorem confines_goodbye :
    ∃ relay after, twoCalls.relay = some relay ∧
      relay.table.entries.map (fun entry => entry.2.key.callId) =
        [.ofText "a".toList, .ofText "c".toList] ∧
      (route (.ofSettings settings) goodbye twoCalls).2.relay = some after ∧
      Relay.Spares (.ofText "a".toList) relay after ∧ Relay.Over (.ofText "a".toList) relay after := by
  have hreachable : twoCalls.Reachable (.ofSettings settings) :=
    (reachable_registered.route invitation).route secondInvitation
  have hfacts :
      (twoCalls.relay.map fun relay => relay.table.entries.map fun entry => entry.2.key.callId) =
          some [.ofText "a".toList, .ofText "c".toList] ∧
        (goodbye.settled? (.ofSettings settings) twoCalls).map (fun course =>
          (course.headers.callId?, course.endsCall)) = some (some "a".toList, true) := by
    decide +kernel
  obtain ⟨hstreams, hsettled⟩ := hfacts
  obtain ⟨relay, hrelay, hstreams⟩ := Option.map_eq_some_iff.mp hstreams
  obtain ⟨course, hcourse, hfields⟩ := Option.map_eq_some_iff.mp hsettled
  obtain ⟨hid, hends⟩ := Prod.mk.inj hfields
  have hheaders : (goodbye.settledHeaders (.ofSettings settings) twoCalls).callId? = some "a".toList := by
    rw [Ticket.settledHeaders, hcourse]
    exact hid
  obtain ⟨-, -, after, hafter, -, hspares, hover⟩ :=
    route_confines (hreachable.runsRelay relay hrelay) hrelay hheaders
  exact ⟨relay, after, hrelay, hstreams, hafter, hspares, hover course hcourse hends⟩

end BorderProxy
