import BorderProxy.Proofs.Proxy.Anchored
import BorderProxy.Proofs.Proxy.Lockstep
import BorderProxy.Proofs.Proxy.Pipeline

/-! Plugins while messages are routed. Passive plugins make no difference to what becomes of a message, nor to
the world but for the log of their calls; and a plugin that answers a message is the last one that is called
for it, after which nothing is sent. -/

namespace BorderProxy

/-- The world without plugins. -/
def World.unplugged (w : World) : World := { w with plugins := {} }

/-- A world with passive plugins beside the same world without any. -/
def World.Passive (w v : World) : Prop := v = w.unplugged ∧ ∀ p ∈ w.plugins.plugins, p.Passive

theorem World.agreement_passive : World.Agreement World.Passive where
  clock := by
    rintro w _ ⟨rfl, -⟩
    rfl
  network := by
    rintro w _ ⟨rfl, -⟩
    rfl
  resolver := by
    rintro w _ ⟨rfl, -⟩
    rfl
  relay := by
    rintro w _ ⟨rfl, -⟩
    rfl
  current := by
    rintro w _ ⟨rfl, -⟩
    rfl
  lookUp := by
    rintro w _ resolver ⟨rfl, hpassive⟩
    exact ⟨rfl, hpassive⟩
  media := by
    rintro w _ relay network ⟨rfl, hpassive⟩
    exact ⟨rfl, hpassive⟩

theorem passive_consult (stage : Stage) (t : Ticket) :
    Lockstep World.Passive (consult stage t).run := by
  rintro w _ ⟨rfl, hpassive⟩
  obtain ⟨hunanswered, hsame⟩ := PluginChain.runOn_of_passive stage hpassive t w.plugins
  have hnoted := PluginChain.runOn_log stage w.plugins.plugins t w.plugins
  rw [ExceptT.run, consult_of_no_plugins stage t (w := w.unplugged) rfl, consult_eq, PluginChain.run,
    if_neg hunanswered, hsame, hnoted]
  exact ⟨rfl, rfl, hpassive⟩

/-! Registration. -/

theorem passive_authenticate (r : Request) : Lockstep World.Passive (authenticate r) := by
  rintro ⟨clock, network, resolver, registrations, authenticator, relay, plugins⟩ _ ⟨rfl, hpassive⟩
  cases authenticator with
  | none => exact ⟨rfl, rfl, hpassive⟩
  | some a => exact ⟨rfl, rfl, hpassive⟩

theorem passive_unregister (registered : Uri) (contact : Option Uri) :
    Lockstep World.Passive (unregister registered contact) := by
  rintro w _ ⟨rfl, hpassive⟩
  exact ⟨rfl, rfl, hpassive⟩

theorem passive_bindContact (cx : Context) (r : Request) (source : Endpoint) (registered contact : Uri)
    (expiry : UInt32) :
    Lockstep World.Passive (bindContact cx r source registered contact expiry) := by
  have hlook := lockstep_lookUpHost World.agreement_passive
  refine (hlook _).bind fun contactIp => (hlook _).bind fun registeredIp =>
    (hlook _).bind fun presentedIp => ?_
  rintro w _ ⟨rfl, hpassive⟩
  have hknown : w.unplugged.knownHosts = w.knownHosts := rfl
  have htable : w.unplugged.registrations = w.registrations := rfl
  have hclock : w.unplugged.clock = w.clock := rfl
  rw [act_bind, act_bind, act_get, act_get]
  dsimp only
  rw [hknown, htable, hclock]
  generalize Registrations.upsert _ _ _ = result
  rcases result with fault | ⟨slot, registrations⟩
  · exact ⟨rfl, rfl, hpassive⟩
  · exact ⟨rfl, rfl, hpassive⟩

theorem passive_register (cx : Context) (r : Request) (source : Endpoint) :
    Lockstep World.Passive (register cx r source) := by
  refine (passive_authenticate r).bind fun verdict => ?_
  split
  · exact Lockstep.pure _
  · split
    · dsimp only
      split
      · exact (passive_unregister _ _).bind fun _ => Lockstep.pure _
      · split
        · exact (passive_unregister _ _).bind fun _ => Lockstep.pure _
        · exact passive_bindContact cx r source _ _ _
    · exact Lockstep.pure _

theorem passive_processRegister (cx : Context) (r : Request) (source : Endpoint) :
    Lockstep World.Passive (processRegister cx r source).run := by
  refine (Lockstep.lift (passive_register cx r source)).andThen fun result => Lockstep.look ?_ fun v => ?_
  · rintro w _ ⟨rfl, -⟩
    rfl
  · have hanswer : ∀ isAccepted : Bool, Lockstep World.Passive (do
        if isAccepted && !cx.isRegistrarOf v.knownHosts r then return
        else finish (← respondWith r source (cx.registerAnswer r result)) : Processing Unit).run := by
      intro isAccepted
      split
      · exact Lockstep.done _
      · exact (Lockstep.lift (lockstep_respondWith World.agreement_passive r source _)).andThen
          fun _ => Lockstep.finish _
    exact hanswer _

theorem passive_route (cx : Context) (t : Ticket) : Lockstep World.Passive (route cx t) :=
  lockstep_route World.agreement_passive passive_consult
    (fun r source => lockstep_directRequest World.agreement_passive cx
      fun _ => passive_processRegister cx r source) t

/-! The calls of plugins for a message. -/

/-- The turns of plugins when a message is routed. -/
def Ticket.turns (cx : Context) (t : Ticket) (w : World) : List PluginTurn :=
  match t.message.headers.checkComplete with
  | .error _ => []
  | .ok () =>
    match t.message with
    | .request _ => (requestPipeline cx t).turns w
    | .response _ => (responsePipeline cx t).turns w

theorem Ticket.accounts_turns (cx : Context) (t : Ticket) (w : World) :
    Accounts .consumed w (t.turns cx w) (route cx t w) := by
  unfold Ticket.turns
  cases hcomplete : t.message.headers.checkComplete with
  | error fault =>
      rw [route_of_incomplete cx hcomplete]
      exact accounts_nil _ _ w
  | ok u =>
      rw [route_of_complete cx hcomplete]
      cases t.message with
      | request q =>
          dsimp only
          rw [processRequest_eq_run]
          exact ((isSilent_requestPipeline cx t).accounts w).outcome
      | response q =>
          dsimp only
          rw [processResponse_eq_run]
          exact ((isSilent_responsePipeline cx t).accounts w).outcome

/-- Plugins that are all passive make no difference to what becomes of a message and to the world, apart from
themselves. Whatever plugins there are, their calls are the turns, in which each plugin asked for its stage
and sees the calls before it; and once a plugin answers the message no other one is called, and the message is
consumed. -/
theorem route_plugins (cx : Context) (t : Ticket) (w : World) :
    ((∀ p ∈ w.plugins.plugins, p.Passive) →
        (route cx t w).1 = (route cx t w.unplugged).1 ∧
          (route cx t w).2.unplugged = (route cx t w.unplugged).2) ∧
      (route cx t w).2.plugins =
        { w.plugins with log := w.plugins.log ++ (t.turns cx w).map PluginTurn.note } ∧
      (∀ turn ∈ t.turns cx w,
        turn.plugin ∈ w.plugins.plugins ∧ turn.plugin.serves turn.stage = true) ∧
      ∀ front turn back, t.turns cx w = front ++ turn :: back →
        turn.log = w.plugins.log ++ front.map PluginTurn.note ∧
          (turn.outcome = .responded → back = [] ∧ (route cx t w).1 = .consumed) := by
  have haccounts := t.accounts_turns cx w
  refine ⟨fun hpassive => ?_, haccounts.noted, haccounts.asked, fun front turn back hturns => ?_⟩
  · obtain ⟨hresult, hafter, -⟩ := passive_route cx t w w.unplugged ⟨rfl, hpassive⟩
    exact ⟨hresult.symm, hafter.symm⟩
  · have hfollow := haccounts.followOn
    rw [hturns] at hfollow
    obtain ⟨hlog, hlast⟩ := hfollow.turn
    refine ⟨hlog, fun hresponded => ⟨hlast hresponded, haccounts.answered ⟨turn, ?_, hresponded⟩⟩⟩
    rw [hturns]
    exact List.mem_append_right _ List.mem_cons_self

/-! Plugins that are tried out with the call from a registered party. -/

namespace OutgoingCall

/-- A plugin that asks for every stage and leaves every ticket as it is. -/
def plugin (name : String) (outcome : Stage → Outcome) : Plugin where
  name := name.toList
  occasions := { preProxy := true, determineTarget := true, postProxy := true }
  init _ := true
  process _ stage t := (outcome stage, t)

def failing : Plugin := plugin "failing" fun _ => .failed

def targeting : Plugin := plugin "targeting" fun _ => .handled

/-- A plugin that answers a message once its direction is known. -/
def answering : Plugin :=
  plugin "answering" fun stage => if stage = .determineTarget then .responded else .proceed

def registeredWith (plugins : List Plugin) : World := { registered with plugins := { plugins := plugins } }

end OutgoingCall

open OutgoingCall in
/-- A plugin that fails and one that says that the target is determined go unnoticed; one that answers
between them is the last one that is called. -/
theorem route_plugins_invitation :
    (route (.ofSettings settings) invitation (registeredWith [failing, targeting])).1 =
        (route (.ofSettings settings) invitation registered.unplugged).1 ∧
      (route (.ofSettings settings) invitation (registeredWith [failing, answering, targeting])).1 =
        .consumed ∧
      (route (.ofSettings settings) invitation
          (registeredWith [failing, answering, targeting])).2.plugins.log =
        [⟨failing.name, .process .preProxy none⟩, ⟨answering.name, .process .preProxy none⟩,
          ⟨targeting.name, .process .preProxy none⟩,
          ⟨failing.name, .process .determineTarget (some .outgoing)⟩,
          ⟨answering.name, .process .determineTarget (some .outgoing)⟩] := by
  have hpassive : ∀ p ∈ [failing, targeting], p.Passive := by
    intro p hp log stage t _
    rcases List.mem_pair.mp hp with rfl | rfl
    · exact ⟨Outcome.noConfusion, rfl⟩
    · exact ⟨Outcome.noConfusion, rfl⟩
  obtain ⟨htransparent, -, -, -⟩ :=
    route_plugins (.ofSettings settings) invitation (registeredWith [failing, targeting])
  obtain ⟨-, hnoted, -, hturn⟩ :=
    route_plugins (.ofSettings settings) invitation (registeredWith [failing, answering, targeting])
  refine ⟨(htransparent hpassive).1, ?_, ?_⟩
  · have hanswered : ∃ turn ∈ invitation.turns (.ofSettings settings)
        (registeredWith [failing, answering, targeting]), turn.outcome = .responded := by
      have houtcomes : Outcome.responded ∈ (invitation.turns (.ofSettings settings)
          (registeredWith [failing, answering, targeting])).map PluginTurn.outcome := by
        decide +kernel
      exact List.mem_map.mp houtcomes
    obtain ⟨turn, hmem, hresponded⟩ := hanswered
    obtain ⟨front, back, hsplit⟩ := List.append_of_mem hmem
    exact ((hturn front turn back hsplit).2 hresponded).2
  · rw [hnoted]
    decide +kernel

end BorderProxy
