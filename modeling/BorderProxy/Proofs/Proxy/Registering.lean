import BorderProxy.Proofs.Proxy.Bindings
import BorderProxy.Proofs.Proxy.Vias

/-! What becomes of the table of registrations when a message is routed. Only a REGISTER changes it, and
only one that passes the checks, that the authenticator lets through and that is carried out: then a single
slot is written, or the bindings that were asked to go are removed. Whichever way processing ends, before
that or after it, it leaves the table alone. -/

namespace BorderProxy

variable {α : Type}

/-! A single REGISTER. -/

/-- What a REGISTER does to the table of a world, by its result; `known` is what is known about hosts once
those of its URIs have been looked up. -/
inductive Registered (cx : Context) (r : Request) (w : World) (known : KnownHosts) :
    RegisterResult → Registrations → Prop
  /-- The authenticator asks for credentials. -/
  | challenged {field : Header} (hasked : (authenticate r w).1 = .challenge field) :
      Registered cx r w known (.challenged field) w.registrations
  /-- The To or the Contact is missing or cannot be read. -/
  | unreadable (hpassed : (authenticate r w).1 = .authorized)
      (hnone : r.headers.toUri? = none ∨ registerContact? r.headers = none) :
      Registered cx r w known .refused w.registrations
  /-- There is no slot for the binding. -/
  | full {registered contact : Uri} (hpassed : (authenticate r w).1 = .authorized)
      (hto : r.headers.toUri? = some registered)
      (hcontact : registerContact? r.headers = some (.one contact))
      (hfull : w.registrations.free = []) : Registered cx r w known .refused w.registrations
  /-- The binding is written into an empty slot, or over the one that bound the same. -/
  | bound {registered contact : Uri} {expiry : UInt32} {slot : Nat} {binding : Registration}
      {after : Registrations} (hpassed : (authenticate r w).1 = .authorized)
      (hto : r.headers.toUri? = some registered)
      (hcontact : registerContact? r.headers = some (.one contact))
      (hparty : binding.registered = registered ∧ binding.contact = contact)
      (hexpires : binding.expires = w.clock.now +
        Duration.seconds (expiry.toNat + cx.settings.registration.expiryMargin.toNat))
      (hslot : slot ∈ w.registrations.free ∨ w.registrations.Binds known binding slot)
      (hwrites : w.registrations.Writes slot binding after) :
      Registered cx r w known (.success expiry true) after
  /-- The bindings of the party are removed, or with a contact only those to it. -/
  | unbound {registered : Uri} {contact : Option Uri} {after : Registrations}
      (hpassed : (authenticate r w).1 = .authorized) (hto : r.headers.toUri? = some registered)
      (hcontact : registerContact? r.headers = some (contact.elim .all .one))
      (hremoves : ∀ i, after.get? i =
        (w.registrations.get? i).filter fun b => !b.binds w.knownHosts registered contact) :
      Registered cx r w known (.success 0 false) after

theorem exists_authenticate (r : Request) (w : World) :
    ∃ a, (authenticate r w).2 = { w with authenticator := a } := by
  obtain ⟨clock, network, resolver, registrations, authenticator, relay, plugins⟩ := w
  cases authenticator with
  | none => exact ⟨none, rfl⟩
  | some a => exact ⟨_, rfl⟩

/-- Binding a contact writes a single slot, and is refused only if there is none for it. -/
theorem bindContact_spec (cx : Context) (r : Request) (source : Endpoint) (registered contact : Uri)
    (expiry : UInt32) {w : World} (htable : w.registrations.WellFormed) :
    let result := bindContact cx r source registered contact expiry w
    (result.1 = .refused ∧ w.registrations.free = [] ∧ result.2.registrations = w.registrations) ∨
      (result.1 = .success expiry true ∧ ∃ slot binding,
        binding.registered = registered ∧ binding.contact = contact ∧
        binding.expires = w.clock.now +
          Duration.seconds (expiry.toNat + cx.settings.registration.expiryMargin.toNat) ∧
        (slot ∈ w.registrations.free ∨ w.registrations.Binds result.2.knownHosts binding slot) ∧
        w.registrations.Writes slot binding result.2.registrations) := by
  unfold bindContact
  simp only [act_bind, act_get]
  -- Look-ups change the resolver only.
  generalize hlooked : (lookUpHost _ (lookUpHost _ (lookUpHost _ w).2).2).2 = v
  have hsame : v.registrations = w.registrations := by rw [← hlooked]; rfl
  have hclock : v.clock = w.clock := by rw [← hlooked]; rfl
  rw [← hsame] at htable ⊢
  rw [← hclock]
  generalize hbinding : Registration.mk _ _ _ _ _ _ _ _ = binding
  have hupserted := Registrations.upserted htable v.knownHosts binding
  generalize v.registrations.upsert v.knownHosts binding = result at hupserted ⊢
  have hregistered : binding.registered = registered := by rw [← hbinding]
  have hcontact : binding.contact = contact := by rw [← hbinding]
  have hexpires : binding.expires = v.clock.now +
      Duration.seconds (expiry.toNat + cx.settings.registration.expiryMargin.toNat) := by
    rw [← hbinding]
  cases hupserted with
  | refreshed hbinds hlowest hwrites =>
      exact .inr ⟨rfl, _, binding, hregistered, hcontact, hexpires, .inr hbinds, hwrites⟩
  | stored hnew hfree hwrites =>
      exact .inr ⟨rfl, _, binding, hregistered, hcontact, hexpires, .inl hfree, hwrites⟩
  | full hnew hfull => exact .inl ⟨rfl, hfull, rfl⟩

theorem get?_unregister (registered : Uri) (contact : Option Uri) (w : World) (i : Nat) :
    (unregister registered contact w).2.registrations.get? i =
      (w.registrations.get? i).filter fun b => !b.binds w.knownHosts registered contact :=
  Registrations.get?_removeWhere _ w.registrations i

theorem registered_register (cx : Context) (r : Request) (source : Endpoint) {w : World}
    (htable : w.registrations.WellFormed) :
    Registered cx r w (register cx r source w).2.knownHosts (register cx r source w).1
      (register cx r source w).2.registrations := by
  obtain ⟨a, hauthenticate⟩ := exists_authenticate r w
  unfold register
  rw [act_bind]
  cases hverdict : (authenticate r w).1 with
  | challenge field =>
      dsimp only
      rw [hauthenticate]
      exact .challenged hverdict
  | authorized =>
      dsimp only
      rw [hauthenticate]
      cases hto : r.headers.toUri? with
      | none => exact .unreadable hverdict (.inl hto)
      | some registered =>
          cases hcontact : registerContact? r.headers with
          | none => exact .unreadable hverdict (.inr hcontact)
          | some binding =>
              have hremoves : ∀ contact i, _ :=
                fun contact => get?_unregister registered contact { w with authenticator := a }
              cases binding with
              | all => exact @Registered.unbound cx r w _ registered none _ hverdict hto hcontact (hremoves none)
              | one contact =>
                  dsimp only
                  split
                  · exact @Registered.unbound cx r w _ registered (some contact) _ hverdict hto hcontact
                      (hremoves (some contact))
                  · generalize askedExpiry r.headers cx.settings.registration.defaultExpires = expiry
                    have hbound := bindContact_spec (w := { w with authenticator := a }) cx r source
                      registered contact expiry htable
                    dsimp only at hbound
                    generalize bindContact cx r source registered contact expiry
                      { w with authenticator := a } = result at hbound ⊢
                    rcases hbound with ⟨hresult, hfull, hsame⟩ |
                      ⟨hresult, slot, binding, hregistered, hof, hexpires, hslot, hwrites⟩
                    · rw [hresult, hsame]
                      exact .full hverdict hto hcontact hfull
                    · rw [hresult]
                      exact .bound hverdict hto hcontact ⟨hregistered, hof⟩ hexpires hslot hwrites

/-- Only a REGISTER that the authenticator lets through and that is carried out changes the table. -/
theorem Registered.of_changed {cx : Context} {r : Request} {w : World} {known : KnownHosts}
    {result : RegisterResult} {after : Registrations} (h : Registered cx r w known result after)
    (hchanged : after ≠ w.registrations) :
    (authenticate r w).1 = .authorized ∧ ∃ expires bound, result = .success expires bound := by
  cases h with
  | challenged hasked => exact absurd rfl hchanged
  | unreadable hpassed hnone => exact absurd rfl hchanged
  | full hpassed hto hcontact hfull => exact absurd rfl hchanged
  | bound hpassed hto hcontact hparty hexpires hslot hwrites => exact ⟨hpassed, _, _, rfl⟩
  | unbound hpassed hto hcontact hremoves => exact ⟨hpassed, _, _, rfl⟩

/-! Routing. -/

/-- The REGISTER that the proxy carries out when it routes a message: it has all fields that it needs, and
passes the checks of its hops and for loops. -/
def Ticket.registering? (cx : Context) (w : World) (t : Ticket) : Option Request :=
  match t.message.headers.checkComplete, t.message with
  | .ok (), .request q =>
    let r := q.received cx w t.source
    if r.method = .register ∧ r.headers.maxForwards? ≠ some 0 ∧
        cx.isLooped w.knownHosts r.headers r.branch = false then some r
    else none
  | _, _ => none

theorem Ticket.registering?_eq_none (cx : Context) (w : World) {t : Ticket}
    (hmethod : ∀ q, t.message = .request q → q.method ≠ .register) : t.registering? cx w = none := by
  unfold registering?
  split
  · rename_i q _ hq
    exact if_neg fun h => hmethod q hq h.1
  · rfl

/-- Sending a request on leaves the table as it is. -/
theorem keeps_sendRequest_registrations (table : Registrations) (cx : Context) (source : Endpoint)
    (c : RequestCourse) : Keeps (fun v => v.registrations = table) (sendRequest cx source c).run :=
  keeps_sendRequest (fun _ hw => hw) (keeps_consult fun _ hw => hw)
    (keeps_anchorMedia (keeps_startStream fun _ _ hw => hw) cx)
    (keeps_stopStreams (keeps_stopDirection fun _ _ hw => hw)) source c

/-- Carrying out a REGISTER changes the table, and answering it does not. -/
theorem registrations_processRegister (cx : Context) (r : Request) (source : Endpoint) (w : World) :
    (processRegister cx r source w).2.registrations = (register cx r source w).2.registrations := by
  refine Keeps.of_andThen World.registrations (fun table result => Keeps.look.andThen fun v => ?_) w
  have hanswer : ∀ isAccepted : Bool, Keeps (fun v => v.registrations = table) (do
      if isAccepted && !cx.isRegistrarOf v.knownHosts r then return
      else finish (← respondWith r source (cx.registerAnswer r result)) : Processing Unit).run := by
    intro isAccepted
    split
    · exact Keeps.done _
    · exact (Keeps.lift (keeps_respondWith (fun _ hw => hw) r source _)).andThen fun _ => Keeps.finish _
  exact hanswer _

theorem registrations_directRequest (cx : Context) (r : Request) (source : Endpoint) (w : World) :
    (directRequest cx r source w).2.registrations =
      if r.method = .register then (register cx r source w).2.registrations else w.registrations := by
  unfold directRequest
  split
  · rw [← registrations_processRegister]
    refine Keeps.of_andThen World.registrations (fun table _ => Keeps.look.andThen fun v => ?_) w
    split <;> exact Keeps.done _
  · refine Keeps.same World.registrations (fun table => Keeps.look.andThen fun v => ?_) w
    split
    · exact Keeps.done _
    · exact keeps_refuse (fun _ hw => hw) cx r source _ _

theorem checkLoop_of_unlooped {cx : Context} {r : Request} {source : Endpoint} {w : World}
    (hhops : r.headers.maxForwards? ≠ some 0) (hnew : cx.isLooped w.knownHosts r.headers r.branch = false) :
    checkLoop cx r source w = (.ok r.branch, w) := by
  unfold checkLoop
  rw [if_neg hhops, processing_bind, processing_get]
  dsimp only
  rw [if_neg (by simp [hnew])]
  rfl

/-- Settling the course of a request changes the table only if that carries out a REGISTER. -/
theorem registrations_settleRequest {cx : Context} {t : Ticket} {q : Request}
    (hq : t.message = .request q) (hcomplete : t.message.headers.checkComplete = .ok ()) {w : World}
    (hplugins : w.plugins.plugins = []) :
    (settleRequest cx t w).2.registrations =
      match t.registering? cx w with
      | some r => (register cx r t.source w).2.registrations
      | none => w.registrations := by
  have hregistering : t.registering? cx w =
      if q.method = .register ∧ (q.received cx w t.source).headers.maxForwards? ≠ some 0 ∧
          cx.isLooped w.knownHosts (q.received cx w t.source).headers
            (q.received cx w t.source).branch = false
        then some (q.received cx w t.source) else none := by
    unfold Ticket.registering?
    rw [hcomplete, hq]
    rfl
  unfold settleRequest
  rw [processing_bind, receiveRequest_eq cx hq hplugins]
  dsimp only
  generalize hreceived : q.received cx w t.source = r at hregistering ⊢
  have hmethod : r.method = q.method := by rw [← hreceived]; rfl
  rw [processing_bind]
  rcases hchecked : checkLoop cx r t.source w with ⟨outcome | branch, next⟩
  · have hkept := Keeps.same World.registrations
      (fun table => keeps_checkLoop (fun _ hw => hw) cx r t.source) w
    rw [hchecked] at hkept
    have hnone : t.registering? cx w = none := by
      rw [hregistering]
      refine if_neg fun ⟨_, hhops, hnew⟩ => ?_
      rw [checkLoop_of_unlooped hhops hnew] at hchecked
      cases (Prod.mk.inj hchecked).1
    rw [hnone]
    exact hkept
  · obtain ⟨rfl, -, hhops, hnew⟩ := checkLoop_eq_ok hchecked
    dsimp only
    refine (Keeps.of_andThen World.registrations (fun table directed => ?_) next).trans ?_
    · exact (keeps_consult (fun _ hw => hw) _ _).andThen fun _ => (keeps_requestOf _).andThen
        fun _ => Keeps.done _
    · rw [registrations_directRequest, hregistering, hmethod]
      by_cases hregister : q.method = .register
      · rw [if_pos hregister, if_pos ⟨hregister, hhops, hnew⟩]
      · rw [if_neg hregister, if_neg fun h => hregister h.1]

/-- Routing a message without plugins changes the table only if that carries out a REGISTER. -/
theorem registrations_route (cx : Context) (t : Ticket) {w : World} (hplugins : w.plugins.plugins = []) :
    (route cx t w).2.registrations =
      match t.registering? cx w with
      | some r => (register cx r t.source w).2.registrations
      | none => w.registrations := by
  cases hcomplete : t.message.headers.checkComplete with
  | error fault =>
      have hnone : t.registering? cx w = none := by
        unfold Ticket.registering?
        rw [hcomplete]
      rw [route_of_incomplete cx hcomplete, hnone]
  | ok u =>
      rw [route_of_complete cx hcomplete]
      cases hmessage : t.message with
      | request q =>
          dsimp only
          rw [processRequest_eq, outcome_snd, ← registrations_settleRequest hmessage hcomplete hplugins]
          exact Keeps.of_andThen World.registrations
            (fun table c => keeps_sendRequest_registrations table cx t.source c) w
      | response q =>
          have hnone : t.registering? cx w = none := by
            unfold Ticket.registering?
            rw [hcomplete, hmessage]
          rw [hnone]
          dsimp only
          rw [processResponse_eq, outcome_snd]
          refine Keeps.same World.registrations (fun table => ?_) w
          exact (keeps_settleResponse (keeps_consult fun _ hw => hw) cx t).andThen fun c =>
            keeps_sendResponse (fun _ hw => hw) (keeps_consult fun _ hw => hw)
              (keeps_anchorMedia (keeps_startStream fun _ _ hw => hw) cx)
              (keeps_stopStreams (keeps_stopDirection fun _ _ hw => hw)) t.source c

/-! Tables count their slots right. -/

theorem Registrations.Updated.wellFormed {cx : Context} {table after : Registrations}
    (h : table.Updated cx after) (htable : table.WellFormed) : after.WellFormed := by
  cases h with
  | same => exact htable
  | unbound known registered contact => exact htable.eraseAll _
  | bound known hpresented hupsert =>
      rcases Registrations.of_upsert hupsert with rfl | hstored
      · exact htable.replace _ _
      · exact htable.insert? hstored

theorem wellFormed_route (cx : Context) (t : Ticket) {w : World} (hplugins : w.plugins.plugins = [])
    (htable : w.registrations.WellFormed) : (route cx t w).2.registrations.WellFormed := by
  rw [registrations_route cx t hplugins]
  cases t.registering? cx w with
  | none => exact htable
  | some r => exact (Registrations.updated_register cx r t.source w).wellFormed htable

theorem keeps_passTime_registrations (table : Registrations) (d : Duration) :
    Keeps (fun v => v.registrations = table) (passTime d) := by
  have hclock : Keeps (fun v => v.registrations = table)
      (modify fun v => { v with clock := v.clock.advance d }) := fun _ hv => hv
  exact hclock.bind fun _ => (keeps_withRelay (fun _ _ hv => hv) _).bind fun _ => Keeps.pure _

theorem wellFormed_effect (cx : Context) (event : ProxyEvent) {w : World}
    (hplugins : w.plugins.plugins = []) (htable : w.registrations.WellFormed) :
    (event.effect cx w).2.registrations.WellFormed := by
  have hsame : ∀ {step : Act Unit}, Keeps (fun v => v.registrations = w.registrations) step →
      (step w).2.registrations.WellFormed := by
    intro step hstep
    rw [hstep w rfl]
    exact htable
  cases event with
  | message t => exact wellFormed_route cx t hplugins htable
  | time d => exact hsame ((keeps_passTime_registrations _ d).bind fun _ => Keeps.pure _)
  | tick => exact htable.eraseAll _
  | packet endpoint payload =>
      exact hsame ((keeps_withRelay (fun _ _ hv => hv) _).bind fun _ => Keeps.pure _)
  | close => exact hsame ((keeps_withRelay (fun _ _ hv => hv) _).bind fun _ => Keeps.pure _)
  | surroundings network => exact hsame fun _ hv => hv

theorem wellFormed_run (cx : Context) {w : World} (hw : w.Ready cx.ipTowards)
    (htable : w.registrations.WellFormed) (events : List ProxyEvent) :
    (w.run cx events).registrations.WellFormed := by
  induction events generalizing w with
  | nil => exact htable
  | cons event rest ih =>
      exact ih (readies_effect cx event w hw) (wellFormed_effect cx event hw.plugins htable)

/-- Whatever a proxy has been through, its table counts its slots right. -/
theorem World.Reachable.wellFormed {cx : Context} {w : World} (hw : w.Reachable cx) :
    w.registrations.WellFormed := by
  obtain ⟨s, network, clock, processId, events, rfl⟩ := hw
  exact wellFormed_run cx (ready_initial s network clock processId) (Arena.wellFormed_empty _) events

/-- Without plugins the table is another one after a message only if that is a REGISTER which passes the
checks, which the authenticator lets through and which is carried out. What such a REGISTER then does to the
table is that it writes the binding that was asked for into a single slot, or removes those that were asked
to go; one that is refused or challenged leaves the table as it is. -/
theorem route_registers {cx : Context} {t : Ticket} {w : World} (hplugins : w.plugins.plugins = [])
    (htable : w.registrations.WellFormed) :
    ((route cx t w).2.registrations ≠ w.registrations → ∃ r expires bound,
      t.registering? cx w = some r ∧ (authenticate r w).1 = .authorized ∧
        (register cx r t.source w).1 = .success expires bound) ∧
      ∀ r, t.registering? cx w = some r →
        Registered cx r w (register cx r t.source w).2.knownHosts (register cx r t.source w).1
          (route cx t w).2.registrations := by
  have hroute := registrations_route cx t hplugins
  constructor
  · intro hchanged
    cases hregistering : t.registering? cx w with
    | none =>
        rw [hregistering] at hroute
        exact absurd hroute hchanged
    | some r =>
        rw [hregistering] at hroute
        dsimp only at hroute
        have hregistered := registered_register cx r t.source htable
        rw [← hroute] at hregistered
        obtain ⟨hpassed, expires, bound, hresult⟩ := hregistered.of_changed hchanged
        exact ⟨r, expires, bound, rfl, hpassed, hresult⟩
  · intro r hregistering
    rw [hregistering] at hroute
    rw [hroute]
    exact registered_register cx r t.source htable

namespace OutgoingCall

/-- The world in which the party is not registered yet. -/
def starting : World := World.initial settings [] {} ⟨0, 0⟩ 1

/-- The URI of the party at a host. -/
def partyAt (ip : Ip) : Uri := { hostUri ip with userInfo := some ⟨"alice".toList, none⟩ }

end OutgoingCall

open OutgoingCall in
theorem registers_registration :
    ∃ slot binding,
      (route (.ofSettings settings) registration starting).2.registrations.get? slot = some binding ∧
        binding.registered = partyAt (.v4 192 0 2 1) ∧ binding.contact = partyAt (.v4 10 0 0 5) ∧
        binding.expires = starting.clock.now + Duration.seconds (600 + 30) := by
  have hreachable : starting.Reachable (.ofSettings settings) := ⟨settings, {}, ⟨0, 0⟩, 1, [], rfl⟩
  have hfacts :
      ((registration.registering? (.ofSettings settings) starting).map fun r =>
        (r.headers.toUri?, registerContact? r.headers,
          (register (.ofSettings settings) r registration.source starting).1)) =
        some (some (partyAt (.v4 192 0 2 1)), some (.one (partyAt (.v4 10 0 0 5))), .success 600 true) := by
    decide +kernel
  obtain ⟨r, hregistering, hr⟩ := Option.map_eq_some_iff.mp hfacts
  obtain ⟨hto, hrest⟩ := Prod.mk.inj hr
  obtain ⟨hcontact, hresult⟩ := Prod.mk.inj hrest
  have hregistered :=
    (route_registers (t := registration) hreachable.ready.plugins hreachable.wellFormed).2 r hregistering
  rw [hresult] at hregistered
  generalize (route (.ofSettings settings) registration starting).2.registrations = after at hregistered ⊢
  cases hregistered with
  | bound hpassed hto' hcontact' hparty hexpires hslot hwrites =>
      obtain rfl := Option.some.inj (hto'.symm.trans hto)
      obtain rfl := RegisterContact.one.inj (Option.some.inj (hcontact'.symm.trans hcontact))
      exact ⟨_, _, (hwrites _).trans (if_pos rfl), hparty.1, hparty.2, hexpires⟩

end BorderProxy
