import BorderProxy.Proofs.Proxy.Anchoring
import BorderProxy.Proofs.Proxy.Forwarding
import BorderProxy.Proofs.StreamTable.Opening

/-! What looking up a host gives. It depends on the cache, the time and the names that the network knows;
opening and closing streams takes and releases ports but leaves all of these as they are. So where a
response is sent can be told before its media are handled. And what was looked up once is found again. -/

namespace BorderProxy

/-! Names. -/

namespace StreamTable

theorem names_start (t : StreamTable) (network : Network) (request : StreamRequest) (now : Instant) :
    (t.start network request now).2.2.names = network.names := by
  have hstarted := t.started network request now
  generalize t.start network request now = result at hstarted ⊢
  cases hstarted <;> rfl

theorem names_remove (t : StreamTable) (network : Network) (h : StreamRef) :
    (t.remove network h).2.2.names = network.names := by
  unfold remove
  split <;> rfl

end StreamTable

namespace Relay

theorem names_start (r : Relay) (network : Network) (request : StreamRequest) (now : Instant) :
    (r.start network request now).2.2.names = network.names := by
  unfold start
  split
  · rfl
  · exact r.table.names_start network request now

theorem names_teardownAll (handles : List StreamRef) (r : Relay) (network : Network) :
    (teardownAll handles r network).2.names = network.names := by
  induction handles generalizing r network with
  | nil => rfl
  | cons h rest ih => exact (ih _ _).trans (r.table.names_remove network h)

theorem names_stop (r : Relay) (network : Network) (callId : CallId) (direction : Direction)
    (selector : SectionChoice) : (r.stop network callId direction selector).2.2.names = network.names := by
  unfold stop
  split
  · rfl
  · split
    · rfl
    · exact names_teardownAll _ r network

end Relay

/-! Look-ups. -/

/-- A world that has what look-ups depend on from another. -/
structure World.LooksUpAs (v w : World) : Prop where
  resolver : w.resolver = v.resolver
  clock : w.clock = v.clock
  names : w.network.names = v.network.names

/-- What looking up a host gives. -/
def World.lookedUp (w : World) (host : Text) : Except Fault Ip :=
  (w.resolver.resolve w.network w.clock.now host).1

/-- The endpoint that a reply goes to along a Via. -/
def World.replyEndpoint? (w : World) (via : Option Text) : Option Endpoint := do
  let (host, port) ← via.bind Via.replyTarget?
  let ip ← (w.lookedUp host).toOption
  return ⟨ip, port⟩

theorem World.LooksUpAs.lookedUp_eq {v w : World} (h : v.LooksUpAs w) (host : Text) :
    w.lookedUp host = v.lookedUp host := by
  have haddresses : w.network.addressesOf host = v.network.addressesOf host := by
    rw [Network.addressesOf, Network.addressesOf, h.names]
  unfold World.lookedUp Resolver.resolve
  rw [h.resolver, h.clock, haddresses]

theorem World.LooksUpAs.replyEndpoint?_eq {v w : World} (h : v.LooksUpAs w) (via : Option Text) :
    w.replyEndpoint? via = v.replyEndpoint? via := by
  unfold World.replyEndpoint?
  simp only [h.lookedUp_eq]

theorem looksUpAs_withRelay {α : Type} {v : World}
    {step : Relay → Network → Instant → α × Relay × Network}
    (h : ∀ relay network now, (step relay network now).2.2.names = network.names) :
    Keeps v.LooksUpAs (withRelay step) := by
  intro w hw
  cases hrelay : w.relay with
  | none =>
      rw [withRelay_of_none step hrelay]
      exact hw
  | some relay =>
      rw [withRelay_of_some step hrelay]
      exact ⟨hw.resolver, hw.clock, (h _ _ _).trans hw.names⟩

theorem looksUpAs_anchorMedia {v : World} (cx : Context) (direction : Direction) (client : Text)
    (m : Message) : Keeps v.LooksUpAs (anchorMedia cx direction client m) := by
  refine keeps_anchorMedia (fun request => ?_) cx direction client m
  exact (looksUpAs_withRelay fun relay network now => relay.names_start network request now).bind fun _ =>
    Keeps.pure _

theorem looksUpAs_stopStreams {v : World} (hs : Headers) : Keeps v.LooksUpAs (stopStreams hs) := by
  refine keeps_stopStreams (fun callId direction => ?_) hs
  exact (looksUpAs_withRelay fun relay network _ => relay.names_stop network callId direction .all).bind
    fun _ => Keeps.pure _

theorem Response.looksUpAs_handled (cx : Context) (source : Endpoint) (direction : Direction)
    (r : Response) (w : World) : w.LooksUpAs (r.handled cx source direction w).2 := by
  have hanchored := looksUpAs_anchorMedia cx direction (clientOf r.headers source)
    (.response (r.prepared cx w direction)) w ⟨rfl, rfl, rfl⟩
  unfold Response.handled
  dsimp only
  split
  · exact looksUpAs_stopStreams _ _ hanchored
  · exact hanchored

/-! Looking up twice. -/

namespace Resolver

/-- A host is known, or looked up and stored, or neither. -/
theorem resolve_cases (r : Resolver) (network : Network) (now : Instant) (host : Text) :
    (∃ ip, r.cached now host = some ip ∧ r.resolve network now host = (.ok ip, r)) ∨
      (∃ ip, r.cached now host = none ∧ preferred (network.addressesOf host) = some ip ∧
        r.resolve network now host = (.ok ip, r.insert now host ip)) ∨
      r.resolve network now host = (.error (.unresolvableHost host), r) := by
  unfold resolve
  cases hcached : r.cached now host with
  | some ip => exact .inl ⟨ip, rfl, rfl⟩
  | none =>
      dsimp only
      cases haddress : preferred (network.addressesOf host) with
      | some ip => exact .inr (.inl ⟨ip, rfl, rfl, rfl⟩)
      | none => exact .inr (.inr rfl)

/-- What was stored of a host is found again, if it counts. -/
theorem cached_insert {r : Resolver} {now : Instant} {host : Text}
    (hcached : r.cached now host = none) (ip : Ip) :
    (r.insert now host ip).cached now host = none ∨ (r.insert now host ip).cached now host = some ip := by
  have hname : Ip.readHost host = none := by
    unfold cached at hcached
    cases hread : Ip.readHost host with
    | none => rfl
    | some literal =>
        rw [hread] at hcached
        cases hcached
  have hfound : ∀ rest : List CacheEntry,
      (⟨Text.lower host, ip, now⟩ :: rest).find? (fun e => e.host == Text.lower host) =
        some ⟨Text.lower host, ip, now⟩ :=
    fun rest => List.find?_cons_of_pos (beq_self_eq_true _)
  unfold cached insert
  rw [hname]
  dsimp only
  rw [hfound, Option.filter_some]
  split
  · exact .inr rfl
  · exact .inl rfl

/-- A host that was looked up is looked up with the same result again. -/
theorem resolve_again (r : Resolver) (network : Network) (now : Instant) (host : Text) :
    ((r.resolve network now host).2.resolve network now host).1 = (r.resolve network now host).1 := by
  rcases r.resolve_cases network now host with ⟨ip, -, hknown⟩ | ⟨ip, hcached, haddress, hlooked⟩ | hunknown
  · rw [hknown, hknown]
  · rw [hlooked]
    unfold resolve
    rcases cached_insert hcached ip with hagain | hagain
    · rw [hagain]
      dsimp only
      rw [haddress]
    · rw [hagain]
  · rw [hunknown, hunknown]

end Resolver

/-! The target of a response. -/

theorem World.replyEndpoint?_of_target {via : Option Text} {host : Text} {port : UInt16}
    (h : via.bind Via.replyTarget? = some (host, port)) (w : World) :
    w.replyEndpoint? via = ((w.lookedUp host).map fun ip => ⟨ip, port⟩).toOption := by
  rw [World.replyEndpoint?, h]
  cases hlooked : w.lookedUp host <;> simp [hlooked, Except.map, Except.toOption]

theorem World.replyEndpoint?_of_none {via : Option Text} (h : via.bind Via.replyTarget? = none)
    (w : World) : w.replyEndpoint? via = none := by
  rw [World.replyEndpoint?, h]
  rfl

theorem lookUpEndpoint_fst (host : Text) (port : UInt16) (w : World) :
    (lookUpEndpoint host port w).1 = (w.lookedUp host).map fun ip => ⟨ip, port⟩ := rfl

theorem lookedUp_lookUpEndpoint (host : Text) (port : UInt16) (w : World) :
    (lookUpEndpoint host port w).2.lookedUp host = w.lookedUp host :=
  w.resolver.resolve_again w.network w.clock.now host

/-- A look-up that fails changes nothing. -/
theorem lookUpEndpoint_of_error {host : Text} {port : UInt16} {w : World} {fault : Fault}
    (h : w.lookedUp host = .error fault) : lookUpEndpoint host port w = (.error fault, w) := by
  have hkept : (w.resolver.resolve w.network w.clock.now host).2 = w.resolver := by
    unfold World.lookedUp at h
    rcases w.resolver.resolve_cases w.network w.clock.now host with
      ⟨ip, -, hknown⟩ | ⟨ip, -, -, hlooked⟩ | hunknown
    · rw [hknown]
    · rw [hlooked] at h
      cases h
    · rw [hunknown]
  refine Prod.ext ?_ ?_
  · rw [lookUpEndpoint_fst, h]
    rfl
  · show { w with resolver := (w.resolver.resolve w.network w.clock.now host).2 } = w
    rw [hkept]

/-- Where a response is sent once the look-up along its topmost Via has had a result. -/
theorem fallBack_toOption (next : Except Fault Endpoint) (registration : Registration) (w : World) :
    ((match next, registration.returnVia.bind Via.replyTarget? with
      | .error _, some (host, port) => lookUpEndpoint host port
      | next, _ => return next : Act (Except Fault Endpoint)) w).1.toOption =
      next.toOption.or (w.replyEndpoint? registration.returnVia) := by
  cases next with
  | ok endpoint => rfl
  | error fault =>
      cases htarget : registration.returnVia.bind Via.replyTarget? with
      | none =>
          rw [World.replyEndpoint?_of_none htarget]
          rfl
      | some target =>
          obtain ⟨host, port⟩ := target
          rw [World.replyEndpoint?_of_target htarget]
          rfl

/-- A response is sent along its topmost Via, or else along the Via of its registration. -/
theorem responseTarget_toOption (hs : Headers) (registration : Registration) (w : World) :
    (responseTarget hs registration w).1.toOption =
      (w.replyEndpoint? hs.topVia?).or (w.replyEndpoint? registration.returnVia) := by
  unfold responseTarget
  cases htarget : hs.topVia?.bind Via.replyTarget? with
  | none =>
      rw [World.replyEndpoint?_of_none htarget]
      exact fallBack_toOption (.error (.malformed .noFurtherVia)) registration w
  | some target =>
      obtain ⟨host, port⟩ := target
      rw [World.replyEndpoint?_of_target htarget]
      dsimp only
      rw [act_bind]
      cases hlooked : w.lookedUp host with
      | error fault =>
          rw [lookUpEndpoint_of_error hlooked]
          exact fallBack_toOption (.error fault) registration w
      | ok ip =>
          rw [lookUpEndpoint_fst, hlooked]
          rfl

end BorderProxy
