import BorderProxy.Proofs.Proxy.Steps
import BorderProxy.Proofs.Relay.Lasting
import BorderProxy.Proofs.Sdp.Relayed

/-! Anchoring. The streams of the sections of one description have different keys, so opening one leaves
those that were opened for the others before it as they are; once all are opened, each section that was
given a port is served on it. -/

namespace BorderProxy

/-- A world without plugins, whose streams are opened at the homes of their directions. -/
structure World.Ready (home : Direction → Ip) (w : World) : Prop where
  plugins : w.plugins.plugins = []
  settled : ∀ relay, w.relay = some relay → relay.table.Settled home

variable {home : Direction → Ip}

theorem lasting_ready (home : Direction → Ip) : World.Lasting (World.Ready home) where
  resolver _ hw := ⟨hw.plugins, hw.settled⟩
  registrations _ hw := ⟨hw.plugins, hw.settled⟩
  authenticator _ hw := ⟨hw.plugins, hw.settled⟩

theorem World.Ready.with_relay {w : World} (hw : w.Ready home) {relay : Relay}
    (h : relay.table.Settled home) (network : Network) :
    World.Ready home { w with relay := some relay, network := network } where
  plugins := hw.plugins
  settled r hr := by
    have heq : relay = r := Option.some.inj hr
    rw [← heq]
    exact h

/-! Single streams. -/

theorem withRelay_of_some {α : Type} (step : Relay → Network → Instant → α × Relay × Network) {w : World}
    {relay : Relay} (h : w.relay = some relay) :
    withRelay step w = (some (step relay w.network w.clock.now).1,
      { w with
        relay := some (step relay w.network w.clock.now).2.1
        network := (step relay w.network w.clock.now).2.2 }) := by
  unfold withRelay
  rw [act_bind, act_get]
  simp only [h]
  rfl

theorem withRelay_of_none {α : Type} (step : Relay → Network → Instant → α × Relay × Network) {w : World}
    (h : w.relay = none) : withRelay step w = (none, w) := by
  unfold withRelay
  rw [act_bind, act_get]
  simp only [h]
  rfl

theorem readies_withRelay {α : Type} {step : Relay → Network → Instant → α × Relay × Network}
    (h : ∀ relay network now, relay.table.Settled home →
      (step relay network now).2.1.table.Settled home) :
    Keeps (World.Ready home) (withRelay step) := by
  intro w hw
  cases hrelay : w.relay with
  | none =>
      rw [withRelay_of_none step hrelay]
      exact hw
  | some relay =>
      rw [withRelay_of_some step hrelay]
      exact hw.with_relay (h _ _ _ (hw.settled relay hrelay)) _

theorem settled_start {relay : Relay} (hrelay : relay.table.Settled home) (network : Network)
    {request : StreamRequest} (hrequest : StreamTable.AtHome home request) (now : Instant) :
    (relay.start network request now).2.1.table.Settled home := by
  unfold Relay.start
  split
  · exact hrelay
  · exact hrelay.start network hrequest now

theorem serves_start {relay : Relay} (hrelay : relay.table.Settled home) (network : Network)
    {request : StreamRequest} (hrequest : StreamTable.AtHome home request) (now : Instant) {port : UInt16}
    (hport : (relay.start network request now).1.toOption = some port) :
    (relay.start network request now).2.1.table.Serves request port := by
  unfold Relay.start at hport ⊢
  split at hport
  · cases hport
  · rename_i hrunning
    rw [if_neg hrunning]
    dsimp only at hport ⊢
    cases hanswer : (relay.table.start network request now).1 with
    | error fault =>
        rw [hanswer] at hport
        cases hport
    | ok granted =>
        rw [hanswer] at hport
        obtain ⟨h, p⟩ := granted
        have hp : p = port := Option.some.inj hport
        rw [← hp]
        exact hrelay.serves_start network hrequest now hanswer

theorem serves_start_other {relay : Relay} (hrelay : relay.table.Settled home)
    {request other : StreamRequest} {port : UInt16} (h : relay.table.Serves request port)
    (network : Network) (now : Instant)
    (hkey : StreamTable.storedKey request.key ≠ StreamTable.storedKey other.key) :
    (relay.start network other now).2.1.table.Serves request port := by
  unfold Relay.start
  split
  · exact h
  · exact h.start hrelay.sound network now hkey

theorem startStream_of_some {w : World} {relay : Relay} (h : w.relay = some relay)
    (request : StreamRequest) :
    startStream request w = ((relay.start w.network request w.clock.now).1.toOption,
      { w with
        relay := some (relay.start w.network request w.clock.now).2.1
        network := (relay.start w.network request w.clock.now).2.2 }) := by
  unfold startStream
  rw [act_bind, withRelay_of_some _ h]
  rfl

/-! All sections of a description. -/

/-- What opening streams leads to: the table after it, given the ports of the sections. -/
structure Opened (home : Direction → Ip) (request : MediaOffer → Option StreamRequest)
    (media : List MediaOffer) (before : StreamTable) (ports : List (Option UInt16)) (after : StreamTable) :
    Prop where
  settled : after.Settled home
  serves : ∀ i port, Sdp.portOf ports i = some port →
    ∃ m q, media[i]? = some m ∧ request m = some q ∧ after.Serves q port
  kept : ∀ other port, before.Serves other port →
    (∀ m ∈ media, ∀ q, request m = some q →
      StreamTable.storedKey other.key ≠ StreamTable.storedKey q.key) → after.Serves other port

theorem portOf_cons_zero (port : Option UInt16) (ports : List (Option UInt16)) :
    Sdp.portOf (port :: ports) 0 = port := by
  cases port <;> rfl

theorem startSections_cons_of_none {request : MediaOffer → Option StreamRequest} {m : MediaOffer}
    (h : request m = none) (rest : List MediaOffer) (w : World) :
    startSections request (m :: rest) w =
      (none :: (startSections request rest w).1, (startSections request rest w).2) := by
  rw [startSections, h]
  rfl

theorem startSections_cons_of_some {request : MediaOffer → Option StreamRequest} {m : MediaOffer}
    {q : StreamRequest} (h : request m = some q) (rest : List MediaOffer) (w : World) :
    startSections request (m :: rest) w =
      ((startStream q w).1 :: (startSections request rest (startStream q w).2).1,
        (startSections request rest (startStream q w).2).2) := by
  rw [startSections, h]
  rfl

/-- Sections whose streams are told apart by their keys. -/
def KeysDiffer (request : MediaOffer → Option StreamRequest) (media : List MediaOffer) : Prop :=
  media.Pairwise fun m m' => ∀ q q', request m = some q → request m' = some q' →
    StreamTable.storedKey q.key ≠ StreamTable.storedKey q'.key

/-- Opening the streams of sections one after the other changes nothing but the relay and the network, and
each section with a port is then served on it. -/
theorem startSections_spec {request : MediaOffer → Option StreamRequest}
    (hhome : ∀ m q, request m = some q → StreamTable.AtHome home q) {media : List MediaOffer}
    (hkeys : KeysDiffer request media) {w : World} {relay : Relay} (hrelay : w.relay = some relay)
    (hsettled : relay.table.Settled home) :
    ∃ after network, (startSections request media w).2 =
        { w with relay := some after, network := network } ∧
      Opened home request media relay.table (startSections request media w).1 after.table := by
  induction media generalizing w relay with
  | nil =>
      refine ⟨relay, w.network, ?_, hsettled, fun i port hport => ?_, fun _ _ h _ => h⟩
      · rw [← hrelay]
        rfl
      · simp [Sdp.portOf, startSections, act_pure] at hport
  | cons m rest ih =>
      obtain ⟨hfirst, hrest⟩ := List.pairwise_cons.mp hkeys
      cases hm : request m with
      | none =>
          obtain ⟨after, network, hworld, hopened⟩ := ih hrest hrelay hsettled
          rw [startSections_cons_of_none hm]
          refine ⟨after, network, hworld, hopened.settled, ?_, fun other port h hother =>
            hopened.kept other port h fun m' hm' => hother m' (List.mem_cons_of_mem _ hm')⟩
          intro i port hport
          cases i with
          | zero => rw [portOf_cons_zero] at hport; cases hport
          | succ i => exact hopened.serves i port hport
      | some q =>
          have hatHome := hhome m q hm
          have hstream := startStream_of_some hrelay q
          obtain ⟨after, network, hworld, hopened⟩ := ih hrest
            (show (startStream q w).2.relay = some (relay.start w.network q w.clock.now).2.1 by rw [hstream])
            (settled_start hsettled w.network hatHome w.clock.now)
          rw [startSections_cons_of_some hm]
          refine ⟨after, network, ?_, hopened.settled, ?_, fun other port h hother => ?_⟩
          · rw [hworld, hstream]
          · intro i port hport
            cases i with
            | zero =>
                rw [portOf_cons_zero, hstream] at hport
                -- The stream of this section is not the one of any later section.
                have hserved := serves_start hsettled w.network hatHome w.clock.now hport
                exact ⟨m, q, rfl, hm, hopened.kept q port hserved fun m' hm' q' hq' =>
                  hfirst m' hm' q q' hm hq'⟩
            | succ i => exact hopened.serves i port hport
          · refine hopened.kept other port ?_ fun m' hm' => hother m' (List.mem_cons_of_mem _ hm')
            exact serves_start_other hsettled h w.network w.clock.now (hother m List.mem_cons_self q hm)

/-! Messages. -/

/-- The session description that a message carries, with the call that it belongs to and its text. -/
def Message.description? (m : Message) : Option (CallId × Text × Sdp) := do
  let callId ← m.headers.callId?
  let text ← Utf8.decode? m.body
  if m.headers.carriesSdp then
    let sdp ← (Sdp.read text).toOption
    return (.ofText callId, text, sdp)
  else none

theorem Message.description?_eq_some {m : Message} {callId : CallId} {text : Text} {sdp : Sdp}
    (h : m.description? = some (callId, text, sdp)) :
    m.headers.carriesSdp = true ∧ Utf8.decode? m.body = some text ∧ Sdp.read text = .ok sdp ∧
      ∃ id, m.headers.callId? = some id ∧ callId = .ofText id := by
  unfold Message.description? at h
  obtain ⟨id, hid, h⟩ := Option.bind_eq_some_iff.mp h
  obtain ⟨body, hbody, h⟩ := Option.bind_eq_some_iff.mp h
  split at h
  · rename_i hcarries
    obtain ⟨read, hread, h⟩ := Option.bind_eq_some_iff.mp h
    simp only [pure, Option.some.injEq, Prod.mk.injEq] at h
    obtain ⟨rfl, rfl, rfl⟩ := h
    refine ⟨hcarries, hbody, ?_, id, hid, rfl⟩
    cases hr : Sdp.read body with
    | error fault => simp [hr, Except.toOption] at hread
    | ok sdp =>
        have heq : sdp = read := by simpa [hr, Except.toOption] using hread
        rw [heq]
  · cases h

/-- The streams that the sections of a description ask for. -/
def Context.requests (cx : Context) (relay : Relay) (callId : CallId) (direction : Direction)
    (client : Text) : MediaOffer → Option StreamRequest :=
  MediaOffer.streamRequest callId client direction (cx.ipTowards direction) relay.dejitter

/-- The relay ports that the sections of a message are given. -/
def anchorPorts (cx : Context) (direction : Direction) (client : Text) (m : Message) (w : World) :
    List (Option UInt16) :=
  match w.relay, m.description? with
  | some relay, some (callId, _, sdp) =>
    (startSections (cx.requests relay callId direction client) sdp.media w).1
  | _, _ => []

theorem anchorMedia_eq (cx : Context) (direction : Direction) (client : Text) (m : Message) (w : World) :
    anchorMedia cx direction client m w =
      match w.relay, m.description? with
      | some relay, some (callId, text, sdp) =>
        let result := startSections (cx.requests relay callId direction client) sdp.media w
        (if result.1.all Option.isNone then m
          else m.withBody (Utf8.encode
            (sdp.pointAt ⟨cx.ipTowards direction, Sdp.newlineOf text⟩ result.1)), result.2)
      | _, _ => (m, w) := by
  unfold anchorMedia Message.description?
  rw [act_bind, act_get]
  cases w.relay with
  | none => rfl
  | some relay =>
      cases m.headers.callId? with
      | none => rfl
      | some callId =>
          cases Utf8.decode? m.body with
          | none => rfl
          | some text =>
              by_cases hcarries : m.headers.carriesSdp = true
              · cases hread : Sdp.read text with
                | error fault => simp [hcarries, hread, act_pure, Except.toOption]
                | ok sdp =>
                    simp only [hcarries, hread, if_true, act_bind, Option.bind_some, Except.toOption,
                      Option.bind_eq_bind, Option.pure_def, Context.requests]
                    rcases Bool.eq_false_or_eq_true ((startSections (MediaOffer.streamRequest
                      (.ofText callId) client direction (cx.ipTowards direction) relay.dejitter)
                      sdp.media w).1.all Option.isNone) with hall | hall <;> simp only [hall] <;> rfl
              · simp [hcarries, act_pure]

/-- Only a section with an address that names a host asks for a stream. -/
theorem requests_eq_some {cx : Context} {relay : Relay} {callId : CallId} {direction : Direction}
    {client : Text} {m : MediaOffer} {q : StreamRequest}
    (h : cx.requests relay callId direction client m = some q) :
    ∃ ip, m.connection = some ip ∧ ip.isUnspecified = false ∧
      q = ⟨⟨callId, direction, m.index, client⟩, cx.ipTowards direction, ⟨ip, m.port⟩, relay.dejitter⟩ := by
  unfold Context.requests MediaOffer.streamRequest at h
  split at h
  · rename_i hrelay
    obtain ⟨ip, hip, hq⟩ := Option.map_eq_some_iff.mp h
    refine ⟨ip, hip, ?_, hq.symm⟩
    unfold MediaOffer.canRelay at hrelay
    rw [hip] at hrelay
    simpa using (Bool.and_eq_true_iff.mp hrelay).2
  · cases h

theorem atHome_of_request (cx : Context) (relay : Relay) (callId : CallId) (direction : Direction)
    (client : Text) : ∀ m q, cx.requests relay callId direction client m = some q →
      StreamTable.AtHome cx.ipTowards q := by
  intro m q h
  obtain ⟨ip, -, -, rfl⟩ := requests_eq_some h
  rfl

theorem keysDiffer_media (cx : Context) (relay : Relay) (callId : CallId) (direction : Direction)
    (client : Text) (sdp : Sdp) :
    KeysDiffer (cx.requests relay callId direction client) sdp.media := by
  have hindices : sdp.media.map (·.index) = List.range' 0 sdp.sections.length := by
    rw [Sdp.media, List.map_map, ← List.zipIdx_map_snd 0 sdp.sections]
    rfl
  have hnodup : (sdp.media.map (·.index)).Nodup := by
    rw [hindices]
    exact List.nodup_range'
  have hindex : ∀ m q, cx.requests relay callId direction client m = some q →
      (StreamTable.storedKey q.key).sectionIndex = m.index := by
    intro m q h
    obtain ⟨ip, -, -, rfl⟩ := requests_eq_some h
    rfl
  refine (List.pairwise_map.mp hnodup).imp fun hne q q' hq hq' heq => hne ?_
  rw [← hindex _ q hq, ← hindex _ q' hq', heq]

/-- Anchoring a message keeps a world without plugins whose streams are at home. -/
theorem readies_anchorMedia (cx : Context) (direction : Direction) (client : Text) (m : Message) :
    Keeps (World.Ready cx.ipTowards) (anchorMedia cx direction client m) := by
  intro w hw
  rw [anchorMedia_eq]
  cases hrelay : w.relay with
  | none => exact hw
  | some relay =>
      cases hdescription : m.description? with
      | none => exact hw
      | some description =>
          obtain ⟨callId, text, sdp⟩ := description
          obtain ⟨after, network, hworld, hopened⟩ := startSections_spec
            (atHome_of_request cx relay callId direction client)
            (keysDiffer_media cx relay callId direction client sdp) hrelay (hw.settled relay hrelay)
          dsimp only
          rw [hworld]
          exact hw.with_relay hopened.settled network

theorem readies_stopStreams (hs : Headers) : Keeps (World.Ready home) (stopStreams hs) := by
  refine keeps_stopStreams (fun callId direction => ?_) hs
  refine (readies_withRelay fun relay network now hrelay => ?_).bind fun _ => Keeps.pure _
  exact Relay.lasts_stop (StreamTable.lasting_settled home) hrelay network callId direction .all

theorem readies_consult (stage : Stage) (t : Ticket) : Keeps (World.Ready home) (consult stage t).run := by
  intro w hw
  rw [ExceptT.run, consult_of_no_plugins stage t hw.plugins]
  exact hw

end BorderProxy
