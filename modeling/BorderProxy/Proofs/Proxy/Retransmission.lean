import BorderProxy.Proofs.Proxy.Confined
import BorderProxy.Proofs.StreamTable.Repeated

/-! Retransmitted requests. A request that comes again at the same instant, after nothing else has happened,
finds the streams that it has opened and the lacks that it has met with. So it is forwarded as it was the
first time, and the world stays as the first time left it. Two things are not found again: a pair whose
sockets could not be watched, for the search goes on behind it, and a host that was not known, for by then it
has been looked up. -/

namespace BorderProxy

/-! Streams that are asked for again. -/

namespace Relay

variable {r : Relay}

theorem start_of_stopped (h : r.running = false) (network : Network) (request : StreamRequest)
    (now : Instant) : r.start network request now = (.error .relayStopped, r, network) := by
  unfold Relay.start
  rw [h]
  rfl

theorem start_of_running (h : r.running = true) (network : Network) (request : StreamRequest)
    (now : Instant) :
    r.start network request now =
      ((r.table.start network request now).1.map (·.2),
        { r with table := (r.table.start network request now).2.1 },
        (r.table.start network request now).2.2) := by
  unfold Relay.start
  rw [h]
  rfl

/-- What a relay answers to a request for a stream again and again. -/
inductive Answers (r : Relay) (network : Network) (request : StreamRequest) (now : Instant) :
    Option UInt16 → Prop where
  | stopped (h : r.running = false) : Answers r network request now none
  | running (h : r.running = true) {port : Option UInt16}
      (hanswers : r.table.Answers network request now port) : Answers r network request now port

/-- What a relay keeps when it opens a stream. -/
theorem start_keeps (ht : r.table.Sound) (network : Network) (request : StreamRequest) (now : Instant) :
    (r.start network request now).2.1.table.Sound ∧
      (r.start network request now).2.1.dejitter = r.dejitter := by
  unfold Relay.start
  split
  · exact ⟨ht, rfl⟩
  · exact ⟨ht.start network request now, rfl⟩

theorem answers_start (ht : r.table.Sound) (network : Network) (request : StreamRequest) (now : Instant)
    (hwatched : (r.start network request now).1 ≠ .error .transport) :
    (r.start network request now).2.1.Answers (r.start network request now).2.2 request now
      (r.start network request now).1.toOption := by
  cases hrunning : r.running with
  | false =>
      rw [start_of_stopped hrunning]
      exact .stopped hrunning
  | true =>
      rw [start_of_running hrunning] at hwatched ⊢
      refine .running (by exact hrunning) ?_
      have hanswers := ht.answers_start network request now
      dsimp only at hwatched ⊢
      generalize r.table.start network request now = result at hwatched hanswers ⊢
      obtain ⟨answer, state⟩ := result
      cases answer with
      | error fault => exact hanswers fun h => hwatched (congrArg (Except.map (·.2)) h)
      | ok granted => exact hanswers nofun

theorem Answers.start_eq {network : Network} {request : StreamRequest} {now : Instant}
    {port : Option UInt16} (h : r.Answers network request now port) (ht : r.table.Sound) :
    ((r.start network request now).1.toOption, (r.start network request now).2) =
      (port, r, network) := by
  cases h with
  | stopped hstopped => rw [start_of_stopped hstopped]; rfl
  | running hrunning hanswers =>
      rw [start_of_running hrunning]
      have hagain := hanswers.start_eq ht
      generalize r.table.start network request now = result at hagain ⊢
      obtain ⟨answer, table, after⟩ := result
      obtain ⟨hport, hstate⟩ := Prod.mk.inj hagain
      obtain ⟨rfl, rfl⟩ := Prod.mk.inj hstate
      rw [← hport]
      cases answer <;> rfl

theorem Answers.start {network : Network} {request other : StreamRequest} {now : Instant}
    {port : Option UInt16} (h : r.Answers network request now port) (ht : r.table.Sound)
    (hkey : StreamTable.storedKey request.key ≠ StreamTable.storedKey other.key) :
    (r.start network other now).2.1.Answers (r.start network other now).2.2 request now port := by
  cases h with
  | stopped hstopped =>
      rw [start_of_stopped hstopped]
      exact .stopped hstopped
  | running hrunning hanswers =>
      rw [start_of_running hrunning]
      exact .running (by exact hrunning) (hanswers.start ht hkey)

end Relay

/-! Sections. -/

/-- A relay that is open in a world, with what all its tables keep. -/
structure World.Relays (w : World) (relay : Relay) : Prop where
  relay_eq : w.relay = some relay
  sound : relay.table.Sound

/-- What a world answers to a request for a stream again and again. -/
def World.Answers (w : World) (request : StreamRequest) (port : Option UInt16) : Prop :=
  ∀ relay, w.relay = some relay → relay.Answers w.network request w.clock.now port

/-- The faults with which commands to a relay are refused. -/
def RelayCommand.refusals (now : Instant) : List RelayCommand → Relay × Network → List Fault
  | [], _ => []
  | .start request :: rest, (r, network) =>
    (match (r.start network request now).1 with
      | .error fault => [fault]
      | .ok _ => []) ++ refusals now rest (r.start network request now).2
  | .stop callId direction :: rest, state =>
    refusals now rest ((RelayCommand.stop callId direction).carryOut now state)

section Sections

variable {request : MediaOffer → Option StreamRequest} {w : World} {relay : Relay}

theorem World.Relays.startStream (h : w.Relays relay) (q : StreamRequest) :
    World.Relays (BorderProxy.startStream q w).2 (relay.start w.network q w.clock.now).2.1 where
  relay_eq := by rw [startStream_of_some h.relay_eq]
  sound := (Relay.start_keeps h.sound _ _ _).1

theorem World.Relays.answers_startStream (h : w.Relays relay) {q : StreamRequest}
    (hwatched : (relay.start w.network q w.clock.now).1 ≠ .error .transport) :
    (BorderProxy.startStream q w).2.Answers q (BorderProxy.startStream q w).1 := by
  rw [startStream_of_some h.relay_eq]
  intro after hafter
  rw [← Option.some.inj hafter]
  exact Relay.answers_start h.sound w.network q w.clock.now hwatched

theorem World.Relays.startStream_eq (h : w.Relays relay) {q : StreamRequest} {port : Option UInt16}
    (hanswers : w.Answers q port) : BorderProxy.startStream q w = (port, w) := by
  obtain ⟨hport, hstate⟩ := Prod.mk.inj ((hanswers relay h.relay_eq).start_eq h.sound)
  rw [startStream_of_some h.relay_eq, hport, hstate, ← h.relay_eq]

theorem World.Answers.startStream (h : w.Relays relay) {q other : StreamRequest} {port : Option UInt16}
    (hanswers : w.Answers q port)
    (hkey : StreamTable.storedKey q.key ≠ StreamTable.storedKey other.key) :
    (BorderProxy.startStream other w).2.Answers q port := by
  rw [startStream_of_some h.relay_eq]
  intro after hafter
  rw [← Option.some.inj hafter]
  exact (hanswers relay h.relay_eq).start h.sound hkey

/-- What a request is told stays while the streams of other sections are opened. -/
theorem World.Answers.startSections {q : StreamRequest} {port : Option UInt16} {media : List MediaOffer}
    (hkeys : ∀ m ∈ media, ∀ q', request m = some q' →
      StreamTable.storedKey q.key ≠ StreamTable.storedKey q'.key)
    (h : w.Relays relay) (hanswers : w.Answers q port) :
    (BorderProxy.startSections request media w).2.Answers q port := by
  induction media generalizing w relay with
  | nil => exact hanswers
  | cons m rest ih =>
      have hrest := fun m' hm' => hkeys m' (List.mem_cons_of_mem _ hm')
      cases hm : request m with
      | none =>
          rw [startSections_cons_of_none hm]
          exact ih hrest h hanswers
      | some q' =>
          rw [startSections_cons_of_some hm]
          exact ih hrest (h.startStream q') (hanswers.startStream h (hkeys m List.mem_cons_self q' hm))

/-- Sections whose streams a world answers with ports, again and again. -/
def World.AnswersSections (w : World) (request : MediaOffer → Option StreamRequest) :
    List MediaOffer → List (Option UInt16) → Prop :=
  List.Forall₂ fun m port =>
    match request m with
    | none => port = none
    | some q => w.Answers q port

theorem World.Relays.startSections_eq (h : w.Relays relay) {media : List MediaOffer}
    {ports : List (Option UInt16)} (hanswers : w.AnswersSections request media ports) :
    BorderProxy.startSections request media w = (ports, w) := by
  induction hanswers with
  | nil => rfl
  | @cons m port rest ports hfirst _ ih =>
      cases hm : request m with
      | none =>
          rw [hm] at hfirst
          rw [startSections_cons_of_none hm, ih, hfirst]
      | some q =>
          rw [hm] at hfirst
          rw [startSections_cons_of_some hm, h.startStream_eq hfirst, ih]

/-- Once the streams of sections have been asked for, each section is told again what it was told. -/
theorem World.Relays.startSections {media : List MediaOffer} (hkeys : KeysDiffer request media)
    (h : w.Relays relay)
    (hwatched : .transport ∉
      RelayCommand.refusals w.clock.now (startCommands request media) (relay, w.network)) :
    (∃ after network, (BorderProxy.startSections request media w).2 =
        { w with relay := some after, network := network } ∧
      after.table.Sound ∧ after.dejitter = relay.dejitter) ∧
      (BorderProxy.startSections request media w).2.AnswersSections request media
        (BorderProxy.startSections request media w).1 := by
  induction media generalizing w relay with
  | nil =>
      refine ⟨⟨relay, w.network, ?_, h.sound, rfl⟩, .nil⟩
      rw [← h.relay_eq]
      rfl
  | cons m rest ih =>
      obtain ⟨hfirst, hrest⟩ := List.pairwise_cons.mp hkeys
      unfold startCommands at hwatched
      cases hm : request m with
      | none =>
          rw [List.filterMap_cons_none hm] at hwatched
          obtain ⟨hworld, hanswers⟩ := ih hrest h hwatched
          rw [startSections_cons_of_none hm]
          exact ⟨hworld, .cons (by rw [hm]) hanswers⟩
      | some q =>
          rw [List.filterMap_cons_some hm, List.map_cons, RelayCommand.refusals,
            List.mem_append, not_or] at hwatched
          obtain ⟨hfault, hlater⟩ := hwatched
          have hstart : (relay.start w.network q w.clock.now).1 ≠ .error .transport := by
            intro heq
            rw [heq] at hfault
            exact hfault List.mem_cons_self
          have hnext := h.startStream q
          have hstream := startStream_of_some h.relay_eq q
          obtain ⟨⟨after, network, hworld, hsound, hdejitter⟩, hanswers⟩ :=
            ih hrest hnext (by rw [hstream]; exact hlater)
          have hkept := (Relay.start_keeps h.sound w.network q w.clock.now).2
          rw [startSections_cons_of_some hm]
          refine ⟨⟨after, network, ?_, hsound, hdejitter.trans hkept⟩, .cons ?_ hanswers⟩
          · rw [hworld, hstream]
          · rw [hm]
            -- The first section is told the same after all the others have been asked for.
            exact (h.answers_startStream hstart).startSections
              (fun m' hm' q' hq' => hfirst m' hm' q q' hm hq') hnext

end Sections

/-! Media. -/

section Media

variable {cx : Context} {w : World} {relay : Relay}

/-- A message that is anchored again is given the same ports, and changes nothing. -/
theorem World.Relays.anchorMedia_again (h : w.Relays relay) {direction : Direction} {client : Text}
    {m : Message}
    (hwatched : .transport ∉ RelayCommand.refusals w.clock.now
      (cx.anchorCommands relay direction client m) (relay, w.network)) :
    anchorMedia cx direction client m (anchorMedia cx direction client m w).2 =
      anchorMedia cx direction client m w := by
  unfold Context.anchorCommands at hwatched
  have hfirst := anchorMedia_eq cx direction client m w
  rw [h.relay_eq] at hfirst
  cases hdescription : m.description? with
  | none =>
      rw [hdescription] at hfirst
      rw [hfirst]
      exact hfirst
  | some description =>
      obtain ⟨callId, text, sdp⟩ := description
      rw [hdescription] at hwatched hfirst
      obtain ⟨⟨after, network, hworld, hsound, hdejitter⟩, hanswers⟩ :=
        h.startSections (keysDiffer_media cx relay callId direction client sdp) hwatched
      have hrequests : cx.requests after callId direction client =
          cx.requests relay callId direction client := by
        unfold Context.requests
        rw [hdejitter]
      have hafter : World.Relays
          (BorderProxy.startSections (cx.requests relay callId direction client) sdp.media w).2 after :=
        ⟨by rw [hworld], hsound⟩
      have hagain := hafter.startSections_eq hanswers
      rw [hfirst]
      dsimp only
      rw [anchorMedia_eq, hafter.relay_eq, hdescription]
      dsimp only
      rw [hrequests, hagain]

theorem Relay.stop_of_isFree {r : Relay} (ht : r.table.Aligned) {callId : CallId} {direction : Direction}
    (hfree : r.table.IsFree callId direction) (network : Network) :
    (r.stop network callId direction .all).2 = (r, network) := by
  have hnone : r.table.selected callId direction .all = [] := by
    rw [List.eq_nil_iff_forall_not_mem]
    intro h hmem
    obtain ⟨s, hs, hkey⟩ := (StreamTable.mem_selected_iff ht).mp hmem
    exact hfree h s hs hkey
  unfold Relay.stop
  rw [hnone]
  split <;> rfl

/-- A call that is stopped again is over already. -/
theorem stopStreams_again (hs : Headers) {w : World} (hrelay : w.RunsRelay) :
    stopStreams hs (stopStreams hs w).2 = stopStreams hs w := by
  suffices h : (w.command hs.stopCommands).command hs.stopCommands = w.command hs.stopCommands by
    refine Prod.ext rfl ?_
    rw [stopStreams_snd, stopStreams_snd, h]
  cases hopen : w.relay with
  | none =>
      unfold World.command
      simp only [hopen]
  | some relay =>
      unfold Headers.stopCommands
      cases hs.callId? with
      | none => rw [World.command_nil, World.command_nil]
      | some id =>
          have htidy := (hrelay relay hopen).tidy
          have hfree := fun direction =>
            htidy.isFree_stopBoth w.network w.clock.now (.ofText id) direction
          have haligned := (htidy.carryOutAll w.network w.clock.now
            (RelayCommand.callId_stopBoth (.ofText id))).1
          obtain ⟨l, hready⟩ := haligned.ready
          rw [World.command_of_some hopen]
          dsimp only
          generalize RelayCommand.carryOutAll w.clock.now (RelayCommand.stopBoth (.ofText id))
            (relay, w.network) = stopped at hfree hready ⊢
          obtain ⟨after, network⟩ := stopped
          have hstop := fun direction =>
            Relay.stop_of_isFree hready.table.aligned (hfree direction) network
          rw [World.command_of_some rfl, RelayCommand.stopBoth, RelayCommand.carryOutAll,
            List.foldl_cons, List.foldl_cons, List.foldl_nil]
          simp only [RelayCommand.carryOut]
          rw [hstop .incoming, hstop .outgoing]

end Media

/-! Requests. -/

/-- The faults with which the relay refuses the commands that it is given when a message is routed. A fault of
the transport comes from the system, which would not watch a socket that it had opened. -/
def Ticket.refusals (cx : Context) (w : World) (t : Ticket) : List Fault :=
  match w.relay with
  | some relay => RelayCommand.refusals w.clock.now (t.commands cx w) (relay, w.network)
  | none => []

/-- A world with another relay in another network. -/
def World.SameCourse (w v : World) : Prop :=
  ∃ relay network, v = { w with relay := relay, network := network }

theorem Request.sameCourse_handled (cx : Context) (source : Endpoint) (direction : Direction)
    (registration : Option Registration) (r : Request) (w : World) :
    w.SameCourse (r.handled cx source direction registration w).2 := by
  have hrelay : ∀ {v : World} (relay : Option Relay) (network : Network), w.SameCourse v →
      w.SameCourse { v with relay := relay, network := network } := by
    rintro v relay network ⟨_, _, rfl⟩
    exact ⟨relay, network, rfl⟩
  exact keeps_handleMedia (keeps_anchorMedia (keeps_startStream hrelay) cx)
    (keeps_stopStreams (keeps_stopDirection hrelay)) r.method direction (clientOf r.headers source)
    (r.prepared cx w direction registration) w ⟨w.relay, w.network, rfl⟩

theorem Request.prepared_of_sameCourse {w v : World} (h : w.SameCourse v) (cx : Context)
    (direction : Direction) (registration : Option Registration) (r : Request) :
    r.prepared cx v direction registration = r.prepared cx w direction registration := by
  obtain ⟨relay, network, rfl⟩ := h
  rfl

section

variable {cx : Context} {t : Ticket} {q : Request} {w after : World} {direction : Direction}
  {registration : Option Registration} {m : Message} {destination : Endpoint}

/-- If nothing is added to the resolver, looking up the target of a request changes nothing. -/
theorem Request.Passes.after_eq {next : World} {r : Request}
    (h : r.Passes cx t w direction registration next m destination after)
    (hresolver : after.resolver = next.resolver) :
    after = (r.handled cx t.source direction registration next).2 := by
  obtain ⟨r', -, htarget⟩ := h.target
  obtain ⟨relay, network, hhandled⟩ := r.sameCourse_handled cx t.source direction registration next
  obtain ⟨resolver, hafter⟩ := keeps_requestTarget
    (P := fun v => ∃ resolver, v =
      { (r.handled cx t.source direction registration next).2 with resolver := resolver })
    (by rintro v resolver ⟨_, rfl⟩; exact ⟨resolver, rfl⟩) cx r' direction t.nextHop
    (r.handled cx t.source direction registration next).1.promoteStrictRoute.2
    (r.handled cx t.source direction registration next).2 ⟨_, rfl⟩
  rw [htarget] at hafter
  dsimp only at hafter
  rw [hhandled] at hafter ⊢
  rw [hafter] at hresolver ⊢
  dsimp only at hresolver
  rw [hresolver]

/-- What media become of a request does not change when it is handled again. -/
theorem Request.handled_again (hw : w.Reachable cx) {r : Request}
    (hwatched : ∀ relay, w.relay = some relay → r.method = .invite ∨ r.method = .ack ∨ r.method = .update →
      .transport ∉ RelayCommand.refusals w.clock.now
        (cx.anchorCommands relay direction (clientOf r.headers t.source)
          (.request (r.prepared cx w direction registration))) (relay, w.network)) :
    r.handled cx t.source direction registration
        (r.handled cx t.source direction registration w).2 =
      r.handled cx t.source direction registration w := by
  have hanchor : r.method = .invite ∨ r.method = .ack ∨ r.method = .update →
      anchorMedia cx direction (clientOf r.headers t.source)
          (.request (r.prepared cx w direction registration))
          (anchorMedia cx direction (clientOf r.headers t.source)
            (.request (r.prepared cx w direction registration)) w).2 =
        anchorMedia cx direction (clientOf r.headers t.source)
          (.request (r.prepared cx w direction registration)) w := by
    intro hmethod
    cases hrelay : w.relay with
    | none => rw [anchorMedia_eq cx _ _ _ w, hrelay]; exact (anchorMedia_eq cx _ _ _ w).trans (by rw [hrelay])
    | some relay =>
        exact World.Relays.anchorMedia_again ⟨hrelay, (hw.ready.settled relay hrelay).sound⟩
          (hwatched relay hrelay hmethod)
  have hprepared := r.prepared_of_sameCourse
    (r.sameCourse_handled cx t.source direction registration w) cx direction registration
  rw [show r.handled cx t.source direction registration
      (r.handled cx t.source direction registration w).2 =
        handleMedia cx r.method direction (clientOf r.headers t.source)
          (r.prepared cx (r.handled cx t.source direction registration w).2 direction registration)
          (r.handled cx t.source direction registration w).2 from rfl, hprepared]
  unfold Request.handled handleMedia
  cases hmethod : r.method with
  | invite => exact hanchor (.inl hmethod)
  | ack => exact hanchor (.inr (.inl hmethod))
  | update => exact hanchor (.inr (.inr hmethod))
  | bye =>
      exact congrArg (fun v : Unit × World => (Message.request _, v.2)) (stopStreams_again _ hw.runsRelay)
  | cancel =>
      exact congrArg (fun v : Unit × World => (Message.request _, v.2)) (stopStreams_again _ hw.runsRelay)
  | _ => rfl

end

/-- A request whose media are anchored gives the commands that anchor it as it is sent. -/
theorem RequestCourse.commands_of_anchors {c : RequestCourse}
    (h : c.method = .invite ∨ c.method = .ack ∨ c.method = .update) (cx : Context) (relay : Relay)
    (source : Endpoint) (v : World) :
    c.commands cx relay source =
      cx.anchorCommands relay c.direction (clientOf c.ticket.message.headers source)
        (.request (c.faced cx v)) := by
  have hdescription : (Message.request (c.faced cx v)).description? =
      (Message.request c.request).description? :=
    description?_congr (c.body_faced cx v) fun n hn => c.values_faced cx v hn
  rw [cx.anchorCommands_congr relay _ _ hdescription]
  unfold RequestCourse.commands
  rcases h with h | h | h <;> rw [h]

theorem Ticket.refusals_of_anchors {cx : Context} {t : Ticket} {w : World} {relay : Relay}
    (hrelay : w.relay = some relay) {c : RequestCourse} (hsettled : t.settled? cx w = some (.request c))
    (hanchors : c.method = .invite ∨ c.method = .ack ∨ c.method = .update) (v : World) :
    t.refusals cx w =
      RelayCommand.refusals w.clock.now
        (cx.anchorCommands relay c.direction (clientOf c.ticket.message.headers t.source)
          (.request (c.faced cx v))) (relay, w.network) := by
  rw [Ticket.refusals, hrelay]
  dsimp only
  rw [Ticket.commands_of_settled hrelay hsettled, ← RequestCourse.commands_of_anchors hanchors]
  rfl

/-- A request that is forwarded without an addition to the resolver, and none of whose streams was refused
because its sockets could not be watched, is forwarded as the same message to the same destination when it
comes again at once; and the world, with its streams, stays as the first time left it. -/
theorem route_again {cx : Context} {w after : World} (hw : w.Reachable cx) {t : Ticket} {q : Request}
    (hmessage : t.message = .request q) (hmethod : q.method ≠ .register) {m : Message}
    {destination : Endpoint} (hroute : route cx t w = (.forward m destination, after))
    (hresolver : after.resolver = w.resolver) (hwatched : .transport ∉ t.refusals cx w) :
    route cx t after = (.forward m destination, after) := by
  have hplugins := hw.ready.plugins
  obtain ⟨hcomplete, -⟩ := route_eq_forward hroute
  obtain ⟨direction, registration, next, hpasses⟩ := request_passes hmessage hplugins hroute
  obtain ⟨rfl, -⟩ := hpasses.course hmessage hmethod
  have hregister : (q.received cx next t.source).method ≠ .register := hmethod
  obtain ⟨-, -, hhops, hnew⟩ := checkLoop_eq_ok hpasses.checked
  obtain ⟨-, found, rfl, hdirection⟩ := directRequest_eq_ok hregister hpasses.directed
  have hsettled := Ticket.settled?_of_directed hmessage hplugins hcomplete hmethod hhops hnew hdirection
  have hrefusals := fun (relay : Relay) (hrelay : next.relay = some relay) hanchors =>
    Ticket.refusals_of_anchors hrelay hsettled hanchors next
  -- The second time starts from the world in which the first one has handled the media.
  have hagain : (q.received cx next t.source).handled cx t.source direction (some found)
        ((q.received cx next t.source).handled cx t.source direction (some found) next).2 =
      (q.received cx next t.source).handled cx t.source direction (some found) next :=
    Request.handled_again hw fun relay hrelay hanchors => by
      rw [hrefusals relay hrelay hanchors] at hwatched
      exact hwatched
  obtain ⟨relay, network, hworld⟩ :=
    (q.received cx next t.source).sameCourse_handled cx t.source direction (some found) next
  have hafter := hpasses.after_eq hresolver
  rw [← hafter] at hagain hworld
  -- It has the same plugins, knows the same hosts and registrations, and so settles the same course.
  have hsame : after.plugins = next.plugins ∧ q.received cx after t.source = q.received cx next t.source ∧
      checkLoop cx (q.received cx next t.source) t.source after =
        (.ok (q.received cx next t.source).branch, after) ∧
      directRequest cx (q.received cx next t.source) t.source after =
        (.ok (direction, some found), after) := by
    rw [hworld]
    exact ⟨rfl, rfl, checkLoop_of_unlooped hhops hnew, directRequest_of_directed hregister hdirection⟩
  obtain ⟨hplugins', hreceived, hchecked, hdirected⟩ := hsame
  obtain ⟨r', hm, htarget⟩ := hpasses.target
  have hpasses' : (q.received cx after t.source).Passes cx t after direction (some found) after m destination
      after := by
    rw [hreceived]
    refine ⟨hchecked, hdirected, ?_, r', hm, ?_⟩
    · rw [hagain]
      exact hpasses.sent
    · rw [hagain, ← hafter]
      rwa [← hafter] at htarget
  exact route_of_passes hmessage hcomplete (hplugins' ▸ hplugins) hpasses'

namespace OutgoingCall

/-- Settings of a relay with room for one stream. -/
def narrowSettings : Settings := { settings with media := { maxStreams := 1 } }

/-- The invitation to a call with audio and video. -/
def videoInvitation : Ticket :=
  ticket .invite (.v4 192 0 2 9)
    [field .to "<sip:bob@192.0.2.9>", field .cseq "2 INVITE", field .contentType "application/sdp"]
    "v=0\nc=IN IP4 10.0.0.5\nm=audio 4000 RTP/AVP 0\nm=video 4002 RTP/AVP 31\n"

def narrowRegistered : World :=
  (World.initial narrowSettings [] {} ⟨0, 0⟩ 1).run (.ofSettings narrowSettings) [.message registration]

end OutgoingCall

open OutgoingCall in
/-- The video of a call for which the relay has no room is refused again. -/
theorem again_videoInvitation :
    videoInvitation.refusals (.ofSettings narrowSettings) narrowRegistered = [.storeFull .streams] ∧
      ∃ m destination after,
        route (.ofSettings narrowSettings) videoInvitation narrowRegistered =
            (.forward m destination, after) ∧
          (after.relay.map fun relay => relay.table.entries.map (·.2.rtpPort)) = some [7070] ∧
          route (.ofSettings narrowSettings) videoInvitation after = (.forward m destination, after) := by
  have hreachable : narrowRegistered.Reachable (.ofSettings narrowSettings) :=
    ⟨narrowSettings, {}, ⟨0, 0⟩, 1, [.message registration], rfl⟩
  have hrefusals : videoInvitation.refusals (.ofSettings narrowSettings) narrowRegistered =
      [.storeFull .streams] := by
    decide +kernel
  have hfacts :
      (route (.ofSettings narrowSettings) videoInvitation narrowRegistered).1.forwarded?.isSome ∧
        (route (.ofSettings narrowSettings) videoInvitation narrowRegistered).2.resolver =
          narrowRegistered.resolver ∧
        ((route (.ofSettings narrowSettings) videoInvitation narrowRegistered).2.relay.map fun relay =>
          relay.table.entries.map (·.2.rtpPort)) = some [7070] := by
    decide +kernel
  rcases hroute : route (.ofSettings narrowSettings) videoInvitation narrowRegistered with
    ⟨outcome, after⟩
  rw [hroute] at hfacts
  obtain ⟨hforwarded, hresolver, hports⟩ := hfacts
  obtain ⟨m, destination, rfl⟩ := Routed.exists_of_forwarded hforwarded
  exact ⟨hrefusals, m, destination, after, rfl, hports,
    route_again hreachable rfl (by decide) hroute hresolver (by rw [hrefusals]; decide)⟩

/-! Requests that are not forwarded as before. -/

/-- The hosts whose addresses are stored, whether or not the entries still count. -/
def World.storedHosts (w : World) : List (Text × Ip) := w.resolver.entries.map fun e => (e.host, e.ip)

/-- The ports of the open streams. -/
def World.portsInUse (w : World) : List UInt16 :=
  w.relay.toList.flatMap fun relay => relay.table.entries.map (·.2.rtpPort)

/-- A request that is forwarded without an addition to the hosts that are stored, and that is forwarded as
another message or to another destination when it comes again at once. -/
structure ForwardedOtherwise (cx : Context) (t : Ticket) (w : World) : Prop where
  reachable : w.Reachable cx
  nothingAdded : (route cx t w).2.storedHosts = w.storedHosts
  otherwise : ∃ m destination m' destination',
    (route cx t w).1 = .forward m destination ∧
      (route cx t (route cx t w).2).1 = .forward m' destination' ∧
      (m, destination) ≠ (m', destination')

namespace OutgoingCall

/-- The party is registered, and the first pair on the outer side cannot be watched. -/
def partlyUnwatched : World :=
  (World.initial settings [] { unwatched := [⟨.v4 192 0 2 1, 7070⟩] } ⟨0, 0⟩ 1).run (.ofSettings settings)
    [.message registration]

/-- A request that the party sends through the proxy by its name. -/
def namedRoute : Ticket :=
  ticket .options (.v4 192 0 2 9)
    [field .to "<sip:bob@192.0.2.9>", field .cseq "3 OPTIONS", field .route "<sip:proxy.example;lr>"] ""

/-- The proxy has looked up its own name, and the entry has just ceased to count. -/
def outOfDate : World :=
  (World.initial settings [] { names := [("proxy.example".toList, [.v4 10 0 0 1])] } ⟨0, 0⟩ 1).run
    (.ofSettings settings) [.message registration, .message namedRoute, .time (Duration.seconds 300)]

theorem forwardedOtherwise_of_sent {t : Ticket} {w : World} (hw : w.Reachable (.ofSettings settings))
    (hhosts : (route (.ofSettings settings) t w).2.storedHosts = w.storedHosts)
    (hfirst : (route (.ofSettings settings) t w).1.forwarded?.isSome)
    (hsecond : (route (.ofSettings settings) t
      (route (.ofSettings settings) t w).2).1.forwarded?.isSome)
    (hdiffer : (route (.ofSettings settings) t w).1.forwarded? ≠
      (route (.ofSettings settings) t (route (.ofSettings settings) t w).2).1.forwarded?) :
    ForwardedOtherwise (.ofSettings settings) t w := by
  obtain ⟨m, destination, hm⟩ := Routed.exists_of_forwarded hfirst
  obtain ⟨m', destination', hm'⟩ := Routed.exists_of_forwarded hsecond
  rw [hm, hm'] at hdiffer
  exact ⟨hw, hhosts, m, destination, m', destination', hm, hm', fun h => hdiffer (congrArg some h)⟩

end OutgoingCall

open OutgoingCall in
/-- An invitation whose first pair could not be watched has no stream the first time, and one on the next pair
the second time. A request whose next hop is the proxy's own name, looked up anew, goes to the proxy the first
time; the second time the name is known for the proxy's. -/
theorem again_otherwise_outgoingCall :
    (ForwardedOtherwise (.ofSettings settings) invitation partlyUnwatched ∧
        (route (.ofSettings settings) invitation partlyUnwatched).2.portsInUse = [] ∧
        (route (.ofSettings settings) invitation
          (route (.ofSettings settings) invitation partlyUnwatched).2).2.portsInUse = [7072]) ∧
      ForwardedOtherwise (.ofSettings settings) namedRoute outOfDate := by
  have hunwatched : partlyUnwatched.Reachable (.ofSettings settings) :=
    ⟨settings, _, ⟨0, 0⟩, 1, [.message registration], rfl⟩
  have houtOfDate : outOfDate.Reachable (.ofSettings settings) :=
    ⟨settings, _, ⟨0, 0⟩, 1, [.message registration, .message namedRoute, .time (Duration.seconds 300)], rfl⟩
  refine ⟨⟨forwardedOtherwise_of_sent hunwatched ?_ ?_ ?_ ?_, ?_, ?_⟩,
    forwardedOtherwise_of_sent houtOfDate ?_ ?_ ?_ ?_⟩
  all_goals decide +kernel

end BorderProxy
