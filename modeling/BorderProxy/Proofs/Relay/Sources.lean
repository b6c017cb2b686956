import BorderProxy.Proofs.Relay.Calls
import BorderProxy.Proofs.StreamTable.Links

/-! The sockets that packets leave from. A packet leaves from the socket of the opposite of its stream, and
a note of an opposite never outlives the stream that it names: so the socket belongs to an open stream, the
packet's own one or one of the same section of the same call. -/

namespace BorderProxy

theorem Stream.source_mem_sources (s : Stream) (leg : Leg) : s.source leg ∈ s.sources := by
  cases leg <;> simp [Stream.sources]

/-- Whether an endpoint is the socket of an open stream that may send a packet: the packet's own one, or an
opposite of it. -/
def DelayedPacket.MayLeaveFrom (p : DelayedPacket) (t : StreamTable) (e : Endpoint) : Prop :=
  ∃ own h s, t.get? p.stream = some own ∧ t.get? h = some s ∧
    (h = p.stream ∨ s.key.opposes own.key = true) ∧ e = s.source p.leg

/-- A packet leaves from the stream that the search gives, or else from its own. -/
theorem Relay.source_of_attempt {t : StreamTable} {network : Network} {p : DelayedPacket} {a : Attempt}
    (ha : (Relay.send t network p).attempt = some a) :
    ∃ s, ((t.linkPeer p.stream).1.bind (t.linkPeer p.stream).2.get?).or
      ((t.linkPeer p.stream).2.get? p.stream) = some s ∧ a.datagram.source = s.source p.leg := by
  unfold Relay.send at ha
  dsimp only at ha
  split at ha
  · cases ha
  · rename_i s hs
    exact ⟨s, hs, by rw [← Option.some.inj ha]⟩

theorem StreamTable.PeersOppose.send_source {t : StreamTable} (ht : t.PeersOppose)
    (haligned : t.Aligned) (network : Network) (p : DelayedPacket) {a : Attempt}
    (ha : (Relay.send t network p).attempt = some a) : p.MayLeaveFrom t a.datagram.source := by
  obtain ⟨found, hfound, hsource⟩ := Relay.source_of_attempt ha
  have hlinked := ht.linked haligned p.stream
  generalize t.linkPeer p.stream = result at hlinked hfound
  cases hlinked with
  | stale hstale =>
      rw [Option.bind_none, Option.none_or, hstale] at hfound
      cases hfound
  | noted s q hs hpeer =>
      obtain ⟨r, hr, hopposes⟩ := ht p.stream s q hs hpeer
      simp only [Option.bind_some, hr, Option.some_or, Option.some.injEq] at hfound
      exact ⟨s, q, r, hs, hr, .inr hopposes, hfound ▸ hsource⟩
  | alone s hs hpeer hnone =>
      simp only [Option.bind_none, Option.none_or, get?_modify, if_true, hs, Option.map_some,
        Option.some.injEq] at hfound
      have hplace : found.source p.leg = s.source p.leg := by
        rw [← hfound]
        cases p.leg <;> rfl
      exact ⟨s, p.stream, s, hs, hs, .inl rfl, hsource.trans hplace⟩
  | found s r q hs hpeer hne hr hopposes =>
      simp only [Option.bind_some, get?_modify, if_true, if_neg hne, hr, Option.map_some, Option.some_or,
        Option.some.injEq] at hfound
      have hplace : found.source p.leg = r.source p.leg := by
        rw [← hfound]
        cases p.leg <;> rfl
      exact ⟨s, q, r, hs, hr, .inr hopposes, hsource.trans hplace⟩

/-- Whatever a relay did before, a packet that it sends leaves from the socket of an open stream of the
packet's call. -/
theorem Relay.Reachable.send_source {r : Relay} (hr : r.Reachable) (network : Network)
    (p : DelayedPacket) {a : Attempt} (ha : (Relay.send r.table network p).attempt = some a) :
    p.MayLeaveFrom r.table a.datagram.source := by
  obtain ⟨l, hready⟩ := hr.tidy.ready
  exact hr.tidy.peers.send_source hready.table.aligned network p ha

namespace StreamTable

/-- After every run from a table without streams each note of an opposite names another open stream, of
the same section of the same call, in the other direction and for another party. So a packet that is sent
leaves from the socket of an open stream of its call, which is one of the sockets that are held. -/
theorem run_notes_oppose (capacity : Nat) (range : PortRange) (devices : List (Ip × Text))
    (network : Network) (calls : List Call) :
    let state := calls.foldl call (empty capacity range devices, network)
    (∀ h s p, state.1.get? h = some s → s.peer = some p →
      p ≠ h ∧ ∃ r, state.1.get? p = some r ∧ r.key.callId = s.key.callId ∧
        r.key.sectionIndex = s.key.sectionIndex ∧ r.key.direction = s.key.direction.opposite ∧
        r.key.client ≠ s.key.client) ∧
    ∀ network' packet a, (Relay.send state.1 network' packet).attempt = some a →
      ∃ own h s, state.1.get? packet.stream = some own ∧ state.1.get? h = some s ∧
        s.key.callId = own.key.callId ∧ s.key.sectionIndex = own.key.sectionIndex ∧
        a.datagram.source = s.source packet.leg ∧ a.datagram.source ∈ state.2.held := by
  intro state
  obtain ⟨hsound, hopposed⟩ := opposed_run (s := (empty capacity range devices, network))
    (sound_empty capacity range devices) (peersOppose_empty capacity range devices) calls
  refine ⟨fun h s p hs hp => ?_, fun network' packet a ha => ?_⟩
  · obtain ⟨r, hr, hopposes⟩ := hopposed h s p hs hp
    exact ⟨ne_of_opposes hr hs hopposes, r, hr, StreamKey.opposes_iff.mp hopposes⟩
  · obtain ⟨own, h, s, hown, hs, hwhich, hsource⟩ :=
      hopposed.send_source hsound.aligned network' packet ha
    have hsame : s.key.callId = own.key.callId ∧ s.key.sectionIndex = own.key.sectionIndex := by
      rcases hwhich with rfl | hopposes
      · rw [hown, Option.some.injEq] at hs
        rw [hs]
        exact ⟨rfl, rfl⟩
      · obtain ⟨hcall, hsection, -, -⟩ := StreamKey.opposes_iff.mp hopposes
        exact ⟨hcall, hsection⟩
    have hheld : s.source packet.leg ∈ state.2.held := by
      have hkept := run_kept capacity range devices network calls
      refine hkept.held.mem_iff.mpr (List.mem_append_left _ ?_)
      exact List.mem_flatMap.mpr
        ⟨(h, s), hsound.aligned.mem_entries_iff.mpr hs, s.source_mem_sources packet.leg⟩
    exact ⟨own, h, s, hown, hs, hsame.1, hsame.2, hsource, hsource ▸ hheld⟩

end StreamTable

end BorderProxy
