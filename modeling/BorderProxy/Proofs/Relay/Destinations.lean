import BorderProxy.Proofs.Relay.Calls

/-! Where streams send. Media packets go to the port that the remote party announced, control packets to the
next one; after the last port comes port zero, which no packet can be sent to. A control packet does not wait,
so that it cannot be sent shows at once: then an opposite of the stream is closed. -/

namespace BorderProxy

theorem next_eq_zero_iff (port : UInt16) : port + 1 = 0 ↔ port = 65535 := by
  constructor
  · intro h
    have hnext := congrArg UInt16.toNat h
    rw [UInt16.toNat_add] at hnext
    have hlt := port.toNat_lt
    refine UInt16.toNat_inj.mp ?_
    simp only [UInt16.reduceToNat] at hnext ⊢
    omega
  · rintro rfl
    rfl

theorem toNat_next_iff (port : UInt16) : (port + 1).toNat = port.toNat + 1 ↔ port ≠ 65535 := by
  have hlt := port.toNat_lt
  rw [UInt16.toNat_add, Ne, ← UInt16.toNat_inj]
  simp only [UInt16.reduceToNat]
  omega

/-- Where a stream sends if its party announced a port that is not zero: the last port has no next one. -/
structure Stream.Addressed (s : Stream) : Prop where
  rtp : (s.destination .rtp).port ≠ 0
  rtcp : (s.destination .rtcp).port ≠ 0 ↔ s.remote.port ≠ 65535
  next : (s.destination .rtcp).port.toNat = (s.destination .rtp).port.toNat + 1 ↔ s.remote.port ≠ 65535

theorem Stream.addressed {s : Stream} (h : s.remote.port ≠ 0) : s.Addressed where
  rtp := h
  rtcp := not_congr (next_eq_zero_iff s.remote.port)
  next := toNat_next_iff s.remote.port

/-! Remote parties. -/

namespace StreamTable

/-- A table whose streams have remote parties with a property. -/
def Remotes (p : Endpoint → Prop) (t : StreamTable) : Prop := ∀ h s, t.get? h = some s → p s.remote

variable {p : Endpoint → Prop} {t : StreamTable}

theorem remotes_empty (p : Endpoint → Prop) (capacity : Nat) (range : PortRange)
    (devices : List (Ip × Text)) : (empty capacity range devices).Remotes p := by
  intro h s hs
  have hget := (get?_eq_some_iff.mp hs).2
  simp [empty] at hget

theorem Remotes.modify (ht : t.Remotes p) (h : StreamRef) {change : Stream → Stream}
    (hchange : ∀ s : Stream, p s.remote → p (change s).remote) : (t.modify h change).Remotes p := by
  intro x s hs
  rw [get?_modify] at hs
  split at hs
  · obtain ⟨old, hold, rfl⟩ := Option.map_eq_some_iff.mp hs
    exact hchange old (ht _ old hold)
  · exact ht x s hs

theorem remote_forgetPeer (h : StreamRef) (s : Stream) : (forgetPeer h s).remote = s.remote := by
  unfold forgetPeer
  split <;> rfl

/-- What the relay does by itself leaves remote parties as they are. -/
theorem lasting_remotes (p : Endpoint → Prop) : Lasting (Remotes p) where
  modify h _ hchange ht := ht.modify h fun s hs => by rw [(hchange s).2.2]; exact hs
  linkPeer {t} h ht := linkPeer_keeps (fun _ r _ hu => hu.modify r fun _ hs => hs) t h ht
  remove {t} network h ht x s hs := by
    cases hopen : t.get? h with
    | none =>
        rw [remove_of_stale hopen] at hs
        exact ht x s hs
    | some closed =>
        rw [get?_remove hopen] at hs
        split at hs
        · cases hs
        · obtain ⟨old, hold, rfl⟩ := Option.map_eq_some_iff.mp hs
          rw [remote_forgetPeer]
          exact ht x old hold

/-- A stream that is opened or refreshed has the remote party of its request. -/
theorem Remotes.start (ht : t.Remotes p) (hslots : t.arena.WellFormed) (network : Network)
    {request : StreamRequest} (hrequest : p request.remote) (now : Instant) :
    (t.start network request now).2.1.Remotes p := by
  have hstarted := t.started network request now
  generalize t.start network request now = result at hstarted ⊢
  cases hstarted with
  | refreshed h s hfind => exact ht.modify h fun _ _ => hrequest
  | full hnew hfree => exact ht
  | exhausted hnew hopen => exact ht
  | unwatched fault cursor hnew => exact ht
  | opened index port arena cursor hnew hport hslot =>
      intro x s hs
      rcases get?_of_insert hslots hslot hs with rfl | hold
      · exact hrequest
      · exact ht x s hold

end StreamTable

/-! Control packets. -/

namespace Network

theorem deliver_eq_failed_iff (n : Network) (source destination : Endpoint) :
    n.deliver source destination = .failed ↔ source.ip.sameFamily destination.ip = false ∨
      destination.port = 0 ∨ n.unreachable.contains destination = true := by
  have hhard : (!source.ip.sameFamily destination.ip || destination.port == 0 ||
      n.unreachable.contains destination) = true ↔ source.ip.sameFamily destination.ip = false ∨
        destination.port = 0 ∨ n.unreachable.contains destination = true := by
    simp [or_assoc]
  rw [← hhard, deliver]
  split
  · rename_i h
    exact ⟨fun _ => h, fun _ => rfl⟩
  · rename_i h
    refine ⟨fun hfailed => ?_, fun hhard => absurd hhard h⟩
    split at hfailed
    · cases hfailed
    · split at hfailed <;> cases hfailed

end Network

namespace Relay

/-- What comes of a control packet that arrives on a stream: it is handed to a socket at once, and where it
cannot be sent, an opposite of the stream is closed, if it has one, and no other stream. -/
structure Controls (r : Relay) (network : Network) (h : StreamRef) (s : Stream) (payload : List UInt8)
    (now : Instant) (a : Attempt) : Prop where
  attempts : (r.receive network h .rtcp payload now).1 = [a]
  destination : a.datagram.destination = s.destination .rtcp
  carries : a.datagram.payload = payload
  failed : a.delivery = .failed ↔ s.remote.port = 65535 ∨
    a.datagram.source.ip.sameFamily s.remote.ip = false ∨
      network.unreachable.contains (s.destination .rtcp) = true
  kept : a.delivery ≠ .failed → ∀ x,
    (r.receive network h .rtcp payload now).2.1.table.isOpen x = r.table.isOpen x
  closed : a.delivery = .failed → ∀ p q, r.table.get? p = some q → q.key.opposes s.key = true →
    ∃ p' q', r.table.get? p' = some q' ∧ q'.key.opposes s.key = true ∧
      ∀ x, (r.receive network h .rtcp payload now).2.1.table.isOpen x =
        (r.table.isOpen x && !(x == p'))

variable {r : Relay} {h : StreamRef} {s : Stream}

/-- A control packet is due when it arrives. -/
theorem receive_rtcp_eq (hs : r.table.get? h = some s) (network : Network) (payload : List UInt8)
    (now : Instant) :
    r.receive network h .rtcp payload now =
      { r with table := r.table.modify h fun s' => { s' with lastHeard := now, jitter := s.jitter } }.sendNow
        network ⟨h, .rtcp, s.destination .rtcp, now, payload⟩ := by
  have harrival : arrival h s .rtcp payload now =
      (some ⟨h, .rtcp, s.destination .rtcp, now, payload⟩, s.jitter) := by
    simp [arrival]
  have hwaits : delay? r.queue ⟨h, .rtcp, s.destination .rtcp, now, payload⟩ now = none :=
    if_neg (Int.lt_irrefl now)
  unfold Relay.receive
  rw [hs]
  dsimp only
  rw [harrival]
  dsimp only
  rw [hwaits]

/-- What is handed to a socket for a packet of an open stream, and which stream is closed for it. -/
theorem send_of_isOpen {table : StreamTable} (network : Network) {p : DelayedPacket}
    (hopen : table.isOpen p.stream = true) :
    ∃ a, (send table network p).attempt = some a ∧ p.CarriedBy a ∧
      a.delivery = network.deliver a.datagram.source a.datagram.destination ∧
      (send table network p).failed =
        (if a.delivery = .failed then (table.linkPeer p.stream).1 else none) ∧
      (send table network p).table = (table.linkPeer p.stream).2 := by
  have hlinked : (table.linkPeer p.stream).2.isOpen p.stream = true := by
    rw [StreamTable.isOpen_linkPeer, hopen]
  obtain ⟨own, hown⟩ := Option.isSome_iff_exists.mp hlinked
  obtain ⟨stream, hstream⟩ : ∃ stream, ((table.linkPeer p.stream).1.bind
      (table.linkPeer p.stream).2.get?).or ((table.linkPeer p.stream).2.get? p.stream) = some stream := by
    rw [hown]
    cases (table.linkPeer p.stream).1.bind (table.linkPeer p.stream).2.get? with
    | none => exact ⟨own, rfl⟩
    | some stream => exact ⟨stream, rfl⟩
  let datagram : Datagram := ⟨stream.source p.leg, p.destination, p.payload⟩
  let delivery := network.deliver datagram.source datagram.destination
  have hsend : send table network p = ⟨(table.linkPeer p.stream).2, some ⟨datagram, delivery⟩,
      if delivery = .failed then (table.linkPeer p.stream).1 else none⟩ := by
    unfold send
    simp only [hstream]
    rfl
  rw [hsend]
  exact ⟨⟨datagram, delivery⟩, rfl, ⟨rfl, rfl⟩, rfl, rfl, rfl⟩

/-- Where some stream opposes a stream, looking for the opposite of that gives one. -/
theorem exists_opposite {t : StreamTable} (ht : t.PeersOppose) (haligned : t.Aligned)
    (hs : t.get? h = some s) {p : StreamRef} {q : Stream} (hq : t.get? p = some q)
    (hopposes : q.key.opposes s.key = true) :
    ∃ p' q', (t.linkPeer h).1 = some p' ∧ t.get? p' = some q' ∧ q'.key.opposes s.key = true := by
  have hlinked := ht.linked haligned h
  generalize t.linkPeer h = result at hlinked ⊢
  cases hlinked with
  | stale hstale =>
      rw [hstale] at hs
      cases hs
  | noted s' p' hs' hpeer =>
      obtain rfl := Option.some.inj (hs.symm.trans hs')
      obtain ⟨q', hq', hopposes'⟩ := ht h s p' hs hpeer
      exact ⟨p', q', rfl, hq', hopposes'⟩
  | alone s' hs' hpeer hnone =>
      obtain rfl := Option.some.inj (hs.symm.trans hs')
      have hnot := hnone p q hq (StreamTable.ne_of_opposes hq hs hopposes)
      rw [hopposes] at hnot
      cases hnot
  | found s' q' p' hs' hpeer hne hq' hopposes' =>
      obtain rfl := Option.some.inj (hs.symm.trans hs')
      exact ⟨p', q', rfl, hq', hopposes'⟩

theorem exists_controls {home : Direction → Ip} (ht : r.table.Settled home) (hs : r.table.get? h = some s)
    (network : Network) (payload : List UInt8) (now : Instant) :
    ∃ a, r.Controls network h s payload now a := by
  let heard : Stream → Stream := fun s' => { s' with lastHeard := now, jitter := s.jitter }
  have hnoted : (r.table.modify h heard).Settled home :=
    (StreamTable.lasting_settled home).modify h (fun _ => ⟨⟨rfl, rfl, rfl⟩, rfl, rfl⟩) ht
  have hopen : (r.table.modify h heard).isOpen h = true := by
    rw [StreamTable.isOpen_modify, StreamTable.isOpen, hs]
    rfl
  obtain ⟨a, hattempt, ⟨hdestination, hpayload⟩, hdelivery, hfailed, htable⟩ :=
    send_of_isOpen network (p := ⟨h, .rtcp, s.destination .rtcp, now, payload⟩) hopen
  have hafter : ∀ x, (r.receive network h .rtcp payload now).2.1.table.isOpen x =
      (r.table.isOpen x && !(if a.delivery = .failed then
        ((r.table.modify h heard).linkPeer h).1 else none).toList.contains x) := by
    intro x
    rw [receive_rtcp_eq hs, sendNow]
    dsimp only
    rw [isOpen_teardownAll, hfailed, htable, StreamTable.isOpen_linkPeer, StreamTable.isOpen_modify]
  refine ⟨a, ?_, hdestination, hpayload, ?_, fun hkept x => ?_, fun hlost p q hq hopposes => ?_⟩
  · rw [receive_rtcp_eq hs, sendNow]
    dsimp only
    rw [hattempt]
    rfl
  · rw [hdelivery, hdestination, Network.deliver_eq_failed_iff]
    have hzero : (s.destination .rtcp).port = 0 ↔ s.remote.port = 65535 := next_eq_zero_iff _
    rw [hzero, or_left_comm]
    rfl
  · rw [hafter, if_neg hkept]
    simp
  · -- Streams keep their keys while one of them is heard.
    obtain ⟨q₁, hq₁, hkey⟩ := StreamTable.key_get?_modify h heard (fun _ => rfl) hq
    have hself : (r.table.modify h heard).get? h = some (heard s) := by
      rw [StreamTable.get?_modify, if_pos rfl, hs]
      rfl
    obtain ⟨p', q', hpeer, hq', hopposes'⟩ := exists_opposite hnoted.peers hnoted.sound.aligned hself hq₁
      (by rw [hkey]; exact hopposes)
    have hne : p' ≠ h := StreamTable.ne_of_opposes hq' hself hopposes'
    rw [StreamTable.get?_modify, if_neg hne] at hq'
    refine ⟨p', q', hq', hopposes', fun x => ?_⟩
    rw [hafter, if_pos hlost, hpeer]
    by_cases hx : x = p' <;> simp [hx]

end Relay

end BorderProxy
