import Mathlib.Data.List.Forall2
import BorderProxy.Media.Relay
import BorderProxy.Proofs.DelayQueue.Refinement
import BorderProxy.Proofs.StreamTable.Home

/-! The table and the queue of a relay together. A packet that waits belongs to an open stream, because a
stream is closed and its packets are dropped in one go; sending changes which streams are open only by
closing some afterwards. -/

namespace BorderProxy

namespace StreamTable

/-- Whether a handle names an open stream. -/
def isOpen (t : StreamTable) (h : StreamRef) : Bool := (t.get? h).isSome

theorem isOpen_modify (t : StreamTable) (h r : StreamRef) (change : Stream → Stream) :
    (t.modify h change).isOpen r = t.isOpen r :=
  isSome_get?_modify t h r change

theorem isOpen_linkPeer (t : StreamTable) (h r : StreamRef) :
    (t.linkPeer h).2.isOpen r = t.isOpen r :=
  linkPeer_keeps (P := fun u => u.isOpen r = t.isOpen r)
    (fun u s peer hu => (isOpen_modify u s r (Stream.withPeer peer)).trans hu) t h rfl

theorem isOpen_remove (t : StreamTable) (network : Network) (h r : StreamRef) :
    (t.remove network h).2.1.isOpen r = (t.isOpen r && !(r == h)) := by
  unfold isOpen
  cases hs : t.get? h with
  | none =>
      rw [remove_of_stale hs]
      by_cases hr : r = h
      · simp [hr, hs]
      · simp [hr]
  | some s =>
      rw [get?_remove hs]
      by_cases hr : r = h <;> simp [hr]

/-- Opening a stream closes none. -/
theorem Sound.isOpen_start {t : StreamTable} (ht : t.Sound) (network : Network)
    (request : StreamRequest) (now : Instant) {r : StreamRef} (hr : t.isOpen r = true) :
    (t.start network request now).2.1.isOpen r = true := by
  obtain ⟨s, hs⟩ := Option.isSome_iff_exists.mp hr
  obtain ⟨s', hs', -⟩ := ht.get?_start network request now hs
  rw [isOpen, hs']
  rfl

end StreamTable

/-- A packet and a datagram that was handed to a socket for it. -/
def DelayedPacket.CarriedBy (p : DelayedPacket) (a : Attempt) : Prop :=
  a.datagram.destination = p.destination ∧ a.datagram.payload = p.payload

namespace Relay

/-- A relay whose packets that wait are those of a list, all of open streams. -/
structure Ready (r : Relay) (l : DelayList) : Prop where
  table : r.table.Sound
  queue : r.queue.Represents l
  isOpen : ∀ p ∈ l.arrivals, r.table.isOpen p.stream = true

theorem mem_handles_of_isOpen {r : Relay} (ht : r.table.Sound) {h : StreamRef}
    (hopen : r.table.isOpen h = true) : h ∈ r.table.handles := by
  obtain ⟨s, hs⟩ := Option.isSome_iff_exists.mp hopen
  exact List.mem_map.mpr ⟨(h, s), ht.aligned.mem_entries_iff.mpr hs, rfl⟩

theorem ready_idle (m : MediaSettings) (devices : List (Ip × Text)) (now : Instant) :
    (idle m devices now).Ready ⟨m.maxDelayed, []⟩ where
  table := StreamTable.sound_empty m.maxStreams m.portRange devices
  queue := DelayQueue.represents_empty m.maxDelayed
  isOpen p hp := by simp at hp

/-- The packets that are left of a list when only some streams are open. -/
def stillOpen (t : StreamTable) (packets : List DelayedPacket) : List DelayedPacket :=
  packets.filter fun p => t.isOpen p.stream

theorem stillOpen_eq_self {t : StreamTable} {packets : List DelayedPacket}
    (h : ∀ p ∈ packets, t.isOpen p.stream = true) : stillOpen t packets = packets :=
  List.filter_eq_self.mpr h

/-- Nothing else changes the packets that wait than closing their streams. -/
theorem Ready.of_open {r after : Relay} {l : DelayList} (h : r.Ready l) (htable : after.table.Sound)
    (hqueue : after.queue = r.queue)
    (hopen : ∀ s, r.table.isOpen s = true → after.table.isOpen s = true) :
    after.Ready { l with arrivals := stillOpen after.table l.arrivals } := by
  have hall : ∀ p ∈ l.arrivals, after.table.isOpen p.stream = true :=
    fun p hp => hopen p.stream (h.isOpen p hp)
  rw [stillOpen_eq_self hall]
  exact ⟨htable, by rw [hqueue]; exact h.queue, hall⟩

theorem Ready.teardown {r : Relay} {l : DelayList} (h : r.Ready l) (network : Network)
    (s : StreamRef) :
    (r.teardown network s).1.Ready
      { l with arrivals := stillOpen (r.teardown network s).1.table l.arrivals } := by
  have hopen : ∀ x, (r.teardown network s).1.table.isOpen x = (r.table.isOpen x && !(x == s)) :=
    fun x => StreamTable.isOpen_remove r.table network s x
  have hleft : stillOpen (r.teardown network s).1.table l.arrivals =
      l.arrivals.filter fun p => p.stream ≠ s := by
    apply List.filter_congr
    intro p hp
    rw [hopen, h.isOpen p hp]
    by_cases hps : p.stream = s <;> simp [hps]
  refine ⟨h.table.remove network s, ?_, ?_⟩
  · rw [hleft]
    exact (h.queue.purge s).2
  · intro p hp
    exact (List.mem_filter.mp hp).2

theorem Ready.teardownAll {r : Relay} {l : DelayList} (h : r.Ready l) (network : Network)
    (handles : List StreamRef) :
    (teardownAll handles r network).1.Ready
        { l with arrivals := stillOpen (Relay.teardownAll handles r network).1.table l.arrivals } ∧
      ∀ s, (Relay.teardownAll handles r network).1.table.isOpen s = true → r.table.isOpen s = true := by
  induction handles generalizing r l network with
  | nil => exact ⟨h.of_open h.table rfl fun _ hs => hs, fun _ hs => hs⟩
  | cons handle rest ih =>
      obtain ⟨hrest, hless⟩ := ih (h.teardown network handle) (r.teardown network handle).2
      have hfirst : ∀ s, (r.teardown network handle).1.table.isOpen s = true →
          r.table.isOpen s = true := by
        intro s hs
        have heq := StreamTable.isOpen_remove r.table network handle s
        exact (Bool.and_eq_true_iff.mp (heq.symm.trans hs)).1
      refine ⟨?_, fun s hs => hfirst s (hless s hs)⟩
      -- What is open at the end was open after the first step, so filtering twice is filtering once.
      have htwice : stillOpen (Relay.teardownAll (handle :: rest) r network).1.table
          (stillOpen (r.teardown network handle).1.table l.arrivals) =
            stillOpen (Relay.teardownAll (handle :: rest) r network).1.table l.arrivals := by
        unfold stillOpen
        rw [List.filter_filter]
        apply List.filter_congr
        intro p _
        by_cases hp : (Relay.teardownAll (handle :: rest) r network).1.table.isOpen p.stream = true
        · rw [hp, hless p.stream hp, Bool.and_self]
        · rw [Bool.not_eq_true] at hp
          rw [hp, Bool.false_and]
      rw [← htwice]
      exact hrest

theorem isOpen_teardownAll (handles : List StreamRef) (r : Relay) (network : Network) (x : StreamRef) :
    (teardownAll handles r network).1.table.isOpen x = (r.table.isOpen x && !handles.contains x) := by
  induction handles generalizing r network with
  | nil => simp [teardownAll]
  | cons h rest ih =>
      have hfirst : (r.teardown network h).1.table.isOpen x = (r.table.isOpen x && !(x == h)) :=
        StreamTable.isOpen_remove r.table network h x
      rw [teardownAll, ih, hfirst, List.contains_cons, Bool.not_or, Bool.and_assoc]

/-- A packet of an open stream is handed to a socket. -/
theorem send_spec {table : StreamTable} (ht : table.Sound) (network : Network) {p : DelayedPacket}
    (hopen : table.isOpen p.stream = true) :
    (send table network p).table.Sound ∧
      (∀ s, (send table network p).table.isOpen s = table.isOpen s) ∧
      ∃ a, (send table network p).attempt = some a ∧ p.CarriedBy a := by
  have hlinked := StreamTable.isOpen_linkPeer table p.stream
  have hsound := ht.linkPeer p.stream
  have hsome : ∃ s, (table.linkPeer p.stream).2.get? p.stream = some s := by
    rw [← Option.isSome_iff_exists]
    exact (hlinked p.stream).trans hopen
  obtain ⟨own, hown⟩ := hsome
  have hstream : ∃ s, (((table.linkPeer p.stream).1.bind (table.linkPeer p.stream).2.get?).or
      ((table.linkPeer p.stream).2.get? p.stream)) = some s := by
    rw [hown]
    cases (table.linkPeer p.stream).1.bind (table.linkPeer p.stream).2.get? with
    | none => exact ⟨own, rfl⟩
    | some s => exact ⟨s, rfl⟩
  obtain ⟨stream, hstream⟩ := hstream
  unfold send
  simp only [hstream]
  exact ⟨hsound, hlinked, _, rfl, rfl, rfl⟩

theorem sendAll_spec {table : StreamTable} (ht : table.Sound) (network : Network)
    {packets : List DelayedPacket} (hopen : ∀ p ∈ packets, table.isOpen p.stream = true) :
    (sendAll network packets table).2.2.Sound ∧
      (∀ s, (sendAll network packets table).2.2.isOpen s = table.isOpen s) ∧
      List.Forall₂ DelayedPacket.CarriedBy packets (sendAll network packets table).1 := by
  induction packets generalizing table with
  | nil => exact ⟨ht, fun _ => rfl, List.Forall₂.nil⟩
  | cons p rest ih =>
      obtain ⟨hsound, hsame, a, ha, hcarried⟩ := send_spec ht network (hopen p List.mem_cons_self)
      obtain ⟨hsound', hsame', hrest⟩ := ih hsound fun q hq =>
        (hsame q.stream).trans (hopen q (List.mem_cons_of_mem _ hq))
      simp only [sendAll, ha, Option.toList_some, List.singleton_append]
      exact ⟨hsound', fun s => (hsame' s).trans (hsame s), List.Forall₂.cons hcarried hrest⟩

end Relay

end BorderProxy
