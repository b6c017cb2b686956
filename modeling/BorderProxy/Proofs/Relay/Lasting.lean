import BorderProxy.Media.Relay
import BorderProxy.Proofs.StreamTable.Home

/-! What the relay does by itself: it notes things with streams and closes streams, and so keeps whatever
lasts through that. Only a request to open a stream does more. -/

namespace BorderProxy.Relay

open StreamTable (Lasting)

variable {P : StreamTable → Prop} (hP : Lasting P) {r : Relay} (hr : P r.table) (network : Network)
  (now : Instant)

include hP hr

theorem lasts_teardown (h : StreamRef) : P (r.teardown network h).1.table := hP.remove network h hr

theorem lasts_teardownAll (handles : List StreamRef) : P (teardownAll handles r network).1.table := by
  induction handles generalizing r network with
  | nil => exact hr
  | cons h rest ih => exact ih (lasts_teardown hP hr network h) _

theorem lasts_stop (callId : CallId) (direction : Direction) (selector : SectionChoice) :
    P (r.stop network callId direction selector).2.1.table := by
  unfold Relay.stop
  split
  · exact hr
  · split
    · exact hr
    · exact lasts_teardownAll hP hr network _

omit hr in
theorem lasts_send (p : DelayedPacket) {table : StreamTable} (ht : P table) :
    P (send table network p).table := by
  have hlinked := hP.linkPeer p.stream ht
  unfold send
  generalize table.linkPeer p.stream = linked at hlinked ⊢
  dsimp only
  split <;> exact hlinked

theorem lasts_sendNow (p : DelayedPacket) : P (r.sendNow network p).2.1.table :=
  lasts_teardownAll hP (r := { r with table := _ }) (lasts_send hP network p hr) network _

theorem lasts_shutdown : P (r.shutdown network).1.table := lasts_teardownAll hP hr network _

theorem lasts_receive (h : StreamRef) (leg : Leg) (payload : List UInt8) :
    P (r.receive network h leg payload now).2.1.table := by
  unfold Relay.receive
  split
  · exact hr
  · rename_i stream _
    generalize arrival h stream leg payload now = arrived
    obtain ⟨packet, jitter⟩ := arrived
    have hnoted : P (r.table.modify h fun s => { s with lastHeard := now, jitter := jitter }) :=
      hP.modify h (fun _ => ⟨⟨rfl, rfl, rfl⟩, rfl, rfl⟩) hr
    cases packet with
    | none => exact lasts_shutdown hP (r := { r with table := _ }) hnoted network
    | some p =>
        dsimp only
        split
        · exact hnoted
        · exact lasts_sendNow hP (r := { r with table := _ }) hnoted network p

theorem lasts_receiveAt (endpoint : Endpoint) (payload : List UInt8)
    {result : List Attempt × Relay × Network}
    (h : r.receiveAt network endpoint payload now = some result) : P result.2.1.table := by
  unfold Relay.receiveAt at h
  obtain ⟨⟨handle, leg⟩, -, rfl⟩ := Option.map_eq_some_iff.mp h
  exact lasts_receive hP hr network now handle leg payload

omit hr in
theorem lasts_sendAll (packets : List DelayedPacket) {table : StreamTable} (ht : P table) :
    P (sendAll network packets table).2.2 := by
  induction packets generalizing table with
  | nil => exact ht
  | cons p rest ih => exact ih (lasts_send hP network p ht)

theorem lasts_sendDue : P (r.sendDue network now).2.1.table := by
  have hsent := lasts_sendAll hP network (r.queue.flush now).1 hr
  exact lasts_teardownAll hP (r := { r with queue := _, table := _ }) hsent network _

theorem lasts_sweep : P (r.sweep network now).1.table :=
  lasts_teardownAll hP hr network _

theorem lasts_settle : P (r.settle network now).2.1.table := by
  have hdue := lasts_sendDue hP hr network now
  unfold Relay.settle
  generalize r.sendDue network now = due at hdue ⊢
  obtain ⟨attempts, after, network'⟩ := due
  by_cases hrunning : r.running = true
  · by_cases hsweep : sweepEvery ≤ now.since after.lastSweep
    · have hswept := lasts_sweep hP hdue network' now
      simpa [hrunning, hsweep] using hswept
    · simpa [hrunning, hsweep] using hdue
  · simpa [hrunning] using hr

end BorderProxy.Relay
