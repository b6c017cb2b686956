import BorderProxy.Proofs.Relay.Teardown

/-! What a relay does step by step: commands, packets that arrive, packets that become due, sweeps. A
step notes the packet that was read in it, what was handed to sockets and which streams were closed, in
this order; the moment and the network around the relay may be different at each step. -/

namespace BorderProxy

/-- What happens to a relay in a step. -/
inductive RelayAct where
  | start (request : StreamRequest)
  | stop (callId : CallId) (direction : Direction) (selector : SectionChoice)
  | snapshot
  | read (h : StreamRef) (leg : Leg) (payload : List UInt8)
  | flush
  | sweep
  | shutdown

/-- A step of a relay. -/
structure RelayStep where
  act : RelayAct
  network : Network
  now : Instant

/-- A packet that was read. It is refused when it should wait but the queue does not take it. -/
structure Arrival where
  packet : DelayedPacket
  refused : Bool

/-- What a relay did in a step. -/
structure RelayDeeds where
  now : Instant
  read : Option Arrival
  handed : List Attempt
  closed : List StreamRef

/-- What a relay did, step by step. -/
abbrev RelayHistory := List RelayDeeds

namespace Relay

/-- Whether a packet should wait but is too long for a slot or finds the queue full. -/
def refuses (queue : DelayQueue) (p : DelayedPacket) (now : Instant) : Bool :=
  now < p.due && (DelaySlot.size < p.payload.length || queue.slots.length ≤ queue.size)

/-- A packet that arrives on a leg of a stream, if that is open. One for which no time can be told is noted
as due now; it is dropped with its stream. -/
def arrivalAt (r : Relay) (h : StreamRef) (leg : Leg) (payload : List UInt8) (now : Instant) :
    Option Arrival :=
  (r.table.get? h).map fun stream =>
    let p := (arrival h stream leg payload now).1.getD ⟨h, leg, stream.destination leg, now, payload⟩
    ⟨p, refuses r.queue p now⟩

/-- The packet that is read in a step, what is handed to sockets, and the relay after the step. -/
def perform (r : Relay) (network : Network) (now : Instant) :
    RelayAct → Option Arrival × List Attempt × Relay
  | .start request => (none, [], (r.start network request now).2.1)
  | .stop callId direction selector => (none, [], (r.stop network callId direction selector).2.1)
  | .snapshot => (none, [], r)
  | .read h leg payload =>
    let (attempts, after, _) := r.receive network h leg payload now
    (r.arrivalAt h leg payload now, attempts, after)
  | .flush =>
    let (attempts, after, _) := r.sendDue network now
    (none, attempts, after)
  | .sweep => (none, [], (r.sweep network now).1)
  | .shutdown => (none, [], (r.shutdown network).1)

/-- What a relay does in a step, and the relay after it. -/
def step (r : Relay) (s : RelayStep) : RelayDeeds × Relay :=
  let (read, handed, after) := r.perform s.network s.now s.act
  (⟨s.now, read, handed, r.table.handles.filter fun h => !after.table.isOpen h⟩, after)

/-- What a relay does in steps, and the relay after them. -/
def run (r : Relay) (steps : List RelayStep) : RelayHistory × Relay :=
  steps.foldl (fun (history, r) s => (history ++ [(r.step s).1], (r.step s).2)) ([], r)

theorem run_concat (r : Relay) (steps : List RelayStep) (s : RelayStep) :
    r.run (steps ++ [s]) =
      ((r.run steps).1 ++ [((r.run steps).2.step s).1], ((r.run steps).2.step s).2) :=
  List.foldl_concat _ _ _ _

/-- What a step makes of the packets that wait: some leave in the order of the datagrams that are handed
to sockets, and of the others those stay whose streams are open afterwards. -/
structure Moves (r after : Relay) (l : DelayList) (now : Instant) (read : Option Arrival)
    (handed : List Attempt) (out : List Arrival) (kept : List DelayedPacket) : Prop where
  split : (l.arrivals.map (Arrival.mk · false) ++ read.toList).Perm
    (out ++ kept.map (Arrival.mk · false))
  carried : List.Forall₂ (fun x a => x.packet.CarriedBy a) out handed
  due : ∀ x ∈ out, x.refused = false → x.packet.due ≤ now
  isOpen : ∀ p ∈ kept, r.table.isOpen p.stream = true
  ready : after.Ready { l with arrivals := stillOpen after.table kept }

theorem Ready.moves_none {r after : Relay} {l : DelayList} (h : r.Ready l) (now : Instant)
    (hafter : after.Ready { l with arrivals := stillOpen after.table l.arrivals }) :
    Moves r after l now none [] [] l.arrivals where
  split := by simp
  carried := List.Forall₂.nil
  due x hx := by simp at hx
  isOpen := h.isOpen
  ready := hafter

theorem Ready.unchanged {r : Relay} {l : DelayList} (h : r.Ready l) :
    r.Ready { l with arrivals := stillOpen r.table l.arrivals } :=
  h.of_open h.table rfl fun _ hs => hs

theorem Ready.start {r : Relay} {l : DelayList} (h : r.Ready l) (network : Network)
    (request : StreamRequest) (now : Instant) :
    (r.start network request now).2.1.Ready
      { l with arrivals := stillOpen (r.start network request now).2.1.table l.arrivals } := by
  unfold Relay.start
  split
  · exact h.unchanged
  · exact h.of_open (h.table.start network request now) rfl fun _ hs =>
      h.table.isOpen_start network request now hs

theorem Ready.stop {r : Relay} {l : DelayList} (h : r.Ready l) (network : Network) (callId : CallId)
    (direction : Direction) (selector : SectionChoice) :
    (r.stop network callId direction selector).2.1.Ready
      { l with arrivals :=
        stillOpen (r.stop network callId direction selector).2.1.table l.arrivals } := by
  unfold Relay.stop
  split
  · exact h.unchanged
  · split
    · exact h.unchanged
    · exact (h.teardownAll network _).1

/-- A packet that is sent leaves alone, whether it was due or was refused. -/
theorem Ready.sendNow {r : Relay} {l : DelayList} (h : r.Ready l) (network : Network) (now : Instant)
    {x : Arrival} (hopen : r.table.isOpen x.packet.stream = true)
    (hdue : x.refused = false → x.packet.due ≤ now) :
    Moves r (r.sendNow network x.packet).2.1 l now (some x) (r.sendNow network x.packet).1 [x]
      l.arrivals := by
  obtain ⟨hsound, hsame, a, ha, hcarried⟩ := send_spec h.table network hopen
  have hsent : Ready { r with table := (send r.table network x.packet).table } l :=
    ⟨hsound, h.queue, fun p hp => (hsame p.stream).trans (h.isOpen p hp)⟩
  have hafter := (hsent.teardownAll network (send r.table network x.packet).failed.toList).1
  unfold Relay.sendNow
  simp only [ha, Option.toList_some]
  refine ⟨?_, List.Forall₂.cons hcarried List.Forall₂.nil, ?_, h.isOpen, hafter⟩
  · exact List.perm_append_comm
  · intro y hy
    rw [List.mem_singleton] at hy
    rw [hy]
    exact hdue

/-- A packet that should wait is refused just when the queue does not take it. -/
theorem refuses_eq {q : DelayQueue} {l : DelayList} (h : q.Represents l) {p : DelayedPacket}
    {now : Instant} (hwait : now < p.due) : refuses q p now = !(l.push p).toBool := by
  obtain ⟨order, hholds⟩ := h
  have hsize : q.size = l.arrivals.length :=
    hholds.size_eq.trans (InOrder.of_sorted l).perm.length_eq
  unfold refuses DelayList.push
  rw [hholds.capacity, hsize]
  by_cases hlong : DelaySlot.size < p.payload.length
  · simp [hwait, hlong, Except.toBool]
  · by_cases hfull : l.capacity ≤ l.arrivals.length <;> simp [hwait, hlong, hfull, Except.toBool]

theorem arrival_stream {h : StreamRef} {stream : Stream} {leg : Leg} {payload : List UInt8}
    {now : Instant} {p : DelayedPacket} (hp : (arrival h stream leg payload now).1 = some p) :
    p.stream = h := by
  obtain ⟨due, -, rfl⟩ := Option.map_eq_some_iff.mp hp
  rfl

/-- A relay that has noted when a stream was last heard, and its jitter. -/
def note (r : Relay) (h : StreamRef) (jitter : Jitter) (now : Instant) : Relay :=
  { r with table := r.table.modify h fun s => { s with lastHeard := now, jitter := jitter } }

theorem isOpen_note (r : Relay) (h : StreamRef) (jitter : Jitter) (now : Instant) (s : StreamRef) :
    (r.note h jitter now).table.isOpen s = r.table.isOpen s :=
  StreamTable.isOpen_modify r.table h s _

theorem Ready.note {r : Relay} {l : DelayList} (h : r.Ready l) (s : StreamRef) (jitter : Jitter)
    (now : Instant) : (r.note s jitter now).Ready l where
  table := h.table.modify s fun _ => ⟨rfl, rfl, rfl⟩
  queue := h.queue
  isOpen p hp := (r.isOpen_note s jitter now p.stream).trans (h.isOpen p hp)

theorem Moves.of_note {r after : Relay} {l : DelayList} {s : StreamRef} {jitter : Jitter} {now : Instant}
    {read : Option Arrival} {handed : List Attempt} {out : List Arrival} {kept : List DelayedPacket}
    (h : Moves (r.note s jitter now) after l now read handed out kept) :
    Moves r after l now read handed out kept where
  split := h.split
  carried := h.carried
  due := h.due
  isOpen p hp := (r.isOpen_note s jitter now p.stream).symm.trans (h.isOpen p hp)
  ready := h.ready

/-- A packet that the queue takes waits at the end of the list. -/
theorem Ready.enqueue {r : Relay} {l l' : DelayList} (h : r.Ready l) {p : DelayedPacket}
    (hopen : r.table.isOpen p.stream = true) (hlist : l.push p = .ok l') {queue : DelayQueue}
    (hqueue : queue.Represents l') (now : Instant) :
    Moves r { r with queue := queue } l now (some ⟨p, false⟩) [] [] (l.arrivals ++ [p]) := by
  have hl' : l' = { l with arrivals := l.arrivals ++ [p] } := by
    unfold DelayList.push at hlist
    split at hlist
    · cases hlist
    · split at hlist
      · cases hlist
      · exact (Except.ok.inj hlist).symm
  rw [hl'] at hqueue
  have hall : ∀ q ∈ l.arrivals ++ [p], r.table.isOpen q.stream = true := by
    intro q hq
    rcases List.mem_append.mp hq with hq | hq
    · exact h.isOpen q hq
    · rw [List.mem_singleton.mp hq]
      exact hopen
  have hwaits : Ready { r with queue := queue } { l with arrivals := l.arrivals ++ [p] } :=
    ⟨h.table, hqueue, hall⟩
  exact ⟨by simp, List.Forall₂.nil, by simp, hall, hwaits.unchanged⟩

/-- A packet of an open stream that was read waits, or it is sent at once. -/
theorem Ready.delay {r : Relay} {l : DelayList} (h : r.Ready l) (network : Network) {p : DelayedPacket}
    (hopen : r.table.isOpen p.stream = true) (now : Instant) :
    (∃ queue kept, delay? r.queue p now = some queue ∧
      Moves r { r with queue := queue } l now (some ⟨p, refuses r.queue p now⟩) [] [] kept) ∨
    (delay? r.queue p now = none ∧ Moves r (r.sendNow network p).2.1 l now
      (some ⟨p, refuses r.queue p now⟩) (r.sendNow network p).1 [⟨p, refuses r.queue p now⟩]
      l.arrivals) := by
  by_cases hwait : now < p.due
  · rcases h.queue.push p with ⟨queue, l', hpush, hlist, hqueue⟩ | ⟨fault, hpush, hlist⟩
    · have hrefuses : refuses r.queue p now = false := by
        rw [refuses_eq h.queue hwait, hlist]
        rfl
      rw [hrefuses]
      refine .inl ⟨queue, l.arrivals ++ [p], ?_, h.enqueue hopen hlist hqueue now⟩
      rw [delay?, if_pos hwait, hpush]
      rfl
    · have hrefuses : refuses r.queue p now = true := by
        rw [refuses_eq h.queue hwait, hlist]
        rfl
      rw [hrefuses]
      refine .inr ⟨?_, h.sendNow network now (x := ⟨p, true⟩) hopen fun hfalse => by cases hfalse⟩
      rw [delay?, if_pos hwait, hpush]
      rfl
  · have hrefuses : refuses r.queue p now = false := by
      simp [refuses, hwait]
    rw [hrefuses]
    exact .inr ⟨if_neg hwait, h.sendNow network now (x := ⟨p, false⟩) hopen fun _ =>
      Int.not_lt.mp hwait⟩

/-- A relay that ends has no stream left. -/
theorem isOpen_shutdown {r : Relay} (ht : r.table.Sound) (network : Network) (s : StreamRef) :
    (r.shutdown network).1.table.isOpen s = false := by
  show (Relay.teardownAll r.table.handles r network).1.table.isOpen s = false
  rw [isOpen_teardownAll]
  cases hopen : r.table.isOpen s with
  | false => rfl
  | true =>
      have hmem := mem_handles_of_isOpen ht hopen
      rw [List.contains_iff_mem.mpr hmem]
      rfl

/-- A packet with which the relay ends is dropped with all others. -/
theorem Ready.breakOff {r : Relay} {l : DelayList} (h : r.Ready l) (network : Network) (now : Instant)
    {p : DelayedPacket} (hopen : r.table.isOpen p.stream = true) :
    Moves r (r.shutdown network).1 l now (some ⟨p, false⟩) [] [] (l.arrivals ++ [p]) where
  split := by simp
  carried := List.Forall₂.nil
  due x hx := by simp at hx
  isOpen q hq := by
    rcases List.mem_append.mp hq with hq | hq
    · exact h.isOpen q hq
    · rw [List.mem_singleton.mp hq]
      exact hopen
  ready := by
    have hclosed := (h.teardownAll network r.table.handles).1
    have hleft : stillOpen (r.shutdown network).1.table (l.arrivals ++ [p]) =
        stillOpen (r.shutdown network).1.table l.arrivals := by
      rw [stillOpen, List.filter_append]
      simp [stillOpen, isOpen_shutdown h.table]
    rw [hleft]
    exact ⟨hclosed.table, hclosed.queue, hclosed.isOpen⟩

theorem Ready.receive {r : Relay} {l : DelayList} (h : r.Ready l) (network : Network) (s : StreamRef)
    (leg : Leg) (payload : List UInt8) (now : Instant) :
    ∃ out kept, Moves r (r.receive network s leg payload now).2.1 l now
      (r.arrivalAt s leg payload now) (r.receive network s leg payload now).1 out kept := by
  unfold Relay.receive arrivalAt
  cases hs : r.table.get? s with
  | none => exact ⟨[], l.arrivals, h.moves_none now h.unchanged⟩
  | some stream =>
      have hopen : r.table.isOpen s = true := by
        rw [StreamTable.isOpen, hs]
        rfl
      have hstream := @arrival_stream s stream leg payload now
      dsimp only [Option.map_some]
      generalize arrival s stream leg payload now = arrived at hstream ⊢
      obtain ⟨packet, jitter⟩ := arrived
      -- Noting when the stream was last heard changes nothing that matters to the packets.
      cases packet with
      | none =>
          have hnow : refuses r.queue ⟨s, leg, stream.destination leg, now, payload⟩ now = false := by
            simp [refuses]
          rw [Option.getD_none, hnow]
          exact ⟨[], _, ((h.note s jitter now).breakOff network now
            ((r.isOpen_note s jitter now s).trans hopen)).of_note⟩
      | some p =>
          rw [Option.getD_some]
          rw [← hstream rfl] at hopen ⊢
          rcases (h.note p.stream jitter now).delay network
            ((r.isOpen_note p.stream jitter now p.stream).trans hopen) now with
            ⟨queue, kept, hdelay, hmoves⟩ | ⟨hdelay, hmoves⟩
          · have hwaits : delay? r.queue p now = some queue := hdelay
            dsimp only
            rw [hwaits]
            exact ⟨[], kept, hmoves.of_note⟩
          · have hleaves : delay? r.queue p now = none := hdelay
            dsimp only
            rw [hleaves]
            exact ⟨_, l.arrivals, hmoves.of_note⟩

theorem Ready.sendDue {r : Relay} {l : DelayList} (h : r.Ready l) (network : Network) (now : Instant) :
    ∃ out kept, Moves r (r.sendDue network now).2.1 l now none (r.sendDue network now).1 out kept := by
  obtain ⟨hdue, hqueue⟩ := h.queue.flush now
  have hin := InOrder.of_sorted l
  have hout : ∀ p ∈ (r.queue.flush now).1, p ∈ l.arrivals ∧ p.due ≤ now := by
    intro p hp
    rw [hdue] at hp
    obtain ⟨hmem, hle⟩ := List.mem_filter.mp hp
    exact ⟨hin.mem_iff.mp hmem, of_decide_eq_true hle⟩
  have hopen : ∀ p ∈ (r.queue.flush now).1, r.table.isOpen p.stream = true :=
    fun p hp => h.isOpen p (hout p hp).1
  obtain ⟨hsound, hsame, hcarried⟩ := sendAll_spec h.table network hopen
  have hkept : ∀ p ∈ (l.flush now).2.arrivals, r.table.isOpen p.stream = true :=
    fun p hp => h.isOpen p (List.mem_filter.mp hp).1
  have hsent : Ready { r with queue := (r.queue.flush now).2, table := (sendAll network
      (r.queue.flush now).1 r.table).2.2 } (l.flush now).2 :=
    ⟨hsound, hqueue, fun p hp => (hsame p.stream).trans (hkept p hp)⟩
  have hafter := (hsent.teardownAll network (sendAll network (r.queue.flush now).1 r.table).2.1).1
  refine ⟨(r.queue.flush now).1.map (Arrival.mk · false), (l.flush now).2.arrivals, ?_, ?_, ?_, hkept,
    hafter⟩
  · rw [hdue, Option.toList_none, List.append_nil, ← List.map_append]
    apply List.Perm.map _
    -- The packets are split by whether they are due, and those that are due come sorted.
    have hsplit := List.filter_append_perm (fun p : DelayedPacket => p.due ≤ now) l.arrivals
    have hnot : (l.arrivals.filter fun p => !decide (p.due ≤ now)) =
        l.arrivals.filter fun p => now < p.due := by
      apply List.filter_congr
      intro p _
      by_cases hp : p.due ≤ now
      · simp [hp, Int.not_lt.mpr hp]
      · simp [hp, Int.not_le.mp hp]
    rw [hnot] at hsplit
    exact hsplit.symm.trans ((hin.perm.filter _).symm.append_right _)
  · rw [List.forall₂_map_left_iff]
    exact hcarried
  · intro x hx _
    obtain ⟨p, hp, rfl⟩ := List.mem_map.mp hx
    exact (hout p hp).2

/-- Every step moves the packets that wait, and the one that was read, in such a way. -/
theorem Ready.perform {r : Relay} {l : DelayList} (h : r.Ready l) (network : Network) (now : Instant)
    (act : RelayAct) :
    ∃ out kept, Moves r (r.perform network now act).2.2 l now (r.perform network now act).1
      (r.perform network now act).2.1 out kept := by
  cases act with
  | start request => exact ⟨[], l.arrivals, h.moves_none now (h.start network request now)⟩
  | stop callId direction selector =>
      exact ⟨[], l.arrivals, h.moves_none now (h.stop network callId direction selector)⟩
  | snapshot => exact ⟨[], l.arrivals, h.moves_none now h.unchanged⟩
  | read s leg payload => exact h.receive network s leg payload now
  | flush => exact h.sendDue network now
  | sweep =>
      have hswept := (h.teardownAll network (r.table.expired now r.inactivity)).1
      exact ⟨[], l.arrivals, h.moves_none now ⟨hswept.table, hswept.queue, hswept.isOpen⟩⟩
  | shutdown =>
      have hclosed := (h.teardownAll network r.table.handles).1
      exact ⟨[], l.arrivals, h.moves_none now ⟨hclosed.table, hclosed.queue, hclosed.isOpen⟩⟩

end Relay

end BorderProxy
