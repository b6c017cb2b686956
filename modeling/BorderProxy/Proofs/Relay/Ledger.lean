import Mathlib.Algebra.Order.Group.Multiset
import Mathlib.Data.List.Induction
import Mathlib.Tactic.Abel
import BorderProxy.Proofs.Relay.Run

/-! An account of every packet that a relay reads. Each one is on one page of a ledger: it waits, or it
was handed to a socket, or it was dropped when its stream was closed. The pages agree with the queue and
with everything that was handed to sockets, so no packet is sent twice and none is lost. -/

namespace BorderProxy

/-- A packet with the step in which it was read. -/
structure Reading where
  step : Nat
  arrival : Arrival

namespace Reading

def packet (e : Reading) : DelayedPacket := e.arrival.packet

def refused (e : Reading) : Bool := e.arrival.refused

end Reading

namespace RelayHistory

/-- The packets that were read. -/
def readings (history : RelayHistory) : List Reading :=
  history.zipIdx.flatMap fun (d, n) => d.read.toList.map (Reading.mk n)

/-- What was handed to sockets, with the steps. -/
def attempts (history : RelayHistory) : List (Nat × Attempt) :=
  history.zipIdx.flatMap fun (d, n) => d.handed.map (n, ·)

/-- A stream was closed in a step. -/
def ClosedAt (history : RelayHistory) (h : StreamRef) (n : Nat) : Prop :=
  ∃ d, history[n]? = some d ∧ h ∈ d.closed

/-- A step was at some moment or later. -/
def NotBefore (history : RelayHistory) (due : Instant) (n : Nat) : Prop :=
  ∃ d, history[n]? = some d ∧ due ≤ d.now

end RelayHistory

/-- The packets that wait, those that were handed to sockets, each with the step and what was handed
over, and those that were dropped, each with the step. -/
structure RelayLedger where
  waiting : List Reading
  handed : List (Reading × Nat × Attempt)
  dropped : List (Reading × Nat)

/-- A packet that was read and since then waits: its stream was never closed. -/
structure Reading.Waits (e : Reading) (history : RelayHistory) : Prop where
  accepted : e.refused = false
  isOpen : ∀ n, e.step ≤ n → ¬ history.ClosedAt e.packet.stream n

/-- A packet that was handed to a socket while its stream was open, and not before it was due unless the
queue had refused it. -/
structure Reading.HandedOver (e : Reading) (history : RelayHistory) (n : Nat) (a : Attempt) : Prop where
  carried : e.packet.CarriedBy a
  after : e.step ≤ n
  isOpen : ∀ m, e.step ≤ m → m < n → ¬ history.ClosedAt e.packet.stream m
  inTime : e.refused = false → history.NotBefore e.packet.due n
  atOnce : e.refused = true → n = e.step

/-- A packet whose stream was closed before it was handed to a socket. -/
structure Reading.Dropped (e : Reading) (history : RelayHistory) (n : Nat) : Prop where
  accepted : e.refused = false
  after : e.step ≤ n
  isOpen : ∀ m, e.step ≤ m → m < n → ¬ history.ClosedAt e.packet.stream m
  closed : history.ClosedAt e.packet.stream n

/-- A ledger that agrees with what a relay did and with the packets in its queue. -/
structure RelayLedger.Balances (b : RelayLedger) (history : RelayHistory) (queue : List DelayedPacket) :
    Prop where
  readings : (b.waiting ++ b.handed.map (·.1) ++ b.dropped.map (·.1)).Perm history.readings
  attempts : b.handed.map (·.2) = history.attempts
  queue : (b.waiting.map Reading.packet).Perm queue
  waiting : ∀ e ∈ b.waiting, e.Waits history
  handed : ∀ e ∈ b.handed, e.1.HandedOver history e.2.1 e.2.2
  dropped : ∀ e ∈ b.dropped, e.1.Dropped history e.2

namespace RelayHistory

variable (history : RelayHistory) (d : RelayDeeds)

theorem readings_append :
    readings (history ++ [d]) = history.readings ++ d.read.toList.map (Reading.mk history.length) := by
  simp [readings, List.zipIdx_append]

theorem attempts_append :
    attempts (history ++ [d]) = history.attempts ++ d.handed.map (history.length, ·) := by
  simp [attempts, List.zipIdx_append]

theorem step_lt_of_mem_readings {e : Reading} (he : e ∈ history.readings) : e.step < history.length := by
  obtain ⟨⟨d, n⟩, hd, he⟩ := List.mem_flatMap.mp he
  obtain ⟨x, -, rfl⟩ := List.mem_map.mp he
  have hget := List.mk_mem_zipIdx_iff_getElem?.mp hd
  exact (List.getElem?_eq_some_iff.mp hget).1

theorem step_lt_of_mem_attempts {x : Nat × Attempt} (hx : x ∈ history.attempts) :
    x.1 < history.length := by
  obtain ⟨⟨d, n⟩, hd, hx⟩ := List.mem_flatMap.mp hx
  obtain ⟨a, -, rfl⟩ := List.mem_map.mp hx
  have hget := List.mk_mem_zipIdx_iff_getElem?.mp hd
  exact (List.getElem?_eq_some_iff.mp hget).1

variable {history d}

theorem closedAt_append_of_ne {h : StreamRef} {n : Nat} (hn : n ≠ history.length) :
    ClosedAt (history ++ [d]) h n ↔ history.ClosedAt h n := by
  unfold ClosedAt
  rcases Nat.lt_or_gt_of_ne hn with hlt | hgt
  · rw [List.getElem?_append_left hlt]
  · have hnone : (history ++ [d])[n]? = none := List.getElem?_eq_none (by simp; omega)
    rw [hnone, List.getElem?_eq_none (by omega : history.length ≤ n)]

theorem closedAt_append_self {h : StreamRef} :
    ClosedAt (history ++ [d]) h history.length ↔ h ∈ d.closed := by
  simp [ClosedAt]

theorem ClosedAt.lt_length {h : StreamRef} {n : Nat} (hclosed : history.ClosedAt h n) :
    n < history.length := by
  obtain ⟨d, hd, -⟩ := hclosed
  exact (List.getElem?_eq_some_iff.mp hd).1

theorem NotBefore.append {due : Instant} {n : Nat} (h : history.NotBefore due n) :
    NotBefore (history ++ [d]) due n := by
  obtain ⟨e, he, hdue⟩ := h
  have hlt := (List.getElem?_eq_some_iff.mp he).1
  exact ⟨e, by rwa [List.getElem?_append_left hlt], hdue⟩

end RelayHistory

namespace Reading

variable {history : RelayHistory} {d : RelayDeeds} {e : Reading}

theorem open_append {n : Nat} (hn : n ≤ history.length)
    (h : ∀ m, e.step ≤ m → m < n → ¬ history.ClosedAt e.packet.stream m) :
    ∀ m, e.step ≤ m → m < n → ¬ RelayHistory.ClosedAt (history ++ [d]) e.packet.stream m := by
  intro m hm hlt
  rw [RelayHistory.closedAt_append_of_ne (by omega)]
  exact h m hm hlt

theorem HandedOver.append {n : Nat} {a : Attempt} (h : e.HandedOver history n a)
    (hn : n < history.length) : e.HandedOver (history ++ [d]) n a where
  carried := h.carried
  after := h.after
  isOpen := open_append (Nat.le_of_lt hn) h.isOpen
  inTime hrefused := (h.inTime hrefused).append
  atOnce := h.atOnce

theorem Dropped.append {n : Nat} (h : e.Dropped history n) : e.Dropped (history ++ [d]) n where
  accepted := h.accepted
  after := h.after
  isOpen := open_append (Nat.le_of_lt h.closed.lt_length) h.isOpen
  closed := (RelayHistory.closedAt_append_of_ne (Nat.ne_of_lt h.closed.lt_length)).mpr h.closed

end Reading

/-- A packet that goes on waiting in the step after a history. -/
theorem Reading.waits_of_open {history : RelayHistory} {d : RelayDeeds} {e : Reading}
    (haccepted : e.refused = false)
    (hopen : ∀ m, e.step ≤ m → m < history.length → ¬ history.ClosedAt e.packet.stream m)
    (hstays : e.packet.stream ∉ d.closed) : e.Waits (history ++ [d]) where
  accepted := haccepted
  isOpen n hn := by
    rcases Nat.lt_trichotomy n history.length with hlt | heq | hgt
    · rw [RelayHistory.closedAt_append_of_ne (Nat.ne_of_lt hlt)]
      exact hopen n hn hlt
    · rw [heq, RelayHistory.closedAt_append_self]
      exact hstays
    · intro hclosed
      have hlt := hclosed.lt_length
      rw [List.length_append, List.length_singleton] at hlt
      omega

theorem exists_perm_map_eq {α β : Type} {f : α → β} {l : List α} {m : List β}
    (h : (l.map f).Perm m) : ∃ l' : List α, l'.Perm l ∧ l'.map f = m := by
  have hcomp := congrFun (congrFun (List.eq_map_comp_perm f) m) l
  obtain ⟨l', heq, hperm⟩ := (iff_of_eq hcomp).mpr h.symm
  exact ⟨l', hperm, heq.symm⟩

/-- The pages of a ledger after a step hold what they held before and what is new. -/
theorem perm_pages {α : Type} {waiting new handed dropped out kept stay gone readings : List α}
    (hkept : (stay ++ gone).Perm kept) (hmoved : (out ++ kept).Perm (waiting ++ new))
    (hpages : (waiting ++ handed ++ dropped).Perm readings) :
    (stay ++ (handed ++ out) ++ (dropped ++ gone)).Perm (readings ++ new) := by
  simp only [← Multiset.coe_eq_coe, ← Multiset.coe_add] at hkept hmoved hpages ⊢
  rw [← hpages]
  calc (stay : Multiset α) + (handed + out) + (dropped + gone)
      = (out + (stay + gone)) + handed + dropped := by abel
    _ = (waiting + new) + handed + dropped := by rw [hkept, hmoved]
    _ = waiting + handed + dropped + new := by abel

namespace Relay

/-- The readings behind the packets that leave in a step, and those behind the packets that are kept. -/
structure MovedReadings (b : RelayLedger) (history : RelayHistory) (r : Relay) (now : Instant)
    (read : Option Arrival) (handed : List Attempt) (kept : List DelayedPacket)
    (gone stay : List Reading) : Prop where
  moved : (gone ++ stay).Perm (b.waiting ++ read.toList.map (Reading.mk history.length))
  kept : stay.map Reading.packet = kept
  accepted : ∀ e ∈ stay, e.refused = false
  wasOpen : ∀ e ∈ stay, r.table.isOpen e.packet.stream = true
  step_le : ∀ e ∈ gone ++ stay, e.step ≤ history.length
  isOpen : ∀ e ∈ gone ++ stay, ∀ m, e.step ≤ m → m < history.length →
    ¬ history.ClosedAt e.packet.stream m
  length : gone.length = handed.length
  carried : ∀ {e a}, (e, a) ∈ gone.zip handed → e.packet.CarriedBy a
  due : ∀ e ∈ gone, e.refused = false → e.packet.due ≤ now
  atOnce : ∀ e ∈ gone, e.refused = true → e.step = history.length

theorem exists_readings {r after : Relay} {l : DelayList} {b : RelayLedger} {history : RelayHistory}
    {now : Instant} {read : Option Arrival} {handed : List Attempt} {out : List Arrival}
    {kept : List DelayedPacket} (hb : b.Balances history l.arrivals)
    (hm : Moves r after l now read handed out kept) :
    ∃ gone stay, MovedReadings b history r now read handed kept gone stay := by
  have hwaiting : b.waiting.map Reading.arrival =
      (b.waiting.map Reading.packet).map (Arrival.mk · false) := by
    rw [List.map_map]
    apply List.map_congr_left
    intro e he
    rw [Function.comp_apply, ← (hb.waiting e he).accepted]
    rfl
  have hnew : (read.toList.map (Reading.mk history.length)).map Reading.arrival = read.toList := by
    rw [List.map_map]
    exact List.map_id read.toList
  have harrivals : ((b.waiting ++ read.toList.map (Reading.mk history.length)).map
      Reading.arrival).Perm (out ++ kept.map (Arrival.mk · false)) := by
    refine List.Perm.trans ?_ hm.split
    rw [List.map_append, hwaiting, hnew]
    exact (hb.queue.map _).append_right _
  obtain ⟨moved, hmoved, hmap⟩ := exists_perm_map_eq harrivals
  obtain ⟨gone, stay, rfl, hgone, hstay⟩ := List.map_eq_append_iff.mp hmap
  have hkept : stay.map Reading.packet = kept := by
    calc stay.map Reading.packet
        = (stay.map Reading.arrival).map Arrival.packet := by rw [List.map_map]; rfl
      _ = (kept.map (Arrival.mk · false)).map Arrival.packet := by rw [hstay]
      _ = kept := by rw [List.map_map]; exact List.map_id kept
  -- A packet that moves was waiting, or has just been read.
  have horigin : ∀ e ∈ gone ++ stay, e.Waits history ∧ e.step < history.length ∨
      e.step = history.length := by
    intro e he
    rcases List.mem_append.mp (hmoved.mem_iff.mp he) with he | he
    · refine .inl ⟨hb.waiting e he, history.step_lt_of_mem_readings (hb.readings.mem_iff.mp ?_)⟩
      simp [he]
    · obtain ⟨x, -, rfl⟩ := List.mem_map.mp he
      exact .inr rfl
  have hcarried := hm.carried
  rw [← hgone, List.forall₂_map_left_iff, List.forall₂_iff_zip] at hcarried
  refine ⟨gone, stay, hmoved, hkept, ?_, ?_, ?_, ?_, hcarried.1, hcarried.2, ?_, ?_⟩
  · intro e he
    have hmem : e.arrival ∈ kept.map (Arrival.mk · false) := hstay ▸ List.mem_map_of_mem he
    obtain ⟨p, -, hp⟩ := List.mem_map.mp hmem
    rw [Reading.refused, ← hp]
  · intro e he
    exact hm.isOpen e.packet (hkept ▸ List.mem_map_of_mem he)
  · intro e he
    rcases horigin e he with ⟨-, hlt⟩ | heq <;> omega
  · intro e he m hle hlt
    rcases horigin e he with ⟨hwaits, -⟩ | heq
    · exact hwaits.isOpen m hle
    · omega
  · intro e he
    exact hm.due e.arrival (hgone ▸ List.mem_map_of_mem he)
  · intro e he hrefused
    rcases horigin e (List.mem_append_left stay he) with ⟨hwaits, -⟩ | heq
    · rw [hwaits.accepted] at hrefused
      cases hrefused
    · exact heq

/-- The ledger after a step: what was handed over and what was dropped goes onto new lines. -/
def carryOn (b : RelayLedger) (n : Nat) (after : Relay) (handed : List Attempt)
    (gone stay : List Reading) : RelayLedger where
  waiting := stay.filter fun e => after.table.isOpen e.packet.stream
  handed := b.handed ++ (gone.zip handed).map fun (e, a) => (e, n, a)
  dropped := b.dropped ++ (stay.filter fun e => !after.table.isOpen e.packet.stream).map (·, n)

theorem MovedReadings.balances {b : RelayLedger} {history : RelayHistory} {r after : Relay}
    {d : RelayDeeds} {kept queue : List DelayedPacket} {gone stay : List Reading}
    (hmoved : MovedReadings b history r d.now d.read d.handed kept gone stay)
    (hb : b.Balances history queue)
    (hclosed : ∀ x, r.table.isOpen x = true → (x ∈ d.closed ↔ after.table.isOpen x = false)) :
    (carryOn b history.length after d.handed gone stay).Balances (history ++ [d])
      (stillOpen after.table kept) := by
  refine ⟨?_, ?_, ?_, ?_, ?_, ?_⟩
  · have hfirst : (gone.zip d.handed).map ((fun x : Reading × Nat × Attempt => x.1) ∘
        fun (e, a) => (e, history.length, a)) = gone :=
      List.map_fst_zip (Nat.le_of_eq hmoved.length)
    have hids : ∀ left : List Reading,
        left.map ((fun x : Reading × Nat => x.1) ∘ (·, history.length)) = left := List.map_id
    simp only [carryOn, RelayHistory.readings_append, List.map_append, List.map_map, hfirst, hids]
    exact perm_pages (List.filter_append_perm _ stay) hmoved.moved hb.readings
  · have hsecond : (gone.zip d.handed).map (·.2) = d.handed :=
      List.map_snd_zip (Nat.le_of_eq hmoved.length.symm)
    simp only [carryOn, RelayHistory.attempts_append, List.map_append, hb.attempts, List.map_map]
    congr 1
    rw [← hsecond, List.map_map, hsecond]
    rfl
  · apply List.Perm.of_eq
    rw [stillOpen, ← hmoved.kept, List.filter_map]
    rfl
  · intro e he
    obtain ⟨he, hafter⟩ := List.mem_filter.mp he
    refine Reading.waits_of_open (hmoved.accepted e he)
      (hmoved.isOpen e (List.mem_append_right gone he)) fun hmem => ?_
    rw [(hclosed _ (hmoved.wasOpen e he)).mp hmem] at hafter
    cases hafter
  · intro x hx
    rcases List.mem_append.mp hx with hx | hx
    · have hmem : x.2 ∈ history.attempts := hb.attempts ▸ List.mem_map_of_mem hx
      exact (hb.handed x hx).append (history.step_lt_of_mem_attempts hmem)
    · obtain ⟨⟨e, a⟩, hmem, rfl⟩ := List.mem_map.mp hx
      have hgone := (List.of_mem_zip hmem).1
      have hall := List.mem_append_left stay hgone
      refine ⟨hmoved.carried hmem, hmoved.step_le e hall,
        Reading.open_append (Nat.le_refl _) (hmoved.isOpen e hall), ?_, ?_⟩
      · intro hrefused
        exact ⟨d, by simp, hmoved.due e hgone hrefused⟩
      · intro hrefused
        exact (hmoved.atOnce e hgone hrefused).symm
  · intro x hx
    rcases List.mem_append.mp hx with hx | hx
    · exact (hb.dropped x hx).append
    · obtain ⟨e, hmem, rfl⟩ := List.mem_map.mp hx
      obtain ⟨he, hafter⟩ := List.mem_filter.mp hmem
      have hall := List.mem_append_right gone he
      refine ⟨hmoved.accepted e he, hmoved.step_le e hall,
        Reading.open_append (Nat.le_refl _) (hmoved.isOpen e hall), ?_⟩
      rw [RelayHistory.closedAt_append_self, hclosed _ (hmoved.wasOpen e he)]
      simpa using hafter

/-- A ledger that balances before a step can be carried on over the step. -/
theorem Ready.step {r : Relay} {l : DelayList} {b : RelayLedger} {history : RelayHistory}
    (h : r.Ready l) (hb : b.Balances history l.arrivals) (s : RelayStep) :
    ∃ l' b', (r.step s).2.Ready l' ∧
      RelayLedger.Balances b' (history ++ [(r.step s).1]) l'.arrivals := by
  obtain ⟨out, kept, hm⟩ := h.perform s.network s.now s.act
  obtain ⟨gone, stay, hmoved⟩ := exists_readings hb hm
  unfold Relay.step
  generalize r.perform s.network s.now s.act = performed at hm hmoved ⊢
  obtain ⟨read, handed, after⟩ := performed
  refine ⟨_, carryOn b history.length after handed gone stay, hm.ready, MovedReadings.balances
    (d := ⟨s.now, read, handed, r.table.handles.filter fun h => !after.table.isOpen h⟩) hmoved hb
    fun x hx => ?_⟩
  simp [mem_handles_of_isOpen h.table hx]

theorem Ready.run {r : Relay} {l : DelayList} {b : RelayLedger} (h : r.Ready l)
    (hb : b.Balances [] l.arrivals) (steps : List RelayStep) :
    ∃ l' b', (r.run steps).2.Ready l' ∧ RelayLedger.Balances b' (r.run steps).1 l'.arrivals := by
  induction steps using List.reverseRecOn with
  | nil => exact ⟨l, b, h, hb⟩
  | append_singleton rest s ih =>
      obtain ⟨l', b', hready, hb'⟩ := ih
      rw [run_concat]
      exact hready.step hb' s

/-- After every run every packet that waits belongs to an open stream, and there is a ledger that accounts
for each packet that was read: it waits, or it was handed to a socket once, while its stream was open and
not before it was due unless the queue had refused it, or it was dropped when its stream was closed. -/
theorem run_balances (m : MediaSettings) (devices : List (Ip × Text)) (now : Instant)
    (steps : List RelayStep) :
    let (history, r) := (idle m devices now).run steps
    (∀ p ∈ r.queue.packets, (r.table.get? p.stream).isSome) ∧
      ∃ b : RelayLedger, b.Balances history r.queue.packets := by
  have hnew : RelayLedger.Balances ⟨[], [], []⟩ [] [] :=
    ⟨List.Perm.refl _, rfl, List.Perm.refl _, by simp, by simp, by simp⟩
  obtain ⟨l, b, hready, hb⟩ := (ready_idle m devices now).run hnew steps
  have hpackets : (run (idle m devices now) steps).2.queue.packets.Perm l.arrivals := by
    have hperm := (InOrder.of_sorted l).perm
    rwa [← hready.queue.packets_eq] at hperm
  refine ⟨fun p hp => hready.isOpen p (hpackets.mem_iff.mp hp), b, ?_⟩
  exact ⟨hb.readings, hb.attempts, hb.queue.trans hpackets.symm, hb.waiting, hb.handed, hb.dropped⟩

/-- Two packets of one timestamp on a stream with a delay, for a queue with room for one of them. -/
def fullQueueSteps : List RelayStep :=
  let key : StreamKey := ⟨.ofText "c@h".toList, .outgoing, 0, "ua".toList⟩
  let request : StreamRequest := ⟨key, .v4 127 0 0 1, ⟨.v4 10 0 0 1, 4000⟩, .milliseconds 40⟩
  let header : List UInt8 := [128, 0, 0, 1, 0, 0, 0, 160, 0, 0, 0, 7]
  [⟨.start request, {}, 0⟩, ⟨.read ⟨0, 0⟩ .rtp (header ++ [213]), {}, 0⟩,
    ⟨.read ⟨0, 0⟩ .rtp (header ++ [214]), {}, 0⟩]

/-- The queue refuses the second packet, which then leaves before it is due. -/
theorem full_queue_sends_early :
    let (history, r) := (idle { maxDelayed := 1 } [] 0).run fullQueueSteps
    ¬ ∃ b : RelayLedger, b.Balances history r.queue.packets ∧
      ∀ e ∈ b.handed, history.NotBefore e.1.packet.due e.2.1 := by
  have hattempts : RelayHistory.attempts ((idle { maxDelayed := 1 } [] 0).run fullQueueSteps).1 ≠ [] := by
    decide +kernel
  have hearly : ∀ e ∈ RelayHistory.readings ((idle { maxDelayed := 1 } [] 0).run fullQueueSteps).1,
      ∀ d ∈ ((idle { maxDelayed := 1 } [] 0).run fullQueueSteps).1, d.now < e.packet.due := by
    decide +kernel
  generalize (idle { maxDelayed := 1 } [] 0).run fullQueueSteps = result at hattempts hearly ⊢
  obtain ⟨history, r⟩ := result
  rintro ⟨b, hb, hintime⟩
  obtain ⟨x, hx⟩ := List.exists_mem_of_ne_nil _ hattempts
  rw [← hb.attempts] at hx
  obtain ⟨line, hline, -⟩ := List.mem_map.mp hx
  obtain ⟨d, hd, hdue⟩ := hintime line hline
  have hread : line.1 ∈ history.readings := by
    refine hb.readings.mem_iff.mp (List.mem_append_left _ (List.mem_append_right _ ?_))
    exact List.mem_map_of_mem hline
  exact Int.not_le.mpr (hearly line.1 hread d (List.mem_of_getElem? hd)) hdue

end Relay

end BorderProxy
