import BorderProxy.Proofs.DelayQueue.Chain
import BorderProxy.Proofs.DelayQueue.DelayList

/-! A delay queue holds a bounded list of packets in stable order. Each operation on the queue gives the
answer of the same operation on the list and leaves the queue with what is then in the list, so the two
cannot be told apart by any run. -/

namespace BorderProxy

/-- A slot whose buffer has its size and is long enough for the payload. -/
structure DelaySlot.Fits (s : DelaySlot) : Prop where
  buffer : s.buffer.length = DelaySlot.size
  length : s.length ≤ DelaySlot.size

theorem DelaySlot.fits_blank : DelaySlot.blank.Fits where
  buffer := List.length_replicate
  length := Nat.zero_le _

theorem DelaySlot.Fits.hold {s : DelaySlot} (h : s.Fits) {p : DelayedPacket}
    (hp : p.payload.length ≤ DelaySlot.size) : (s.hold p).Fits where
  buffer := by
    have hbuffer := h.buffer
    simp only [DelaySlot.hold, List.length_append, List.length_drop]
    omega
  length := hp

@[simp] theorem DelaySlot.packet_hold (s : DelaySlot) (p : DelayedPacket) : (s.hold p).packet = p := by
  simp [DelaySlot.packet, DelaySlot.hold]

namespace DelayQueue

/-- The packet in a slot. -/
def packetAt? (q : DelayQueue) (index : Nat) : Option DelayedPacket :=
  (q.slots[index]?).map DelaySlot.packet

theorem dueAt?_eq (q : DelayQueue) (index : Nat) : q.dueAt? index = (q.packetAt? index).map (·.due) := by
  rw [dueAt?, packetAt?, Option.map_map]
  rfl

@[simp] theorem packetAt?_setNext (q : DelayQueue) (previous next : Option Nat) (i : Nat) :
    (q.setNext previous next).packetAt? i = q.packetAt? i :=
  map_setNext DelaySlot.packet (fun _ _ => rfl) q previous next i

@[simp] theorem packetAt?_unlink (q : DelayQueue) (previous : Option Nat) (index i : Nat) :
    (q.unlink previous index).packetAt? i = q.packetAt? i := by
  unfold unlink
  exact (packetAt?_setNext _ _ _ i).trans (packetAt?_setNext q _ _ i)

theorem fits_setNext {q : DelayQueue} (h : ∀ s ∈ q.slots, s.Fits) (previous next : Option Nat) :
    ∀ s ∈ (q.setNext previous next).slots, s.Fits := by
  cases previous with
  | none => exact h
  | some index =>
      intro s hs
      obtain ⟨i, hi⟩ := List.mem_iff_getElem?.mp hs
      simp only [setNext, List.getElem?_modify] at hi
      obtain ⟨slot, hslot, rfl⟩ := Option.map_eq_some_iff.mp hi
      have hfits := h slot (List.mem_of_getElem? hslot)
      split
      · exact ⟨hfits.buffer, hfits.length⟩
      · exact hfits

/-- A queue of a capacity with packets in the slots of its chain. -/
structure Holds (q : DelayQueue) (capacity : Nat) (order : List Nat) (packets : List DelayedPacket) :
    Prop where
  capacity : q.slots.length = capacity
  threads : q.Threads order
  packets : order.map q.packetAt? = packets.map some
  buffers : ∀ s ∈ q.slots, s.Fits

theorem holds_empty (capacity : Nat) : (empty capacity).Holds capacity [] [] where
  capacity := by simp [empty]
  threads := threads_empty capacity
  packets := rfl
  buffers s hs := by
    obtain ⟨-, rfl⟩ := List.mem_replicate.mp hs
    exact DelaySlot.fits_blank

namespace Holds

variable {q : DelayQueue} {capacity : Nat} {order front back : List Nat}
  {packets before after : List DelayedPacket}

theorem length_eq (h : q.Holds capacity order packets) : order.length = packets.length := by
  simpa using congrArg List.length h.packets

theorem packets_eq (h : q.Holds capacity order packets) : q.packets = packets := by
  have hfilter : order.filterMap q.packetAt? = packets := by
    simpa [List.filterMap_map] using congrArg (List.filterMap id) h.packets
  rw [DelayQueue.packets, h.threads.chain_eq]
  exact hfilter

theorem size_eq (h : q.Holds capacity order packets) : q.size = packets.length := by
  rw [h.threads.size_eq, h.length_eq]

theorem isEmpty_eq (h : q.Holds capacity order packets) : q.isEmpty = packets.isEmpty := by
  rw [h.threads.isEmpty_eq]
  have hlength := h.length_eq
  cases order <;> cases packets <;> simp_all

theorem firstDue?_eq (h : q.Holds capacity order packets) :
    q.firstDue? = packets.head?.map (·.due) := by
  rw [firstDue?, h.threads.reaches.start_eq]
  have hpackets := h.packets
  cases order with
  | nil =>
      cases packets with
      | nil => rfl
      | cons p rest => simp at hpackets
  | cons index order =>
      cases packets with
      | nil => simp at hpackets
      | cons p rest =>
          obtain ⟨hp, -⟩ := List.cons.inj hpackets
          simp [dueAt?_eq, hp]

/-- A packet written into a slot from the stack, between two parts of the chain. -/
theorem insert {index : Nat} {rest : List Nat} {p : DelayedPacket} (hfront : front.length = before.length)
    (hlength : p.payload.length ≤ DelaySlot.size) (hfree : q.free = index :: rest)
    (h : q.Holds capacity (front ++ back) (before ++ after)) :
    ((({ q with slots := q.slots.modify index (DelaySlot.hold p), free := rest } :
      DelayQueue).setNext (some index) back.head?).setNext front.getLast? (some index)).Holds
        capacity (front ++ index :: back) (before ++ p :: after) := by
  have hindex : index ∉ front ++ back := by
    have hnodup := h.threads.nodup
    rw [hfree] at hnodup
    exact fun hmem => (List.nodup_append.mp hnodup).2.2 index hmem index List.mem_cons_self rfl
  rw [List.mem_append, not_or] at hindex
  have hlt : index < q.slots.length := h.threads.lt_length (by simp [hfree])
  -- The write changes the packet of its own slot only, which was not in the chain.
  have hpacketAt : ∀ i,
      ((({ q with slots := q.slots.modify index (DelaySlot.hold p), free := rest } :
        DelayQueue).setNext (some index) back.head?).setNext front.getLast? (some index)).packetAt? i =
          if i = index then some p else q.packetAt? i := by
    intro i
    rw [packetAt?_setNext, packetAt?_setNext]
    by_cases hi : i = index
    · simp [packetAt?, hi, hlt]
    · simp [packetAt?, hi, Ne.symm hi]
  refine ⟨?_, h.threads.insert (DelaySlot.hold p) hfree, ?_, ?_⟩
  · simpa using h.capacity
  · have hpackets := h.packets
    simp only [List.map_append] at hpackets
    obtain ⟨hf, hb⟩ := List.append_inj hpackets (by simpa using hfront)
    simp only [List.map_append, List.map_cons, ← hf, ← hb]
    rw [hpacketAt index, if_pos rfl]
    congr 1
    · exact List.map_congr_left fun i hi => (hpacketAt i).trans (if_neg (ne_of_mem_of_not_mem hi hindex.1))
    · congr 1
      exact List.map_congr_left fun i hi => (hpacketAt i).trans (if_neg (ne_of_mem_of_not_mem hi hindex.2))
  · refine fits_setNext (fits_setNext ?_ _ _) _ _
    intro s hs
    obtain ⟨i, hi⟩ := List.mem_iff_getElem?.mp hs
    simp only [List.getElem?_modify] at hi
    obtain ⟨slot, hslot, rfl⟩ := Option.map_eq_some_iff.mp hi
    have hfits := h.buffers slot (List.mem_of_getElem? hslot)
    split
    · exact hfits.hold hlength
    · exact hfits

/-- A slot taken out from between two parts of the chain, and the packet in it. -/
theorem unlink {index : Nat} {p : DelayedPacket}
    (h : q.Holds capacity (front ++ index :: back) (before ++ p :: after))
    (hlength : front.length = before.length) :
    q.packetAt? index = some p ∧
      (q.unlink front.getLast? index).Holds capacity (front ++ back) (before ++ after) := by
  have hpackets := h.packets
  simp only [List.map_append, List.map_cons] at hpackets
  obtain ⟨hbefore, hrest⟩ := List.append_inj hpackets (by simpa using hlength)
  obtain ⟨hp, hafter⟩ := List.cons.inj hrest
  refine ⟨hp, ?_, h.threads.unlink, ?_, ?_⟩
  · simpa [DelayQueue.unlink] using h.capacity
  · simp only [List.map_append, ← hbefore, ← hafter]
    congr 1 <;> exact List.map_congr_left fun i _ => packetAt?_unlink q _ _ i
  · exact fits_setNext (fits_setNext h.buffers _ _) _ _

end Holds

/-- The place of a packet in a chain: behind the slots whose packets are due no later. -/
theorem place_eq (q : DelayQueue) (due : Instant) (previous : Option Nat) {order : List Nat}
    {packets : List DelayedPacket} (hpackets : order.map q.packetAt? = packets.map some)
    (hsorted : packets.Pairwise fun a b => a.due ≤ b.due) :
    ∃ front back before after, order = front ++ back ∧ packets = before ++ after ∧
      front.length = before.length ∧
      q.place due previous order = (front.getLast?.or previous, back.head?) ∧
      (∀ p ∈ before, p.due ≤ due) ∧ ∀ p ∈ after, due < p.due := by
  induction order generalizing previous packets with
  | nil =>
      cases packets with
      | nil => exact ⟨[], [], [], [], rfl, rfl, rfl, rfl, by simp, by simp⟩
      | cons p rest => simp at hpackets
  | cons index order ih =>
      cases packets with
      | nil => simp at hpackets
      | cons p rest =>
          obtain ⟨hp, hrest⟩ := List.cons.inj hpackets
          obtain ⟨hle, hpairwise⟩ := List.pairwise_cons.mp hsorted
          have hdue : q.dueAt? index = some p.due := by rw [dueAt?_eq, hp]; rfl
          by_cases hlt : due < p.due
          · refine ⟨[], index :: order, [], p :: rest, rfl, rfl, rfl, ?_, by simp, ?_⟩
            · simp [place, hdue, hlt]
            · intro r hr
              rcases List.mem_cons.mp hr with rfl | hr
              · exact hlt
              · exact Int.lt_of_lt_of_le hlt (hle r hr)
          · obtain ⟨front, back, before, after, rfl, rfl, hlength, hplace, hbefore, hafter⟩ :=
              ih (some index) hrest hpairwise
            refine ⟨index :: front, back, p :: before, after, rfl, rfl, by simp [hlength], ?_, ?_,
              hafter⟩
            · simp only [place, hdue, hlt, if_false, hplace]
              cases hlast : front.getLast? <;> simp [List.getLast?_cons, hlast]
            · intro r hr
              rcases List.mem_cons.mp hr with rfl | hr
              · exact Int.not_lt.mp hlt
              · exact hbefore r hr

/-- A packet that fits and finds a slot goes into the chain in its place. -/
theorem push_eq_ok {q : DelayQueue} {capacity : Nat} {order : List Nat} {packets : List DelayedPacket}
    {p : DelayedPacket} (h : q.Holds capacity order packets)
    (hsorted : packets.Pairwise fun a b => a.due ≤ b.due)
    (hlength : p.payload.length ≤ DelaySlot.size) (hroom : packets.length < capacity) :
    ∃ q' order' before after, q.push p = .ok q' ∧ packets = before ++ after ∧
      (∀ r ∈ before, r.due ≤ p.due) ∧ (∀ r ∈ after, p.due < r.due) ∧
      q'.Holds capacity order' (before ++ p :: after) := by
  have hadd := h.threads.length_add
  rw [h.capacity, h.length_eq] at hadd
  obtain ⟨front, back, before, after, rfl, rfl, hfront, hplace, hbefore, hafter⟩ :=
    place_eq q p.due none h.packets hsorted
  cases hfree : q.free with
  | nil =>
      rw [hfree, List.length_nil] at hadd
      omega
  | cons index rest =>
      refine ⟨_, front ++ index :: back, before, after, ?_, rfl, hbefore, hafter,
        h.insert hfront hlength hfree⟩
      simp only [push, Nat.not_lt.mpr hlength, if_false, hfree, h.threads.chain_eq, hplace,
        Option.or_none]

/-- The packets that are due leave from the front of the chain. -/
theorem flushChain_spec {q : DelayQueue} {capacity : Nat} {order : List Nat}
    {packets : List DelayedPacket} (now : Instant) (h : q.Holds capacity order packets)
    (hsorted : packets.Pairwise fun a b => a.due ≤ b.due) :
    (flushChain now order q).1 = packets.filter (fun p => p.due ≤ now) ∧
      ∃ rest, (flushChain now order q).2.Holds capacity rest (packets.filter fun p => now < p.due) := by
  induction order generalizing q packets with
  | nil =>
      have hnil : packets = [] := List.length_eq_zero_iff.mp h.length_eq.symm
      subst hnil
      exact ⟨rfl, [], h⟩
  | cons index order ih =>
      cases packets with
      | nil => simpa using h.length_eq
      | cons p rest =>
          have hhead : q.Holds capacity ([] ++ index :: order) ([] ++ p :: rest) := h
          obtain ⟨hp, hunlink⟩ := hhead.unlink rfl
          obtain ⟨slot, hslot, rfl⟩ := Option.map_eq_some_iff.mp hp
          by_cases hlt : now < slot.due
          · obtain ⟨hnone, hall⟩ := InOrder.filter_due hsorted (show now < slot.packet.due from hlt)
            rw [hnone, hall]
            simp only [flushChain, hslot, hlt, if_true]
            exact ⟨trivial, index :: order, h⟩
          · obtain ⟨hsent, left, hleft⟩ := ih hunlink (List.pairwise_cons.mp hsorted).2
            have hdue : slot.packet.due ≤ now := Int.not_lt.mp hlt
            have hdue' : ¬ now < slot.packet.due := hlt
            simp only [List.getLast?_nil, List.nil_append] at hsent hleft
            simp only [flushChain, hslot, hlt, if_false, List.filter_cons, hdue, hdue', decide_true,
              decide_false, if_true]
            exact ⟨by rw [hsent], left, hleft⟩

/-- The packets of a stream leave the chain wherever they are. -/
theorem purgeChain_spec {q : DelayQueue} {capacity : Nat} (stream : StreamRef) {front back : List Nat}
    {before after : List DelayedPacket} (h : q.Holds capacity (front ++ back) (before ++ after))
    (hlength : front.length = before.length) :
    (purgeChain stream front.getLast? back q).1 = after.countP (fun p => p.stream = stream) ∧
      ∃ rest, (purgeChain stream front.getLast? back q).2.Holds capacity rest
        (before ++ after.filter fun p => p.stream ≠ stream) := by
  induction back generalizing q front before after with
  | nil =>
      have hnil : after = [] := by
        have hlengths := h.length_eq
        simp only [List.append_nil, List.length_append] at hlengths
        exact List.length_eq_zero_iff.mp (by omega)
      subst hnil
      exact ⟨rfl, _, h⟩
  | cons index back ih =>
      cases after with
      | nil =>
          have hlengths := h.length_eq
          simp only [List.length_append, List.length_cons, List.length_nil] at hlengths
          omega
      | cons p after =>
          obtain ⟨hp, hunlink⟩ := h.unlink hlength
          obtain ⟨slot, hslot, rfl⟩ := Option.map_eq_some_iff.mp hp
          by_cases hstream : slot.stream = stream
          · obtain ⟨hcount, rest, hrest⟩ := ih hunlink hlength
            have hstream' : slot.packet.stream = stream := hstream
            simp only [purgeChain, hslot, Option.map_some, hstream, if_true, List.countP_cons, hstream',
              decide_true, List.filter_cons, ne_eq, not_true_eq_false, decide_false]
            exact ⟨by rw [hcount], rest, hrest⟩
          · -- The slot stays, and is now the last one before the rest of the chain.
            have hstream' : slot.packet.stream ≠ stream := hstream
            have hmoved : q.Holds capacity ((front ++ [index]) ++ back)
                ((before ++ [slot.packet]) ++ after) := by simpa using h
            obtain ⟨hcount, rest, hrest⟩ := ih hmoved (by simp [hlength])
            rw [List.getLast?_append_of_ne_nil _ (by simp)] at hcount hrest
            simp only [List.getLast?_singleton] at hcount hrest
            simp only [purgeChain, hslot, Option.map_some, Option.some.injEq, hstream, if_false,
              List.countP_cons, hstream', decide_false, List.filter_cons, ne_eq, not_false_eq_true,
              decide_true, if_true]
            exact ⟨by simpa using hcount, rest, by simpa using hrest⟩

/-- A queue that holds the packets of a list, in their order. -/
def Represents (q : DelayQueue) (l : DelayList) : Prop := ∃ order, q.Holds l.capacity order l.sorted

theorem represents_of_inOrder {q : DelayQueue} {l : DelayList} {order : List Nat}
    {packets : List DelayedPacket} (h : q.Holds l.capacity order packets)
    (hpackets : InOrder l.arrivals packets) : q.Represents l := by
  rw [hpackets.eq_sorted] at h
  exact ⟨order, h⟩

theorem represents_empty (capacity : Nat) : (empty capacity).Represents ⟨capacity, []⟩ :=
  represents_of_inOrder (holds_empty capacity) InOrder.nil

namespace Represents

variable {q : DelayQueue} {l : DelayList}

theorem packets_eq (h : q.Represents l) : q.packets = l.sorted := by
  obtain ⟨order, hholds⟩ := h
  exact hholds.packets_eq

/-- A queue takes a packet, or refuses it with the same fault, as its list does. -/
theorem push (h : q.Represents l) (p : DelayedPacket) :
    (∃ q' l', q.push p = .ok q' ∧ l.push p = .ok l' ∧ q'.Represents l') ∨
      ∃ fault, q.push p = .error fault ∧ l.push p = .error fault := by
  obtain ⟨order, hholds⟩ := h
  have hin := InOrder.of_sorted l
  by_cases hlong : DelaySlot.size < p.payload.length
  · exact .inr ⟨_, by rw [DelayQueue.push, if_pos hlong], by rw [DelayList.push, if_pos hlong]⟩
  · have hlength := hin.perm.length_eq
    by_cases hfull : l.capacity ≤ l.arrivals.length
    · refine .inr ⟨.storeFull .delayedPackets, ?_, ?_⟩
      · have hadd := hholds.threads.length_add
        rw [hholds.capacity, hholds.length_eq] at hadd
        have hfree : q.free = [] := List.length_eq_zero_iff.mp (by omega)
        rw [DelayQueue.push, if_neg hlong, hfree]
      · rw [DelayList.push, if_neg hlong, if_pos hfull]
    · obtain ⟨q', order', before, after, hpush, hsplit, hbefore, hafter, hholds'⟩ :=
        push_eq_ok hholds hin.sorted (Nat.not_lt.mp hlong) (by omega)
      rw [hsplit] at hin
      refine .inl ⟨q', { l with arrivals := l.arrivals ++ [p] }, hpush, ?_,
        represents_of_inOrder hholds' (hin.insert hbefore hafter)⟩
      rw [DelayList.push, if_neg hlong, if_neg hfull]

theorem flush (h : q.Represents l) (now : Instant) :
    (q.flush now).1 = (l.flush now).1 ∧ (q.flush now).2.Represents (l.flush now).2 := by
  obtain ⟨order, hholds⟩ := h
  have hin := InOrder.of_sorted l
  obtain ⟨hsent, rest, hrest⟩ := flushChain_spec now hholds hin.sorted
  rw [DelayQueue.flush, hholds.threads.chain_eq]
  exact ⟨hsent, represents_of_inOrder hrest (hin.filter _)⟩

theorem purge (h : q.Represents l) (stream : StreamRef) :
    (q.purge stream).1 = (l.purge stream).1 ∧ (q.purge stream).2.Represents (l.purge stream).2 := by
  obtain ⟨order, hholds⟩ := h
  have hin := InOrder.of_sorted l
  have hwhole : q.Holds l.capacity ([] ++ order) ([] ++ l.sorted) := hholds
  obtain ⟨hcount, rest, hrest⟩ := purgeChain_spec stream hwhole rfl
  rw [DelayQueue.purge, hholds.threads.chain_eq]
  refine ⟨?_, represents_of_inOrder hrest (hin.filter _)⟩
  exact hcount.trans (hin.perm.countP_eq _)

end Represents

end DelayQueue

end BorderProxy
