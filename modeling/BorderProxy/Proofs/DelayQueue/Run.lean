import BorderProxy.Proofs.DelayQueue.Refinement

/-! Runs of a delay queue beside runs of the bounded list that it stands for. After the same calls both
have given the same answers, and the chain of the queue leads through the packets of the list in their
stable order, one slot for each. -/

namespace BorderProxy

/-- A call of a delay queue. -/
inductive DelayCall where
  | push (p : DelayedPacket)
  | flush (now : Instant)
  | purge (stream : StreamRef)

/-- What a call answers. -/
inductive DelayAnswer where
  | pushed (outcome : Except Fault Unit)
  | flushed (packets : List DelayedPacket)
  | purged (count : Nat)

namespace DelayList

/-- What a list answers to a call, and the list after it. A refused packet leaves it as it is. -/
def call (l : DelayList) : DelayCall → DelayAnswer × DelayList
  | .push p =>
    match l.push p with
    | .ok l => (.pushed (.ok ()), l)
    | .error fault => (.pushed (.error fault), l)
  | .flush now => (.flushed (l.flush now).1, (l.flush now).2)
  | .purge stream => (.purged (l.purge stream).1, (l.purge stream).2)

/-- What a list answers to calls, and the list after them. -/
def run (l : DelayList) : List DelayCall → List DelayAnswer × DelayList
  | [] => ([], l)
  | c :: rest => ((l.call c).1 :: ((l.call c).2.run rest).1, ((l.call c).2.run rest).2)

end DelayList

namespace DelayQueue

/-- What a queue answers to a call, and the queue after it. A refused packet leaves it as it is. -/
def call (q : DelayQueue) : DelayCall → DelayAnswer × DelayQueue
  | .push p =>
    match q.push p with
    | .ok q => (.pushed (.ok ()), q)
    | .error fault => (.pushed (.error fault), q)
  | .flush now => (.flushed (q.flush now).1, (q.flush now).2)
  | .purge stream => (.purged (q.purge stream).1, (q.purge stream).2)

/-- What a queue answers to calls, and the queue after them. -/
def run (q : DelayQueue) : List DelayCall → List DelayAnswer × DelayQueue
  | [] => ([], q)
  | c :: rest => ((q.call c).1 :: ((q.call c).2.run rest).1, ((q.call c).2.run rest).2)

/-- A queue whose chain and counts are those of a list. -/
structure Refines (q : DelayQueue) (l : DelayList) : Prop where
  capacity : q.slots.length = l.capacity
  /-- The chain comes to an end. -/
  ends : Reaches q.slots q.head q.chain none
  /-- Each slot is in the chain or on the stack, and there once. -/
  partition : (q.chain ++ q.free).Perm (List.range q.slots.length)
  /-- The slots of the chain hold the packets of the list. -/
  visited : (q.chain.map fun i => (q.slots[i]?).map DelaySlot.packet) = l.sorted.map some
  packets : q.packets = l.sorted
  size : q.size = l.arrivals.length
  isEmpty : q.isEmpty = l.arrivals.isEmpty
  firstDue : q.firstDue? = l.sorted.head?.map (·.due)
  buffers : ∀ s ∈ q.slots, s.Fits

theorem Represents.refines {q : DelayQueue} {l : DelayList} (h : q.Represents l) : q.Refines l := by
  obtain ⟨order, hholds⟩ := h
  have hlength := (InOrder.of_sorted l).perm.length_eq
  have hchain := hholds.threads.chain_eq
  subst hchain
  refine ⟨hholds.capacity, hholds.threads.reaches, hholds.threads.partition, hholds.packets,
    hholds.packets_eq, ?_, ?_, hholds.firstDue?_eq, hholds.buffers⟩
  · rw [hholds.size_eq, hlength]
  · rw [hholds.isEmpty_eq]
    cases hsorted : l.sorted <;> cases harrivals : l.arrivals <;> simp_all

theorem Represents.call {q : DelayQueue} {l : DelayList} (h : q.Represents l) (c : DelayCall) :
    (q.call c).1 = (l.call c).1 ∧ (q.call c).2.Represents (l.call c).2 := by
  cases c with
  | push p =>
      rcases h.push p with ⟨q', l', hq, hl, hrep⟩ | ⟨fault, hq, hl⟩
      · simp only [DelayQueue.call, DelayList.call, hq, hl]
        exact ⟨trivial, hrep⟩
      · simp only [DelayQueue.call, DelayList.call, hq, hl]
        exact ⟨trivial, h⟩
  | flush now =>
      obtain ⟨hsent, hrep⟩ := h.flush now
      simp only [DelayQueue.call, DelayList.call, hsent]
      exact ⟨trivial, hrep⟩
  | purge stream =>
      obtain ⟨hcount, hrep⟩ := h.purge stream
      simp only [DelayQueue.call, DelayList.call, hcount]
      exact ⟨trivial, hrep⟩

theorem Represents.run {q : DelayQueue} {l : DelayList} (h : q.Represents l) (calls : List DelayCall) :
    (q.run calls).1 = (l.run calls).1 ∧ (q.run calls).2.Represents (l.run calls).2 := by
  induction calls generalizing q l with
  | nil => exact ⟨rfl, h⟩
  | cons c rest ih =>
      obtain ⟨hanswer, hrep⟩ := h.call c
      obtain ⟨hanswers, hrest⟩ := ih hrep
      rw [DelayQueue.run, DelayList.run]
      exact ⟨by rw [hanswer, hanswers], hrest⟩

/-- A queue and a list of one capacity answer the same to every run of calls, and then the queue's chain
leads through the packets of the list in their stable order. -/
theorem run_refines (capacity : Nat) (calls : List DelayCall) :
    ((empty capacity).run calls).1 = (DelayList.run ⟨capacity, []⟩ calls).1 ∧
      ((empty capacity).run calls).2.Refines (DelayList.run ⟨capacity, []⟩ calls).2 := by
  obtain ⟨hanswers, hrep⟩ := (represents_empty capacity).run calls
  exact ⟨hanswers, hrep.refines⟩

end DelayQueue

end BorderProxy
