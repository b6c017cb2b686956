import Mathlib.Data.List.Perm.Basic
import BorderProxy.Media.DelayQueue

/-! The chain of a delay queue. It leads through the slots in use to its end and the stack holds the
others, so that each slot is in one of the two, once. Putting a slot in and taking one out change the
successor of the slot before it and nothing else of the chain. -/

namespace BorderProxy.DelayQueue

/-- Following the successors from `start` leads through some slots, in this order, to `stop`. -/
def Reaches (slots : List DelaySlot) : Option Nat → List Nat → Option Nat → Prop
  | start, [], stop => start = stop
  | start, index :: rest, stop =>
    start = some index ∧ ∃ next, (slots[index]?).map (·.next) = some next ∧ Reaches slots next rest stop

theorem Reaches.append {slots : List DelaySlot} {start middle stop : Option Nat} {front back : List Nat}
    (hfront : Reaches slots start front middle) (hback : Reaches slots middle back stop) :
    Reaches slots start (front ++ back) stop := by
  induction front generalizing start with
  | nil =>
      rw [Reaches] at hfront
      rw [hfront]
      exact hback
  | cons index rest ih =>
      obtain ⟨hstart, next, hnext, hrest⟩ := hfront
      exact ⟨hstart, next, hnext, ih hrest⟩

theorem Reaches.exists_middle {slots : List DelaySlot} {start stop : Option Nat}
    {front back : List Nat} (h : Reaches slots start (front ++ back) stop) :
    ∃ middle, Reaches slots start front middle ∧ Reaches slots middle back stop := by
  induction front generalizing start with
  | nil => exact ⟨start, rfl, h⟩
  | cons index rest ih =>
      obtain ⟨hstart, next, hnext, hrest⟩ := h
      obtain ⟨middle, hfront, hback⟩ := ih hrest
      exact ⟨middle, ⟨hstart, next, hnext, hfront⟩, hback⟩

/-- A chain starts at the first of its slots, or is over at once. -/
theorem Reaches.start_eq {slots : List DelaySlot} {start : Option Nat} {order : List Nat}
    (h : Reaches slots start order none) : start = order.head? := by
  cases order with
  | nil => exact h
  | cons index rest => exact h.1

/-- Slots off a chain, and what a slot holds besides its successor, do not matter to the chain. -/
theorem Reaches.congr {slots slots' : List DelaySlot} {start stop : Option Nat} {order : List Nat}
    (hnext : ∀ i ∈ order, (slots'[i]?).map (·.next) = (slots[i]?).map (·.next))
    (h : Reaches slots start order stop) : Reaches slots' start order stop := by
  induction order generalizing start with
  | nil => exact h
  | cons index rest ih =>
      obtain ⟨hstart, next, hn, hrest⟩ := h
      refine ⟨hstart, next, ?_, ih (fun i hi => hnext i (List.mem_cons_of_mem _ hi)) hrest⟩
      rw [hnext index List.mem_cons_self, hn]

theorem walk_of_reaches {slots : List DelaySlot} {start : Option Nat} {order : List Nat} {steps : Nat}
    (h : Reaches slots start order none) (hsteps : order.length ≤ steps) :
    walk slots steps start = order := by
  induction order generalizing start steps with
  | nil =>
      rw [Reaches] at h
      subst h
      cases steps <;> rfl
  | cons index rest ih =>
      obtain ⟨rfl, next, hnext, hrest⟩ := h
      cases steps with
      | zero => simp at hsteps
      | succ steps =>
          obtain ⟨slot, hslot, rfl⟩ := Option.map_eq_some_iff.mp hnext
          simp only [List.length_cons, Nat.add_le_add_iff_right] at hsteps
          simp only [walk, hslot]
          rw [ih hrest hsteps]

/-- A chain through some slots, with all others on the stack. -/
structure Threads (q : DelayQueue) (order : List Nat) : Prop where
  reaches : Reaches q.slots q.head order none
  partition : (order ++ q.free).Perm (List.range q.slots.length)

namespace Threads

variable {q : DelayQueue} {order : List Nat}

theorem length_add (h : q.Threads order) : order.length + q.free.length = q.slots.length := by
  have hlength := h.partition.length_eq
  rwa [List.length_append, List.length_range] at hlength

theorem nodup (h : q.Threads order) : (order ++ q.free).Nodup :=
  h.partition.nodup_iff.mpr List.nodup_range

theorem lt_length (h : q.Threads order) {i : Nat} (hi : i ∈ order ++ q.free) : i < q.slots.length :=
  List.mem_range.mp (h.partition.mem_iff.mp hi)

theorem chain_eq (h : q.Threads order) : q.chain = order := by
  have hlength := h.length_add
  exact walk_of_reaches h.reaches (by omega)

theorem size_eq (h : q.Threads order) : q.size = order.length := by
  have hlength := h.length_add
  rw [size]
  omega

theorem isEmpty_eq (h : q.Threads order) : q.isEmpty = order.isEmpty := by
  rw [isEmpty, h.reaches.start_eq]
  cases order <;> rfl

end Threads

theorem threads_empty (capacity : Nat) : (empty capacity).Threads [] where
  reaches := rfl
  partition := by simp [empty]

/-! Changing the successor of one slot. -/

@[simp] theorem length_slots_setNext (q : DelayQueue) (previous next : Option Nat) :
    (q.setNext previous next).slots.length = q.slots.length := by
  cases previous <;> simp [setNext]

@[simp] theorem free_setNext (q : DelayQueue) (previous next : Option Nat) :
    (q.setNext previous next).free = q.free := by
  cases previous <;> rfl

/-- Every part of a slot but its successor is as before. -/
theorem map_setNext {α : Type} (f : DelaySlot → α) (hf : ∀ s next, f { s with next := next } = f s)
    (q : DelayQueue) (previous next : Option Nat) (i : Nat) :
    ((q.setNext previous next).slots[i]?).map f = (q.slots[i]?).map f := by
  cases previous with
  | none => rfl
  | some index =>
      simp only [setNext, List.getElem?_modify]
      cases q.slots[i]? with
      | none => rfl
      | some slot => by_cases h : index = i <;> simp [h, hf]

theorem next_setNext_of_ne (q : DelayQueue) {previous next : Option Nat} {i : Nat}
    (hi : previous ≠ some i) :
    ((q.setNext previous next).slots[i]?).map (·.next) = (q.slots[i]?).map (·.next) := by
  cases previous with
  | none => rfl
  | some index =>
      have hne : index ≠ i := fun heq => hi (by rw [heq])
      simp [setNext, hne]

theorem next_setNext_self (q : DelayQueue) {next : Option Nat} {i : Nat} (hi : i < q.slots.length) :
    ((q.setNext (some i) next).slots[i]?).map (·.next) = some next := by
  simp [setNext, hi]

theorem ne_some_of_getLast? {front back : List Nat} (hnodup : (front ++ back).Nodup) :
    ∀ i ∈ back, front.getLast? ≠ some i := by
  intro i hi hlast
  have hmem : i ∈ front := List.mem_of_getLast? hlast
  exact (List.nodup_append.mp hnodup).2.2 i hmem i hi rfl

/-- The slots before a place lead to whatever the last of them, or the start, is told to name. -/
theorem reaches_setNext {q : DelayQueue} {front : List Nat} {stop : Option Nat}
    (h : Reaches q.slots q.head front stop) (hnodup : front.Nodup) (next : Option Nat) :
    Reaches (q.setNext front.getLast? next).slots (q.setNext front.getLast? next).head front next := by
  rcases List.eq_nil_or_concat front with rfl | ⟨init, last, rfl⟩
  · rfl
  · rw [List.concat_eq_append] at h hnodup ⊢
    obtain ⟨middle, hinit, rfl, after, hafter, -⟩ := h.exists_middle
    have hlt : last < q.slots.length := by
      obtain ⟨slot, hslot, -⟩ := Option.map_eq_some_iff.mp hafter
      exact (List.getElem?_eq_some_iff.mp hslot).1
    have hlast : last ∉ init := fun hmem =>
      (List.nodup_append.mp hnodup).2.2 last hmem last List.mem_cons_self rfl
    rw [List.getLast?_concat]
    have hkept : Reaches (q.setNext (some last) next).slots q.head init (some last) :=
      hinit.congr fun i hi => next_setNext_of_ne q fun heq => hlast (Option.some.inj heq ▸ hi)
    exact hkept.append ⟨rfl, next, next_setNext_self q hlt, rfl⟩

/-- A slot from the stack put into the chain between two parts of it. -/
theorem Threads.insert {q : DelayQueue} {front back rest : List Nat} {index : Nat}
    (write : DelaySlot → DelaySlot) (h : q.Threads (front ++ back)) (hfree : q.free = index :: rest) :
    ((({ q with slots := q.slots.modify index write, free := rest } : DelayQueue).setNext (some index)
      back.head?).setNext front.getLast? (some index)).Threads (front ++ index :: back) := by
  have hpartition : ((front ++ index :: back) ++ rest).Perm (List.range q.slots.length) := by
    have hbefore := h.partition
    rw [hfree] at hbefore
    refine List.Perm.trans ?_ hbefore
    simp only [List.append_assoc, List.cons_append]
    exact List.Perm.append_left front List.perm_middle.symm
  have hall := hpartition.nodup_iff.mpr List.nodup_range
  have hnodup := (List.nodup_append.mp hall).1
  obtain ⟨hfrontNodup, hbackNodup, hdisjoint⟩ := List.nodup_append.mp hnodup
  have hindex := List.nodup_cons.mp hbackNodup
  have hlt : index < q.slots.length := h.lt_length (by simp [hfree])
  have hlast := ne_some_of_getLast? hnodup
  obtain ⟨middle, hfront, hback⟩ := h.reaches.exists_middle
  have hmiddle := hback.start_eq
  subst hmiddle
  let held : DelayQueue := { q with slots := q.slots.modify index write, free := rest }
  -- Neither the write nor the new slot's own successor changes the chain so far.
  have hbefore : ∀ i, i ≠ index →
      ((held.setNext (some index) back.head?).slots[i]?).map (fun s => s.next) =
        (q.slots[i]?).map (fun s => s.next) := by
    intro i hi
    rw [next_setNext_of_ne held (by simpa using Ne.symm hi)]
    simp [held, Ne.symm hi]
  have hfrontHeld : Reaches (held.setNext (some index) back.head?).slots held.head front back.head? :=
    hfront.congr fun i hi => hbefore i (hdisjoint i hi index List.mem_cons_self)
  constructor
  · refine (reaches_setNext hfrontHeld hfrontNodup (some index)).append ⟨rfl, back.head?, ?_, ?_⟩
    · rw [next_setNext_of_ne _ (hlast index List.mem_cons_self)]
      exact next_setNext_self held (by simpa [held] using hlt)
    · apply hback.congr
      intro i hi
      rw [next_setNext_of_ne _ (hlast i (List.mem_cons_of_mem _ hi))]
      exact hbefore i fun heq => hindex.1 (heq ▸ hi)
  · simpa using hpartition

/-- A slot taken out of the chain from between two parts of it and put on the stack. -/
theorem Threads.unlink {q : DelayQueue} {front back : List Nat} {index : Nat}
    (h : q.Threads (front ++ index :: back)) :
    (q.unlink front.getLast? index).Threads (front ++ back) := by
  have hnodup := (List.nodup_append.mp h.nodup).1
  obtain ⟨hfrontNodup, hbackNodup, hdisjoint⟩ := List.nodup_append.mp hnodup
  have hindex := List.nodup_cons.mp hbackNodup
  obtain ⟨middle, hfront, rfl, next, hnext, hback⟩ := h.reaches.exists_middle
  have hnext' : (q.slots[index]?).bind (·.next) = next := by
    obtain ⟨slot, hslot, hn⟩ := Option.map_eq_some_iff.mp hnext
    simp [hslot, hn]
  have hlast := ne_some_of_getLast? hnodup
  have hself : ∀ i, i ≠ index → ∀ p : DelayQueue,
      ((p.setNext (some index) none).slots[i]?).map (·.next) = (p.slots[i]?).map (·.next) :=
    fun i hi p => next_setNext_of_ne p (by simpa using Ne.symm hi)
  unfold DelayQueue.unlink
  rw [hnext']
  constructor
  · refine Reaches.append ((reaches_setNext hfront hfrontNodup next).congr fun i hi => hself i ?_ _) ?_
    · exact hdisjoint i hi index List.mem_cons_self
    · apply hback.congr
      intro i hi
      refine (hself i (fun heq => hindex.1 (heq ▸ hi)) _).trans ?_
      exact next_setNext_of_ne q (hlast i (List.mem_cons_of_mem _ hi))
  · simp only [free_setNext, length_slots_setNext]
    refine List.Perm.trans ?_ h.partition
    simp only [List.append_assoc, List.cons_append]
    exact List.Perm.append_left front List.perm_middle

end BorderProxy.DelayQueue
