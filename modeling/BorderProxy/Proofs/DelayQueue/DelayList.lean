import Mathlib.Data.List.Perm.Basic
import BorderProxy.Media.DelayQueue

/-! A bounded list of packets with a stable order, which is what a delay queue is meant to be. The list
keeps the packets as they came; sorted by due time, those due at the same time stay in the order in which
they came, and that leaves one order only. -/

namespace BorderProxy

/-- A bounded list of packets, in the order in which they came. -/
structure DelayList where
  capacity : Nat
  arrivals : List DelayedPacket

namespace DelayList

/-- The packets in the order of their due times. -/
def sorted (l : DelayList) : List DelayedPacket := l.arrivals.mergeSort fun a b => a.due ≤ b.due

/-- Adds a packet. A packet that is too long, or one too many, is refused. -/
def push (l : DelayList) (p : DelayedPacket) : Except Fault DelayList :=
  if DelaySlot.size < p.payload.length then .error (.media (.packetTooLong p.payload.length))
  else if l.capacity ≤ l.arrivals.length then .error (.storeFull .delayedPackets)
  else .ok { l with arrivals := l.arrivals ++ [p] }

/-- Takes out the packets that are due, in order. -/
def flush (l : DelayList) (now : Instant) : List DelayedPacket × DelayList :=
  (l.sorted.filter fun p => p.due ≤ now,
    { l with arrivals := l.arrivals.filter fun p => now < p.due })

/-- Takes out the packets of a stream; gives their number. -/
def purge (l : DelayList) (stream : StreamRef) : Nat × DelayList :=
  (l.arrivals.countP fun p => p.stream = stream,
    { l with arrivals := l.arrivals.filter fun p => p.stream ≠ stream })

end DelayList

/-- Packets in the order of their due times, those due at the same time as they came. -/
structure InOrder (arrivals packets : List DelayedPacket) : Prop where
  sorted : packets.Pairwise fun a b => a.due ≤ b.due
  stable : ∀ due, (packets.filter fun p => p.due = due) = arrivals.filter fun p => p.due = due

namespace InOrder

variable {arrivals packets : List DelayedPacket}

theorem nil : InOrder [] [] := ⟨List.Pairwise.nil, fun _ => rfl⟩

theorem mem_iff (h : InOrder arrivals packets) {p : DelayedPacket} : p ∈ packets ↔ p ∈ arrivals := by
  have hsame := congrArg (fun l => p ∈ l) (h.stable p.due)
  simpa using hsame

/-- Sorted lists with the same packets for each due time are the same. -/
theorem unique {packets' : List DelayedPacket} (h : InOrder arrivals packets)
    (h' : InOrder arrivals packets') : packets = packets' := by
  induction packets generalizing arrivals packets' with
  | nil =>
      rw [eq_comm, List.eq_nil_iff_forall_not_mem]
      intro p hp
      rw [h'.mem_iff, ← h.mem_iff] at hp
      cases hp
  | cons p rest ih =>
      obtain ⟨hp, hrest⟩ := List.pairwise_cons.mp h.sorted
      cases packets' with
      | nil =>
          have hmem : p ∈ ([] : List DelayedPacket) := by
            rw [h'.mem_iff, ← h.mem_iff]
            exact List.mem_cons_self
          cases hmem
      | cons p' rest' =>
          obtain ⟨hp', hrest'⟩ := List.pairwise_cons.mp h'.sorted
          have hle : p.due ≤ p'.due := by
            have hmem : p' ∈ p :: rest := by
              rw [h.mem_iff, ← h'.mem_iff]
              exact List.mem_cons_self
            rcases List.mem_cons.mp hmem with rfl | hmem
            · exact Int.le_refl _
            · exact hp p' hmem
          have hle' : p'.due ≤ p.due := by
            have hmem : p ∈ p' :: rest' := by
              rw [h'.mem_iff, ← h.mem_iff]
              exact List.mem_cons_self
            rcases List.mem_cons.mp hmem with rfl | hmem
            · exact Int.le_refl _
            · exact hp' p hmem
          have hdue : p'.due = p.due := Int.le_antisymm hle' hle
          have hsame := (h.stable p.due).trans (h'.stable p.due).symm
          simp only [List.filter_cons, hdue, decide_true, if_true] at hsame
          obtain ⟨rfl, -⟩ := List.cons.inj hsame
          -- Without the common head both lists are in the order of either one.
          have htails : ∀ due, (rest.filter fun q => q.due = due) = rest'.filter fun q => q.due = due := by
            intro due
            have hdues := (h.stable due).trans (h'.stable due).symm
            simp only [List.filter_cons] at hdues
            split at hdues
            · exact (List.cons.inj hdues).2
            · exact hdues
          rw [ih ⟨hrest, fun _ => rfl⟩ ⟨hrest', fun due => (htails due).symm⟩]

theorem of_sorted (l : DelayList) : InOrder l.arrivals l.sorted := by
  have htrans : ∀ a b c : DelayedPacket,
      decide (a.due ≤ b.due) = true → decide (b.due ≤ c.due) = true → decide (a.due ≤ c.due) = true := by
    intro a b c hab hbc
    simp only [decide_eq_true_eq] at hab hbc ⊢
    exact Int.le_trans hab hbc
  have htotal : ∀ a b : DelayedPacket, (decide (a.due ≤ b.due) || decide (b.due ≤ a.due)) = true := by
    intro a b
    simp only [Bool.or_eq_true, decide_eq_true_eq]
    exact Int.le_total a.due b.due
  have hpairwise := List.pairwise_mergeSort htrans htotal l.arrivals
  refine ⟨hpairwise.imp fun hab => by simpa using hab, fun due => ?_⟩
  -- The packets of one due time are sorted as they came, so sorting keeps them as a sublist.
  have hequal : (l.arrivals.filter fun p => p.due = due).Pairwise
      fun a b => decide (a.due ≤ b.due) = true := by
    rw [List.pairwise_filter]
    apply List.pairwise_of_forall
    intro a b ha hb
    simp only [decide_eq_true_eq] at ha hb ⊢
    exact Int.le_of_eq (ha.trans hb.symm)
  have hsublist := List.sublist_mergeSort htrans htotal hequal List.filter_sublist
  have hfilter := hsublist.filter fun p => decide (p.due = due)
  rw [List.filter_filter] at hfilter
  simp only [Bool.and_self] at hfilter
  refine (hfilter.eq_of_length ?_).symm
  exact ((List.mergeSort_perm l.arrivals _).filter _).length_eq.symm

theorem eq_sorted {l : DelayList} (h : InOrder l.arrivals packets) : packets = l.sorted :=
  h.unique (of_sorted l)

theorem perm (h : InOrder arrivals packets) : packets.Perm arrivals := by
  rw [h.eq_sorted (l := ⟨0, arrivals⟩)]
  exact List.mergeSort_perm arrivals _

theorem filter (h : InOrder arrivals packets) (keep : DelayedPacket → Bool) :
    InOrder (arrivals.filter keep) (packets.filter keep) := by
  refine ⟨h.sorted.filter keep, fun due => ?_⟩
  rw [List.filter_comm, h.stable due, List.filter_comm]

/-- A new packet goes behind all that are due no later than it and before all that are due later. -/
theorem insert {front back : List DelayedPacket} {p : DelayedPacket}
    (h : InOrder arrivals (front ++ back)) (hfront : ∀ q ∈ front, q.due ≤ p.due)
    (hback : ∀ q ∈ back, p.due < q.due) : InOrder (arrivals ++ [p]) (front ++ p :: back) := by
  obtain ⟨hf, hb, hfb⟩ := List.pairwise_append.mp h.sorted
  constructor
  · refine List.pairwise_append.mpr ⟨hf, List.pairwise_cons.mpr ⟨?_, hb⟩, ?_⟩
    · intro q hq
      exact Int.le_of_lt (hback q hq)
    · intro q hq r hr
      rcases List.mem_cons.mp hr with rfl | hr
      · exact hfront q hq
      · exact hfb q hq r hr
  · intro due
    have hstable := h.stable due
    rw [List.filter_append] at hstable
    rw [List.filter_append, List.filter_append, List.filter_cons, ← hstable]
    by_cases hdue : p.due = due
    · have hnone : (back.filter fun q => q.due = due) = [] := by
        rw [List.filter_eq_nil_iff]
        intro q hq
        have hne := Int.ne_of_gt (hback q hq)
        rw [hdue] at hne
        simpa using hne
      simp [hdue, hnone]
    · simp [hdue]

/-- Of sorted packets the ones that are due stand in front. -/
theorem filter_due {p : DelayedPacket} {rest : List DelayedPacket} {now : Instant}
    (hsorted : (p :: rest).Pairwise fun a b => a.due ≤ b.due) (hp : now < p.due) :
    ((p :: rest).filter fun q => q.due ≤ now) = [] ∧
      ((p :: rest).filter fun q => now < q.due) = p :: rest := by
  have hall : ∀ q ∈ p :: rest, now < q.due := by
    intro q hq
    rcases List.mem_cons.mp hq with rfl | hq
    · exact hp
    · exact Int.lt_of_lt_of_le hp ((List.pairwise_cons.mp hsorted).1 q hq)
  constructor
  · rw [List.filter_eq_nil_iff]
    intro q hq
    simpa using hall q hq
  · rw [List.filter_eq_self]
    intro q hq
    exact decide_eq_true (hall q hq)

end InOrder

end BorderProxy
