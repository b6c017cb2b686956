import BorderProxy.Media.StreamTable
import BorderProxy.Proofs.Arena.Entries

/-! The open streams of a table by their handles. A handle finds exactly the stream that the table lists
under it, changing the stream of one handle leaves all others, and removing it makes the handle stale
without touching any other stream but for the note of its opposite. -/

namespace BorderProxy.StreamTable

/-- There is a generation for each slot. -/
def Aligned (t : StreamTable) : Prop := t.generations.length = t.arena.slots.length

theorem aligned_empty (capacity : Nat) (range : PortRange) (devices : List (Ip × Text)) :
    (empty capacity range devices).Aligned := by
  simp [Aligned, empty, Arena.empty]

theorem Aligned.generation {t : StreamTable} (ht : t.Aligned) {index : Nat} {s : Stream}
    (h : t.arena.get? index = some s) :
    t.generations[index]? = some (t.handleAt index).generation := by
  have hlt := (List.getElem?_eq_some_iff.mp (Arena.get?_eq_some_iff.mp h)).1
  rw [← show t.generations.length = t.arena.slots.length from ht] at hlt
  simp [handleAt, hlt]

theorem Aligned.get?_handleAt {t : StreamTable} (ht : t.Aligned) {index : Nat} {s : Stream}
    (h : t.arena.get? index = some s) : t.get? (t.handleAt index) = some s := by
  have hgen := ht.generation h
  unfold get?
  rw [if_pos]
  · exact h
  · exact hgen

theorem get?_eq_some_iff {t : StreamTable} {h : StreamRef} {s : Stream} :
    t.get? h = some s ↔
      t.generations[h.index]? = some h.generation ∧ t.arena.get? h.index = some s := by
  unfold get?
  split
  · rename_i hgen
    simp [hgen]
  · rename_i hgen
    simp [hgen]

theorem handleAt_of_get? {t : StreamTable} {h : StreamRef} {s : Stream} (hs : t.get? h = some s) :
    t.handleAt h.index = h := by
  simp [handleAt, List.getD, (get?_eq_some_iff.mp hs).1]

/-- A table lists the streams that its handles find. -/
theorem Aligned.mem_entries_iff {t : StreamTable} (ht : t.Aligned) {h : StreamRef} {s : Stream} :
    (h, s) ∈ t.entries ↔ t.get? h = some s := by
  unfold entries
  rw [List.mem_map]
  constructor
  · rintro ⟨⟨index, stream⟩, hmem, heq⟩
    obtain ⟨rfl, rfl⟩ := Prod.mk.inj heq
    exact ht.get?_handleAt (Arena.mem_entries_iff.mp hmem)
  · intro hs
    refine ⟨(h.index, s), Arena.mem_entries_iff.mpr (get?_eq_some_iff.mp hs).2, ?_⟩
    show (t.handleAt h.index, s) = (h, s)
    rw [handleAt_of_get? hs]

/-- A slot has one generation at a time, so another handle of an open stream's slot is stale. -/
theorem generation_ne_of_index {t : StreamTable} {h r : StreamRef} {s : Stream}
    (hs : t.get? h = some s) (hindex : r.index = h.index) (hne : r ≠ h) :
    t.generations[r.index]? ≠ some r.generation := by
  intro hgen
  rw [hindex, (get?_eq_some_iff.mp hs).1] at hgen
  obtain ⟨index, generation⟩ := r
  obtain ⟨index', generation'⟩ := h
  simp_all

theorem get?_of_index_eq {t : StreamTable} {h r : StreamRef} {s : Stream} (hs : t.get? h = some s)
    (hindex : r.index = h.index) (hne : r ≠ h) : t.get? r = none := by
  unfold get?
  rw [if_neg (generation_ne_of_index hs hindex hne)]

@[simp] theorem range_modify (t : StreamTable) (h : StreamRef) (change : Stream → Stream) :
    (t.modify h change).range = t.range := by
  unfold modify
  split <;> rfl

theorem get?_modify (t : StreamTable) (h r : StreamRef) (change : Stream → Stream) :
    (t.modify h change).get? r = if r = h then (t.get? h).map change else t.get? r := by
  unfold modify
  cases hs : t.get? h with
  | none =>
      by_cases hr : r = h
      · simp [hr, hs]
      · simp [hr]
  | some s =>
      obtain ⟨hgen, hget⟩ := get?_eq_some_iff.mp hs
      by_cases hr : r = h
      · subst hr
        simp [get?, hgen, Arena.get?_modify, hget]
      · by_cases hindex : r.index = h.index
        · simp [get?, generation_ne_of_index hs hindex hr, hr]
        · simp [get?, Arena.get?_modify, hindex, hr]

@[simp] theorem isSome_get?_modify (t : StreamTable) (h r : StreamRef) (change : Stream → Stream) :
    ((t.modify h change).get? r).isSome = (t.get? r).isSome := by
  rw [get?_modify]
  split
  · rename_i hr
    subst hr
    simp
  · rfl

/-- A removed handle is stale, and every other one finds its stream as before, less its note of the
removed one. -/
theorem get?_remove {t : StreamTable} {network : Network} {h : StreamRef} {s : Stream}
    (hs : t.get? h = some s) (r : StreamRef) :
    (t.remove network h).2.1.get? r = if r = h then none else (t.get? r).map (forgetPeer h) := by
  unfold remove
  rw [hs]
  by_cases hindex : r.index = h.index
  · have hgone : ∀ generations arena, arena.get? r.index = none →
        get? { t with arena := arena, generations := generations } r = none := by
      intro generations arena ha
      simp [get?, ha]
    rw [hgone _ _ (by simp [Arena.get?_erase, hindex])]
    by_cases hr : r = h
    · simp [hr]
    · simp [hr, get?_of_index_eq hs hindex hr]
  · have hr : r ≠ h := fun heq => hindex (by rw [heq])
    simp only [get?, Arena.get?_map, Arena.get?_erase, hindex, if_false, hr,
      List.getElem?_set_ne (Ne.symm hindex)]
    split <;> rfl

theorem remove_of_stale {t : StreamTable} {h : StreamRef} (hs : t.get? h = none)
    (network : Network) : t.remove network h = (none, t, network) := by
  unfold remove
  rw [hs]

/-- Looking for the opposite of a stream changes a table only in its notes: whatever no note matters to
is kept. -/
theorem linkPeer_keeps {P : StreamTable → Prop}
    (hnote : ∀ (t : StreamTable) (h : StreamRef) (peer : Option StreamRef),
      P t → P (t.modify h (Stream.withPeer peer)))
    (t : StreamTable) (h : StreamRef) (ht : P t) : P (t.linkPeer h).2 := by
  unfold linkPeer
  split
  · exact ht
  · split
    · exact ht
    · dsimp only
      split
      · exact hnote t h _ ht
      · exact hnote _ _ _ (hnote t h _ ht)

end BorderProxy.StreamTable
