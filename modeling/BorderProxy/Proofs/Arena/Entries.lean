import Mathlib.Data.List.Perm.Basic
import BorderProxy.Arena

/-! The values of an arena as a list. Their slots increase, so none is listed twice, and every operation
adds, removes or changes the one value of its slot. Orders are compared up to permutation: which slot a
value gets depends on the stack of the empty ones. -/

namespace BorderProxy.Arena

variable {α : Type}

@[simp] theorem length_slots_modify (a : Arena α) (index : Nat) (change : α → α) :
    (a.modify index change).slots.length = a.slots.length := by
  unfold modify replace
  split
  · split <;> simp
  · rfl

@[simp] theorem length_slots_erase (a : Arena α) (index : Nat) :
    (a.erase index).slots.length = a.slots.length := by
  unfold erase
  split <;> simp

theorem length_slots_insert? {a b : Arena α} {value : α} {index : Nat}
    (h : a.insert? value = some (index, b)) : b.slots.length = a.slots.length := by
  unfold insert? at h
  split at h
  · cases h
  · obtain ⟨-, rfl⟩ := Prod.mk.inj (Option.some.inj h)
    simp

theorem le_of_mem_entriesFrom {slots : List (Option α)} {start : Nat} {e : Nat × α}
    (h : e ∈ entriesFrom start slots) : start ≤ e.1 :=
  (mem_entriesFrom_iff.mp h).1

theorem pairwise_entriesFrom (start : Nat) (slots : List (Option α)) :
    (entriesFrom start slots).Pairwise fun e f => e.1 < f.1 := by
  induction slots generalizing start with
  | nil => exact List.Pairwise.nil
  | cons slot slots ih =>
      cases slot with
      | none => exact ih (start + 1)
      | some value =>
          refine List.Pairwise.cons (fun e he => ?_) (ih (start + 1))
          exact le_of_mem_entriesFrom he

theorem nodup_entries (a : Arena α) : a.entries.Nodup := by
  refine List.Pairwise.imp ?_ (pairwise_entriesFrom 0 a.slots)
  rintro e f hlt rfl
  exact Nat.lt_irrefl _ hlt

@[simp] theorem entries_empty (capacity : Nat) : (empty capacity : Arena α).entries = [] := by
  rw [List.eq_nil_iff_forall_not_mem]
  rintro ⟨index, value⟩ h
  simp [mem_entries_iff] at h

/-- Two arenas with the same value in every slot list the same values. -/
theorem entries_perm_of_get? {a : Arena α} {l : List (Nat × α)} (hl : l.Nodup)
    (h : ∀ i v, a.get? i = some v ↔ (i, v) ∈ l) : a.entries.Perm l := by
  rw [List.perm_ext_iff_of_nodup a.nodup_entries hl]
  rintro ⟨i, v⟩
  rw [mem_entries_iff, h]

/-- An arena lists its values as any list does that has them in the order of the slots. -/
theorem entries_eq_of_get? {a : Arena α} {l : List (Nat × α)} (hl : l.Pairwise fun e f => e.1 < f.1)
    (h : ∀ i v, a.get? i = some v ↔ (i, v) ∈ l) : a.entries = l := by
  have hnodup : l.Nodup := by
    refine List.Pairwise.imp ?_ hl
    rintro e f hlt rfl
    exact Nat.lt_irrefl _ hlt
  exact List.Perm.eq_of_pairwise (fun e f _ _ hlt hgt => absurd hgt (Nat.lt_asymm hlt))
    (pairwise_entriesFrom 0 a.slots) hl (entries_perm_of_get? hnodup h)

theorem nodup_cons_entries {a : Arena α} {index : Nat} (h : a.get? index = none) (value : α) :
    ((index, value) :: a.entries).Nodup := by
  refine List.nodup_cons.mpr ⟨fun hmem => ?_, a.nodup_entries⟩
  rw [mem_entries_iff, h] at hmem
  cases hmem

theorem WellFormed.entries_insert? {a b : Arena α} {value : α} {index : Nat} (h : a.WellFormed)
    (hb : a.insert? value = some (index, b)) : b.entries.Perm ((index, value) :: a.entries) := by
  have hnone := (h.get?_insert? hb 0).1
  refine entries_perm_of_get? (nodup_cons_entries hnone value) fun i v => ?_
  rw [(h.get?_insert? hb i).2, List.mem_cons, Prod.mk.injEq, mem_entries_iff]
  by_cases hi : i = index
  · subst hi
    simp [hnone, eq_comm]
  · simp [hi]

theorem entries_erase {a : Arena α} {index : Nat} {value : α} (h : a.get? index = some value) :
    a.entries.Perm ((index, value) :: (a.erase index).entries) := by
  have hnone : (a.erase index).get? index = none := by simp [get?_erase]
  refine entries_perm_of_get? (nodup_cons_entries hnone value) fun i v => ?_
  rw [List.mem_cons, Prod.mk.injEq, mem_entries_iff, get?_erase]
  by_cases hi : i = index
  · subst hi
    simp [h, eq_comm]
  · simp [hi]

theorem entries_modify {a : Arena α} {index : Nat} {value : α} (h : a.get? index = some value)
    (change : α → α) :
    (a.modify index change).entries.Perm ((index, change value) :: (a.erase index).entries) := by
  have hnone : (a.erase index).get? index = none := by simp [get?_erase]
  refine entries_perm_of_get? (nodup_cons_entries hnone _) fun i v => ?_
  rw [List.mem_cons, Prod.mk.injEq, mem_entries_iff, get?_erase, get?_modify, h]
  by_cases hi : i = index
  · simp [hi, eq_comm]
  · simp [hi]

theorem entriesFrom_map (change : α → α) (start : Nat) (slots : List (Option α)) :
    entriesFrom start (slots.map (Option.map change)) =
      (entriesFrom start slots).map fun e => (e.1, change e.2) := by
  induction slots generalizing start with
  | nil => rfl
  | cons slot slots ih => cases slot <;> simp [entriesFrom, ih]

theorem entries_map (a : Arena α) (change : α → α) :
    (a.map change).entries = a.entries.map fun e => (e.1, change e.2) :=
  entriesFrom_map change 0 a.slots

end BorderProxy.Arena
