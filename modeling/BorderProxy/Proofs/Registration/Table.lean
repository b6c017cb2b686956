import BorderProxy.Proofs.Arena.Entries
import BorderProxy.Registration

/-! Tables of registrations over runs of calls. What is known about hosts may be another thing in every
call. Each call is described by the slots: which one an upsert writes, which ones a removal empties; and
the stack of empty slots, from which the size is read, is right after every run. -/

namespace BorderProxy

/-! First matches, removals and sizes of arenas. -/

namespace Arena

variable {α : Type}

/-- The first match in the order of the slots is the one in the lowest slot. -/
theorem find?_eq_some_iff {p : α → Bool} {a : Arena α} {index : Nat} {value : α} :
    a.find? p = some (index, value) ↔
      a.get? index = some value ∧ p value = true ∧
        ∀ j < index, ∀ v, a.get? j = some v → p v = false := by
  simp only [find?, ← mem_entries_iff]
  have hordered := pairwise_entriesFrom 0 a.slots
  constructor
  · intro h
    obtain ⟨hp, front, back, hsplit, hfront⟩ := List.find?_eq_some_iff_append.mp h
    refine ⟨by simp [hsplit], hp, fun j hj v hv => ?_⟩
    change a.entries.Pairwise _ at hordered
    rw [hsplit] at hordered hv
    rcases List.mem_append.mp hv with hv | hv
    · simpa using hfront _ hv
    · -- What stands behind the match has a higher slot.
      rcases List.mem_cons.mp hv with heq | hv
      · exact absurd (Prod.mk.inj heq).1 (Nat.ne_of_lt hj)
      · have hlt := (List.pairwise_cons.mp (List.pairwise_append.mp hordered).2.1).1 _ hv
        exact absurd hj (Nat.lt_asymm hlt)
  · rintro ⟨hmem, hp, hlow⟩
    obtain ⟨front, back, hsplit⟩ := List.append_of_mem hmem
    refine List.find?_eq_some_iff_append.mpr ⟨hp, front, back, hsplit, fun e he => ?_⟩
    change a.entries.Pairwise _ at hordered
    rw [hsplit] at hordered
    have hlt := (List.pairwise_append.mp hordered).2.2 e he (index, value) (List.mem_cons_self ..)
    have hfalse := hlow e.1 hlt e.2 (by simp [hsplit, he])
    simp [hfalse]

theorem find?_eq_none_iff {p : α → Bool} {a : Arena α} :
    a.find? p = none ↔ ∀ i v, a.get? i = some v → p v = false := by
  rw [find?, List.find?_eq_none]
  constructor
  · intro h i v hv
    simpa using h (i, v) (mem_entries_iff.mpr hv)
  · rintro h ⟨i, v⟩ hv
    simpa using h i v (mem_entries_iff.mp hv)

theorem get?_eraseAll (a : Arena α) (indices : List Nat) (i : Nat) :
    (a.eraseAll indices).get? i = if i ∈ indices then none else a.get? i := by
  induction indices generalizing a with
  | nil => simp [eraseAll]
  | cons index rest ih =>
      change ((a.erase index).eraseAll rest).get? i = _
      rw [ih, get?_erase]
      by_cases hrest : i ∈ rest <;> by_cases hindex : i = index <;> simp [hrest, hindex]

@[simp] theorem length_slots_replace (a : Arena α) (index : Nat) (value : α) :
    (a.replace index value).slots.length = a.slots.length := by
  unfold replace
  split <;> simp

@[simp] theorem length_slots_eraseAll (a : Arena α) (indices : List Nat) :
    (a.eraseAll indices).slots.length = a.slots.length := by
  induction indices generalizing a with
  | nil => rfl
  | cons index rest ih => exact (ih (a.erase index)).trans (length_slots_erase a index)

/-- An index is a slot exactly if it is one with a value or an empty one. -/
theorem WellFormed.slots_perm {a : Arena α} (h : a.WellFormed) :
    (a.entries.map (·.1) ++ a.free).Perm (List.range a.capacity) := by
  have hused : (a.entries.map (·.1)).Nodup :=
    List.Pairwise.map _ (fun _ _ hlt => Nat.ne_of_lt hlt) (pairwise_entriesFrom 0 a.slots)
  have hapart : ∀ i ∈ a.entries.map (·.1), ∀ j ∈ a.free, i ≠ j := by
    rintro i hi j hj rfl
    obtain ⟨e, he, rfl⟩ := List.mem_map.mp hi
    have hvalue := get?_eq_some_iff.mp (mem_entries_iff.mp (show (e.1, e.2) ∈ a.entries from he))
    simp [(h.mem_free_iff e.1).mp hj] at hvalue
  refine (List.perm_ext_iff_of_nodup ?_ List.nodup_range).mpr fun i => ?_
  · exact List.nodup_append.mpr ⟨hused, h.nodup, hapart⟩
  · rw [List.mem_append, List.mem_range, h.mem_free_iff, capacity]
    constructor
    · rintro (hi | hi)
      · obtain ⟨e, he, rfl⟩ := List.mem_map.mp hi
        have hvalue := get?_eq_some_iff.mp (mem_entries_iff.mp (show (e.1, e.2) ∈ a.entries from he))
        exact (List.getElem?_eq_some_iff.mp hvalue).1
      · exact (List.getElem?_eq_some_iff.mp hi).1
    · intro hi
      cases hslot : a.slots[i] with
      | none => exact .inr (List.getElem?_eq_some_iff.mpr ⟨hi, hslot⟩)
      | some value =>
          have hvalue := get?_eq_some_iff.mpr (List.getElem?_eq_some_iff.mpr ⟨hi, hslot⟩)
          exact .inl (List.mem_map.mpr ⟨(i, value), mem_entries_iff.mpr hvalue, rfl⟩)

theorem WellFormed.size_eq {a : Arena α} (h : a.WellFormed) : a.size = a.entries.length := by
  have hlength := h.slots_perm.length_eq
  rw [List.length_append, List.length_map, List.length_range] at hlength
  rw [size]
  omega

/-- The stack holds the slots without a value. -/
theorem WellFormed.mem_free_iff_get? {a : Arena α} (h : a.WellFormed) (i : Nat) :
    i ∈ a.free ↔ i < a.capacity ∧ a.get? i = none := by
  rw [h.mem_free_iff, capacity, get?]
  by_cases hi : i < a.slots.length <;> simp [hi]

end Arena

namespace Registrations

variable {known : KnownHosts} {r : Registration} {t t' : Registrations}

/-! Upserts. -/

/-- Whether a binding is stored that binds what `r` binds. -/
def Binds (known : KnownHosts) (r : Registration) (t : Registrations) (index : Nat) : Prop :=
  ∃ old, t.get? index = some old ∧ old.binds known r.registered (some r.contact) = true

/-- A binding in the slot `index`, and every other slot as it was. -/
def Writes (t : Registrations) (index : Nat) (r : Registration) (t' : Registrations) : Prop :=
  ∀ j, t'.get? j = if j = index then some r else t.get? j

/-- What becomes of an upsert. -/
inductive Upserted (known : KnownHosts) (r : Registration) (t : Registrations) :
    Except Fault (Nat × Registrations) → Prop
  /-- A matching binding was written over, the one in the lowest slot. -/
  | refreshed {index : Nat} {t' : Registrations} (hbinds : t.Binds known r index)
      (hlowest : ∀ j < index, ¬ t.Binds known r j) (hwrites : t.Writes index r t') :
      Upserted known r t (.ok (index, t'))
  /-- Nothing matched, and an empty slot was taken. -/
  | stored {index : Nat} {t' : Registrations} (hnew : ∀ j, ¬ t.Binds known r j)
      (hfree : index ∈ t.free) (hwrites : t.Writes index r t') : Upserted known r t (.ok (index, t'))
  /-- Nothing matched, and no slot was empty. -/
  | full (hnew : ∀ j, ¬ t.Binds known r j) (hfull : t.free = []) :
      Upserted known r t (.error (.storeFull .registrations))

theorem of_upsert {index : Nat} (h : t.upsert known r = .ok (index, t')) :
    t' = t.replace index r ∨ t.insert? r = some (index, t') := by
  unfold upsert at h
  split at h
  · obtain ⟨rfl, rfl⟩ := Prod.mk.inj (Except.ok.inj h)
    exact .inl rfl
  · split at h
    · rename_i stored hstored
      rw [Except.ok.inj h] at hstored
      exact .inr hstored
    · cases h

theorem not_binds_iff {index : Nat} : ¬ t.Binds known r index ↔
    ∀ old, t.get? index = some old → old.binds known r.registered (some r.contact) = false := by
  simp [Binds]

theorem binds_of_slot? {index : Nat} (h : t.slot? known r.registered r.contact = some index) :
    t.Binds known r index ∧ ∀ j < index, ¬ t.Binds known r j := by
  obtain ⟨⟨i, old⟩, hfind, rfl⟩ := Option.map_eq_some_iff.mp h
  obtain ⟨hget, hbinds, hlowest⟩ := Arena.find?_eq_some_iff.mp hfind
  exact ⟨⟨old, hget, hbinds⟩, fun j hj => not_binds_iff.mpr (hlowest j hj)⟩

theorem not_binds_of_slot? (h : t.slot? known r.registered r.contact = none) (j : Nat) :
    ¬ t.Binds known r j :=
  not_binds_iff.mpr (Arena.find?_eq_none_iff.mp (Option.map_eq_none_iff.mp h) j)

theorem upserted (ht : t.WellFormed) (known : KnownHosts) (r : Registration) :
    t.Upserted known r (t.upsert known r) := by
  unfold upsert
  split
  · rename_i index hslot
    obtain ⟨hbinds, hlowest⟩ := binds_of_slot? hslot
    refine .refreshed hbinds hlowest fun j => ?_
    obtain ⟨old, hold, -⟩ := hbinds
    rw [Arena.get?_replace, hold, Option.map_some]
  · rename_i hslot
    have hnew := not_binds_of_slot? hslot
    split
    · rename_i stored hstored
      refine .stored hnew ?_ fun j => (ht.get?_insert? hstored j).2
      unfold Arena.insert? at hstored
      split at hstored
      · cases hstored
      · rename_i first rest hfree
        rw [← (Prod.mk.inj (Option.some.inj hstored)).1, hfree]
        exact List.mem_cons_self ..
    · rename_i hstored
      refine .full hnew ?_
      unfold Arena.insert? at hstored
      split at hstored
      · assumption
      · cases hstored

theorem Upserted.error_iff {result : Except Fault (Nat × Registrations)}
    (h : t.Upserted known r result) :
    result = .error (.storeFull .registrations) ↔ (∀ j, ¬ t.Binds known r j) ∧ t.free = [] := by
  cases h with
  | refreshed hbinds hlowest hwrites =>
      exact ⟨nofun, fun hnone => absurd hbinds (hnone.1 _)⟩
  | stored hnew hfree hwrites =>
      refine ⟨nofun, fun hnone => ?_⟩
      rw [hnone.2] at hfree
      cases hfree
  | full hnew hfull => exact ⟨fun _ => ⟨hnew, hfull⟩, fun _ => rfl⟩

/-! Removals. -/

theorem get?_removeWhere (p : Registration → Bool) (t : Registrations) (i : Nat) :
    (t.removeWhere p).2.get? i = (t.get? i).filter fun r => !p r := by
  have hmem : i ∈ (t.entries.filter fun e => p e.2).map (·.1) ↔ ∃ r, t.get? i = some r ∧ p r = true := by
    simp [Arena.mem_entries_iff]
  simp only [removeWhere, Arena.get?_eraseAll, hmem]
  cases t.get? i with
  | none => simp
  | some r => cases hp : p r <;> simp [hp, Option.filter]

theorem removed_removeWhere (p : Registration → Bool) (t : Registrations) :
    (t.removeWhere p).1 = (t.entries.map (·.2)).filter p := by
  simp [removeWhere, List.filter_map, Function.comp_def]

theorem entries_removeWhere (p : Registration → Bool) (t : Registrations) :
    (t.removeWhere p).2.entries = t.entries.filter fun e => !p e.2 := by
  refine Arena.entries_eq_of_get? ((Arena.pairwise_entriesFrom 0 t.slots).filter _) fun i r => ?_
  rw [get?_removeWhere, List.mem_filter, Arena.mem_entries_iff, Option.filter_eq_some_iff]

/-- Aging removes none of the bindings that are current. -/
theorem current_age (now : Instant) (t : Registrations) : (t.age now).2.current now = t.current now := by
  unfold current age
  rw [entries_removeWhere, List.filter_map, List.filter_map, List.filter_filter]
  refine congrArg (List.map _) (List.filter_congr fun e _ => ?_)
  simp

/-- Of two agings only the later moment counts, in whichever order they come. -/
theorem get?_age_age (t : Registrations) (now later : Instant) (i : Nat) :
    ((t.age now).2.age later).2.get? i = (t.age (max now later)).2.get? i := by
  simp only [age, get?_removeWhere, Option.filter_filter]
  congr 1
  funext r
  simp only [Registration.isCurrent, Bool.not_not, ← Bool.decide_and]
  exact decide_eq_decide.mpr Int.max_le.symm

/-! Runs. -/

/-- A call of a table; where hosts are compared, with what was known of them. -/
inductive Call where
  | upsert (known : KnownHosts) (r : Registration)
  | remove (index : Nat)
  | unregister (known : KnownHosts) (registered : Uri) (contact : Option Uri)
  | age (now : Instant)

/-- The table after a call; an upsert that fails leaves it as it is. -/
def call (t : Registrations) : Call → Registrations
  | .upsert known r =>
    match t.upsert known r with
    | .ok (_, t') => t'
    | .error _ => t
  | .remove index => t.erase index
  | .unregister known registered contact => (t.unregister known registered contact).2
  | .age now => (t.age now).2

/-- A table that counts its slots right and whose next call does what it should. -/
structure Faithful (capacity : Nat) (t : Registrations) : Prop where
  freeOnce : t.free.Nodup
  free : ∀ i, i ∈ t.free ↔ i < capacity ∧ t.get? i = none
  listed : ∀ i r, (i, r) ∈ t.entries ↔ t.get? i = some r
  inOrder : t.entries.Pairwise fun e f => e.1 < f.1
  size : t.size = t.entries.length
  bounded : t.size ≤ capacity
  upserts : ∀ known r, t.Upserted known r (t.upsert known r)
  fails : ∀ known r, t.upsert known r = .error (.storeFull .registrations) ↔
    (∀ j, ¬ t.Binds known r j) ∧ t.free = []
  unchanged : ∀ known r fault, t.upsert known r = .error fault → t.call (.upsert known r) = t
  removes : ∀ index i, (t.erase index).get? i = if i = index then none else t.get? i
  unregisters : ∀ known registered contact,
    (t.unregister known registered contact).1 =
        t.entries.countP (fun e => e.2.binds known registered contact) ∧
      ∀ i, (t.unregister known registered contact).2.get? i =
        (t.get? i).filter fun r => !r.binds known registered contact
  ages : ∀ now,
    (t.age now).1 = (t.entries.map (·.2)).filter (fun r => decide (r.expires < now)) ∧
      ∀ i, (t.age now).2.get? i = (t.get? i).filter fun r => decide (now ≤ r.expires)
  agesAgain : ∀ now later i,
    ((t.age now).2.age later).2.get? i = (t.age (max now later)).2.get? i

theorem wellFormed_call (ht : t.WellFormed) (c : Call) : (t.call c).WellFormed := by
  cases c with
  | upsert known r =>
      simp only [call]
      split
      · rename_i hupsert
        rcases of_upsert hupsert with rfl | hstored
        · exact ht.replace _ r
        · exact ht.insert? hstored
      · exact ht
  | remove index => exact ht.erase index
  | unregister known registered contact => exact ht.eraseAll _
  | age now => exact ht.eraseAll _

theorem capacity_call (t : Registrations) (c : Call) : (t.call c).capacity = t.capacity := by
  cases c with
  | upsert known r =>
      simp only [call]
      split
      · rename_i hupsert
        rcases of_upsert hupsert with rfl | hstored
        · exact Arena.length_slots_replace t _ r
        · exact Arena.length_slots_insert? hstored
      · rfl
  | remove index => exact Arena.length_slots_erase t index
  | unregister known registered contact => exact Arena.length_slots_eraseAll t _
  | age now => exact Arena.length_slots_eraseAll t _

theorem faithful (ht : t.WellFormed) : t.Faithful t.capacity where
  freeOnce := ht.nodup
  free := ht.mem_free_iff_get?
  listed _ _ := Arena.mem_entries_iff
  inOrder := Arena.pairwise_entriesFrom 0 t.slots
  size := ht.size_eq
  bounded := Nat.sub_le _ _
  upserts := upserted ht
  fails known r := (upserted ht known r).error_iff
  unchanged known r fault h := by simp only [call, h]
  removes := Arena.get?_erase t
  unregisters known registered contact := by
    refine ⟨?_, fun i => get?_removeWhere _ t i⟩
    simp [unregister, removeWhere, List.countP_eq_length_filter]
  ages now := by
    refine ⟨?_, fun i => ?_⟩
    · simp [age, removed_removeWhere, Registration.isCurrent, ← decide_not]
    · simp [age, get?_removeWhere, Registration.isCurrent]
  agesAgain := get?_age_age t

theorem faithful_run (ht : t.WellFormed) (calls : List Call) :
    (calls.foldl call t).Faithful t.capacity := by
  induction calls generalizing t with
  | nil => exact faithful ht
  | cons c rest ih =>
      rw [← capacity_call t c]
      exact ih (wellFormed_call ht c)

/-- After every run from an empty table, whatever was known about hosts in each call, the stack holds
exactly the empty slots, each once, and the size is the number of bindings. An upsert then writes one slot,
the lowest that matches or else an empty one, and fails exactly if there is neither; an unregistering
removes and counts what matches at that moment; an aging removes and lists, by their slots, the bindings
that have expired, and two agings are one at the later moment. -/
theorem run_faithful (capacity : Nat) (calls : List Call) :
    (calls.foldl call (Arena.empty capacity)).Faithful capacity := by
  have hcapacity : (Arena.empty capacity : Registrations).capacity = capacity := by
    simp [Arena.capacity, Arena.empty]
  have hfaithful := faithful_run (Arena.wellFormed_empty capacity) calls
  rwa [hcapacity] at hfaithful

end Registrations

end BorderProxy
