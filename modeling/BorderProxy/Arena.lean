/-! Stores of fixed capacity. An arena has numbered slots, each empty or holding a value, and a stack of
the empty ones; values are put into the slot on top of the stack. The stack holds each empty slot once
and no other (`WellFormed`), and every operation keeps it so. -/

namespace BorderProxy

structure Arena (α : Type) where
  slots : List (Option α)
  /-- The empty slots, the next one to be used first. -/
  free : List Nat
  deriving DecidableEq, Repr

namespace Arena

variable {α : Type}

/-- An empty store; its slots are used from the lowest on. -/
def empty (capacity : Nat) : Arena α := ⟨List.replicate capacity none, List.range capacity⟩

def capacity (a : Arena α) : Nat := a.slots.length

def size (a : Arena α) : Nat := a.capacity - a.free.length

def get? (a : Arena α) (index : Nat) : Option α := a.slots[index]?.join

/-- The values with their slots, from slot `start` on. -/
def entriesFrom (start : Nat) : List (Option α) → List (Nat × α)
  | [] => []
  | none :: rest => entriesFrom (start + 1) rest
  | some value :: rest => (start, value) :: entriesFrom (start + 1) rest

/-- The values with their slots, in the order of the slots. -/
def entries (a : Arena α) : List (Nat × α) := entriesFrom 0 a.slots

/-- The first value in the order of the slots that satisfies `p`, with its slot. -/
def find? (p : α → Bool) (a : Arena α) : Option (Nat × α) := a.entries.find? fun e => p e.2

/-- Puts a value into the next empty slot. -/
def insert? (value : α) (a : Arena α) : Option (Nat × Arena α) :=
  match a.free with
  | [] => none
  | index :: rest => some (index, ⟨a.slots.set index (some value), rest⟩)

/-- Takes the next empty slot off the stack, without putting anything into it yet. -/
def reserve? (a : Arena α) : Option (Nat × Arena α) :=
  match a.free with
  | [] => none
  | index :: rest => some (index, { a with free := rest })

/-- Puts a reserved slot back on the stack. -/
def giveBack (index : Nat) (a : Arena α) : Arena α := { a with free := index :: a.free }

/-- Puts a value into a reserved slot. -/
def fill (index : Nat) (value : α) (a : Arena α) : Arena α :=
  { a with slots := a.slots.set index (some value) }

/-- Puts a value in place of the one in a slot; an empty slot stays empty. -/
def replace (index : Nat) (value : α) (a : Arena α) : Arena α :=
  if (a.get? index).isSome then { a with slots := a.slots.set index (some value) } else a

def modify (index : Nat) (change : α → α) (a : Arena α) : Arena α :=
  match a.get? index with
  | some value => a.replace index (change value)
  | none => a

def map (change : α → α) (a : Arena α) : Arena α :=
  { a with slots := a.slots.map (Option.map change) }

def erase (index : Nat) (a : Arena α) : Arena α :=
  if (a.get? index).isSome then ⟨a.slots.set index none, index :: a.free⟩ else a

/-- Empties slots one after the other. -/
def eraseAll (indices : List Nat) (a : Arena α) : Arena α :=
  indices.foldl (fun a index => a.erase index) a

theorem get?_eq_some_iff {a : Arena α} {index : Nat} {value : α} :
    a.get? index = some value ↔ a.slots[index]? = some (some value) := by
  rw [get?, Option.join_eq_some_iff]

@[simp] theorem get?_empty (capacity index : Nat) : (empty capacity : Arena α).get? index = none := by
  rw [Option.eq_none_iff_forall_ne_some]
  intro value h
  rw [get?_eq_some_iff, empty, List.getElem?_replicate] at h
  split at h <;> simp at h

theorem get?_replace (a : Arena α) (index i : Nat) (value : α) :
    (a.replace index value).get? i =
      if i = index then (a.get? index).map fun _ => value else a.get? i := by
  unfold replace
  split
  · rename_i hsome
    obtain ⟨old, hold⟩ := Option.isSome_iff_exists.mp hsome
    have hlt := (List.getElem?_eq_some_iff.mp (get?_eq_some_iff.mp hold)).1
    by_cases h : i = index
    · subst h
      simp [get?, hlt] at hold ⊢
      simp [hold]
    · simp [get?, h, Ne.symm h]
  · rename_i hnone
    by_cases h : i = index
    · subst h
      simp_all
    · simp [h]

theorem get?_modify (a : Arena α) (index i : Nat) (change : α → α) :
    (a.modify index change).get? i =
      if i = index then (a.get? index).map change else a.get? i := by
  unfold modify
  cases h : a.get? index with
  | none => by_cases hi : i = index <;> simp [hi, h]
  | some value => simp [get?_replace, h]

@[simp] theorem get?_map (a : Arena α) (i : Nat) (change : α → α) :
    (a.map change).get? i = (a.get? i).map change := by
  unfold get? map
  rw [List.getElem?_map]
  cases a.slots[i]? with
  | none => rfl
  | some slot => cases slot <;> rfl

theorem get?_erase (a : Arena α) (index i : Nat) :
    (a.erase index).get? i = if i = index then none else a.get? i := by
  unfold erase
  split
  · by_cases h : i = index
    · subst h
      by_cases hlt : i < a.slots.length <;> simp [get?, hlt]
    · simp [get?, h, Ne.symm h]
  · rename_i hnone
    by_cases h : i = index
    · subst h
      simp_all
    · simp [h]

theorem mem_entriesFrom_iff {slots : List (Option α)} {start index : Nat} {value : α} :
    (index, value) ∈ entriesFrom start slots ↔
      start ≤ index ∧ slots[index - start]? = some (some value) := by
  induction slots generalizing start with
  | nil => simp [entriesFrom]
  | cons slot slots ih =>
    have hrest : (index, value) ∈ entriesFrom (start + 1) slots ↔
        start < index ∧ (slot :: slots)[index - start]? = some (some value) := by
      rw [ih]
      refine and_congr_right fun h => ?_
      rw [show index - start = index - (start + 1) + 1 by omega, List.getElem?_cons_succ]
    rcases Nat.lt_trichotomy index start with hlt | heq | hgt
    · cases slot <;> simp [entriesFrom, hrest] <;> omega
    · subst heq
      have hself : (index, value) ∉ entriesFrom (index + 1) slots := by simp [hrest]
      cases slot <;> simp [entriesFrom, hself, eq_comm]
    · have hne : index ≠ start := by omega
      cases slot <;> simp [entriesFrom, hrest, hgt, hne, Nat.le_of_lt hgt]

theorem mem_entries_iff {a : Arena α} {index : Nat} {value : α} :
    (index, value) ∈ a.entries ↔ a.get? index = some value := by
  simp [entries, mem_entriesFrom_iff, get?_eq_some_iff]

theorem giveBack_of_reserve? {a b : Arena α} {index : Nat} (h : a.reserve? = some (index, b)) :
    b.giveBack index = a := by
  unfold reserve? at h
  split at h
  · cases h
  · rename_i first rest hfree
    obtain ⟨rfl, rfl⟩ := Prod.mk.inj (Option.some.inj h)
    simp [giveBack, ← hfree]

theorem insert?_of_reserve? {a b : Arena α} {index : Nat} (h : a.reserve? = some (index, b))
    (value : α) : a.insert? value = some (index, b.fill index value) := by
  unfold reserve? at h
  split at h
  · cases h
  · rename_i first rest hfree
    obtain ⟨rfl, rfl⟩ := Prod.mk.inj (Option.some.inj h)
    simp [insert?, fill, hfree]

/-- The stack holds each empty slot once and no other. -/
structure WellFormed (a : Arena α) : Prop where
  nodup : a.free.Nodup
  mem_free_iff : ∀ index, index ∈ a.free ↔ a.slots[index]? = some none

theorem wellFormed_empty (capacity : Nat) : (empty capacity : Arena α).WellFormed where
  nodup := List.nodup_range
  mem_free_iff index := by simp [empty, List.getElem?_replicate]

theorem WellFormed.insert? {a b : Arena α} {value : α} {index : Nat} (h : a.WellFormed)
    (hb : a.insert? value = some (index, b)) : b.WellFormed := by
  unfold Arena.insert? at hb
  split at hb
  · cases hb
  · rename_i first rest hfree
    obtain ⟨rfl, rfl⟩ := Prod.mk.inj (Option.some.inj hb)
    have hnodup := h.nodup
    rw [hfree, List.nodup_cons] at hnodup
    refine ⟨hnodup.2, fun i => ?_⟩
    have hi := h.mem_free_iff i
    rw [hfree, List.mem_cons] at hi
    by_cases hc : first = i
    · subst hc
      simp [List.getElem?_set, hnodup.1]
    · simp [hc, ← hi, Ne.symm hc]

theorem WellFormed.get?_insert? {a b : Arena α} {value : α} {index : Nat} (h : a.WellFormed)
    (hb : a.insert? value = some (index, b)) (i : Nat) :
    a.get? index = none ∧ b.get? i = if i = index then some value else a.get? i := by
  unfold Arena.insert? at hb
  split at hb
  · cases hb
  · rename_i first rest hfree
    obtain ⟨rfl, rfl⟩ := Prod.mk.inj (Option.some.inj hb)
    have hslot := (h.mem_free_iff first).mp (by simp [hfree])
    have hlt := (List.getElem?_eq_some_iff.mp hslot).1
    refine ⟨by simp [Arena.get?, hslot], ?_⟩
    by_cases hi : i = first
    · subst hi
      simp [Arena.get?, hlt]
    · simp [Arena.get?, hi, Ne.symm hi]

theorem WellFormed.replace {a : Arena α} (h : a.WellFormed) (index : Nat) (value : α) :
    (a.replace index value).WellFormed := by
  unfold Arena.replace
  split
  · rename_i hsome
    obtain ⟨old, hold⟩ := Option.isSome_iff_exists.mp hsome
    rw [get?_eq_some_iff] at hold
    refine ⟨h.nodup, fun i => ?_⟩
    rw [h.mem_free_iff i]
    by_cases hc : index = i
    · subst hc
      simp [List.getElem?_set, hold]
    · simp [hc]
  · exact h

theorem WellFormed.modify {a : Arena α} (h : a.WellFormed) (index : Nat) (change : α → α) :
    (a.modify index change).WellFormed := by
  unfold Arena.modify
  split
  · exact h.replace index _
  · exact h

theorem WellFormed.map {a : Arena α} (h : a.WellFormed) (change : α → α) :
    (a.map change).WellFormed where
  nodup := h.nodup
  mem_free_iff i := by simp [Arena.map, h.mem_free_iff i]

theorem WellFormed.erase {a : Arena α} (h : a.WellFormed) (index : Nat) :
    (a.erase index).WellFormed := by
  unfold Arena.erase
  split
  · rename_i hsome
    obtain ⟨old, hold⟩ := Option.isSome_iff_exists.mp hsome
    rw [get?_eq_some_iff] at hold
    have hnot : index ∉ a.free := by simp [h.mem_free_iff index, hold]
    have hlt : index < a.slots.length := (List.getElem?_eq_some_iff.mp hold).1
    refine ⟨List.nodup_cons.mpr ⟨hnot, h.nodup⟩, fun i => ?_⟩
    by_cases hc : index = i
    · subst hc
      simp [hlt]
    · simp [hc, Ne.symm hc, h.mem_free_iff i]
  · exact h

theorem WellFormed.eraseAll {a : Arena α} (h : a.WellFormed) (indices : List Nat) :
    (a.eraseAll indices).WellFormed := by
  induction indices generalizing a with
  | nil => exact h
  | cons index rest ih => exact ih (h.erase index)

end Arena

end BorderProxy
