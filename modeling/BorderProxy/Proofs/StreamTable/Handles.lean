import BorderProxy.Proofs.StreamTable.Home
import BorderProxy.Proofs.StreamTable.Run

/-! Handles over a run of a table. The generation of a slot counts the streams of the slot that have been
closed, and it begins anew after 2^32 of them. Up to then a closed stream's handle finds nothing again, and
no two streams are opened under one handle, however the slots are passed on. An open stream's two numbers,
one for each leg, lead back to it. -/

namespace BorderProxy

/-- A number leads back to the slot and the leg that it was made of. -/
@[simp] theorem Leg.ofToken_token (h : StreamRef) (leg : Leg) :
    Leg.ofToken (h.token leg) = (h.index, leg) := by
  cases leg with
  | rtp => simp [Leg.ofToken, StreamRef.token, Leg.index]
  | rtcp =>
      have hindex : (h.index * 2 + 1) / 2 = h.index := by omega
      have hodd : (h.index * 2 + 1) % 2 = 1 := by omega
      simp [Leg.ofToken, StreamRef.token, Leg.index, hindex, hodd]

namespace StreamTable

variable {t : StreamTable} {state : StreamTable × Network}

theorem legOfToken_token {h : StreamRef} {s : Stream} (hs : t.get? h = some s) (leg : Leg) :
    t.legOfToken (h.token leg) = some (h, leg) := by
  simp only [legOfToken, Leg.ofToken_token, (get?_eq_some_iff.mp hs).2, handleAt_of_get? hs,
    Option.map_some]

/-- A handle that nothing can be done with: it finds no stream, there is none to be changed or to be
closed, and none to look for an opposite of. -/
structure Stale (t : StreamTable) (h : StreamRef) : Prop where
  get? : t.get? h = none
  modify : ∀ change, t.modify h change = t
  remove : ∀ network, t.remove network h = (none, t, network)
  linkPeer : t.linkPeer h = (none, t)

theorem stale_of_get? {h : StreamRef} (hs : t.get? h = none) : t.Stale h where
  get? := hs
  modify change := by
    unfold StreamTable.modify
    simp [hs]
  remove network := remove_of_stale hs network
  linkPeer := by
    unfold StreamTable.linkPeer
    rw [hs]

/-! What one act does to generations. -/

/-- Whether an act closes a stream of a slot. -/
def closes (slot : Nat) (state : StreamTable × Network) : Act → Bool
  | .call (.remove h) => h.index == slot && (state.1.remove state.2 h).1.isSome
  | _ => false

theorem closes_remove_iff {slot : Nat} {h : StreamRef} :
    closes slot state (.call (.remove h)) = true ↔ h.index = slot ∧ ∃ s, state.1.get? h = some s := by
  rw [closes, Bool.and_eq_true, beq_iff_eq]
  refine and_congr_right fun _ => ?_
  unfold StreamTable.remove
  cases state.1.get? h with
  | none => simp
  | some s => simp

@[simp] theorem generations_modify (t : StreamTable) (h : StreamRef) (change : Stream → Stream) :
    (t.modify h change).generations = t.generations := by
  unfold modify
  split <;> rfl

theorem generations_start (network : Network) (request : StreamRequest) (now : Instant) :
    (t.start network request now).2.1.generations = t.generations := by
  have hstarted := t.started network request now
  generalize t.start network request now = result at hstarted ⊢
  cases hstarted <;> simp

theorem generations_linkPeer (h : StreamRef) : (t.linkPeer h).2.generations = t.generations :=
  linkPeer_keeps (P := fun u => u.generations = t.generations)
    (fun u r _ hu => (generations_modify u r _).trans hu) t h rfl

theorem generation_remove (slot : Nat) (h : StreamRef) :
    ((state.1.remove state.2 h).2.1.handleAt slot).generation =
      (state.1.handleAt slot).generation +
        UInt32.ofNat (closes slot state (.call (.remove h))).toNat := by
  cases hs : state.1.get? h with
  | none =>
      have hopen : closes slot state (.call (.remove h)) = false := by
        rw [Bool.eq_false_iff, ne_eq, closes_remove_iff, hs]
        simp
      rw [hopen, remove_of_stale hs]
      simp
  | some s =>
      by_cases hslot : h.index = slot
      · have hclosed : closes slot state (.call (.remove h)) = true :=
          closes_remove_iff.mpr ⟨hslot, s, hs⟩
        have hlt := (List.getElem?_eq_some_iff.mp (get?_eq_some_iff.mp hs).1).1
        rw [hclosed, ← hslot, handleAt_of_get? hs]
        simp [StreamTable.remove, hs, handleAt, hlt]
      · have hopen : closes slot state (.call (.remove h)) = false := by
          rw [Bool.eq_false_iff, ne_eq, closes_remove_iff]
          exact fun hclosed => hslot hclosed.1
        rw [hopen]
        simp [StreamTable.remove, hs, handleAt, List.getElem?_set_ne hslot]

/-- The generation of a slot moves on with each stream of the slot that is closed, and only then. -/
theorem generation_act (slot : Nat) (a : Act) :
    ((act state a).1.handleAt slot).generation =
      (state.1.handleAt slot).generation + UInt32.ofNat (closes slot state a).toNat := by
  have hsame : ∀ {u : StreamTable}, u.generations = state.1.generations →
      (u.handleAt slot).generation = (state.1.handleAt slot).generation + UInt32.ofNat 0 := by
    intro u hu
    simp [handleAt, hu]
  cases a with
  | hear h jitter now => exact hsame (generations_modify state.1 h _)
  | call c =>
      cases c with
      | start request now => exact hsame (generations_start state.2 request now)
      | linkPeer h => exact hsame (generations_linkPeer h)
      | surroundings network => exact hsame rfl
      | remove h => exact generation_remove slot h

/-- An open stream stays open until a stream of its slot is closed. -/
theorem Sound.open_act (hstate : state.1.Sound) {h : StreamRef} (hopen : (state.1.get? h).isSome)
    {a : Act} (ha : closes h.index state a = false) : ((act state a).1.get? h).isSome := by
  cases a with
  | hear g jitter now => exact (isSome_get?_modify state.1 g h _).trans hopen
  | call c =>
      cases c with
      | start request now =>
          obtain ⟨s, hs⟩ := Option.isSome_iff_exists.mp hopen
          obtain ⟨s', hs', -⟩ := hstate.get?_start state.2 request now hs
          exact Option.isSome_iff_exists.mpr ⟨s', hs'⟩
      | linkPeer g =>
          exact linkPeer_keeps (P := fun u => (u.get? h).isSome)
            (fun u r _ hu => (isSome_get?_modify u r h _).trans hu) state.1 g hopen
      | surroundings network => exact hopen
      | remove g =>
          rw [act, call]
          cases hs : state.1.get? g with
          | none => rwa [remove_of_stale hs]
          | some s =>
              have hne : h ≠ g := by
                rintro rfl
                rw [closes_remove_iff.mpr ⟨rfl, s, hs⟩] at ha
                cases ha
              rw [get?_remove hs, if_neg hne, Option.isSome_map]
              exact hopen

/-! What a run does to generations. -/

/-- How many streams of a slot the acts of a run close. -/
def closings (slot : Nat) : StreamTable × Network → List Act → Nat
  | _, [] => 0
  | state, a :: rest => (closes slot state a).toNat + closings slot (act state a) rest

theorem closings_append (slot : Nat) (state : StreamTable × Network) (before after : List Act) :
    closings slot state (before ++ after) =
      closings slot state before + closings slot (before.foldl act state) after := by
  induction before generalizing state with
  | nil => simp [closings]
  | cons a rest ih =>
      simp only [List.cons_append, closings, List.foldl_cons, ih]
      omega

theorem closings_le_of_prefix (slot : Nat) (state : StreamTable × Network) {before acts : List Act}
    (h : before <+: acts) :
    closings slot state before ≤ closings slot state acts := by
  obtain ⟨after, rfl⟩ := h
  rw [closings_append]
  exact Nat.le_add_right _ _

theorem closings_le_length (slot : Nat) (state : StreamTable × Network) (acts : List Act) :
    closings slot state acts ≤ acts.length := by
  induction acts generalizing state with
  | nil => exact Nat.le_refl 0
  | cons a rest ih =>
      have hone : (closes slot state a).toNat ≤ 1 := Bool.toNat_le _
      have hrest := ih (act state a)
      simp only [closings, List.length_cons]
      omega

theorem generation_run (slot : Nat) (state : StreamTable × Network) (acts : List Act) :
    ((acts.foldl act state).1.handleAt slot).generation =
      (state.1.handleAt slot).generation + UInt32.ofNat (closings slot state acts) := by
  induction acts generalizing state with
  | nil => simp [closings]
  | cons a rest ih =>
      rw [List.foldl_cons, ih, generation_act, closings, UInt32.ofNat_add, UInt32.add_assoc]

theorem Sound.open_run (hstate : state.1.Sound) {h : StreamRef} (hopen : (state.1.get? h).isSome)
    {acts : List Act} (hacts : closings h.index state acts = 0) :
    ((acts.foldl act state).1.get? h).isSome := by
  induction acts generalizing state with
  | nil => exact hopen
  | cons a rest ih =>
      simp only [closings, Nat.add_eq_zero_iff, Bool.toNat_eq_zero] at hacts
      exact ih (sound_act hstate a) (hstate.open_act hopen hacts.1) hacts.2

/-! Runs from a table whose slots are all in their first generation. -/

theorem generation_empty {capacity : Nat} {range : PortRange} {devices : List (Ip × Text)} (slot : Nat) :
    ((empty capacity range devices).handleAt slot).generation = 0 := by
  simp only [handleAt, empty, List.getD_eq_getElem?_getD, List.getElem?_replicate]
  split <;> rfl

/-- Whether an act opens a new stream under a handle: no open stream has the key that is asked for, and the
answer is the handle. -/
def Opens (state : StreamTable × Network) (h : StreamRef) (a : Act) : Prop :=
  ∃ request now port, a = .call (.start request now) ∧
    (∀ r s, state.1.get? r = some s → s.key ≠ storedKey request.key) ∧
      (state.1.start state.2 request now).1 = .ok (h, port)

/-- A new stream takes an empty slot as it is, and is open afterwards. -/
theorem Sound.opens_spec (hstate : state.1.Sound) {h : StreamRef} {a : Act} (ha : Opens state h a) :
    h = state.1.handleAt h.index ∧ state.1.get? h = none ∧ ((act state a).1.get? h).isSome := by
  obtain ⟨request, now, port, rfl, hnew, hok⟩ := ha
  rw [act, call]
  have hstarted := state.1.started state.2 request now
  generalize state.1.start state.2 request now = result at hstarted hok ⊢
  cases hstarted with
  | refreshed r s hfind =>
      have hs := hstate.aligned.mem_entries_iff.mp (List.mem_of_find?_eq_some hfind)
      exact absurd (by simpa using List.find?_some hfind) (hnew r s hs)
  | full hkey hfree => cases hok
  | exhausted hkey hopen => cases hok
  | unwatched fault cursor hkey => cases hok
  | opened index port' arena cursor hkey hport hslot =>
      obtain ⟨rfl, -⟩ := Prod.mk.inj (Except.ok.inj hok)
      have hempty := (hstate.slots.get?_insert? hslot index).1
      refine ⟨rfl, ?_, Option.isSome_iff_exists.mpr
        ⟨_, get?_insert_handleAt hstate.slots hslot hstate.aligned⟩⟩
      unfold StreamTable.get?
      rw [show (state.1.handleAt index).index = index from rfl, hempty, ite_self]

theorem closings_take_succ (slot : Nat) (state : StreamTable × Network) {acts : List Act} {k : Nat}
    {a : Act} (ha : acts[k]? = some a) :
    closings slot state (acts.take (k + 1)) = closings slot state (acts.take k) +
      (closes slot ((acts.take k).foldl act state) a).toNat := by
  rw [List.take_add_one, ha, closings_append]
  rfl

theorem closings_take_le (slot : Nat) (state : StreamTable × Network) (acts : List Act) {k m : Nat}
    (h : k ≤ m) :
    closings slot state (acts.take k) ≤ closings slot state (acts.take m) :=
  closings_le_of_prefix slot state (List.take_prefix_take_left h)

theorem eq_of_ofNat_eq {a b : Nat} (ha : a < UInt32.size) (hb : b < UInt32.size)
    (h : UInt32.ofNat a = UInt32.ofNat b) : a = b := by
  have hnat := congrArg UInt32.toNat h
  rwa [UInt32.toNat_ofNat_of_lt' ha, UInt32.toNat_ofNat_of_lt' hb] at hnat

section Generations

variable (hstate : state.1.Sound) (hfirst : ∀ slot, (state.1.handleAt slot).generation = 0)
  {acts : List Act}

include hfirst in
/-- The handle that a slot has at a moment tells how many of its streams have been closed. -/
theorem generation_of_handleAt {h : StreamRef}
    (hh : (acts.foldl act state).1.handleAt h.index = h) :
    h.generation = UInt32.ofNat (closings h.index state acts) := by
  rw [← UInt32.zero_add (UInt32.ofNat _), ← hfirst h.index, ← generation_run, hh]

variable {h : StreamRef} (hfew : closings h.index state acts < UInt32.size)

include hfirst hfew in
/-- A slot does not have one handle again once the stream with that handle is closed. -/
theorem closings_eq_of_handleAt {j k : Nat} (hj : ((acts.take j).foldl act state).1.handleAt h.index = h)
    (hk : ((acts.take k).foldl act state).1.handleAt h.index = h) :
    closings h.index state (acts.take j) = closings h.index state (acts.take k) := by
  have hall := fun m => closings_le_of_prefix h.index state (List.take_prefix m acts)
  refine eq_of_ofNat_eq (Nat.lt_of_le_of_lt (hall j) hfew) (Nat.lt_of_le_of_lt (hall k) hfew) ?_
  rw [← generation_of_handleAt hfirst hj, ← generation_of_handleAt hfirst hk]

include hfirst hfew in
/-- A handle whose stream is closed is stale at every later moment. -/
theorem stale_of_closed {k m : Nat} (hclosed : acts[k]? = some (.call (.remove h))) (hkm : k < m) {s : Stream}
    (hopen : ((acts.take k).foldl act state).1.get? h = some s) :
    ((acts.take m).foldl act state).1.Stale h := by
  refine stale_of_get? (Option.eq_none_iff_forall_ne_some.mpr fun r hr => ?_)
  have heq := closings_eq_of_handleAt hfirst hfew (handleAt_of_get? hopen) (handleAt_of_get? hr)
  -- The closing itself lies between the two moments.
  have hone := closings_take_succ h.index state hclosed
  rw [closes_remove_iff.mpr ⟨rfl, s, hopen⟩, Bool.toNat_true] at hone
  have hlater := closings_take_le h.index state acts (show k + 1 ≤ m from hkm)
  omega

include hstate hfirst hfew in
/-- Of two streams the later one is not opened under the handle of the earlier one. -/
theorem not_opens_again {j k : Nat} {a b : Act} (ha : acts[j]? = some a) (hjk : j < k)
    (hearlier : Opens ((acts.take j).foldl act state) h a) :
    ¬ Opens ((acts.take k).foldl act state) h b := by
  intro hlater
  have hsound : ∀ m, ((acts.take m).foldl act state).1.Sound := fun _ => sound_acts hstate _
  obtain ⟨hj, -, hopened⟩ := (hsound j).opens_spec hearlier
  obtain ⟨hk, hempty, -⟩ := (hsound k).opens_spec hlater
  have heq := closings_eq_of_handleAt hfirst hfew hj.symm hk.symm
  -- The slot was emptied in between, or else the earlier stream would still be open.
  obtain ⟨between, hbetween⟩ := List.take_prefix_take_left (l := acts) (show j + 1 ≤ k from hjk)
  have hnext : (acts.take (j + 1)).foldl act state = act ((acts.take j).foldl act state) a := by
    rw [List.take_add_one, ha, List.foldl_append]
    rfl
  have hclosed : closings h.index ((acts.take (j + 1)).foldl act state) between ≠ 0 := by
    intro hnone
    rw [← hnext] at hopened
    have hstill := (hsound (j + 1)).open_run hopened hnone
    rw [← List.foldl_append, hbetween, hempty] at hstill
    cases hstill
  have hsplit := closings_append h.index state (acts.take (j + 1)) between
  rw [hbetween] at hsplit
  have hgrows := closings_take_le h.index state acts (Nat.le_add_right j 1)
  omega

end Generations

/-- In every run from a table without streams in which no slot is emptied 2^32 times, the handle of a
stream that has been closed is stale at every later moment, and no two streams are opened under one
handle; and at every moment of any run the number of a leg of an open stream leads back to it, so no two
legs of open streams have one number. -/
theorem run_handles_once (capacity : Nat) (range : PortRange) (devices : List (Ip × Text)) (network : Network)
    (acts : List Act) :
    let start := (empty capacity range devices, network)
    let after := fun k => (acts.take k).foldl act start
    ((∀ slot, closings slot start acts < UInt32.size) →
      (∀ k m h, acts[k]? = some (.call (.remove h)) → ((after k).1.remove (after k).2 h).1.isSome → k < m →
        (after m).1.Stale h) ∧
      ∀ j k h a b, acts[j]? = some a → acts[k]? = some b → Opens (after j) h a → Opens (after k) h b →
        j = k) ∧
    (∀ k h s leg, (after k).1.get? h = some s → (after k).1.legOfToken (h.token leg) = some (h, leg)) ∧
    ∀ k h g s r leg side, (after k).1.get? h = some s → (after k).1.get? g = some r →
      h.token leg = g.token side → h = g ∧ leg = side := by
  intro start after
  have hstart : start.1.Sound := sound_empty capacity range devices
  have hfirst : ∀ slot, (start.1.handleAt slot).generation = 0 := fun slot => generation_empty slot
  refine ⟨fun hfew => ⟨fun k m h hclosed hgone hkm => ?_, fun j k h a b ha hb hj hk => ?_⟩,
    fun k h s leg hs => legOfToken_token hs leg, fun k h g s r leg side hs hr htoken => ?_⟩
  · obtain ⟨-, s, hs⟩ := closes_remove_iff.mp (show closes h.index (after k) (.call (.remove h)) = true by
      rw [closes, beq_self_eq_true, Bool.true_and]
      exact hgone)
    exact stale_of_closed hfirst (hfew h.index) hclosed hkm hs
  · rcases Nat.lt_trichotomy j k with hlt | heq | hgt
    · exact absurd hk (not_opens_again hstart hfirst (hfew h.index) ha hlt hj)
    · exact heq
    · exact absurd hj (not_opens_again hstart hfirst (hfew h.index) hb hgt hk)
  · have hboth := legOfToken_token hs leg
    rw [htoken, legOfToken_token hr side, Option.some.injEq, Prod.mk.injEq] at hboth
    exact ⟨hboth.1.symm, hboth.2.symm⟩

/-! One slot, passed on from stream to stream. -/

namespace ReusedSlot

def request (client : Text) : StreamRequest :=
  { key := ⟨.ofText "c@h".toList, .outgoing, 0, client⟩
    localIp := .v4 127 0 0 1
    remote := ⟨.v4 10 0 0 1, 4000⟩
    dejitter := 0 }

def acts : List Act :=
  [.call (.start (request "ua-a".toList) 0), .call (.remove ⟨0, 0⟩),
    .call (.start (request "ua-b".toList) 0), .hear ⟨0, 0⟩ { target := 0 } 5]

end ReusedSlot

open ReusedSlot in
/-- The second stream of the slot is open, and the handle of the first one is stale. -/
theorem handles_once_reusedSlot :
    let start := (empty 1 ⟨7070, 7073⟩ [], ({} : Network))
    let after := fun k => (acts.take k).foldl act start
    (∀ slot, closings slot start acts < UInt32.size) ∧ ((after 1).1.get? ⟨0, 0⟩).isSome ∧
      ((after 4).1.get? ⟨0, 1⟩).isSome ∧ (after 4).1.Stale ⟨0, 0⟩ := by
  intro start after
  have hfew : ∀ slot, closings slot start acts < UInt32.size := fun slot =>
    Nat.lt_of_le_of_lt (closings_le_length slot start acts) (by decide)
  have hfirst : ((after 1).1.get? ⟨0, 0⟩).isSome := by decide +kernel
  have hsecond : ((after 4).1.get? ⟨0, 1⟩).isSome := by decide +kernel
  have hgone : ((after 1).1.remove (after 1).2 ⟨0, 0⟩).1.isSome := by decide +kernel
  exact ⟨hfew, hfirst, hsecond,
    ((run_handles_once 1 ⟨7070, 7073⟩ [] {} acts).1 hfew).1 1 4 ⟨0, 0⟩ rfl hgone (by decide)⟩

end StreamTable

end BorderProxy
