import BorderProxy.Proofs.StreamTable.Invariant

/-! Opposite streams. A note of an opposite always names another open stream, of the same section of the
same call, that was opened for the other party in the other direction. So where a section has two such
streams and no further one, looking for the opposite of either gives the other. -/

namespace BorderProxy

namespace StreamKey

theorem opposes_iff {a b : StreamKey} : a.opposes b = true ↔
    a.callId = b.callId ∧ a.sectionIndex = b.sectionIndex ∧ a.direction = b.direction.opposite ∧
      a.client ≠ b.client := by
  simp [opposes, and_assoc]

theorem opposes_symm {a b : StreamKey} (h : a.opposes b = true) : b.opposes a = true := by
  obtain ⟨hcall, hsection, hdirection, hclient⟩ := opposes_iff.mp h
  refine opposes_iff.mpr ⟨hcall.symm, hsection.symm, ?_, hclient.symm⟩
  rw [hdirection, Direction.opposite_opposite]

theorem not_opposes_self (k : StreamKey) : k.opposes k = false := by
  simp [opposes]

end StreamKey

namespace StreamTable

/-- Every note of an opposite names an open stream that is one. -/
def PeersOppose (t : StreamTable) : Prop :=
  ∀ h s p, t.get? h = some s → s.peer = some p → ∃ r, t.get? p = some r ∧ r.key.opposes s.key = true

theorem peersOppose_empty (capacity : Nat) (range : PortRange) (devices : List (Ip × Text)) :
    (empty capacity range devices).PeersOppose := by
  intro h s p hs
  have hget := (get?_eq_some_iff.mp hs).2
  simp [empty] at hget

variable {t : StreamTable}

theorem key_get?_modify (h : StreamRef) {p : StreamRef} (change : Stream → Stream)
    (hkey : ∀ s : Stream, (change s).key = s.key) {r : Stream} (hr : t.get? p = some r) :
    ∃ r', (t.modify h change).get? p = some r' ∧ r'.key = r.key := by
  rw [get?_modify]
  by_cases hp : p = h
  · subst hp
    exact ⟨change r, by simp [hr], hkey r⟩
  · exact ⟨r, by rw [if_neg hp, hr], rfl⟩

/-- Notes stay right where streams change in other things than their keys and notes. -/
theorem PeersOppose.modify (ht : t.PeersOppose) (h : StreamRef) {change : Stream → Stream}
    (hchange : ∀ s : Stream, (change s).key = s.key ∧ (change s).peer = s.peer) :
    (t.modify h change).PeersOppose := by
  intro g s p hs hp
  obtain ⟨old, hold, hkey, hpeer⟩ :
      ∃ old, t.get? g = some old ∧ s.key = old.key ∧ s.peer = old.peer := by
    rw [get?_modify] at hs
    split at hs
    · rename_i hg
      subst hg
      obtain ⟨old, hold, rfl⟩ := Option.map_eq_some_iff.mp hs
      exact ⟨old, hold, hchange old⟩
    · exact ⟨s, hs, rfl, rfl⟩
  rw [hpeer] at hp
  obtain ⟨r, hr, hopposes⟩ := ht g old p hold hp
  obtain ⟨r', hr', hrkey⟩ := key_get?_modify h change (fun s => (hchange s).1) hr
  exact ⟨r', hr', by rw [hrkey, hkey]; exact hopposes⟩

/-- A stream may be noted with its opposite, and any note may be dropped. -/
theorem PeersOppose.withPeer (ht : t.PeersOppose) {h : StreamRef} {s : Stream} (hs : t.get? h = some s)
    {peer : Option StreamRef}
    (hpeer : ∀ p, peer = some p → ∃ r, t.get? p = some r ∧ r.key.opposes s.key = true) :
    (t.modify h (Stream.withPeer peer)).PeersOppose := by
  intro g u p hu hp
  obtain ⟨r, hr, hopposes⟩ : ∃ r, t.get? p = some r ∧ r.key.opposes u.key = true := by
    rw [get?_modify] at hu
    split at hu
    · rw [hs] at hu
      cases hu
      exact hpeer p hp
    · exact ht g u p hu hp
  obtain ⟨r', hr', hrkey⟩ := key_get?_modify h (Stream.withPeer peer) (fun _ => rfl) hr
  exact ⟨r', hr', by rw [hrkey]; exact hopposes⟩

/-- What is found as an opposite is an open stream other than the given one. -/
theorem opposite_of_find? (haligned : t.Aligned) {h p : StreamRef} {key : StreamKey}
    (hfind : t.find? (fun candidate other => candidate != h && other.key.opposes key) = some p) :
    p ≠ h ∧ ∃ r, t.get? p = some r ∧ r.key.opposes key = true := by
  obtain ⟨⟨candidate, r⟩, hfound, rfl⟩ := Option.map_eq_some_iff.mp hfind
  have hr := haligned.mem_entries_iff.mp (List.mem_of_find?_eq_some hfound)
  have hopposes := List.find?_some hfound
  simp only [Bool.and_eq_true, bne_iff_ne] at hopposes
  exact ⟨hopposes.1, r, hr, hopposes.2⟩

/-- What looking for the opposite of a stream gives, and what it does to a table whose notes name
opposites. -/
inductive Linked (t : StreamTable) (h : StreamRef) : Option StreamRef × StreamTable → Prop
  | stale (hstale : t.get? h = none) : Linked t h (none, t)
  | noted (s : Stream) (p : StreamRef) (hs : t.get? h = some s) (hpeer : s.peer = some p) :
      Linked t h (some p, t)
  | alone (s : Stream) (hs : t.get? h = some s) (hpeer : s.peer = none)
      (hnone : ∀ g r, t.get? g = some r → g ≠ h → r.key.opposes s.key = false) :
      Linked t h (none, t.modify h (Stream.withPeer none))
  | found (s r : Stream) (p : StreamRef) (hs : t.get? h = some s) (hpeer : s.peer = none)
      (hne : p ≠ h) (hr : t.get? p = some r) (hopposes : r.key.opposes s.key = true) :
      Linked t h (some p,
        (t.modify h (Stream.withPeer (some p))).modify p (Stream.withPeer (some h)))

theorem PeersOppose.linked (ht : t.PeersOppose) (haligned : t.Aligned) (h : StreamRef) :
    t.Linked h (t.linkPeer h) := by
  unfold StreamTable.linkPeer
  cases hs : t.get? h with
  | none => exact .stale hs
  | some s =>
      dsimp only
      cases hpeer : s.peer with
      | some p =>
          obtain ⟨r, hr, -⟩ := ht h s p hs hpeer
          simp only [Option.filter_some, hr, Option.isSome_some, if_true]
          exact .noted s p hs hpeer
      | none =>
          simp only [Option.filter_none]
          cases hfind : t.find? fun candidate other => candidate != h && other.key.opposes s.key with
          | none =>
              refine .alone s hs hpeer fun g r hr hne => ?_
              have hnone := List.find?_eq_none.mp (Option.map_eq_none_iff.mp hfind) (g, r)
                (haligned.mem_entries_iff.mpr hr)
              simpa [hne] using hnone
          | some p =>
              obtain ⟨hne, r, hr, hopposes⟩ := opposite_of_find? haligned hfind
              exact .found s r p hs hpeer hne hr hopposes

theorem PeersOppose.linkPeer (ht : t.PeersOppose) (haligned : t.Aligned) (h : StreamRef) :
    (t.linkPeer h).2.PeersOppose := by
  have hlinked := ht.linked haligned h
  generalize t.linkPeer h = result at hlinked ⊢
  cases hlinked with
  | stale hstale => exact ht
  | noted s p hs hpeer => exact ht
  | alone s hs hpeer hnone => exact ht.withPeer hs nofun
  | found s r p hs hpeer hne hr hopposes =>
      have hnoted : (t.modify h (Stream.withPeer (some p))).PeersOppose := by
        refine ht.withPeer hs fun q hq => ?_
        obtain rfl := Option.some.inj hq
        exact ⟨r, hr, hopposes⟩
      have hother : (t.modify h (Stream.withPeer (some p))).get? p = some r := by
        rw [get?_modify, if_neg hne, hr]
      refine hnoted.withPeer hother fun q hq => ?_
      obtain rfl := Option.some.inj hq
      exact ⟨s.withPeer (some p), by rw [get?_modify, if_pos rfl, hs]; rfl,
        StreamKey.opposes_symm hopposes⟩

theorem peer_forgetPeer {h p : StreamRef} {s : Stream} (hp : (forgetPeer h s).peer = some p) :
    p ≠ h ∧ s.peer = some p := by
  unfold forgetPeer at hp
  split at hp
  · cases hp
  · rename_i hne
    exact ⟨fun heq => hne (heq ▸ hp), hp⟩

theorem PeersOppose.remove (ht : t.PeersOppose) (network : Network) (h : StreamRef) :
    (t.remove network h).2.1.PeersOppose := by
  cases hopen : t.get? h with
  | none =>
      rw [remove_of_stale hopen]
      exact ht
  | some closed =>
      intro g s p hs hp
      rw [get?_remove hopen] at hs
      split at hs
      · cases hs
      · obtain ⟨old, hold, rfl⟩ := Option.map_eq_some_iff.mp hs
        obtain ⟨hne, hpeer⟩ := peer_forgetPeer hp
        obtain ⟨r, hr, hopposes⟩ := ht g old p hold hpeer
        refine ⟨forgetPeer h r, by rw [get?_remove hopen, if_neg hne, hr]; rfl, ?_⟩
        rw [← (samePlace_forgetPeer h r).1, ← (samePlace_forgetPeer h old).1]
        exact hopposes

section Insertion

variable (hslots : t.arena.WellFormed) {new : Stream} {index cursor : Nat} {arena : Arena Stream}
  (hslot : t.arena.insert? new = some (index, arena)) {g : StreamRef} {u : Stream}

include hslots hslot

/-- Where a slot was empty, the larger table has no other stream than the new one and the old ones. -/
theorem get?_of_insert (hu : ({ t with arena := arena, cursor := cursor } : StreamTable).get? g = some u) :
    new = u ∨ t.get? g = some u := by
  obtain ⟨hgeneration, hget⟩ := get?_eq_some_iff.mp hu
  have hafter : arena.get? g.index = some u := hget
  rw [(hslots.get?_insert? hslot g.index).2] at hafter
  split at hafter
  · exact .inl (Option.some.inj hafter)
  · exact .inr (get?_eq_some_iff.mpr ⟨hgeneration, hafter⟩)

theorem get?_insert_of_get? (hu : t.get? g = some u) :
    ({ t with arena := arena, cursor := cursor } : StreamTable).get? g = some u := by
  obtain ⟨hgeneration, hget⟩ := get?_eq_some_iff.mp hu
  obtain ⟨hempty, hafter⟩ := hslots.get?_insert? hslot g.index
  have hne : g.index ≠ index := by
    intro heq
    rw [heq, hempty] at hget
    cases hget
  rw [if_neg hne] at hafter
  exact get?_eq_some_iff.mpr ⟨hgeneration, hafter.trans hget⟩

/-- The new stream is found under the handle that its slot had already. -/
theorem get?_insert_handleAt (haligned : t.Aligned) :
    ({ t with arena := arena, cursor := cursor } : StreamTable).get? (t.handleAt index) = some new := by
  obtain ⟨-, hafter⟩ := hslots.get?_insert? hslot index
  rw [if_pos rfl] at hafter
  have hlarger : ({ t with arena := arena, cursor := cursor } : StreamTable).Aligned := by
    rw [Aligned, Arena.length_slots_insert? hslot]
    exact haligned
  exact hlarger.get?_handleAt hafter

end Insertion

/-- The streams of the larger table are the new one, which has no note, and the old ones. -/
theorem PeersOppose.insert (ht : t.PeersOppose) (hslots : t.arena.WellFormed) {s : Stream}
    (hpeer : s.peer = none) {index cursor : Nat} {arena : Arena Stream}
    (hslot : t.arena.insert? s = some (index, arena)) :
    ({ t with arena := arena, cursor := cursor } : StreamTable).PeersOppose := by
  intro g u p hu hp
  rcases get?_of_insert hslots hslot hu with rfl | hold
  · rw [hpeer] at hp
    cases hp
  · obtain ⟨r, hr, hopposes⟩ := ht g u p hold hp
    exact ⟨r, get?_insert_of_get? hslots hslot hr, hopposes⟩

theorem PeersOppose.start (ht : t.PeersOppose) (hslots : t.arena.WellFormed) (network : Network)
    (request : StreamRequest) (now : Instant) : (t.start network request now).2.1.PeersOppose := by
  have hstarted := t.started network request now
  generalize t.start network request now = result at hstarted ⊢
  cases hstarted with
  | refreshed h s hfind => exact ht.modify h fun _ => ⟨rfl, rfl⟩
  | full hnew hfree => exact ht
  | exhausted hnew hopen => exact ht
  | unwatched fault cursor hnew => exact ht
  | opened index port arena cursor hnew hport hslot => exact ht.insert hslots rfl hslot

theorem ne_of_opposes {a b : StreamRef} {s r : Stream} (hs : t.get? a = some s) (hr : t.get? b = some r)
    (hopposes : s.key.opposes r.key = true) : a ≠ b := by
  rintro rfl
  rw [hs] at hr
  cases hr
  rw [StreamKey.not_opposes_self] at hopposes
  cases hopposes

/-- The opposite of a stream is the one that opposes it, where the call has no further stream of the
section. -/
theorem PeersOppose.linkPeer_eq (ht : t.PeersOppose) (haligned : t.Aligned) {a b : StreamRef}
    {s r : Stream} (hs : t.get? a = some s) (hr : t.get? b = some r)
    (hopposes : s.key.opposes r.key = true)
    (honly : ∀ g u, t.get? g = some u → u.key.callId = s.key.callId →
      u.key.sectionIndex = s.key.sectionIndex → g = a ∨ g = b) : (t.linkPeer a).1 = some b := by
  -- Whatever opposes the stream is not the stream itself, and so is the other one.
  have hother : ∀ {g u}, t.get? g = some u → u.key.opposes s.key = true → g = b := by
    intro g u hu hkey
    obtain ⟨hcall, hsection, -, -⟩ := StreamKey.opposes_iff.mp hkey
    exact (honly g u hu hcall hsection).resolve_left (ne_of_opposes hu hs hkey)
  have hlinked := ht.linked haligned a
  generalize t.linkPeer a = result at hlinked ⊢
  cases hlinked with
  | stale hstale =>
      rw [hstale] at hs
      cases hs
  | noted s' p hs' hpeer =>
      obtain ⟨u, hu, hkey⟩ := ht a s' p hs' hpeer
      rw [hs, Option.some.injEq] at hs'
      rw [hother hu (hs' ▸ hkey)]
  | alone s' hs' hpeer hnone =>
      rw [hs, Option.some.injEq] at hs'
      have hnot := hnone b r hr (ne_of_opposes hs hr hopposes).symm
      rw [← hs', StreamKey.opposes_symm hopposes] at hnot
      cases hnot
  | found s' u p hs' hpeer hne hu hkey =>
      rw [hs, Option.some.injEq] at hs'
      rw [hother hu (hs' ▸ hkey)]

end StreamTable

end BorderProxy
