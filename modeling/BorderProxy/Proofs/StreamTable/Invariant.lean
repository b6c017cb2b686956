import Mathlib.Data.List.Basic
import BorderProxy.Proofs.StreamTable.Opening

/-! What holds of a table of streams after every run of its operations. No two open streams have one key;
each has a pair of ports inside the range that begins like the range does, and two streams on one address
have no port in common; the stack holds the empty slots, each once; and the sockets that are open are
those of the open streams. -/

namespace BorderProxy

/-- Both sockets of a stream. -/
def Stream.sources (s : Stream) : List Endpoint := [s.source .rtp, s.source .rtcp]

/-- Two streams, or one stream at two times, with the same key on the same pair of ports. -/
def Stream.SamePlace (s r : Stream) : Prop :=
  s.key = r.key ∧ s.localIp = r.localIp ∧ s.rtpPort = r.rtpPort

theorem Stream.SamePlace.sources {s r : Stream} (h : s.SamePlace r) : s.sources = r.sources := by
  obtain ⟨-, hip, hport⟩ := h
  simp [Stream.sources, Stream.source, hip, hport]

/-- A port with which a pair of the range begins. -/
structure PortRange.Fits (range : PortRange) (port : UInt16) : Prop where
  parity : port.toNat % 2 = range.min.toNat % 2
  min_le : range.min.toNat ≤ port.toNat
  le_max : port.toNat + 1 ≤ range.max.toNat

namespace StreamTable

theorem toNat_portOfPair {range : PortRange} {pair : Nat} (h : pair < range.pairs) :
    (portOfPair range pair).toNat = range.min.toNat + 2 * pair := by
  have hmax := range.max.toNat_lt
  unfold PortRange.pairs at h
  split at h
  · omega
  · have hpair : 2 * pair + 1 ≤ range.max.toNat - range.min.toNat := by omega
    rw [portOfPair, UInt16.toNat_add, UInt16.toNat_mul, UInt16.toNat_ofNat']
    simp only [UInt16.reduceToNat]
    omega

theorem Available.fits {t : StreamTable} {ip : Ip} {port : UInt16} (h : t.Available ip port) :
    t.range.Fits port := by
  obtain ⟨pair, hpair, rfl⟩ := h.pair
  have hport := toNat_portOfPair hpair
  exact ⟨by omega, by omega, h.inRange⟩

/-- The sockets of the open streams. -/
def sockets (t : StreamTable) : List Endpoint := t.entries.flatMap fun e => e.2.sources

theorem sockets_eq (t : StreamTable) :
    t.sockets = t.arena.entries.flatMap fun e => e.2.sources := by
  simp [sockets, entries, List.flatMap_map]

/-- What every operation on a table keeps. -/
structure Sound (t : StreamTable) : Prop where
  slots : t.arena.WellFormed
  aligned : t.Aligned
  keys : ∀ {i j s r}, t.arena.get? i = some s → t.arena.get? j = some r → s.key = r.key → i = j
  stored : ∀ {i s}, t.arena.get? i = some s → storedKey s.key = s.key
  ports : ∀ {i s}, t.arena.get? i = some s → t.range.Fits s.rtpPort
  exclusive : ∀ {i j s r}, t.arena.get? i = some s → t.arena.get? j = some r →
    s.localIp = r.localIp → s.rtpPort = r.rtpPort → i = j

theorem sound_empty (capacity : Nat) (range : PortRange) (devices : List (Ip × Text)) :
    (empty capacity range devices).Sound where
  slots := Arena.wellFormed_empty capacity
  aligned := aligned_empty capacity range devices
  keys h := by simp [empty] at h
  stored h := by simp [empty] at h
  ports h := by simp [empty] at h
  exclusive h := by simp [empty] at h

/-- A table whose streams all were in their places before is as sound as it was before. -/
theorem Sound.of_places {t u : StreamTable} (ht : t.Sound) (hslots : u.arena.WellFormed)
    (haligned : u.Aligned) (hrange : u.range = t.range)
    (hplaces : ∀ {i s}, u.arena.get? i = some s → ∃ r, t.arena.get? i = some r ∧ r.SamePlace s) :
    u.Sound where
  slots := hslots
  aligned := haligned
  keys hi hj hkey := by
    obtain ⟨s, hs, hsame, -⟩ := hplaces hi
    obtain ⟨r, hr, hsame', -⟩ := hplaces hj
    exact ht.keys hs hr (by rw [hsame, hsame', hkey])
  stored hi := by
    obtain ⟨s, hs, hsame, -⟩ := hplaces hi
    rw [← hsame]
    exact ht.stored hs
  ports hi := by
    obtain ⟨s, hs, -, -, hsame⟩ := hplaces hi
    rw [hrange, ← hsame]
    exact ht.ports hs
  exclusive hi hj hip hport := by
    obtain ⟨s, hs, -, hips, hports⟩ := hplaces hi
    obtain ⟨r, hr, -, hipr, hportr⟩ := hplaces hj
    exact ht.exclusive hs hr (by rw [hips, hipr, hip]) (by rw [hports, hportr, hport])

theorem Sound.with_cursor {t : StreamTable} (ht : t.Sound) (cursor : Nat) :
    ({ t with cursor := cursor } : StreamTable).Sound :=
  ⟨ht.slots, ht.aligned, ht.keys, ht.stored, ht.ports, ht.exclusive⟩

theorem places_modify {t : StreamTable} (h : StreamRef) {change : Stream → Stream}
    (hchange : ∀ s : Stream, s.SamePlace (change s)) {i : Nat} {s : Stream}
    (hs : (t.modify h change).arena.get? i = some s) :
    ∃ r, t.arena.get? i = some r ∧ r.SamePlace s := by
  unfold StreamTable.modify at hs
  split at hs
  · simp only [Arena.get?_modify] at hs
    split at hs
    · rename_i heq
      subst heq
      obtain ⟨r, hr, rfl⟩ := Option.map_eq_some_iff.mp hs
      exact ⟨r, hr, hchange r⟩
    · exact ⟨s, hs, rfl, rfl, rfl⟩
  · exact ⟨s, hs, rfl, rfl, rfl⟩

theorem Sound.modify {t : StreamTable} (ht : t.Sound) (h : StreamRef) {change : Stream → Stream}
    (hchange : ∀ s : Stream, s.SamePlace (change s)) : (t.modify h change).Sound := by
  have hplaces := fun {i s} => places_modify (t := t) h hchange (i := i) (s := s)
  unfold StreamTable.modify at hplaces ⊢
  split
  · rename_i hopen
    rw [if_pos hopen] at hplaces
    refine ht.of_places (ht.slots.modify _ _) ?_ rfl hplaces
    simp only [Aligned, Arena.length_slots_modify]
    exact ht.aligned
  · exact ht

theorem sockets_modify (t : StreamTable) (h : StreamRef) {change : Stream → Stream}
    (hchange : ∀ s : Stream, s.SamePlace (change s)) : (t.modify h change).sockets.Perm t.sockets := by
  unfold StreamTable.modify
  cases hs : t.get? h with
  | none => simp
  | some s =>
      have hget := (get?_eq_some_iff.mp hs).2
      simp only [Option.isSome_some, if_true, sockets_eq]
      apply ((Arena.entries_modify hget change).flatMap_right _).trans
      refine List.Perm.trans ?_ ((Arena.entries_erase hget).flatMap_right _).symm
      simp [← (hchange s).sources]

theorem Sound.linkPeer {t : StreamTable} (ht : t.Sound) (h : StreamRef) :
    (t.linkPeer h).2.Sound :=
  linkPeer_keeps (fun _ r _ hu => hu.modify r fun _ => ⟨rfl, rfl, rfl⟩) t h ht

theorem sockets_linkPeer (t : StreamTable) (h : StreamRef) :
    (t.linkPeer h).2.sockets.Perm t.sockets :=
  linkPeer_keeps (P := fun u => u.sockets.Perm t.sockets)
    (fun u r peer hu =>
      (sockets_modify u r fun s => (⟨rfl, rfl, rfl⟩ : s.SamePlace (s.withPeer peer))).trans hu)
    t h (List.Perm.refl _)

theorem samePlace_forgetPeer (h : StreamRef) (s : Stream) : s.SamePlace (forgetPeer h s) := by
  unfold forgetPeer
  split <;> exact ⟨rfl, rfl, rfl⟩

theorem places_remove {t : StreamTable} (network : Network) (h : StreamRef) {i : Nat} {s : Stream}
    (hs : (t.remove network h).2.1.arena.get? i = some s) :
    ∃ r, t.arena.get? i = some r ∧ r.SamePlace s := by
  unfold StreamTable.remove at hs
  split at hs
  · exact ⟨s, hs, rfl, rfl, rfl⟩
  · simp only [Arena.get?_map, Arena.get?_erase] at hs
    obtain ⟨r, hr, rfl⟩ := Option.map_eq_some_iff.mp hs
    split at hr
    · cases hr
    · exact ⟨r, hr, samePlace_forgetPeer h r⟩

theorem Sound.remove {t : StreamTable} (ht : t.Sound) (network : Network) (h : StreamRef) :
    (t.remove network h).2.1.Sound := by
  have hplaces := fun {i s} => places_remove (t := t) network h (i := i) (s := s)
  unfold StreamTable.remove at hplaces ⊢
  split
  · exact ht
  · rename_i stream hs
    simp only [hs] at hplaces
    refine ht.of_places ((ht.slots.erase _).map _) ?_ rfl hplaces
    simp [Aligned, Arena.map, show t.generations.length = _ from ht.aligned]

/-- Removing a stream closes its two sockets and no others. -/
theorem held_remove {t : StreamTable} {network : Network} {others : List Endpoint}
    (hheld : network.held.Perm (t.sockets ++ others)) (h : StreamRef) :
    (t.remove network h).2.2.held.Perm ((t.remove network h).2.1.sockets ++ others) := by
  cases hs : t.get? h with
  | none => rwa [remove_of_stale hs]
  | some s =>
      have hget := (get?_eq_some_iff.mp hs).2
      have hbefore : t.sockets.Perm
          (s.sources ++ (t.arena.erase h.index).entries.flatMap fun e => e.2.sources) := by
        rw [sockets_eq]
        exact (Arena.entries_erase hget).flatMap_right _
      unfold remove
      rw [hs]
      simp only [releasePorts, Network.release, sockets_eq, Arena.entries_map, List.flatMap_map]
      have hsources : ∀ e : Nat × Stream, (forgetPeer h e.2).sources = e.2.sources := fun e =>
        (samePlace_forgetPeer h e.2).sources.symm
      simp only [hsources]
      have hall := hheld.trans (hbefore.append_right others)
      have hrtp := hall.erase (s.source .rtp)
      have hboth := hrtp.erase (s.source .rtcp)
      simpa [Stream.sources] using hboth

theorem mem_entries_of_get? {t : StreamTable} {i : Nat} {s : Stream}
    (h : t.arena.get? i = some s) : (t.handleAt i, s) ∈ t.entries := by
  unfold entries
  exact List.mem_map.mpr ⟨(i, s), Arena.mem_entries_iff.mpr h, rfl⟩

theorem Available.unused_of_get? {t : StreamTable} {ip : Ip} {port : UInt16}
    (h : t.Available ip port) {i : Nat} {s : Stream} (hs : t.arena.get? i = some s)
    (hip : s.localIp = ip) : s.rtpPort ≠ port := by
  intro hport
  have hunused := h.unused
  rw [usesPort, List.any_eq_false] at hunused
  exact hunused _ (mem_entries_of_get? hs) (by simp [hip, hport])

/-- A stream with a new key on a pair that no other uses keeps a table sound. -/
theorem Sound.insert {t : StreamTable} (ht : t.Sound) {request : StreamRequest} {now : Instant}
    {port : UInt16} {index cursor : Nat} {arena : Arena Stream}
    (hnew : ∀ e ∈ t.entries, e.2.key ≠ storedKey request.key)
    (hport : t.Available request.localIp port)
    (hslot : t.arena.insert? (newStream (storedKey request.key) request port now) =
      some (index, arena)) :
    ({ t with arena := arena, cursor := cursor } : StreamTable).Sound := by
  have hget := fun i => (ht.slots.get?_insert? hslot i).2
  -- A stream of the larger table is the new one in its slot, or an old one.
  have hcases : ∀ {i s}, arena.get? i = some s →
      (i = index ∧ newStream (storedKey request.key) request port now = s) ∨
        t.arena.get? i = some s := by
    intro i s hi
    rw [hget] at hi
    split at hi
    · rename_i heq
      exact .inl ⟨heq, Option.some.inj hi⟩
    · exact .inr hi
  have hkey : ∀ {i s}, t.arena.get? i = some s → s.key ≠ storedKey request.key :=
    fun hs => hnew _ (mem_entries_of_get? hs)
  refine ⟨ht.slots.insert? hslot, ?_, ?_, ?_, ?_, ?_⟩
  · rw [Aligned, Arena.length_slots_insert? hslot]
    exact ht.aligned
  · intro i j s r hi hj heq
    rcases hcases hi with ⟨rfl, rfl⟩ | hs
    · rcases hcases hj with ⟨rfl, rfl⟩ | hr
      · rfl
      · exact absurd heq.symm (hkey hr)
    · rcases hcases hj with ⟨rfl, rfl⟩ | hr
      · exact absurd heq (hkey hs)
      · exact ht.keys hs hr heq
  · intro i s hi
    rcases hcases hi with ⟨rfl, rfl⟩ | hs
    · simp [newStream, storedKey, cutIdentifier_idem]
    · exact ht.stored hs
  · intro i s hi
    rcases hcases hi with ⟨rfl, rfl⟩ | hs
    · exact hport.fits
    · exact ht.ports hs
  · intro i j s r hi hj hip heq
    rcases hcases hi with ⟨rfl, rfl⟩ | hs
    · rcases hcases hj with ⟨rfl, rfl⟩ | hr
      · rfl
      · exact absurd heq.symm (hport.unused_of_get? hr hip.symm)
    · rcases hcases hj with ⟨rfl, rfl⟩ | hr
      · exact absurd heq (hport.unused_of_get? hs hip)
      · exact ht.exclusive hs hr hip heq

theorem Sound.start {t : StreamTable} (ht : t.Sound) (network : Network) (request : StreamRequest)
    (now : Instant) : (t.start network request now).2.1.Sound := by
  have hstarted := t.started network request now
  generalize t.start network request now = result at hstarted ⊢
  cases hstarted with
  | refreshed h s hfind => exact ht.modify h fun _ => ⟨rfl, rfl, rfl⟩
  | full hnew hfree => exact ht
  | exhausted hnew hopen => exact ht
  | unwatched fault cursor hnew => exact ht.with_cursor cursor
  | opened index port arena cursor hnew hport hslot => exact ht.insert hnew hport hslot

/-- Opening a stream opens its two sockets; a refreshed stream keeps those it has, and a request that
fails opens none. -/
theorem held_start {t : StreamTable} (ht : t.Sound) {network : Network} {others : List Endpoint}
    (hheld : network.held.Perm (t.sockets ++ others)) (request : StreamRequest) (now : Instant) :
    (t.start network request now).2.2.held.Perm
      ((t.start network request now).2.1.sockets ++ others) := by
  have hstarted := t.started network request now
  generalize t.start network request now = result at hstarted ⊢
  cases hstarted with
  | refreshed h s hfind =>
      have hsockets := sockets_modify t h fun s =>
        (⟨rfl, rfl, rfl⟩ : s.SamePlace (refresh request now s))
      exact hheld.trans (hsockets.symm.append_right others)
  | full hnew hfree => exact hheld
  | exhausted hnew hopen => exact hheld
  | unwatched fault cursor hnew => exact hheld
  | opened index port arena cursor hnew hport hslot =>
      have hentries := (ht.slots.entries_insert? hslot).flatMap_right fun e => e.2.sources
      have hsockets := hentries.append_right others
      simp only [sockets_eq] at hheld ⊢
      refine List.Perm.trans ?_ hsockets.symm
      calc ((network.hold ⟨request.localIp, port⟩).hold ⟨request.localIp, port + 1⟩).held
          = ⟨request.localIp, port + 1⟩ :: ⟨request.localIp, port⟩ :: network.held := rfl
        List.Perm _ (⟨request.localIp, port⟩ :: ⟨request.localIp, port + 1⟩ :: network.held) :=
          List.Perm.swap _ _ _
        List.Perm _ (⟨request.localIp, port⟩ :: ⟨request.localIp, port + 1⟩ ::
            ((t.arena.entries.flatMap fun e => e.2.sources) ++ others)) :=
          (hheld.cons _).cons _

end StreamTable

end BorderProxy
