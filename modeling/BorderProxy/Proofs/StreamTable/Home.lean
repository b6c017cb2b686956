import BorderProxy.Proofs.StreamTable.Peers

/-! Where streams are found. Streams of one direction are all opened on one address, the home of that
direction; a stream that was opened for a key stays in its place until it is removed, and it is pointed
elsewhere only by a request with that key. -/

namespace BorderProxy.StreamTable

/-- What survives the search for opposites, changes of other things than places, opposites and remote
parties, and the removal of streams. -/
structure Lasting (P : StreamTable → Prop) : Prop where
  modify : ∀ {t : StreamTable} (h : StreamRef) {change : Stream → Stream},
    (∀ s : Stream, s.SamePlace (change s) ∧ (change s).peer = s.peer ∧ (change s).remote = s.remote) →
      P t → P (t.modify h change)
  linkPeer : ∀ {t : StreamTable} (h : StreamRef), P t → P (t.linkPeer h).2
  remove : ∀ {t : StreamTable} (network : Network) (h : StreamRef), P t → P (t.remove network h).2.1

/-- A sound table whose streams are opened at the homes of their directions, and noted with none but
their opposites. -/
structure Settled (home : Direction → Ip) (t : StreamTable) : Prop where
  sound : t.Sound
  home : ∀ {i s}, t.arena.get? i = some s → s.localIp = home s.key.direction
  peers : t.PeersOppose

variable {home : Direction → Ip} {t : StreamTable}

theorem settled_empty (home : Direction → Ip) (capacity : Nat) (range : PortRange)
    (devices : List (Ip × Text)) : (empty capacity range devices).Settled home where
  sound := sound_empty capacity range devices
  home h := by simp [empty] at h
  peers := peersOppose_empty capacity range devices

theorem home_of_place {r s : Stream} (hr : r.localIp = home r.key.direction) (hplace : r.SamePlace s) :
    s.localIp = home s.key.direction := by
  obtain ⟨hkey, hip, -⟩ := hplace
  rw [← hip, ← hkey]
  exact hr

theorem home_modify (hhome : ∀ i s, t.arena.get? i = some s → s.localIp = home s.key.direction)
    (h : StreamRef) {change : Stream → Stream} (hchange : ∀ s : Stream, s.SamePlace (change s)) (i : Nat)
    (s : Stream) (hs : (t.modify h change).arena.get? i = some s) :
    s.localIp = home s.key.direction := by
  obtain ⟨r, hr, hplace⟩ := places_modify h hchange hs
  exact home_of_place (hhome i r hr) hplace

theorem lasting_settled (home : Direction → Ip) : Lasting (Settled home) where
  modify h _ hchange ht :=
    ⟨ht.sound.modify h fun s => (hchange s).1,
      fun {i s} => home_modify (fun _ _ => ht.home) h (fun s => (hchange s).1) i s,
      ht.peers.modify h fun s => ⟨(hchange s).1.1.symm, (hchange s).2.1⟩⟩
  linkPeer {t} h ht := by
    have hhome := linkPeer_keeps
      (P := fun u => ∀ i s, u.arena.get? i = some s → s.localIp = home s.key.direction)
      (fun _ r peer hu => home_modify hu r fun s => (⟨rfl, rfl, rfl⟩ : s.SamePlace (s.withPeer peer)))
      t h fun _ _ => ht.home
    exact ⟨ht.sound.linkPeer h, fun {i s} => hhome i s, ht.peers.linkPeer ht.sound.aligned h⟩
  remove network h ht := by
    refine ⟨ht.sound.remove network h, fun hs => ?_, ht.peers.remove network h⟩
    obtain ⟨r, hr, hplace⟩ := places_remove network h hs
    exact home_of_place (ht.home hr) hplace

/-- A request opens its stream at the home of its direction. -/
def AtHome (home : Direction → Ip) (request : StreamRequest) : Prop :=
  request.localIp = home request.key.direction

theorem Settled.start (ht : t.Settled home) (network : Network) {request : StreamRequest}
    (hrequest : AtHome home request) (now : Instant) : (t.start network request now).2.1.Settled home := by
  refine ⟨ht.sound.start network request now, ?_, ht.peers.start ht.sound.slots network request now⟩
  have hstarted := t.started network request now
  generalize t.start network request now = result at hstarted ⊢
  cases hstarted with
  | refreshed h s hfind =>
      exact fun {i r} => home_modify (fun _ _ => ht.home) h
        (fun r => (⟨rfl, rfl, rfl⟩ : r.SamePlace (refresh request now r))) i r
  | full hnew hfree => exact fun {_ _} hs => ht.home hs
  | exhausted hnew hopen => exact fun {_ _} hs => ht.home hs
  | unwatched fault cursor hnew => exact fun {_ _} hs => ht.home hs
  | opened index port arena cursor hnew hport hslot =>
      intro i s hs
      have hget := (ht.sound.slots.get?_insert? hslot i).2
      have hs' : arena.get? i = some s := hs
      rw [hget] at hs'
      split at hs'
      · rw [← Option.some.inj hs']
        exact hrequest
      · exact ht.home hs'

/-- An open stream stays open in its place, and with a key other than that of the request it stays as
it is. -/
theorem Sound.get?_start (ht : t.Sound) (network : Network) (request : StreamRequest) (now : Instant)
    {r : StreamRef} {s : Stream} (hs : t.get? r = some s) :
    ∃ s', (t.start network request now).2.1.get? r = some s' ∧ s.SamePlace s' ∧
      (s.key ≠ storedKey request.key → s' = s) := by
  have hstarted := t.started network request now
  generalize t.start network request now = result at hstarted ⊢
  cases hstarted with
  | refreshed h s₁ hfind =>
      have hh := ht.aligned.mem_entries_iff.mp (List.mem_of_find?_eq_some hfind)
      have hkey : s₁.key = storedKey request.key := by
        simpa using List.find?_some hfind
      dsimp only
      rw [get?_modify]
      by_cases hr : r = h
      · subst hr
        rw [hs, Option.some.injEq] at hh
        subst hh
        exact ⟨refresh request now s, by rw [if_pos rfl, hs]; rfl, ⟨rfl, rfl, rfl⟩,
          fun hne => absurd hkey hne⟩
      · exact ⟨s, by rw [if_neg hr, hs], ⟨rfl, rfl, rfl⟩, fun _ => rfl⟩
  | full hnew hfree => exact ⟨s, hs, ⟨rfl, rfl, rfl⟩, fun _ => rfl⟩
  | exhausted hnew hopen => exact ⟨s, hs, ⟨rfl, rfl, rfl⟩, fun _ => rfl⟩
  | unwatched fault cursor hnew => exact ⟨s, hs, ⟨rfl, rfl, rfl⟩, fun _ => rfl⟩
  | opened index port arena cursor hnew hport hslot =>
      exact ⟨s, get?_insert_of_get? ht.slots hslot hs, ⟨rfl, rfl, rfl⟩, fun _ => rfl⟩

/-- What is open under another key than that of the request was open before. -/
theorem Sound.get?_of_start (ht : t.Sound) (network : Network) (request : StreamRequest) (now : Instant)
    {r : StreamRef} {s : Stream} (hs : (t.start network request now).2.1.get? r = some s)
    (hkey : s.key ≠ storedKey request.key) : t.get? r = some s := by
  have hstarted := t.started network request now
  generalize t.start network request now = result at hstarted hs
  cases hstarted with
  | refreshed h old hfind =>
      have hold : old.key = storedKey request.key := by simpa using List.find?_some hfind
      have hget := ht.aligned.mem_entries_iff.mp (List.mem_of_find?_eq_some hfind)
      dsimp only at hs
      rw [get?_modify] at hs
      split at hs
      · rw [hget] at hs
        cases hs
        exact absurd hold hkey
      · exact hs
  | full hnew hfree => exact hs
  | exhausted hnew hopen => exact hs
  | unwatched fault cursor hnew => exact hs
  | opened index port arena cursor hnew hport hslot =>
      rcases get?_of_insert ht.slots hslot hs with rfl | hold
      · exact absurd rfl hkey
      · exact hold

/-- A table with an open stream for a request, on the pair that begins with a port. -/
def Serves (t : StreamTable) (request : StreamRequest) (port : UInt16) : Prop :=
  ∃ h s, t.get? h = some s ∧ s.key = storedKey request.key ∧ s.localIp = request.localIp ∧
    s.rtpPort = port ∧ s.remote = request.remote

/-- A request that is granted is served on the port that it is told. -/
theorem Settled.serves_start (ht : t.Settled home) (network : Network) {request : StreamRequest}
    (hrequest : AtHome home request) (now : Instant) {h : StreamRef} {port : UInt16}
    (hok : (t.start network request now).1 = .ok (h, port)) :
    (t.start network request now).2.1.Serves request port := by
  have hstarted := t.started network request now
  generalize t.start network request now = result at hstarted hok ⊢
  cases hstarted with
  | refreshed h₁ s hfind =>
      obtain ⟨rfl, rfl⟩ := Prod.mk.inj (Except.ok.inj hok)
      have hs := ht.sound.aligned.mem_entries_iff.mp (List.mem_of_find?_eq_some hfind)
      have hkey : s.key = storedKey request.key := by
        simpa using List.find?_some hfind
      refine ⟨h₁, refresh request now s, ?_, hkey, ?_, rfl, rfl⟩
      · dsimp only
        rw [get?_modify, if_pos rfl, hs]
        rfl
      · have hhome := ht.home (get?_eq_some_iff.mp hs).2
        rw [hkey] at hhome
        exact hhome.trans hrequest.symm
  | full hnew hfree => cases hok
  | exhausted hnew hopen => cases hok
  | unwatched fault cursor hnew => cases hok
  | opened index port₁ arena cursor hnew hport hslot =>
      obtain ⟨rfl, rfl⟩ := Prod.mk.inj (Except.ok.inj hok)
      exact ⟨_, _, get?_insert_handleAt ht.sound.slots hslot ht.sound.aligned, rfl, rfl, rfl, rfl⟩

theorem Serves.start {request other : StreamRequest} {port : UInt16} (h : t.Serves request port)
    (ht : t.Sound) (network : Network) (now : Instant)
    (hkey : storedKey request.key ≠ storedKey other.key) :
    (t.start network other now).2.1.Serves request port := by
  obtain ⟨r, s, hs, hrequest, hplace⟩ := h
  obtain ⟨s', hs', -, hsame⟩ := ht.get?_start network other now hs
  have heq := hsame (by rw [hrequest]; exact hkey)
  exact ⟨r, s', hs', by rw [heq]; exact hrequest, by rw [heq]; exact hplace⟩

/-- The pair of a request that is granted lies in the range. -/
theorem Serves.fits (ht : t.Sound) {request : StreamRequest} {port : UInt16} (h : t.Serves request port) :
    t.range.Fits port := by
  obtain ⟨r, s, hs, -, -, hport, -⟩ := h
  rw [← hport]
  exact ht.ports (get?_eq_some_iff.mp hs).2

end BorderProxy.StreamTable
