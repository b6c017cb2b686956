import BorderProxy.Proofs.StreamTable.Invariant

/-! Runs of a table of streams. Between two calls the network may change as it likes: endpoints become
busy, devices go away, sockets can no longer be watched. Only the sockets that are held stay the same. -/

namespace BorderProxy

namespace StreamTable

/-- A call of a table, or a change of the network between two calls. -/
inductive Call where
  | start (request : StreamRequest) (now : Instant)
  | remove (h : StreamRef)
  | linkPeer (h : StreamRef)
  | surroundings (network : Network)

/-- A table and the network after a call. -/
def call (state : StreamTable × Network) : Call → StreamTable × Network
  | .start request now => (state.1.start state.2 request now).2
  | .remove h => (state.1.remove state.2 h).2
  | .linkPeer h => ((state.1.linkPeer h).2, state.2)
  | .surroundings network => (state.1, { network with held := state.2.held })

/-- A table that keeps its slots, keys and ports in order, with just the sockets of its streams open beside
those of others. -/
structure Kept (range : PortRange) (others : List Endpoint) (t : StreamTable) (network : Network) :
    Prop where
  freeOnce : t.arena.free.Nodup
  free : ∀ i, i ∈ t.arena.free ↔ t.arena.slots[i]? = some none
  keys : ∀ i j s r, t.arena.get? i = some s → t.arena.get? j = some r → s.key = r.key → i = j
  cut : ∀ i s, t.arena.get? i = some s → s.key.client = cutIdentifier s.key.client
  ports : ∀ i s, t.arena.get? i = some s → range.Fits s.rtpPort
  disjoint : ∀ i j s r, t.arena.get? i = some s → t.arena.get? j = some r → i ≠ j →
    s.localIp = r.localIp →
      List.Disjoint [s.rtpPort.toNat, s.rtpPort.toNat + 1] [r.rtpPort.toNat, r.rtpPort.toNat + 1]
  held : network.held.Perm (t.sockets ++ others)

theorem range_call (state : StreamTable × Network) (c : Call) :
    (call state c).1.range = state.1.range := by
  cases c with
  | start request now =>
      have hstarted := state.1.started state.2 request now
      simp only [call]
      generalize state.1.start state.2 request now = result at hstarted ⊢
      cases hstarted <;> simp
  | remove h =>
      simp only [call, remove]
      split <;> rfl
  | linkPeer h =>
      exact linkPeer_keeps (P := fun u => u.range = state.1.range)
        (fun u r peer hu => (range_modify u r _).trans hu) _ h rfl
  | surroundings network => rfl

theorem sound_call {state : StreamTable × Network} (hs : state.1.Sound) (c : Call) :
    (call state c).1.Sound := by
  cases c with
  | start request now => exact hs.start state.2 request now
  | remove h => exact hs.remove state.2 h
  | linkPeer h => exact hs.linkPeer h
  | surroundings network => exact hs

theorem held_call {state : StreamTable × Network} {others : List Endpoint} (hs : state.1.Sound)
    (hheld : state.2.held.Perm (state.1.sockets ++ others)) (c : Call) :
    (call state c).2.held.Perm ((call state c).1.sockets ++ others) := by
  cases c with
  | start request now => exact held_start hs hheld request now
  | remove h => exact held_remove hheld h
  | linkPeer h => exact hheld.trans ((sockets_linkPeer state.1 h).symm.append_right others)
  | surroundings network => exact hheld

/-- Two ports that pairs of one range begin with are equal, or their pairs have no port in common. -/
theorem disjoint_pairs {range : PortRange} {p q : UInt16} (hp : range.Fits p) (hq : range.Fits q)
    (hne : p ≠ q) : List.Disjoint [p.toNat, p.toNat + 1] [q.toNat, q.toNat + 1] := by
  have hne' : p.toNat ≠ q.toNat := fun h => hne (UInt16.toNat_inj.mp h)
  have hparity := hp.parity.trans hq.parity.symm
  intro port hport hport'
  simp only [List.mem_cons, List.not_mem_nil, or_false] at hport hport'
  omega

theorem Sound.kept {t : StreamTable} {network : Network} {others : List Endpoint} (ht : t.Sound)
    (hheld : network.held.Perm (t.sockets ++ others)) : t.Kept t.range others network where
  freeOnce := ht.slots.nodup
  free := ht.slots.mem_free_iff
  keys _ _ _ _ hs hr := ht.keys hs hr
  cut _ _ hs := (congrArg StreamKey.client (ht.stored hs)).symm
  ports _ _ hs := ht.ports hs
  disjoint _ _ _ _ hs hr hne hip :=
    disjoint_pairs (ht.ports hs) (ht.ports hr) fun hport => hne (ht.exclusive hs hr hip hport)
  held := hheld

theorem Sound.kept_run {s : StreamTable × Network} {others : List Endpoint} (hs : s.1.Sound)
    (hheld : s.2.held.Perm (s.1.sockets ++ others)) (calls : List Call) :
    (calls.foldl call s).1.Kept s.1.range others (calls.foldl call s).2 := by
  induction calls generalizing s with
  | nil => exact hs.kept hheld
  | cons c rest ih =>
      rw [← range_call s c]
      exact ih (sound_call hs c) (held_call hs hheld c)

/-- After every run from a table without streams, whatever the network around it did, the stack holds
exactly the empty slots, each once; no two streams have one key; every stream's pair of ports lies in
the range and begins like it, apart from the pairs of the other streams on its address; and beyond the
sockets that were open before, exactly those of the open streams are open. -/
theorem run_kept (capacity : Nat) (range : PortRange) (devices : List (Ip × Text)) (network : Network)
    (calls : List Call) :
    let state := calls.foldl call (empty capacity range devices, network)
    state.1.Kept range network.held state.2 := by
  have hsound : (empty capacity range devices).Sound := sound_empty capacity range devices
  have hheld : network.held.Perm ((empty capacity range devices).sockets ++ network.held) := by
    simp [sockets_eq, empty]
  exact Sound.kept_run (s := (empty capacity range devices, network)) hsound hheld calls

/-! Runs of a table in a relay. -/

/-- What a table meets in a relay: a call, or a packet that is noted in its stream. -/
inductive Act where
  | call (c : Call)
  | hear (h : StreamRef) (jitter : Jitter) (now : Instant)

/-- A table and the network after it. -/
def act (state : StreamTable × Network) : Act → StreamTable × Network
  | .call c => call state c
  | .hear h jitter now => (state.1.modify h fun s => { s with lastHeard := now, jitter := jitter }, state.2)

theorem range_act (state : StreamTable × Network) (a : Act) : (act state a).1.range = state.1.range := by
  cases a with
  | call c => exact range_call state c
  | hear h jitter now => exact range_modify state.1 h _

theorem sound_act {state : StreamTable × Network} (hs : state.1.Sound) (a : Act) : (act state a).1.Sound := by
  cases a with
  | call c => exact sound_call hs c
  | hear h jitter now => exact hs.modify h fun s => ⟨rfl, rfl, rfl⟩

theorem range_acts (state : StreamTable × Network) (acts : List Act) :
    (acts.foldl act state).1.range = state.1.range := by
  induction acts generalizing state with
  | nil => rfl
  | cons a rest ih => rw [List.foldl_cons, ih, range_act]

theorem sound_acts {state : StreamTable × Network} (hs : state.1.Sound) (acts : List Act) :
    (acts.foldl act state).1.Sound := by
  induction acts generalizing state with
  | nil => exact hs
  | cons a rest ih => exact ih (sound_act hs a)

end StreamTable

end BorderProxy
