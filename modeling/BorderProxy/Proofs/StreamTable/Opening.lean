import BorderProxy.Proofs.StreamTable.Entries

/-! What opening a stream can lead to. A failed attempt at a pair closes what it had opened, so the search
through the range ends with the network as it was or with exactly one pair more; and a stream that is not
opened leaves neither its slot nor a port taken. -/

namespace BorderProxy

namespace Network

/-- The network with one more endpoint held. -/
def hold (n : Network) (e : Endpoint) : Network := { n with held := e :: n.held }

@[simp] theorem release_hold (n : Network) (e : Endpoint) : (n.hold e).release e = n := by
  simp [hold, release]

theorem bind_eq_ok {n m : Network} {e : Endpoint} {device : Option Text}
    (h : n.bind e device = .ok m) : m = n.hold e := by
  unfold bind at h
  cases hc : n.checkDevice device with
  | error fault => simp [hc, Bind.bind, Except.bind] at h
  | ok u =>
      simp only [hc, Bind.bind, Except.bind] at h
      split at h
      · cases h
      · exact (Except.ok.inj h).symm

end Network

namespace StreamTable

variable (t : StreamTable) (network : Network) (ip : Ip)

theorem bindPorts_cases (port : UInt16) :
    (∃ fault, t.bindPorts network ip port = (.error fault, network)) ∨
      t.bindPorts network ip port = (.ok (), (network.hold ⟨ip, port⟩).hold ⟨ip, port + 1⟩) := by
  unfold bindPorts
  dsimp only
  cases hfirst : network.bind ⟨ip, port⟩ (t.deviceOf ip) with
  | error fault => exact .inl ⟨fault, rfl⟩
  | ok first =>
      have hf := Network.bind_eq_ok hfirst
      subst hf
      cases hsecond : (network.hold ⟨ip, port⟩).bind ⟨ip, port + 1⟩ (t.deviceOf ip) with
      | error fault => exact .inl ⟨fault, by simp [hsecond]⟩
      | ok second =>
          have hs := Network.bind_eq_ok hsecond
          subst hs
          exact .inr (by simp [hsecond])

/-- A port that a pair of the range may have, and that no stream on an address uses. -/
structure Available (ip : Ip) (port : UInt16) : Prop where
  pair : ∃ pair, pair < t.range.pairs ∧ port = portOfPair t.range pair
  inRange : port.toNat + 1 ≤ t.range.max.toNat
  unused : t.usesPort ip port = false

theorem tryPair_cases {pair : Nat} (hpair : pair < t.range.pairs) :
    t.tryPair network ip pair = (none, network) ∨
      ∃ port, t.Available ip port ∧
        t.tryPair network ip pair =
          (some port, (network.hold ⟨ip, port⟩).hold ⟨ip, port + 1⟩) := by
  unfold tryPair
  by_cases hmax : t.range.max.toNat < (portOfPair t.range pair).toNat + 1
  · exact .inl (by simp [hmax])
  · by_cases huse : t.usesPort ip (portOfPair t.range pair) = true
    · exact .inl (by simp [hmax, huse])
    · rcases bindPorts_cases t network ip (portOfPair t.range pair) with ⟨fault, hbind⟩ | hbind
      · exact .inl (by simp [hmax, huse, hbind])
      · refine .inr ⟨_, ⟨⟨pair, hpair, rfl⟩, by omega, by simpa using huse⟩, ?_⟩
        simp [hmax, huse, hbind]

theorem openFirst_cases {pairs : List Nat} (hpairs : ∀ pair ∈ pairs, pair < t.range.pairs) :
    t.openFirst ip pairs network = (none, network) ∨
      ∃ pair port, t.Available ip port ∧
        t.openFirst ip pairs network =
          (some (pair, port), (network.hold ⟨ip, port⟩).hold ⟨ip, port + 1⟩) := by
  induction pairs with
  | nil => exact .inl rfl
  | cons pair rest ih =>
      rcases tryPair_cases t network ip (hpairs pair (by simp)) with hnone | ⟨port, hport, hsome⟩
      · rw [openFirst, hnone]
        exact ih fun p hp => hpairs p (List.mem_cons_of_mem _ hp)
      · rw [openFirst, hsome]
        exact .inr ⟨pair, port, hport, rfl⟩

theorem lt_pairs_of_mem_searchOrder {pair : Nat} (h : pair ∈ t.searchOrder) :
    pair < t.range.pairs := by
  unfold searchOrder at h
  obtain ⟨step, hstep, rfl⟩ := List.mem_map.mp h
  exact Nat.mod_lt _ (Nat.zero_lt_of_lt (List.mem_range.mp hstep))

theorem openPair_cases :
    t.openPair network ip = (none, network) ∨
      ∃ pair port, t.Available ip port ∧
        t.openPair network ip =
          (some (pair, port), (network.hold ⟨ip, port⟩).hold ⟨ip, port + 1⟩) :=
  openFirst_cases t network ip fun _ h => t.lt_pairs_of_mem_searchOrder h

@[simp] theorem releasePorts_hold (s : Stream) :
    releasePorts ((network.hold (s.source .rtp)).hold (s.source .rtcp)) s = network := by
  unfold releasePorts
  rw [Network.release, Network.release]
  simp only [Network.hold]
  by_cases h : s.source .rtcp = s.source .rtp
  · simp [h]
  · rw [List.erase_cons_tail (by simpa using h)]
    simp

theorem watchPorts_eq_error {network : Network} {s : Stream} {fault : Fault}
    (h : watchPorts network s = .error fault) : fault = .transport := by
  have hwatch : ∀ {e u}, network.watch e = .error u → u = .transport := by
    intro e u he
    unfold Network.watch at he
    split at he
    · exact (Except.error.inj he).symm
    · cases he
  unfold watchPorts at h
  cases hrtp : network.watch (s.source .rtp) with
  | error first =>
      rw [hrtp] at h
      exact (Except.error.inj h) ▸ hwatch hrtp
  | ok u =>
      rw [hrtp] at h
      exact hwatch h

/-- What a request to open a stream can lead to: the answer, the table and the network after it. -/
inductive Started (request : StreamRequest) (now : Instant) :
    Except Fault (StreamRef × UInt16) × StreamTable × Network → Prop where
  | refreshed (h : StreamRef) (s : Stream)
      (hfind : (t.entries.find? fun e => e.2.key == storedKey request.key) = some (h, s)) :
      Started request now (.ok (h, s.rtpPort), t.modify h (refresh request now), network)
  | full (hnew : ∀ e ∈ t.entries, e.2.key ≠ storedKey request.key) (hfree : t.arena.free = []) :
      Started request now (.error (.storeFull .streams), t, network)
  | exhausted (hnew : ∀ e ∈ t.entries, e.2.key ≠ storedKey request.key)
      (hopen : t.openPair network request.localIp = (none, network)) :
      Started request now (.error (.noPortAvailable t.range.min t.range.max), t, network)
  | unwatched (fault : Fault) (cursor : Nat)
      (hnew : ∀ e ∈ t.entries, e.2.key ≠ storedKey request.key) (hfault : fault = .transport) :
      Started request now (.error fault, { t with cursor := cursor }, network)
  | opened (index : Nat) (port : UInt16) (arena : Arena Stream) (cursor : Nat)
      (hnew : ∀ e ∈ t.entries, e.2.key ≠ storedKey request.key)
      (hport : t.Available request.localIp port)
      (hslot : t.arena.insert? (newStream (storedKey request.key) request port now) =
        some (index, arena)) :
      Started request now
        (.ok (t.handleAt index, port), { t with arena := arena, cursor := cursor },
          (network.hold ⟨request.localIp, port⟩).hold ⟨request.localIp, port + 1⟩)

/-- A request to open a stream either refreshes the one with its key, or opens one more on a pair that
nobody used, or fails and leaves the table (but for the cursor of the search) and the network alone. -/
theorem started (request : StreamRequest) (now : Instant) :
    t.Started network request now (t.start network request now) := by
  unfold start
  dsimp only
  cases hfind : t.entries.find? fun e => e.2.key == storedKey request.key with
  | some e => exact .refreshed e.1 e.2 hfind
  | none =>
      have hnew : ∀ e ∈ t.entries, e.2.key ≠ storedKey request.key := by
        intro e he heq
        rw [List.find?_eq_none] at hfind
        exact hfind e he (by simpa using heq)
      cases hreserve : t.arena.reserve? with
      | none =>
          refine .full hnew ?_
          unfold Arena.reserve? at hreserve
          split at hreserve
          · assumption
          · cases hreserve
      | some reserved =>
          obtain ⟨index, arena⟩ := reserved
          have hback := Arena.giveBack_of_reserve? hreserve
          rcases openPair_cases t network request.localIp with hopen | ⟨pair, port, hport, hopen⟩
          · simp only [hopen, hback]
            exact .exhausted hnew hopen
          · simp only [hopen]
            cases hwatch : watchPorts ((network.hold ⟨request.localIp, port⟩).hold
                ⟨request.localIp, port + 1⟩)
                (newStream (storedKey request.key) request port now) with
            | error fault =>
                have hrelease := releasePorts_hold network
                  (newStream (storedKey request.key) request port now)
                simp only [Stream.source, newStream] at hrelease
                simp only [hback, newStream, hrelease]
                exact .unwatched fault (pair + 1) hnew (watchPorts_eq_error hwatch)
            | ok u =>
                exact .opened index port _ (pair + 1) hnew hport
                  (Arena.insert?_of_reserve? hreserve _)

end StreamTable

end BorderProxy
