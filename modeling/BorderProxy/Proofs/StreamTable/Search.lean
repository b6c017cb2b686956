import Mathlib.Data.List.Rotate
import BorderProxy.Proofs.StreamTable.Repeated
import BorderProxy.Proofs.StreamTable.Run

/-! The search for a pair of ports, and what a request is told after it. The search goes once around the
pairs of the range, from the cursor on, and ends at the first pair that no open stream has and that can be
bound; no port that it computes overflows, whatever the range. A request with a new key is refused where no
slot is empty or else no such pair exists, and a refused request leaves no trace; a request with the key of
an open stream points that stream elsewhere, whatever is left of slots and ports. -/

namespace BorderProxy.StreamTable

variable {t : StreamTable} {network : Network}

/-! Pairs and their ports. -/

/-- The ports of a pair are computed without overflow, and both lie in the range. -/
structure PairFits (range : PortRange) (pair : Nat) : Prop where
  number : (UInt16.ofNat pair).toNat = pair
  distance : (UInt16.ofNat pair * 2).toNat = pair * 2
  lower : (portOfPair range pair).toNat = range.min.toNat + pair * 2
  upper : (portOfPair range pair + 1).toNat = range.min.toNat + pair * 2 + 1
  le_max : range.min.toNat + pair * 2 + 1 ≤ range.max.toNat

theorem pairFits_of_lt {range : PortRange} {pair : Nat} (h : pair < range.pairs) :
    PairFits range pair := by
  have hlower := toNat_portOfPair h
  have hmax := range.max.toNat_lt
  have hle : range.min.toNat + pair * 2 + 1 ≤ range.max.toNat := by
    unfold PortRange.pairs at h
    split at h
    · omega
    · omega
  have hnumber : (UInt16.ofNat pair).toNat = pair := by
    rw [UInt16.toNat_ofNat']
    omega
  refine ⟨hnumber, ?_, by omega, ?_, hle⟩
  · rw [UInt16.toNat_mul, hnumber]
    simp only [UInt16.reduceToNat]
    omega
  · rw [UInt16.toNat_add, hlower]
    simp only [UInt16.reduceToNat]
    omega

/-- The last pair of the widest range ends at the last port but one, and a reversed range has no pair. -/
example : PortRange.pairs ⟨0, 65535⟩ = 32768 ∧ portOfPair ⟨0, 65535⟩ 32767 = 65534 ∧
    PortRange.pairs ⟨7072, 7070⟩ = 0 := by
  decide

/-- A pair that no open stream on an address has, and whose two ports can be bound there. -/
structure Vacant (t : StreamTable) (network : Network) (ip : Ip) (pair : Nat) : Prop where
  unused : ∀ h s, t.get? h = some s → s.localIp = ip → s.rtpPort ≠ portOfPair t.range pair
  rtp : network.CanBind ⟨ip, portOfPair t.range pair⟩ (t.deviceOf ip)
  rtcp : network.CanBind ⟨ip, portOfPair t.range pair + 1⟩ (t.deviceOf ip)

theorem Aligned.openable_iff (ht : t.Aligned) {ip : Ip} {pair : Nat} (hpair : pair < t.range.pairs) :
    t.Openable network ip pair ↔ t.Vacant network ip pair := by
  have hfits := pairFits_of_lt hpair
  have hunused : t.usesPort ip (portOfPair t.range pair) = false ↔
      ∀ h s, t.get? h = some s → s.localIp = ip → s.rtpPort ≠ portOfPair t.range pair := by
    rw [Bool.eq_false_iff, ne_eq, ht.usesPort_iff]
    exact ⟨fun h r s hs hip hport => h ⟨r, s, hs, hip, hport⟩,
      fun h ⟨r, s, hs, hip, hport⟩ => h r s hs hip hport⟩
  -- The upper port is another one than the lower port, which is bound first.
  have hne : (⟨ip, portOfPair t.range pair + 1⟩ : Endpoint) ≠ ⟨ip, portOfPair t.range pair⟩ := by
    intro heq
    have hport := congrArg (fun e => e.port.toNat) heq
    have hlower := hfits.lower
    have hupper := hfits.upper
    dsimp only at hport
    omega
  constructor
  · intro h
    exact ⟨hunused.mp h.unused, h.rtp, (Network.canBind_hold_iff.mp h.rtcp).1⟩
  · intro h
    refine ⟨?_, hunused.mpr h.unused, h.rtp, Network.canBind_hold_iff.mpr ⟨h.rtcp, hne⟩⟩
    rw [hfits.lower]
    exact hfits.le_max

/-! The order of the search, and where it ends. -/

theorem searchOrder_eq (t : StreamTable) :
    t.searchOrder = (List.range t.range.pairs).rotate t.cursor := by
  refine List.ext_getElem (by simp [searchOrder]) fun step h h' => ?_
  simp [searchOrder, List.getElem_rotate, Nat.add_comm]

theorem nodup_searchOrder (t : StreamTable) : t.searchOrder.Nodup := by
  rw [searchOrder_eq, List.nodup_rotate]
  exact List.nodup_range

theorem tryPair_of_openable {ip : Ip} {pair : Nat} (h : t.Openable network ip pair) :
    t.tryPair network ip pair = (some (portOfPair t.range pair),
      (network.hold ⟨ip, portOfPair t.range pair⟩).hold ⟨ip, portOfPair t.range pair + 1⟩) := by
  have hmax := h.inRange
  have hbind := bindPorts_of_canBind h.rtp h.rtcp
  unfold tryPair
  dsimp only
  rw [if_neg (by omega), h.unused, if_neg Bool.false_ne_true]
  rcases bindPorts_cases t network ip (portOfPair t.range pair) with ⟨fault, hfail⟩ | hok
  · rw [hfail] at hbind
    cases hbind
  · rw [hok]

/-- The search passes over the pairs that cannot be opened and ends at the first one that can. -/
theorem openFirst_append {ip : Ip} {before after : List Nat} {pair : Nat}
    (hpairs : ∀ q ∈ before, q < t.range.pairs) (hbefore : ∀ q ∈ before, ¬t.Openable network ip q)
    (hpair : t.Openable network ip pair) :
    t.openFirst ip (before ++ pair :: after) network = (some (pair, portOfPair t.range pair),
      (network.hold ⟨ip, portOfPair t.range pair⟩).hold ⟨ip, portOfPair t.range pair + 1⟩) := by
  induction before with
  | nil =>
      rw [List.nil_append, openFirst, tryPair_of_openable hpair]
  | cons q rest ih =>
      obtain ⟨hq, hrest⟩ := List.forall_mem_cons.mp hbefore
      have hnone := (tryPair_eq_none_iff ip q).mpr hq
      rcases tryPair_cases t network ip (hpairs q List.mem_cons_self) with hfail | ⟨port, -, hsome⟩
      · rw [List.cons_append, openFirst, hfail]
        exact ih (fun p hp => hpairs p (List.mem_cons_of_mem q hp)) hrest
      · rw [hsome] at hnone
        cases hnone

/-- A pair is the first vacant one in the cyclic order of the pairs from the cursor on. -/
def IsFirstVacant (t : StreamTable) (network : Network) (ip : Ip) (pair : Nat) : Prop :=
  ∃ before after, (List.range t.range.pairs).rotate t.cursor = before ++ pair :: after ∧
    (∀ q ∈ before, ¬t.Vacant network ip q) ∧ t.Vacant network ip pair

theorem exists_isFirstVacant {ip : Ip} (h : ∃ pair, pair < t.range.pairs ∧ t.Vacant network ip pair) :
    ∃ pair, t.IsFirstVacant network ip pair := by
  classical
  obtain ⟨pair, hpair, hvacant⟩ := h
  cases hfind : ((List.range t.range.pairs).rotate t.cursor).find? fun q => t.Vacant network ip q with
  | none =>
      have hmem : pair ∈ (List.range t.range.pairs).rotate t.cursor :=
        List.mem_rotate.mpr (List.mem_range.mpr hpair)
      exact absurd hvacant (by simpa using List.find?_eq_none.mp hfind pair hmem)
  | some first =>
      obtain ⟨hfirst, before, after, horder, hbefore⟩ := List.find?_eq_some_iff_append.mp hfind
      exact ⟨first, before, after, horder, by simpa using hbefore, by simpa using hfirst⟩

theorem Aligned.openPair_of_isFirstVacant (ht : t.Aligned) {ip : Ip} {pair : Nat}
    (h : t.IsFirstVacant network ip pair) :
    t.openPair network ip = (some (pair, portOfPair t.range pair),
      (network.hold ⟨ip, portOfPair t.range pair⟩).hold ⟨ip, portOfPair t.range pair + 1⟩) := by
  obtain ⟨before, after, horder, hbefore, hpair⟩ := h
  rw [← searchOrder_eq] at horder
  have hlt : ∀ q ∈ before ++ pair :: after, q < t.range.pairs := fun q hq =>
    lt_pairs_of_mem_searchOrder t (horder ▸ hq)
  have hltBefore : ∀ q ∈ before, q < t.range.pairs := fun q hq =>
    hlt q (List.mem_append_left _ hq)
  rw [openPair, horder]
  refine openFirst_append hltBefore (fun q hq hopen => ?_) ?_
  · exact hbefore q hq ((ht.openable_iff (hltBefore q hq)).mp hopen)
  · exact (ht.openable_iff (hlt pair (List.mem_append_right _ List.mem_cons_self))).mpr hpair

theorem Aligned.openPair_eq_none (ht : t.Aligned) {ip : Ip}
    (h : ∀ pair, pair < t.range.pairs → ¬t.Vacant network ip pair) :
    t.openPair network ip = (none, network) :=
  (openPair_eq_none_iff ip).mpr fun pair hpair hopen =>
    h pair hpair ((ht.openable_iff hpair).mp hopen)

/-! What a request is told. -/

theorem watchPorts_eq_ok {s : Stream} (hrtp : s.source .rtp ∉ network.unwatched)
    (hrtcp : s.source .rtcp ∉ network.unwatched) : watchPorts network s = .ok () := by
  simp [watchPorts, Network.watch, hrtp, hrtcp, Bind.bind, Except.bind]

theorem watchPorts_eq_transport {s : Stream}
    (h : s.source .rtp ∈ network.unwatched ∨ s.source .rtcp ∈ network.unwatched) :
    watchPorts network s = .error .transport := by
  by_cases hrtp : s.source .rtp ∈ network.unwatched
  · simp [watchPorts, Network.watch, hrtp, Bind.bind, Except.bind]
  · simp [watchPorts, Network.watch, hrtp, h.resolve_left hrtp, Bind.bind, Except.bind]

variable {request : StreamRequest} {now : Instant}

theorem Sound.start_of_key (ht : t.Sound) {h : StreamRef} {s : Stream} (hs : t.get? h = some s)
    (hkey : s.key = storedKey request.key) :
    t.start network request now = (.ok (h, s.rtpPort), t.modify h (refresh request now), network) := by
  unfold StreamTable.start
  dsimp only
  rw [← hkey, ht.find?_key hs]

section NewKey

variable (ht : t.Aligned) (hnew : ∀ h s, t.get? h = some s → s.key ≠ storedKey request.key)

include ht hnew

theorem Aligned.start_of_full (hfree : t.arena.free = []) :
    t.start network request now = (.error (.storeFull .streams), t, network) := by
  unfold StreamTable.start
  dsimp only
  rw [ht.find?_key_eq_none hnew, Arena.reserve?, hfree]

theorem Aligned.start_of_exhausted (hfree : t.arena.free ≠ [])
    (hnone : ∀ pair, pair < t.range.pairs → ¬t.Vacant network request.localIp pair) :
    t.start network request now =
      (.error (.noPortAvailable t.range.min t.range.max), t, network) := by
  obtain ⟨index, rest, hstack⟩ := List.exists_cons_of_ne_nil hfree
  unfold StreamTable.start
  dsimp only
  rw [ht.find?_key_eq_none hnew, Arena.reserve?, hstack]
  dsimp only
  rw [ht.openPair_eq_none hnone]
  dsimp only [Arena.giveBack]
  rw [← hstack]

/-- The pair that the search ends at is opened for the slot on top of the stack, and given back where its
sockets cannot be watched. -/
theorem Aligned.start_of_isFirstVacant {index : Nat} {rest : List Nat} (hfree : t.arena.free = index :: rest)
    {pair : Nat} (hpair : t.IsFirstVacant network request.localIp pair) :
    let port := portOfPair t.range pair
    let stream := newStream (storedKey request.key) request port now
    (stream.source .rtp ∉ network.unwatched ∧ stream.source .rtcp ∉ network.unwatched →
      t.start network request now =
        (.ok (t.handleAt index, port),
          { t with arena := ⟨t.arena.slots.set index (some stream), rest⟩, cursor := pair + 1 },
          (network.hold (stream.source .rtp)).hold (stream.source .rtcp))) ∧
    (stream.source .rtp ∈ network.unwatched ∨ stream.source .rtcp ∈ network.unwatched →
      t.start network request now = (.error .transport, { t with cursor := pair + 1 }, network)) := by
  intro port stream
  generalize hheld : (network.hold (stream.source .rtp)).hold (stream.source .rtcp) = held
  -- Sockets that are held are watched or not as before.
  have hsame : held.unwatched = network.unwatched := by
    rw [← hheld]
    rfl
  have hopen : t.openPair network request.localIp = (some (pair, port), held) := by
    rw [← hheld]
    exact ht.openPair_of_isFirstVacant hpair
  have hstart : (watchPorts held stream = .ok () → t.start network request now =
        (.ok (t.handleAt index, port),
          { t with arena := ⟨t.arena.slots.set index (some stream), rest⟩, cursor := pair + 1 }, held)) ∧
      (watchPorts held stream = .error .transport → t.start network request now =
        (.error .transport, { t with cursor := pair + 1 }, releasePorts held stream)) := by
    unfold StreamTable.start
    dsimp only
    rw [ht.find?_key_eq_none hnew, Arena.reserve?, hfree]
    dsimp only
    rw [hopen]
    dsimp only [Arena.giveBack, Arena.fill]
    rw [← hfree]
    constructor
    · intro hwatch
      rw [hwatch]
    · intro hwatch
      rw [hwatch]
  constructor
  · rintro ⟨hrtp, hrtcp⟩
    rw [← hsame] at hrtp hrtcp
    exact hstart.1 (watchPorts_eq_ok hrtp hrtcp)
  · intro hunwatched
    rw [← hsame] at hunwatched
    rw [hstart.2 (watchPorts_eq_transport hunwatched), ← hheld, releasePorts_hold]

end NewKey

/-- What a request is told and what it changes, as the table and the network before it decide. -/
structure Decides (t : StreamTable) (network : Network) (request : StreamRequest) (now : Instant) :
    Prop where
  /-- The stream with the key that is asked for is pointed elsewhere, whatever is left of slots and ports,
  and nothing else changes. -/
  known : ∀ h s, t.get? h = some s → s.key = storedKey request.key →
    ∃ u, t.start network request now = (.ok (h, s.rtpPort), u, network) ∧
      u.get? h = some { s with remote := request.remote, jitter := s.jitter.reset, lastHeard := now } ∧
      (∀ g, g ≠ h → u.get? g = t.get? g) ∧ u.arena.free = t.arena.free ∧ u = { t with arena := u.arena }
  full_iff : (∀ h s, t.get? h = some s → s.key ≠ storedKey request.key) →
    ((t.start network request now).1 = .error (.storeFull .streams) ↔ t.arena.free = [])
  exhausted_iff : (∀ h s, t.get? h = some s → s.key ≠ storedKey request.key) →
    ((t.start network request now).1 = .error (.noPortAvailable t.range.min t.range.max) ↔
      t.arena.free ≠ [] ∧ ∀ pair, pair < t.range.pairs → ¬t.Vacant network request.localIp pair)
  /-- A request that is refused leaves the table and the network as they are. -/
  refused : (t.start network request now).1 = .error (.storeFull .streams) ∨
      (t.start network request now).1 = .error (.noPortAvailable t.range.min t.range.max) →
    (t.start network request now).2 = (t, network)
  /-- The first vacant pair is opened for the slot on top of the stack. Where its sockets cannot be watched
  both are closed again, and only the cursor has moved. -/
  opened : (∀ h s, t.get? h = some s → s.key ≠ storedKey request.key) →
    ∀ index rest, t.arena.free = index :: rest →
      (∃ pair, pair < t.range.pairs ∧ t.Vacant network request.localIp pair) →
      ∃ pair, t.IsFirstVacant network request.localIp pair ∧
        let port := portOfPair t.range pair
        let stream := newStream (storedKey request.key) request port now
        (stream.source .rtp ∉ network.unwatched ∧ stream.source .rtcp ∉ network.unwatched →
          t.start network request now =
            (.ok (t.handleAt index, port),
              { t with arena := ⟨t.arena.slots.set index (some stream), rest⟩, cursor := pair + 1 },
              (network.hold (stream.source .rtp)).hold (stream.source .rtcp))) ∧
        (stream.source .rtp ∈ network.unwatched ∨ stream.source .rtcp ∈ network.unwatched →
          t.start network request now = (.error .transport, { t with cursor := pair + 1 }, network))

theorem Sound.known (ht : t.Sound) (network : Network) (request : StreamRequest) (now : Instant)
    {h : StreamRef} {s : Stream} (hs : t.get? h = some s) (hkey : s.key = storedKey request.key) :
    ∃ u, t.start network request now = (.ok (h, s.rtpPort), u, network) ∧
      u.get? h = some { s with remote := request.remote, jitter := s.jitter.reset, lastHeard := now } ∧
      (∀ g, g ≠ h → u.get? g = t.get? g) ∧ u.arena.free = t.arena.free ∧
      u = { t with arena := u.arena } := by
  refine ⟨t.modify h (refresh request now), ht.start_of_key hs hkey, ?_, fun g hg => ?_,
    free_modify t h _, ?_⟩
  · rw [get?_modify, if_pos rfl, hs]
    rfl
  · rw [get?_modify, if_neg hg]
  · unfold StreamTable.modify
    split <;> rfl

/-- A request with a new key is told one of four things. -/
theorem Sound.new_cases (ht : t.Sound) (network : Network) (now : Instant)
    (hnew : ∀ h s, t.get? h = some s → s.key ≠ storedKey request.key) :
    (t.arena.free = [] ∧ t.start network request now = (.error (.storeFull .streams), t, network)) ∨
    (t.arena.free ≠ [] ∧ (∀ pair, pair < t.range.pairs → ¬t.Vacant network request.localIp pair) ∧
      t.start network request now = (.error (.noPortAvailable t.range.min t.range.max), t, network)) ∨
    (t.arena.free ≠ [] ∧ (∃ pair, pair < t.range.pairs ∧ t.Vacant network request.localIp pair) ∧
      ((t.start network request now).1 = .error .transport ∨
        ∃ answer, (t.start network request now).1 = .ok answer)) := by
  cases hfree : t.arena.free with
  | nil => exact .inl ⟨rfl, ht.aligned.start_of_full hnew hfree⟩
  | cons index rest =>
      have hstack : t.arena.free ≠ [] := by simp [hfree]
      by_cases hvacant : ∃ pair, pair < t.range.pairs ∧ t.Vacant network request.localIp pair
      · refine .inr (.inr ⟨List.cons_ne_nil _ _, hvacant, ?_⟩)
        obtain ⟨pair, hpair⟩ := exists_isFirstVacant hvacant
        obtain ⟨hwatched, hunwatched⟩ := ht.aligned.start_of_isFirstVacant hnew hfree hpair
        by_cases hwatch : (newStream (storedKey request.key) request (portOfPair t.range pair) now).source
              .rtp ∈ network.unwatched ∨
            (newStream (storedKey request.key) request (portOfPair t.range pair) now).source .rtcp ∈
              network.unwatched
        · exact .inl (by rw [hunwatched hwatch])
        · exact .inr ⟨_, by rw [hwatched (not_or.mp hwatch)]⟩
      · have hnone : ∀ pair, pair < t.range.pairs → ¬t.Vacant network request.localIp pair :=
          fun pair hpair hopen => hvacant ⟨pair, hpair, hopen⟩
        exact .inr (.inl ⟨List.cons_ne_nil _ _, hnone, ht.aligned.start_of_exhausted hnew hstack hnone⟩)

theorem Sound.decides (ht : t.Sound) (network : Network) (request : StreamRequest) (now : Instant) :
    t.Decides network request now where
  known _ _ hs hkey := ht.known network request now hs hkey
  full_iff hnew := by
    rcases ht.new_cases network now hnew with ⟨hfree, hstart⟩ | ⟨hfree, -, hstart⟩ | ⟨hfree, -, hend⟩
    · simp [hfree, hstart]
    · simp [hfree, hstart]
    · rcases hend with hend | ⟨answer, hend⟩ <;> simp [hfree, hend]
  exhausted_iff hnew := by
    rcases ht.new_cases network now hnew with ⟨hfree, hstart⟩ | ⟨hfree, hnone, hstart⟩ | ⟨hfree, hvacant, hend⟩
    · simp [hfree, hstart]
    · exact iff_of_true (by rw [hstart]) ⟨hfree, hnone⟩
    · obtain ⟨pair, hpair, hopen⟩ := hvacant
      refine iff_of_false ?_ fun h => h.2 pair hpair hopen
      rcases hend with hend | ⟨answer, hend⟩ <;> simp [hend]
  refused hrefused := by
    by_cases hknown : ∃ h s, t.get? h = some s ∧ s.key = storedKey request.key
    · obtain ⟨h, s, hs, hkey⟩ := hknown
      rw [ht.start_of_key hs hkey] at hrefused
      rcases hrefused with hrefused | hrefused <;> cases hrefused
    · have hnew : ∀ h s, t.get? h = some s → s.key ≠ storedKey request.key :=
        fun h s hs hkey => hknown ⟨h, s, hs, hkey⟩
      rcases ht.new_cases network now hnew with ⟨-, hstart⟩ | ⟨-, -, hstart⟩ | ⟨-, -, hend⟩
      · rw [hstart]
      · rw [hstart]
      · rcases hend with hend | ⟨answer, hend⟩
        · rw [hend] at hrefused
          rcases hrefused with hrefused | hrefused <;> cases hrefused
        · rw [hend] at hrefused
          rcases hrefused with hrefused | hrefused <;> cases hrefused
  opened hnew index rest hfree hvacant := by
    obtain ⟨pair, hpair⟩ := exists_isFirstVacant hvacant
    exact ⟨pair, hpair, ht.aligned.start_of_isFirstVacant hnew hfree hpair⟩

/-- Whatever the range, after every run from a table without streams and in whatever surroundings, a
request is decided by the slots, by the keys of the open streams and by the vacant pairs; and the search
tries the pairs in their cyclic order from the cursor on, each at most once, without dividing by zero and
without an overflow in the ports of any. -/
theorem run_decides (capacity : Nat) (range : PortRange) (devices : List (Ip × Text))
    (before network : Network) (acts : List Act) (request : StreamRequest) (now : Instant) :
    let t := (acts.foldl act (empty capacity range devices, before)).1
    t.Decides network request now ∧ t.range = range ∧
      t.searchOrder = (List.range range.pairs).rotate t.cursor ∧ t.searchOrder.Nodup ∧
      ∀ pair ∈ t.searchOrder, range.pairs ≠ 0 ∧ PairFits range pair := by
  intro t
  have hsound : t.Sound := sound_acts (sound_empty capacity range devices) acts
  have hrange : t.range = range := range_acts _ acts
  refine ⟨hsound.decides network request now, hrange, hrange ▸ t.searchOrder_eq, t.nodup_searchOrder,
    fun pair hpair => ?_⟩
  have hlt := lt_pairs_of_mem_searchOrder t hpair
  rw [hrange] at hlt
  exact ⟨Nat.ne_zero_of_lt hlt, pairFits_of_lt hlt⟩

end BorderProxy.StreamTable
