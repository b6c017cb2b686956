import BorderProxy.Proofs.StreamTable.Home

/-! Requests that are made again. What a request for a stream was told it is told again, if its sockets could
be watched: a stream that was opened is found by its key, and where there was no slot or no pair of ports
there is none later, wherever the search begins. Requests with other keys in between change nothing about
it, for they only take slots and ports. -/

namespace BorderProxy

namespace Network

/-- Whether a socket on a device can be bound to an endpoint. -/
structure CanBind (n : Network) (e : Endpoint) (device : Option Text) : Prop where
  device : n.checkDevice device = .ok ()
  notBusy : e ∉ n.busy
  notHeld : e ∉ n.held

theorem bind_of_canBind {n : Network} {e : Endpoint} {device : Option Text} (h : n.CanBind e device) :
    n.bind e device = .ok (n.hold e) := by
  have hfree : (n.busy.contains e || n.held.contains e) = false := by simp [h.notBusy, h.notHeld]
  unfold bind
  rw [h.device]
  simp only [Bind.bind, Except.bind]
  rw [hfree]
  rfl

theorem canBind_of_bind {n m : Network} {e : Endpoint} {device : Option Text}
    (h : n.bind e device = .ok m) : n.CanBind e device := by
  unfold bind at h
  cases hcheck : n.checkDevice device with
  | error fault => simp [hcheck, Bind.bind, Except.bind] at h
  | ok u =>
      simp only [hcheck, Bind.bind, Except.bind] at h
      split at h
      · cases h
      · rename_i hfree
        simp only [Bool.or_eq_true, List.contains_iff_mem, not_or] at hfree
        exact ⟨hcheck, hfree.1, hfree.2⟩

theorem canBind_hold_iff {n : Network} {x e : Endpoint} {device : Option Text} :
    (n.hold x).CanBind e device ↔ n.CanBind e device ∧ e ≠ x := by
  constructor
  · intro h
    obtain ⟨hne, hheld⟩ := not_or.mp (mt List.mem_cons.mpr h.notHeld)
    exact ⟨⟨h.device, h.notBusy, hheld⟩, hne⟩
  · rintro ⟨h, hne⟩
    exact ⟨h.device, h.notBusy, mt List.mem_cons.mp (not_or.mpr ⟨hne, h.notHeld⟩)⟩

end Network

namespace Arena

variable {α : Type}

theorem modify_eq_self {a : Arena α} {index : Nat} {value : α} (h : a.get? index = some value)
    {change : α → α} (hchange : change value = value) : a.modify index change = a := by
  have hslot := get?_eq_some_iff.mp h
  unfold modify replace
  simp only [h, hchange, Option.isSome_some, if_true]
  have hset : a.slots.set index (some value) = a.slots := by
    obtain ⟨hlt, hvalue⟩ := List.getElem?_eq_some_iff.mp hslot
    rw [← hvalue, List.set_getElem_self]
  rw [hset]

theorem free_modify (a : Arena α) (index : Nat) (change : α → α) :
    (a.modify index change).free = a.free := by
  unfold modify replace
  split
  · split <;> rfl
  · rfl

end Arena

namespace StreamTable

variable {t : StreamTable} {network : Network}

/-! The pairs that can be opened. -/

/-- Whether a pair can be opened on an address. -/
structure Openable (t : StreamTable) (network : Network) (ip : Ip) (pair : Nat) : Prop where
  inRange : (portOfPair t.range pair).toNat + 1 ≤ t.range.max.toNat
  unused : t.usesPort ip (portOfPair t.range pair) = false
  rtp : network.CanBind ⟨ip, portOfPair t.range pair⟩ (t.deviceOf ip)
  rtcp : (network.hold ⟨ip, portOfPair t.range pair⟩).CanBind ⟨ip, portOfPair t.range pair + 1⟩
    (t.deviceOf ip)

theorem bindPorts_of_canBind {ip : Ip} {port : UInt16}
    (hrtp : network.CanBind ⟨ip, port⟩ (t.deviceOf ip))
    (hrtcp : (network.hold ⟨ip, port⟩).CanBind ⟨ip, port + 1⟩ (t.deviceOf ip)) :
    (t.bindPorts network ip port).1 = .ok () := by
  unfold bindPorts
  dsimp only
  rw [Network.bind_of_canBind hrtp]
  dsimp only
  rw [Network.bind_of_canBind hrtcp]

theorem canBind_of_bindPorts {ip : Ip} {port : UInt16}
    (h : (t.bindPorts network ip port).1 = .ok ()) :
    network.CanBind ⟨ip, port⟩ (t.deviceOf ip) ∧
      (network.hold ⟨ip, port⟩).CanBind ⟨ip, port + 1⟩ (t.deviceOf ip) := by
  unfold bindPorts at h
  dsimp only at h
  cases hrtp : network.bind ⟨ip, port⟩ (t.deviceOf ip) with
  | error fault =>
      rw [hrtp] at h
      cases h
  | ok first =>
      rw [hrtp] at h
      have hfirst := Network.bind_eq_ok hrtp
      subst hfirst
      dsimp only at h
      refine ⟨Network.canBind_of_bind hrtp, ?_⟩
      cases hrtcp : (network.hold ⟨ip, port⟩).bind ⟨ip, port + 1⟩ (t.deviceOf ip) with
      | error fault =>
          rw [hrtcp] at h
          cases h
      | ok second => exact Network.canBind_of_bind hrtcp

theorem tryPair_eq_none_iff (ip : Ip) (pair : Nat) :
    (t.tryPair network ip pair).1 = none ↔ ¬t.Openable network ip pair := by
  unfold tryPair
  dsimp only
  by_cases hmax : t.range.max.toNat < (portOfPair t.range pair).toNat + 1
  · rw [if_pos hmax]
    exact ⟨fun _ h => absurd h.inRange (by omega), fun _ => rfl⟩
  · rw [if_neg hmax]
    by_cases huse : t.usesPort ip (portOfPair t.range pair) = true
    · rw [if_pos huse]
      refine ⟨fun _ h => ?_, fun _ => rfl⟩
      have hunused := h.unused
      rw [huse] at hunused
      cases hunused
    · rw [if_neg huse]
      cases hbind : (t.bindPorts network ip (portOfPair t.range pair)).1 with
      | error fault =>
          refine ⟨fun _ h => ?_, fun _ => ?_⟩
          · rw [bindPorts_of_canBind h.rtp h.rtcp] at hbind
            cases hbind
          · generalize t.bindPorts network ip (portOfPair t.range pair) = bound at hbind
            obtain ⟨answer, after⟩ := bound
            dsimp only at hbind
            subst hbind
            rfl
      | ok u =>
          obtain ⟨hrtp, hrtcp⟩ := canBind_of_bindPorts hbind
          refine ⟨fun h => ?_, fun h => absurd ⟨by omega, by simpa using huse, hrtp, hrtcp⟩ h⟩
          generalize t.bindPorts network ip (portOfPair t.range pair) = bound at hbind h
          obtain ⟨answer, after⟩ := bound
          dsimp only at hbind
          subst hbind
          cases h

theorem openFirst_eq_none_iff (ip : Ip) {pairs : List Nat} (hpairs : ∀ pair ∈ pairs, pair < t.range.pairs) :
    (t.openFirst ip pairs network).1 = none ↔ ∀ pair ∈ pairs, ¬t.Openable network ip pair := by
  induction pairs with
  | nil => simp [openFirst]
  | cons pair rest ih =>
      rw [List.forall_mem_cons, ← tryPair_eq_none_iff, openFirst]
      rcases tryPair_cases t network ip (hpairs pair List.mem_cons_self) with hnone | ⟨port, -, hsome⟩
      · rw [hnone, ih fun p hp => hpairs p (List.mem_cons_of_mem _ hp)]
        simp
      · rw [hsome]
        simp

/-- The search goes through all pairs, wherever it begins. -/
theorem mem_searchOrder_iff {pair : Nat} : pair ∈ t.searchOrder ↔ pair < t.range.pairs := by
  refine ⟨lt_pairs_of_mem_searchOrder t, fun h => ?_⟩
  unfold searchOrder
  have hcursor := Nat.mod_lt t.cursor (Nat.zero_lt_of_lt h)
  refine List.mem_map.mpr
    ⟨(pair + (t.range.pairs - t.cursor % t.range.pairs)) % t.range.pairs, ?_, ?_⟩
  · exact List.mem_range.mpr (Nat.mod_lt _ (Nat.zero_lt_of_lt h))
  · calc (t.cursor + (pair + (t.range.pairs - t.cursor % t.range.pairs)) % t.range.pairs) % t.range.pairs
        = (t.cursor % t.range.pairs + (pair + (t.range.pairs - t.cursor % t.range.pairs))) %
            t.range.pairs := by
          rw [Nat.add_mod_mod, Nat.mod_add_mod]
      _ = (pair + t.range.pairs) % t.range.pairs := by
          congr 1
          omega
      _ = pair := by
          rw [Nat.add_mod_right, Nat.mod_eq_of_lt h]

theorem openPair_eq_none_iff (ip : Ip) :
    t.openPair network ip = (none, network) ↔
      ∀ pair, pair < t.range.pairs → ¬t.Openable network ip pair := by
  have hfirst : (t.openFirst ip t.searchOrder network).1 = none ↔
      ∀ pair ∈ t.searchOrder, ¬t.Openable network ip pair :=
    openFirst_eq_none_iff ip fun _ => lt_pairs_of_mem_searchOrder t
  have hnetwork : t.openPair network ip = (none, network) ↔ (t.openPair network ip).1 = none := by
    rcases openPair_cases t network ip with hnone | ⟨pair, port, -, hsome⟩
    · simp [hnone]
    · simp [hsome]
  rw [hnetwork, openPair, hfirst]
  simp only [mem_searchOrder_iff]

/-! Slots and ports are taken. -/

theorem Aligned.usesPort_iff (ht : t.Aligned) {ip : Ip} {port : UInt16} :
    t.usesPort ip port = true ↔ ∃ h s, t.get? h = some s ∧ s.localIp = ip ∧ s.rtpPort = port := by
  unfold usesPort
  rw [List.any_eq_true]
  constructor
  · rintro ⟨⟨h, s⟩, hmem, hplace⟩
    exact ⟨h, s, ht.mem_entries_iff.mp hmem, by simpa using hplace⟩
  · rintro ⟨h, s, hs, hip, hport⟩
    exact ⟨(h, s), ht.mem_entries_iff.mpr hs, by simp [hip, hport]⟩

/-- A table in a network where no more slots and ports can be had than in another before it. -/
structure Scarcer (t : StreamTable) (network : Network) (u : StreamTable) (later : Network) : Prop where
  range : u.range = t.range
  devices : u.devices = t.devices
  free : t.arena.free = [] → u.arena.free = []
  uses : ∀ ip port, t.usesPort ip port = true → u.usesPort ip port = true
  binds : ∀ e device, later.CanBind e device → network.CanBind e device

theorem Scarcer.refl (t : StreamTable) (network : Network) : t.Scarcer network t network :=
  ⟨rfl, rfl, id, fun _ _ => id, fun _ _ => id⟩

theorem Scarcer.openable {u : StreamTable} {later : Network} (h : t.Scarcer network u later) {ip : Ip}
    {pair : Nat} (hpair : u.Openable later ip pair) : t.Openable network ip pair := by
  obtain ⟨hmax, hunused, hrtp, hrtcp⟩ := hpair
  have hdevice : u.deviceOf ip = t.deviceOf ip := by rw [deviceOf, deviceOf, h.devices]
  rw [h.range] at hmax hunused hrtp hrtcp
  rw [hdevice] at hrtp hrtcp
  obtain ⟨hupper, hne⟩ := Network.canBind_hold_iff.mp hrtcp
  refine ⟨hmax, ?_, h.binds _ _ hrtp, Network.canBind_hold_iff.mpr ⟨h.binds _ _ hupper, hne⟩⟩
  rw [Bool.eq_false_iff] at hunused ⊢
  exact fun huse => hunused (h.uses _ _ huse)

theorem devices_modify (t : StreamTable) (h : StreamRef) (change : Stream → Stream) :
    (t.modify h change).devices = t.devices := by
  unfold modify
  split <;> rfl

theorem free_modify (t : StreamTable) (h : StreamRef) (change : Stream → Stream) :
    (t.modify h change).arena.free = t.arena.free := by
  unfold modify
  split
  · exact Arena.free_modify _ _ _
  · rfl

theorem Sound.scarcer_start (ht : t.Sound) (network : Network) (request : StreamRequest) (now : Instant) :
    t.Scarcer network (t.start network request now).2.1 (t.start network request now).2.2 := by
  have haligned := (ht.start network request now).aligned
  have huses : ∀ ip port, t.usesPort ip port = true →
      (t.start network request now).2.1.usesPort ip port = true := by
    intro ip port huse
    obtain ⟨h, s, hs, hip, hport⟩ := ht.aligned.usesPort_iff.mp huse
    obtain ⟨s', hs', ⟨-, hip', hport'⟩, -⟩ := ht.get?_start network request now hs
    exact haligned.usesPort_iff.mpr ⟨h, s', hs', hip' ▸ hip, hport' ▸ hport⟩
  have hstarted := t.started network request now
  generalize t.start network request now = result at hstarted huses ⊢
  cases hstarted with
  | refreshed h s hfind =>
      exact ⟨range_modify _ _ _, devices_modify _ _ _, fun hfree => (free_modify _ _ _).trans hfree, huses,
        fun _ _ => id⟩
  | full hnew hfree => exact .refl t network
  | exhausted hnew hopen => exact .refl t network
  | unwatched fault cursor hnew => exact ⟨rfl, rfl, id, huses, fun _ _ => id⟩
  | opened index port arena cursor hnew hport hslot =>
      refine ⟨rfl, rfl, fun hfree => ?_, huses, fun e device h => ?_⟩
      · rw [Arena.insert?, hfree] at hslot
        cases hslot
      · exact (Network.canBind_hold_iff.mp (Network.canBind_hold_iff.mp h).1).1

/-! Answers that stay. -/

/-- What a request is told again and again: the port of its stream, which is as the request would make
it, or that there is none to be had. -/
inductive Answers (t : StreamTable) (network : Network) (request : StreamRequest) (now : Instant) :
    Option UInt16 → Prop where
  | granted (h : StreamRef) (s : Stream) (hopen : t.get? h = some s)
      (hkey : s.key = storedKey request.key) (hfresh : refresh request now s = s) :
      Answers t network request now (some s.rtpPort)
  | denied (hnew : ∀ h s, t.get? h = some s → s.key ≠ storedKey request.key)
      (hscarce : t.arena.free = [] ∨
        ∀ pair, pair < t.range.pairs → ¬t.Openable network request.localIp pair) :
      Answers t network request now none

theorem refresh_refresh (request : StreamRequest) (now : Instant) (s : Stream) :
    refresh request now (refresh request now s) = refresh request now s := rfl

/-- A request has been told what it will be told, unless its sockets could not be watched. -/
theorem Sound.answers_start (ht : t.Sound) (network : Network) (request : StreamRequest) (now : Instant)
    (hwatched : (t.start network request now).1 ≠ .error .transport) :
    (t.start network request now).2.1.Answers (t.start network request now).2.2 request now
      ((t.start network request now).1.toOption.map (·.2)) := by
  have hopen : ∀ {u : StreamTable} {e : StreamRef × Stream}, u.Aligned → e ∈ u.entries →
      u.get? e.1 = some e.2 := fun hu he => hu.mem_entries_iff.mp he
  have hkeys : (∀ e ∈ t.entries, e.2.key ≠ storedKey request.key) →
      ∀ h s, t.get? h = some s → s.key ≠ storedKey request.key :=
    fun hnew h s hs => hnew (h, s) (ht.aligned.mem_entries_iff.mpr hs)
  have hstarted := t.started network request now
  generalize t.start network request now = result at hstarted hwatched ⊢
  cases hstarted with
  | refreshed h s hfind =>
      have hs := ht.aligned.mem_entries_iff.mp (List.mem_of_find?_eq_some hfind)
      have hkey : s.key = storedKey request.key := by simpa using List.find?_some hfind
      refine .granted h (refresh request now s) ?_ hkey (refresh_refresh request now s)
      rw [get?_modify, if_pos rfl, hs]
      rfl
  | full hnew hfree => exact .denied (hkeys hnew) (.inl hfree)
  | exhausted hnew hopen => exact .denied (hkeys hnew) (.inr ((openPair_eq_none_iff _).mp hopen))
  | unwatched fault cursor hnew hfault => exact absurd (congrArg Except.error hfault) hwatched
  | opened index port arena cursor hnew hport hslot =>
      exact .granted (t.handleAt index) _ (get?_insert_handleAt ht.slots hslot ht.aligned) rfl rfl

theorem modify_eq_self {h : StreamRef} {s : Stream} (hs : t.get? h = some s) {change : Stream → Stream}
    (hchange : change s = s) : t.modify h change = t := by
  unfold modify
  rw [hs, Arena.modify_eq_self (get?_eq_some_iff.mp hs).2 hchange]
  rfl

/-- No two open streams have one key, so a stream is found by its own. -/
theorem Sound.find?_key (ht : t.Sound) {h : StreamRef} {s : Stream} (hs : t.get? h = some s) :
    (t.entries.find? fun e => e.2.key == s.key) = some (h, s) := by
  have hmem := ht.aligned.mem_entries_iff.mpr hs
  cases hfind : t.entries.find? fun e => e.2.key == s.key with
  | none => exact absurd (List.find?_eq_none.mp hfind (h, s) hmem) (by simp)
  | some e =>
      obtain ⟨h', s'⟩ := e
      have hs' := ht.aligned.mem_entries_iff.mp (List.mem_of_find?_eq_some hfind)
      have hkey : s'.key = s.key := by simpa using List.find?_some hfind
      have hindex := ht.keys (get?_eq_some_iff.mp hs').2 (get?_eq_some_iff.mp hs).2 hkey
      have hhandle : h' = h := by rw [← handleAt_of_get? hs', ← handleAt_of_get? hs, hindex]
      rw [hhandle, hs] at hs'
      rw [hhandle, Option.some.inj hs']

theorem Aligned.find?_key_eq_none (ht : t.Aligned) {key : StreamKey}
    (hnew : ∀ h s, t.get? h = some s → s.key ≠ key) : (t.entries.find? fun e => e.2.key == key) = none := by
  rw [List.find?_eq_none]
  rintro ⟨h, s⟩ hmem
  simpa using hnew h s (ht.mem_entries_iff.mp hmem)

/-- A request that is made again is told the same and changes nothing. -/
theorem Answers.start_eq {request : StreamRequest} {now : Instant} {port : Option UInt16}
    (h : t.Answers network request now port) (ht : t.Sound) :
    ((t.start network request now).1.toOption.map (·.2), (t.start network request now).2) =
      (port, t, network) := by
  unfold start
  dsimp only
  cases h with
  | granted h s hopen hkey hfresh =>
      rw [← hkey, ht.find?_key hopen]
      dsimp only
      rw [modify_eq_self hopen hfresh]
      rfl
  | denied hnew hscarce =>
      rw [ht.aligned.find?_key_eq_none hnew]
      dsimp only
      cases hreserve : t.arena.reserve? with
      | none => rfl
      | some reserved =>
          obtain ⟨index, arena⟩ := reserved
          have hfull : t.arena.free ≠ [] := by
            intro hfree
            rw [Arena.reserve?, hfree] at hreserve
            cases hreserve
          have hnone := (openPair_eq_none_iff _).mpr (hscarce.resolve_left hfull)
          dsimp only
          rw [hnone, Arena.giveBack_of_reserve? hreserve]
          rfl

/-- What a request is told stays, whatever is opened under other keys. -/
theorem Answers.start {request other : StreamRequest} {now : Instant} {port : Option UInt16}
    (h : t.Answers network request now port) (ht : t.Sound)
    (hkey : storedKey request.key ≠ storedKey other.key) :
    (t.start network other now).2.1.Answers (t.start network other now).2.2 request now port := by
  have hscarcer := ht.scarcer_start network other now
  cases h with
  | granted h s hopen hrequest hfresh =>
      obtain ⟨s', hs', -, hsame⟩ := ht.get?_start network other now hopen
      obtain rfl := hsame (by rw [hrequest]; exact hkey)
      exact .granted h s' hs' hrequest hfresh
  | denied hnew hscarce =>
      refine .denied (fun h s hs => ?_) (hscarce.imp hscarcer.free fun hnone pair hpair hopenable => ?_)
      · -- A stream with this key was not opened for the other request, so it was open before.
        intro heq
        exact hnew h s (ht.get?_of_start network other now hs (by rw [heq]; exact hkey)) heq
      · exact hnone pair (hscarcer.range ▸ hpair) (hscarcer.openable hopenable)

end StreamTable

end BorderProxy
