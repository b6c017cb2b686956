import Mathlib.Data.List.Induction
import BorderProxy.Proofs.Relay.Lasting
import BorderProxy.Proofs.Relay.Run

/-! The commands that a relay is given, and the calls that they are about. A command opens or closes streams
of one call. Notes of opposites never lead from one call to another, so the streams of all other calls stay
as they are, and so do the packets that wait for them. Once a call has been stopped both ways it has no
stream left, and no packet waits that belonged to one. -/

namespace BorderProxy

/-- A command to the relay about a call. -/
inductive RelayCommand where
  | start (request : StreamRequest)
  | stop (callId : CallId) (direction : Direction)

namespace RelayCommand

def callId : RelayCommand → CallId
  | .start request => request.key.callId
  | .stop callId _ => callId

/-- What a command does to a relay and to the network. -/
def carryOut (now : Instant) : RelayCommand → Relay × Network → Relay × Network
  | .start request, (r, network) => (r.start network request now).2
  | .stop callId direction, (r, network) => (r.stop network callId direction .all).2

def carryOutAll (now : Instant) (commands : List RelayCommand) (state : Relay × Network) :
    Relay × Network :=
  commands.foldl (fun state command => command.carryOut now state) state

/-- The commands that stop a call both ways. -/
def stopBoth (callId : CallId) : List RelayCommand :=
  [.stop callId .incoming, .stop callId .outgoing]

theorem callId_stopBoth (callId : CallId) : ∀ command ∈ stopBoth callId, command.callId = callId := by
  simp [stopBoth, RelayCommand.callId]

end RelayCommand

/-! Relays as runs leave them. -/

namespace StreamTable

theorem lasting_peersOppose : Lasting fun t => t.Sound ∧ t.PeersOppose where
  modify h _ hchange ht :=
    ⟨ht.1.modify h fun s => (hchange s).1,
      ht.2.modify h fun s => ⟨(hchange s).1.1.symm, (hchange s).2.1⟩⟩
  linkPeer h ht := ⟨ht.1.linkPeer h, ht.2.linkPeer ht.1.aligned h⟩
  remove network h ht := ⟨ht.1.remove network h, ht.2.remove network h⟩

theorem lasting_closed : Lasting fun t => ∀ h, t.isOpen h = false where
  modify {t} h change _ ht r := (isOpen_modify t h r change).trans (ht r)
  linkPeer {t} h ht r := (isOpen_linkPeer t h r).trans (ht r)
  remove {t} network h ht r := by rw [isOpen_remove, ht r, Bool.false_and]

end StreamTable

namespace Relay

/-- What holds of a relay after every run. -/
structure Tidy (r : Relay) : Prop where
  ready : ∃ l, r.Ready l
  peers : r.table.PeersOppose
  closed : r.running = false → ∀ h, r.table.isOpen h = false

/-- A relay that runs lead to. -/
def Reachable (r : Relay) : Prop :=
  ∃ (m : MediaSettings) (devices : List (Ip × Text)) (now : Instant) (steps : List RelayStep),
    r = ((idle m devices now).run steps).2

theorem running_teardownAll (handles : List StreamRef) (r : Relay) (network : Network) :
    (teardownAll handles r network).1.running = r.running := by
  induction handles generalizing r network with
  | nil => rfl
  | cons h rest ih => exact ih _ _

theorem running_sendNow (r : Relay) (network : Network) (p : DelayedPacket) :
    (r.sendNow network p).2.1.running = r.running := running_teardownAll _ _ network

/-- A relay that reads a packet goes on as before, or it ends and has no stream left. -/
theorem running_or_closed_receive {r : Relay} (ht : r.table.Sound) (network : Network) (h : StreamRef)
    (leg : Leg) (payload : List UInt8) (now : Instant) :
    (r.receive network h leg payload now).2.1.running = r.running ∨
      ∀ x, (r.receive network h leg payload now).2.1.table.isOpen x = false := by
  unfold receive
  split
  · exact .inl rfl
  · generalize arrival h _ leg payload now = arrived
    obtain ⟨packet, jitter⟩ := arrived
    cases packet with
    | none =>
        have hnoted : (r.note h jitter now).table.Sound := ht.modify h fun _ => ⟨rfl, rfl, rfl⟩
        exact .inr (isOpen_shutdown hnoted network)
    | some p =>
        refine .inl ?_
        dsimp only
        split
        · rfl
        · exact running_sendNow _ network p

/-- A relay that ends in a step has no stream left. -/
theorem running_or_closed_perform {r : Relay} (ht : r.table.Sound) (network : Network) (now : Instant)
    (act : RelayAct) :
    (r.perform network now act).2.2.running = r.running ∨
      ∀ x, (r.perform network now act).2.2.table.isOpen x = false := by
  cases act with
  | start request =>
      refine .inl ?_
      show (r.start network request now).2.1.running = r.running
      unfold Relay.start
      split <;> rfl
  | stop callId direction selector =>
      refine .inl ?_
      show (r.stop network callId direction selector).2.1.running = r.running
      unfold Relay.stop
      split
      · rfl
      · split
        · rfl
        · exact running_teardownAll _ r network
  | snapshot => exact .inl rfl
  | read h leg payload => exact running_or_closed_receive ht network h leg payload now
  | flush => exact .inl (running_teardownAll _ _ network)
  | sweep => exact .inl (running_teardownAll _ r network)
  | shutdown => exact .inr (isOpen_shutdown ht network)

/-- Every step keeps what lasts, if opening a stream keeps it. -/
theorem lasts_perform {P : StreamTable → Prop} (hP : StreamTable.Lasting P) {r : Relay} (hr : P r.table)
    (network : Network) (now : Instant)
    (hstart : ∀ request, P (r.start network request now).2.1.table) (act : RelayAct) :
    P (r.perform network now act).2.2.table := by
  cases act with
  | start request => exact hstart request
  | stop callId direction selector => exact lasts_stop hP hr network callId direction selector
  | snapshot => exact hr
  | read h leg payload => exact lasts_receive hP hr network now h leg payload
  | flush => exact lasts_sendDue hP hr network now
  | sweep => exact lasts_sweep hP hr network now
  | shutdown => exact lasts_shutdown hP hr network

theorem Tidy.perform {r : Relay} (h : r.Tidy) (network : Network) (now : Instant) (act : RelayAct) :
    (r.perform network now act).2.2.Tidy := by
  obtain ⟨l, hready⟩ := h.ready
  obtain ⟨out, kept, hmoves⟩ := hready.perform network now act
  refine ⟨⟨_, hmoves.ready⟩, ?_, ?_⟩
  · refine (lasts_perform StreamTable.lasting_peersOppose ⟨hready.table, h.peers⟩ network now
      (fun request => ?_) act).2
    unfold Relay.start
    split
    · exact ⟨hready.table, h.peers⟩
    · exact ⟨hready.table.start network request now,
        h.peers.start hready.table.slots network request now⟩
  · intro hstopped
    rcases running_or_closed_perform hready.table network now act with hsame | hended
    · rw [hsame] at hstopped
      have hclosed := h.closed hstopped
      refine lasts_perform StreamTable.lasting_closed hclosed network now (fun request => ?_) act
      unfold Relay.start
      rw [hstopped]
      exact hclosed
    · exact hended

theorem Tidy.run {r : Relay} (h : r.Tidy) (steps : List RelayStep) : (r.run steps).2.Tidy := by
  induction steps using List.reverseRecOn with
  | nil => exact h
  | append_singleton rest s ih =>
      rw [run_concat]
      exact ih.perform s.network s.now s.act

theorem tidy_idle (m : MediaSettings) (devices : List (Ip × Text)) (now : Instant) :
    (idle m devices now).Tidy where
  ready := ⟨_, ready_idle m devices now⟩
  peers := StreamTable.peersOppose_empty _ _ _
  closed h := by cases h

theorem Reachable.tidy {r : Relay} (h : r.Reachable) : r.Tidy := by
  obtain ⟨m, devices, now, steps, rfl⟩ := h
  exact (tidy_idle m devices now).run steps

namespace Reachable

variable {r : Relay} (h : r.Reachable) (network : Network) (now : Instant)

include h

theorem perform (act : RelayAct) : (r.perform network now act).2.2.Reachable := by
  obtain ⟨m, devices, first, steps, rfl⟩ := h
  refine ⟨m, devices, first, steps ++ [⟨act, network, now⟩], ?_⟩
  rw [run_concat]
  rfl

theorem receiveAt (endpoint : Endpoint) (payload : List UInt8) :
    ((r.receiveAt network endpoint payload now).getD ([], r, network)).2.1.Reachable := by
  cases hresult : r.receiveAt network endpoint payload now with
  | none => exact h
  | some result =>
      obtain ⟨⟨stream, leg⟩, -, rfl⟩ := Option.map_eq_some_iff.mp hresult
      exact h.perform network now (.read stream leg payload)

/-- What the relay does by itself is made of steps. -/
theorem settle : (r.settle network now).2.1.Reachable := by
  have hdue : (r.sendDue network now).2.1.Reachable := h.perform network now .flush
  unfold Relay.settle
  split
  · exact h
  · generalize r.sendDue network now = due at hdue ⊢
    obtain ⟨attempts, after, network'⟩ := due
    dsimp only
    split
    · exact hdue.perform network' now .sweep
    · exact hdue

end Reachable

end Relay

/-! Streams of other calls. -/

namespace StreamTable

variable {t : StreamTable}

theorem Aligned.mem_handlesWhere_iff (ht : t.Aligned) {p : Stream → Bool} {h : StreamRef} :
    h ∈ t.handlesWhere p ↔ ∃ s, t.get? h = some s ∧ p s = true := by
  rw [handlesWhere, List.mem_map]
  constructor
  · rintro ⟨⟨x, s⟩, hmem, rfl⟩
    obtain ⟨hmem, hp⟩ := List.mem_filter.mp hmem
    exact ⟨s, ht.mem_entries_iff.mp hmem, hp⟩
  · rintro ⟨s, hs, hp⟩
    exact ⟨(h, s), List.mem_filter.mpr ⟨ht.mem_entries_iff.mpr hs, hp⟩, rfl⟩

theorem mem_selected_iff (ht : t.Aligned) {callId : CallId} {direction : Direction} {h : StreamRef} :
    h ∈ t.selected callId direction .all ↔
      ∃ s, t.get? h = some s ∧ s.key.callId = callId ∧ s.key.direction = direction := by
  rw [selected, ht.mem_handlesWhere_iff]
  simp [Stream.isSelected, SectionChoice.matches]

/-- What is open after a stream was closed was open before, in its place. -/
theorem exists_get?_remove {network : Network} {h x : StreamRef} {s : Stream}
    (hs : (t.remove network h).2.1.get? x = some s) : ∃ old, t.get? x = some old ∧ old.SamePlace s := by
  cases hopen : t.get? h with
  | none =>
      rw [remove_of_stale hopen] at hs
      exact ⟨s, hs, rfl, rfl, rfl⟩
  | some closed =>
      rw [get?_remove hopen] at hs
      split at hs
      · cases hs
      · obtain ⟨old, hold, rfl⟩ := Option.map_eq_some_iff.mp hs
        exact ⟨old, hold, samePlace_forgetPeer h old⟩

/-- A table without streams of a call in a direction. -/
def IsFree (callId : CallId) (direction : Direction) (t : StreamTable) : Prop :=
  ∀ h s, t.get? h = some s → ¬(s.key.callId = callId ∧ s.key.direction = direction)

theorem lasting_isFree (callId : CallId) (direction : Direction) : Lasting (IsFree callId direction) := by
  have hmodify : ∀ {t : StreamTable} (h : StreamRef) {change : Stream → Stream},
      (∀ s : Stream, s.SamePlace (change s)) → IsFree callId direction t →
        IsFree callId direction (t.modify h change) := by
    intro t h change hchange ht x s hs
    rw [get?_modify] at hs
    split at hs
    · obtain ⟨old, hold, rfl⟩ := Option.map_eq_some_iff.mp hs
      rw [← (hchange old).1]
      exact ht _ old hold
    · exact ht x s hs
  refine ⟨fun h _ hchange ht => hmodify h (fun s => (hchange s).1) ht, fun {t} h ht => ?_,
    fun network h ht x s hs => ?_⟩
  · exact linkPeer_keeps (fun u r peer hu => hmodify r (fun s => ⟨rfl, rfl, rfl⟩) hu) t h ht
  · obtain ⟨old, hold, hkey, -⟩ := exists_get?_remove hs
    rw [← hkey]
    exact ht x old hold

/-- Closing a stream leaves those of other calls as they are, for none of them notes it as its opposite. -/
theorem PeersOppose.get?_remove_of_ne (ht : t.PeersOppose) {h : StreamRef} {closed : Stream}
    (hclosed : t.get? h = some closed) (network : Network) {x : StreamRef} {s : Stream}
    (hs : s.key.callId ≠ closed.key.callId) :
    (t.remove network h).2.1.get? x = some s ↔ t.get? x = some s := by
  have hforget : ∀ {old : Stream}, t.get? x = some old → old.key.callId ≠ closed.key.callId →
      forgetPeer h old = old := by
    intro old hold hne
    refine if_neg fun hpeer => ?_
    obtain ⟨r, hr, hopposes⟩ := ht x old h hold hpeer
    rw [hclosed] at hr
    cases hr
    exact hne (StreamKey.opposes_iff.mp hopposes).1.symm
  rw [get?_remove hclosed]
  by_cases hx : x = h
  · rw [if_pos hx, hx, hclosed]
    refine ⟨nofun, fun heq => ?_⟩
    cases heq
    exact absurd rfl hs
  · rw [if_neg hx, Option.map_eq_some_iff]
    constructor
    · rintro ⟨old, hold, rfl⟩
      rw [← (samePlace_forgetPeer h old).1] at hs
      rwa [hforget hold hs]
    · intro hold
      exact ⟨s, hold, hforget hold hs⟩

/-- Opening a stream leaves those of other calls as they are. -/
theorem Sound.get?_start_of_ne (ht : t.Sound) (network : Network) {request : StreamRequest}
    (now : Instant) {x : StreamRef} {s : Stream} (hs : s.key.callId ≠ request.key.callId) :
    (t.start network request now).2.1.get? x = some s ↔ t.get? x = some s := by
  have hkey : ∀ {k : StreamKey}, k.callId ≠ request.key.callId → k ≠ storedKey request.key := by
    rintro k hk rfl
    exact hk rfl
  constructor
  · exact fun hafter => ht.get?_of_start network request now hafter (hkey hs)
  · intro hbefore
    obtain ⟨s', hs', -, hsame⟩ := ht.get?_start network request now hbefore
    rw [hs', hsame (hkey hs)]

end StreamTable

theorem DelayQueue.Represents.packets_purge {q : DelayQueue} {l : DelayList} (h : q.Represents l)
    (stream : StreamRef) :
    (q.purge stream).2.packets = q.packets.filter fun p => p.stream ≠ stream := by
  rw [(h.purge stream).2.packets_eq, h.packets_eq]
  exact (((InOrder.of_sorted l).filter fun p => p.stream ≠ stream).eq_sorted
    (l := (l.purge stream).2)).symm

namespace Relay

theorem Ready.isOpen_of_mem_packets {r : Relay} {l : DelayList} (h : r.Ready l) {p : DelayedPacket}
    (hp : p ∈ r.queue.packets) : r.table.isOpen p.stream = true := by
  rw [h.queue.packets_eq] at hp
  exact h.isOpen p ((InOrder.of_sorted l).perm.mem_iff.mp hp)

/-- A relay with the streams that another has of all calls but one, and with the packets that wait for
them. -/
structure Spares (callId : CallId) (r after : Relay) : Prop where
  streams : ∀ h s, s.key.callId ≠ callId → (after.table.get? h = some s ↔ r.table.get? h = some s)
  packets : ∀ h s, s.key.callId ≠ callId → r.table.get? h = some s →
    (after.queue.packets.filter fun p => p.stream = h) = r.queue.packets.filter fun p => p.stream = h

namespace Spares

variable {callId : CallId} {r r' after : Relay}

theorem refl (callId : CallId) (r : Relay) : Spares callId r r :=
  ⟨fun _ _ _ => Iff.rfl, fun _ _ _ _ => rfl⟩

theorem trans (h : Spares callId r r') (h' : Spares callId r' after) : Spares callId r after where
  streams x s hs := (h'.streams x s hs).trans (h.streams x s hs)
  packets x s hs hopen :=
    (h'.packets x s hs ((h.streams x s hs).mpr hopen)).trans (h.packets x s hs hopen)

end Spares

theorem spares_teardown {r : Relay} {l : DelayList} (hready : r.Ready l) (hpeers : r.table.PeersOppose)
    (network : Network) {callId : CallId} {h : StreamRef}
    (hcall : ∀ s, r.table.get? h = some s → s.key.callId = callId) :
    Spares callId r (r.teardown network h).1 where
  streams x s hs := by
    show (r.table.remove network h).2.1.get? x = some s ↔ _
    cases hopen : r.table.get? h with
    | none => rw [StreamTable.remove_of_stale hopen]
    | some closed => exact hpeers.get?_remove_of_ne hopen network (by rwa [hcall closed hopen])
  packets x s hs hopen := by
    have hne : x ≠ h := by
      rintro rfl
      exact hs (hcall s hopen)
    show ((r.queue.purge h).2.packets.filter fun p => p.stream = x) = _
    rw [hready.queue.packets_purge, List.filter_filter]
    refine List.filter_congr fun p _ => ?_
    by_cases hp : p.stream = x <;> simp [hp, hne]

theorem spares_teardownAll {r : Relay} {l : DelayList} (hready : r.Ready l)
    (hpeers : r.table.PeersOppose) (network : Network) {callId : CallId} {handles : List StreamRef}
    (hcall : ∀ h ∈ handles, ∀ s, r.table.get? h = some s → s.key.callId = callId) :
    Spares callId r (teardownAll handles r network).1 := by
  induction handles generalizing r l network with
  | nil => exact .refl callId r
  | cons h rest ih =>
      refine (spares_teardown hready hpeers network (hcall h List.mem_cons_self)).trans ?_
      refine ih (hready.teardown network h) (hpeers.remove network h) _ fun x hx s hs => ?_
      -- A stream that is still open has the key that it had before.
      obtain ⟨old, hold, hkey, -⟩ := StreamTable.exists_get?_remove hs
      rw [← hkey]
      exact hcall x (List.mem_cons_of_mem _ hx) old hold

theorem Tidy.spares_carryOut {r : Relay} (h : r.Tidy) (network : Network) (now : Instant)
    (command : RelayCommand) : Spares command.callId r (command.carryOut now (r, network)).1 := by
  obtain ⟨l, hready⟩ := h.ready
  cases command with
  | start request =>
      show Spares request.key.callId r (r.start network request now).2.1
      unfold Relay.start
      split
      · exact .refl _ r
      · exact ⟨fun x s hs => hready.table.get?_start_of_ne network now hs, fun _ _ _ _ => rfl⟩
  | stop callId direction =>
      show Spares callId r (r.stop network callId direction .all).2.1
      unfold Relay.stop
      split
      · exact .refl _ r
      · split
        · exact .refl _ r
        · refine spares_teardownAll hready h.peers network fun x hx s hs => ?_
          obtain ⟨s', hs', hcall, -⟩ := (StreamTable.mem_selected_iff hready.table.aligned).mp hx
          rw [hs] at hs'
          cases hs'
          exact hcall

theorem Tidy.carryOut {r : Relay} (h : r.Tidy) (network : Network) (now : Instant)
    (command : RelayCommand) : (command.carryOut now (r, network)).1.Tidy := by
  cases command with
  | start request => exact h.perform network now (.start request)
  | stop callId direction => exact h.perform network now (.stop callId direction .all)

/-- Commands about one call leave the streams of all others as they are. -/
theorem Tidy.carryOutAll {r : Relay} (h : r.Tidy) (network : Network) (now : Instant) {callId : CallId}
    {commands : List RelayCommand} (hcall : ∀ command ∈ commands, command.callId = callId) :
    (RelayCommand.carryOutAll now commands (r, network)).1.Tidy ∧
      Spares callId r (RelayCommand.carryOutAll now commands (r, network)).1 := by
  induction commands generalizing r network with
  | nil => exact ⟨h, .refl callId r⟩
  | cons command rest ih =>
      obtain ⟨htidy, hspares⟩ := ih (h.carryOut network now command)
        (command.carryOut now (r, network)).2 fun c hc => hcall c (List.mem_cons_of_mem _ hc)
      have hfirst := h.spares_carryOut network now command
      rw [hcall command List.mem_cons_self] at hfirst
      exact ⟨htidy, hfirst.trans hspares⟩

/-! Streams of a call that was stopped. -/

/-- A relay after another, in which a call is over: it has no stream of it, and no packet waits that
belonged to one. -/
structure Over (callId : CallId) (r after : Relay) : Prop where
  streams : ∀ h s, after.table.get? h = some s → s.key.callId ≠ callId
  packets : ∀ h s, r.table.get? h = some s → s.key.callId = callId →
    ∀ p ∈ after.queue.packets, p.stream ≠ h

theorem exists_get?_teardownAll (handles : List StreamRef) (r : Relay) (network : Network)
    {x : StreamRef} {s : Stream} (hs : (teardownAll handles r network).1.table.get? x = some s) :
    ∃ old, r.table.get? x = some old ∧ old.SamePlace s := by
  induction handles generalizing r network with
  | nil => exact ⟨s, hs, rfl, rfl, rfl⟩
  | cons h rest ih =>
      obtain ⟨next, hnext, hkey, hip, hport⟩ := ih _ _ hs
      obtain ⟨old, hold, hkey', hip', hport'⟩ := StreamTable.exists_get?_remove hnext
      exact ⟨old, hold, hkey'.trans hkey, hip'.trans hip, hport'.trans hport⟩

/-- A call that was stopped in a direction has no stream left in it. -/
theorem Tidy.isFree_stop {r : Relay} (h : r.Tidy) (network : Network) (callId : CallId)
    (direction : Direction) :
    (r.stop network callId direction .all).2.1.table.IsFree callId direction := by
  obtain ⟨l, hready⟩ := h.ready
  have hselected : ∀ {x s}, r.table.get? x = some s → s.key.callId = callId →
      s.key.direction = direction → x ∈ r.table.selected callId direction .all :=
    fun hs hcall hdirection =>
      (StreamTable.mem_selected_iff hready.table.aligned).mpr ⟨_, hs, hcall, hdirection⟩
  rintro x s hs ⟨hcall, hdirection⟩
  unfold Relay.stop at hs
  split at hs
  · rename_i hstopped
    have hclosed := h.closed (by simpa using hstopped) x
    rw [StreamTable.isOpen, hs] at hclosed
    cases hclosed
  · split at hs
    · rename_i hnone
      have hmem := hselected hs hcall hdirection
      rw [hnone] at hmem
      cases hmem
    · obtain ⟨old, hold, hkey, -⟩ := exists_get?_teardownAll _ r network hs
      have hmem := hselected hold (hkey ▸ hcall) (hkey ▸ hdirection)
      have hopen := isOpen_teardownAll (r.table.selected callId direction .all) r network x
      rw [StreamTable.isOpen, hs, List.contains_iff_mem.mpr hmem, Bool.not_true, Bool.and_false] at hopen
      cases hopen

theorem Tidy.isFree_stopBoth {r : Relay} (h : r.Tidy) (network : Network) (now : Instant)
    (callId : CallId) (direction : Direction) :
    (RelayCommand.carryOutAll now (RelayCommand.stopBoth callId) (r, network)).1.table.IsFree callId
      direction := by
  have hfirst := h.isFree_stop network callId .incoming
  cases direction with
  | incoming =>
      exact lasts_stop (StreamTable.lasting_isFree callId .incoming) hfirst
        (r.stop network callId .incoming .all).2.2 callId .outgoing .all
  | outgoing =>
      exact (h.carryOut network now (.stop callId .incoming)).isFree_stop
        (r.stop network callId .incoming .all).2.2 callId .outgoing

/-- Where a call has no stream left it is over. -/
theorem Tidy.over {r after : Relay} (h : after.Tidy) {callId : CallId} (hspares : Spares callId r after)
    (hfree : ∀ direction, after.table.IsFree callId direction) : Over callId r after where
  streams x s hs hcall := hfree s.key.direction x s hs ⟨hcall, rfl⟩
  packets x s hs hcall p hp hstream := by
    obtain ⟨l, hready⟩ := h.ready
    -- A packet that waits belongs to an open stream, so that stream is one of another call.
    obtain ⟨s', hs'⟩ := Option.isSome_iff_exists.mp (hready.isOpen_of_mem_packets hp)
    rw [hstream] at hs'
    have hother : s'.key.callId ≠ callId := fun heq => hfree s'.key.direction x s' hs' ⟨heq, rfl⟩
    have hbefore := (hspares.streams x s' hother).mp hs'
    rw [hs] at hbefore
    cases hbefore
    exact hother hcall

/-- A call that was stopped both ways is over, whatever was done for it before. -/
theorem Tidy.over_stopBoth {r : Relay} (h : r.Tidy) (network : Network) (now : Instant)
    {callId : CallId} {front : List RelayCommand} (hfront : ∀ command ∈ front, command.callId = callId) :
    Over callId r
      (RelayCommand.carryOutAll now (front ++ RelayCommand.stopBoth callId) (r, network)).1 := by
  have hall : ∀ command ∈ front ++ RelayCommand.stopBoth callId, command.callId = callId := by
    intro command hcommand
    rcases List.mem_append.mp hcommand with hmem | hmem
    · exact hfront command hmem
    · exact RelayCommand.callId_stopBoth callId command hmem
  obtain ⟨htidy, hspares⟩ := h.carryOutAll network now hall
  refine htidy.over hspares fun direction => ?_
  rw [RelayCommand.carryOutAll, List.foldl_append]
  exact (h.carryOutAll network now hfront).1.isFree_stopBoth _ now callId direction

end Relay

end BorderProxy
