import BorderProxy.Proofs.StreamTable.Peers
import BorderProxy.Proofs.StreamTable.Run

/-! Opposites noted with each other. A search for an opposite notes each of two streams with the other,
whatever the one that is found was noted with before. Where that was a third stream, its own note stays
behind and is answered by none. In no other way does a table come to hold a note that is not answered. -/

namespace BorderProxy.StreamTable

/-- Every note of an opposite is answered by a note with the opposite. -/
def PeersMutual (t : StreamTable) : Prop :=
  ∀ h s p, t.get? h = some s → s.peer = some p → ∃ r, t.get? p = some r ∧ r.peer = some h

/-- Whether looking for the opposite of a stream gives one that is noted with another stream. -/
def TakesOver (t : StreamTable) (h : StreamRef) : Prop :=
  ∃ s p r q, t.get? h = some s ∧ s.peer = none ∧ (t.linkPeer h).1 = some p ∧ t.get? p = some r ∧
    r.peer = some q ∧ q ≠ h

variable {t : StreamTable}

/-! One call. -/

theorem peersMutual_empty (capacity : Nat) (range : PortRange) (devices : List (Ip × Text)) :
    (empty capacity range devices).PeersMutual := by
  intro h s p hs
  have hget := (get?_eq_some_iff.mp hs).2
  simp [empty] at hget

/-- Notes stay mutual where a stream changes in other things. -/
theorem PeersMutual.modify (ht : t.PeersMutual) (h : StreamRef) {change : Stream → Stream}
    (hchange : ∀ s, t.get? h = some s → (change s).peer = s.peer) : (t.modify h change).PeersMutual := by
  -- Every stream is found where it was, with the note that it had.
  have hback : ∀ {g u}, (t.modify h change).get? g = some u →
      ∃ old, t.get? g = some old ∧ old.peer = u.peer := by
    intro g u hu
    rw [get?_modify] at hu
    split at hu
    · rename_i hg
      obtain ⟨old, hold, rfl⟩ := Option.map_eq_some_iff.mp hu
      exact ⟨old, hg ▸ hold, (hchange old hold).symm⟩
    · exact ⟨u, hu, rfl⟩
  have hforth : ∀ {g u}, t.get? g = some u →
      ∃ new, (t.modify h change).get? g = some new ∧ new.peer = u.peer := by
    intro g u hu
    rw [get?_modify]
    by_cases hg : g = h
    · subst hg
      exact ⟨change u, by simp [hu], hchange u hu⟩
    · exact ⟨u, by rw [if_neg hg, hu], rfl⟩
  intro g u p hu hp
  obtain ⟨old, hold, hpeer⟩ := hback hu
  obtain ⟨r, hr, hmutual⟩ := ht g old p hold (hpeer.trans hp)
  obtain ⟨new, hnew, hsame⟩ := hforth hr
  exact ⟨new, hnew, hsame.trans hmutual⟩

theorem PeersMutual.insert (ht : t.PeersMutual) (hslots : t.arena.WellFormed) {s : Stream}
    (hpeer : s.peer = none) {index cursor : Nat} {arena : Arena Stream}
    (hslot : t.arena.insert? s = some (index, arena)) :
    ({ t with arena := arena, cursor := cursor } : StreamTable).PeersMutual := by
  intro g u p hu hp
  rcases get?_of_insert hslots hslot hu with rfl | hold
  · rw [hpeer] at hp
    cases hp
  · obtain ⟨r, hr, hmutual⟩ := ht g u p hold hp
    exact ⟨r, get?_insert_of_get? hslots hslot hr, hmutual⟩

theorem PeersMutual.start (ht : t.PeersMutual) (hslots : t.arena.WellFormed) (network : Network)
    (request : StreamRequest) (now : Instant) : (t.start network request now).2.1.PeersMutual := by
  have hstarted := t.started network request now
  generalize t.start network request now = result at hstarted ⊢
  cases hstarted with
  | refreshed h s hfind => exact ht.modify h fun _ _ => rfl
  | full hnew hfree => exact ht
  | exhausted hnew hopen => exact ht
  | unwatched fault cursor hnew => exact ht
  | opened index port arena cursor hnew hport hslot => exact ht.insert hslots rfl hslot

/-- A stream that is closed takes the note of it along, and no other. -/
theorem PeersMutual.remove (ht : t.PeersMutual) (network : Network) (h : StreamRef) :
    (t.remove network h).2.1.PeersMutual := by
  cases hopen : t.get? h with
  | none =>
      rw [remove_of_stale hopen]
      exact ht
  | some closed =>
      intro g s p hs hp
      rw [get?_remove hopen] at hs
      split at hs
      · cases hs
      · rename_i hg
        obtain ⟨old, hold, rfl⟩ := Option.map_eq_some_iff.mp hs
        obtain ⟨hne, hpeer⟩ := peer_forgetPeer hp
        obtain ⟨r, hr, hmutual⟩ := ht g old p hold hpeer
        have hkept : (forgetPeer h r).peer = some g := by
          unfold forgetPeer
          rw [hmutual, if_neg fun heq => hg (Option.some.inj heq)]
          exact hmutual
        exact ⟨forgetPeer h r, by rw [get?_remove hopen, if_neg hne, hr]; rfl, hkept⟩

/-- Where two streams were noted with none, they may be noted with each other. -/
theorem PeersMutual.note (ht : t.PeersMutual) {h p : StreamRef} {s r : Stream} (hs : t.get? h = some s)
    (hr : t.get? p = some r) (hne : p ≠ h) (hpeer : s.peer = none) (hfree : r.peer = none) :
    ((t.modify h (Stream.withPeer (some p))).modify p (Stream.withPeer (some h))).PeersMutual := by
  intro g u q hu hq
  simp only [get?_modify, if_neg hne, hr, hs] at hu ⊢
  by_cases hgp : g = p
  · subst hgp
    simp only [if_true, Option.map_some, Option.some.injEq] at hu
    subst hu
    obtain rfl : h = q := Option.some.inj hq
    exact ⟨s.withPeer (some g), by simp [hne.symm], rfl⟩
  · by_cases hgh : g = h
    · subst hgh
      simp only [if_neg hgp, if_true, Option.map_some, Option.some.injEq] at hu
      subst hu
      obtain rfl : p = q := Option.some.inj hq
      exact ⟨r.withPeer (some g), by simp, rfl⟩
    · -- No other stream was noted with either of the two.
      simp only [if_neg hgp, if_neg hgh] at hu
      obtain ⟨x, hx, hmutual⟩ := ht g u q hu hq
      have hqh : q ≠ h := by
        rintro rfl
        rw [hs, Option.some.injEq] at hx
        rw [← hx, hpeer] at hmutual
        cases hmutual
      have hqp : q ≠ p := by
        rintro rfl
        rw [hr, Option.some.injEq] at hx
        rw [← hx, hfree] at hmutual
        cases hmutual
      exact ⟨x, by rw [if_neg hqp, if_neg hqh, hx], hmutual⟩

/-- Where the second of two streams was noted with a third, that one's note is no longer answered. -/
theorem PeersMutual.not_mutual_note (ht : t.PeersMutual) {h p q : StreamRef} {r : Stream}
    (hr : t.get? p = some r) (hne : p ≠ h) (hnoted : r.peer = some q) (hqh : q ≠ h) (hqp : q ≠ p) :
    ¬ ((t.modify h (Stream.withPeer (some p))).modify p (Stream.withPeer (some h))).PeersMutual := by
  intro hafter
  obtain ⟨x, hx, hback⟩ := ht p r q hr hnoted
  have hx' : ((t.modify h (Stream.withPeer (some p))).modify p
      (Stream.withPeer (some h))).get? q = some x := by
    rw [get?_modify, if_neg hqp, get?_modify, if_neg hqh, hx]
  obtain ⟨y, hy, hmutual⟩ := hafter q x p hx' hback
  rw [get?_modify, if_pos rfl, get?_modify, if_neg hne, hr, Option.map_some, Option.some.injEq] at hy
  rw [← hy] at hmutual
  exact hqh (Option.some.inj hmutual).symm

/-- A take-over is about three streams of one section. -/
theorem TakesOver.three_streams {h : StreamRef} (htakes : t.TakesOver h) (ht : t.PeersOppose)
    (haligned : t.Aligned) :
    ∃ p q s r u, t.get? h = some s ∧ t.get? p = some r ∧ t.get? q = some u ∧ h ≠ p ∧ p ≠ q ∧ q ≠ h ∧
      r.key.opposes s.key = true ∧ u.key.opposes r.key = true := by
  obtain ⟨s, p, r, q, hs, hpeer, hfound, hr, hnoted, hqh⟩ := htakes
  obtain ⟨u, hu, hopposes⟩ := ht p r q hr hnoted
  have hlinked := ht.linked haligned h
  generalize t.linkPeer h = result at hlinked hfound
  cases hlinked with
  | stale hstale => cases hfound
  | noted s' p' hs' hpeer' =>
      rw [hs, Option.some.injEq] at hs'
      rw [← hs', hpeer] at hpeer'
      cases hpeer'
  | alone s' hs' hpeer' hnone => cases hfound
  | found s' r' p' hs' hpeer' hne hr' hopposes' =>
      obtain rfl := Option.some.inj hfound
      rw [hs, Option.some.injEq] at hs'
      rw [hr, Option.some.injEq] at hr'
      subst hs' hr'
      exact ⟨p', q, s, r, u, hs, hr, hu, hne.symm, ne_of_opposes hr hu
        (StreamKey.opposes_symm hopposes), hqh, hopposes', hopposes⟩

/-- Looking for an opposite keeps the notes mutual exactly if it takes over none. -/
theorem PeersMutual.linkPeer_iff (ht : t.PeersMutual) (hopposed : t.PeersOppose)
    (haligned : t.Aligned) (h : StreamRef) : (t.linkPeer h).2.PeersMutual ↔ ¬ t.TakesOver h := by
  have hlinked := hopposed.linked haligned h
  unfold TakesOver
  generalize t.linkPeer h = result at hlinked ⊢
  cases hlinked with
  | stale hstale =>
      refine iff_of_true ht ?_
      rintro ⟨s, p, r, q, hs, -⟩
      rw [hstale] at hs
      cases hs
  | noted s p hs hpeer =>
      refine iff_of_true ht ?_
      rintro ⟨s', p', r, q, hs', hpeer', -⟩
      rw [hs, Option.some.injEq] at hs'
      rw [← hs', hpeer] at hpeer'
      cases hpeer'
  | alone s hs hpeer hnone =>
      refine iff_of_true (ht.modify h fun s' hs' => ?_) ?_
      · rw [hs, Option.some.injEq] at hs'
        rw [← hs', hpeer]
        rfl
      · rintro ⟨s', p, r, q, hs', hpeer', hfound, -⟩
        cases hfound
  | found s r p hs hpeer hne hr hopposes =>
      constructor
      · rintro hafter ⟨s', p', r', q, hs', hpeer', hfound, hr', hnoted, hqh⟩
        obtain rfl := Option.some.inj hfound
        rw [hr, Option.some.injEq] at hr'
        subst hr'
        obtain ⟨u, hu, hkey⟩ := hopposed p r q hr hnoted
        exact ht.not_mutual_note hr hne hnoted hqh (ne_of_opposes hu hr hkey) hafter
      · intro hnone
        cases hfree : r.peer with
        | none => exact ht.note hs hr hne hpeer hfree
        | some q =>
            refine absurd ⟨s, p, r, q, hs, hpeer, rfl, hr, hfree, ?_⟩ hnone
            -- A note with the stream itself would have been answered by it.
            rintro rfl
            obtain ⟨x, hx, hback⟩ := ht p r q hr hfree
            rw [hs, Option.some.injEq] at hx
            rw [← hx, hpeer] at hback
            cases hback

theorem PeersMutual.call {state : StreamTable × Network} (ht : state.1.PeersMutual)
    (hsound : state.1.Sound) {c : Call} (hc : ∀ h, c ≠ .linkPeer h) : (call state c).1.PeersMutual := by
  cases c with
  | start request now => exact ht.start hsound.slots state.2 request now
  | remove h => exact ht.remove state.2 h
  | linkPeer h => exact absurd rfl (hc h)
  | surroundings network => exact ht

/-! Runs. -/

theorem PeersOppose.call {state : StreamTable × Network} (ht : state.1.PeersOppose)
    (hsound : state.1.Sound) (c : Call) : (call state c).1.PeersOppose := by
  cases c with
  | start request now => exact ht.start hsound.slots state.2 request now
  | remove h => exact ht.remove state.2 h
  | linkPeer h => exact ht.linkPeer hsound.aligned h
  | surroundings network => exact ht

theorem opposed_run {s : StreamTable × Network} (hsound : s.1.Sound) (hs : s.1.PeersOppose)
    (calls : List Call) : (calls.foldl call s).1.Sound ∧ (calls.foldl call s).1.PeersOppose := by
  induction calls generalizing s with
  | nil => exact ⟨hsound, hs⟩
  | cons c rest ih => exact ih (sound_call hsound c) (hs.call hsound c)

/-- In a run from a table without streams all notes of opposites are mutual at every moment, exactly if no
search for an opposite takes one over from another stream; and wherever one does, there are three streams
of one section. -/
theorem run_mutual_iff (capacity : Nat) (range : PortRange) (devices : List (Ip × Text))
    (network : Network) (calls : List Call) :
    let after := fun k => ((calls.take k).foldl call (empty capacity range devices, network)).1
    ((∀ k, (after k).PeersMutual) ↔
      ∀ k h, calls[k]? = some (.linkPeer h) → ¬ (after k).TakesOver h) ∧
    ∀ k h, (after k).TakesOver h → ∃ p q s r u, (after k).get? h = some s ∧ (after k).get? p = some r ∧
      (after k).get? q = some u ∧ h ≠ p ∧ p ≠ q ∧ q ≠ h ∧
      r.key.opposes s.key = true ∧ u.key.opposes r.key = true := by
  intro after
  have hinvariants : ∀ k, (after k).Sound ∧ (after k).PeersOppose := fun k =>
    opposed_run (sound_empty capacity range devices) (peersOppose_empty capacity range devices) _
  have hsucc : ∀ {k c}, calls[k]? = some c → after (k + 1) =
      (call ((calls.take k).foldl call (empty capacity range devices, network)) c).1 := by
    intro k c hc
    simp only [after, List.take_add_one, hc, Option.toList_some, List.foldl_append]
    rfl
  refine ⟨⟨fun hmutual k h hc => ?_, fun hnever k => ?_⟩, fun k h htakes => ?_⟩
  · obtain ⟨hsound, hopposed⟩ := hinvariants k
    have hnext := hmutual (k + 1)
    rw [hsucc hc] at hnext
    exact ((hmutual k).linkPeer_iff hopposed hsound.aligned h).mp hnext
  · induction k with
    | zero => exact peersMutual_empty capacity range devices
    | succ k ih =>
        cases hc : calls[k]? with
        | none =>
            have hsame : after (k + 1) = after k := by
              simp [after, List.take_add_one, hc]
            rw [hsame]
            exact ih
        | some c =>
            obtain ⟨hsound, hopposed⟩ := hinvariants k
            rw [hsucc hc]
            cases c with
            | linkPeer h => exact (ih.linkPeer_iff hopposed hsound.aligned h).mpr (hnever k h hc)
            | start request now => exact ih.call hsound nofun
            | remove h => exact ih.call hsound nofun
            | surroundings network => exact ih.call hsound nofun
  · obtain ⟨hsound, hopposed⟩ := hinvariants k
    exact htakes.three_streams hopposed hsound.aligned

/-! A call with three streams of one section: its second party has answered twice. -/

namespace ForkedCall

def request (client : Text) (direction : Direction) (port : UInt16) : StreamRequest :=
  { key := ⟨.ofText "c@h".toList, direction, 0, client⟩
    localIp := .v4 127 0 0 1
    remote := ⟨.v4 10 0 0 1, port⟩
    dejitter := 0 }

def calls : List Call :=
  [.start (request "ua-a".toList .outgoing 4000) 0, .start (request "ua-b".toList .incoming 5000) 0,
    .start (request "ua-c".toList .outgoing 6000) 0, .linkPeer ⟨0, 0⟩, .linkPeer ⟨2, 0⟩]

end ForkedCall

open ForkedCall in
/-- The third stream takes over the opposite of the first one, which stays noted with it. -/
theorem forked_call_leaves_note :
    let t := (calls.foldl call (empty 3 ⟨7070, 7079⟩ [], {})).1
    (t.get? ⟨0, 0⟩).map Stream.peer = some (some ⟨1, 0⟩) ∧
      (t.get? ⟨1, 0⟩).map Stream.peer = some (some ⟨2, 0⟩) ∧ ¬ t.PeersMutual := by
  intro t
  have hfirst : (t.get? ⟨0, 0⟩).map Stream.peer = some (some ⟨1, 0⟩) := by decide +kernel
  have hsecond : (t.get? ⟨1, 0⟩).map Stream.peer = some (some ⟨2, 0⟩) := by decide +kernel
  refine ⟨hfirst, hsecond, fun hmutual => ?_⟩
  obtain ⟨s, hs, hpeer⟩ := Option.map_eq_some_iff.mp hfirst
  obtain ⟨r, hr, hback⟩ := hmutual ⟨0, 0⟩ s ⟨1, 0⟩ hs hpeer
  rw [hr, Option.map_some, hback] at hsecond
  exact absurd hsecond (by decide)

end BorderProxy.StreamTable
