import BorderProxy.Proofs.Address.Letters
import Mathlib.Data.List.Nodup

/-! The cache of addresses as its whole history would have it. The cache drops the entries that no longer count
whenever it stores one. An entry that does not count now will not count later, and each name has one entry only, so
nothing that is dropped could answer for its name again, nor hide an older entry that does. So at every moment the
cache knows what the last entry of each name says, of all that were ever stored. -/

namespace BorderProxy.Resolver

/-! Runs. -/

/-- What is done with the cache: an address is stored, a host is asked for, a host is looked up in the network as it
is at the moment, or time passes. -/
inductive Call where
  | insert (host : Text) (ip : Ip)
  | cached (host : Text)
  | resolve (network : Network) (host : Text)
  | wait (d : Duration)

/-- A cache at a moment. -/
structure Session where
  resolver : Resolver
  now : Instant

def Session.after (s : Session) : Call → Session
  | .insert host ip => { s with resolver := s.resolver.insert s.now host ip }
  | .cached _ => s
  | .resolve network host => { s with resolver := (s.resolver.resolve network s.now host).2 }
  | .wait d => { s with now := s.now + d }

/-- Everything that was ever stored, the newest first, under the names as they were written. -/
structure History where
  lifeTime : Duration
  now : Instant
  stored : List CacheEntry := []

namespace History

/-- What a host is known as at a later moment: a literal by itself, any other host by the newest entry of its name,
as long as the entry is not too old. -/
def recalled (h : History) (later : Instant) (host : Text) : Option Ip :=
  match Ip.readHost host with
  | some ip => some ip
  | none =>
    match h.stored.find? fun e => Text.sameLetters e.host host with
    | some e => if later.since e.stored < h.lifeTime then some e.ip else none
    | none => none

def store (h : History) (host : Text) (ip : Ip) : History :=
  { h with stored := ⟨host, ip, h.now⟩ :: h.stored }

/-- The first address of version 4, or else the first address. -/
def choice (ips : List Ip) : Option Ip := (ips.filter Ip.isV4 ++ ips).head?

def after (h : History) : Call → History
  | .insert host ip => h.store host ip
  | .cached _ => h
  | .resolve network host =>
    match h.recalled h.now host, choice (network.addressesOf host) with
    | none, some ip => h.store host ip
    | _, _ => h
  | .wait d => { h with now := h.now + d }

theorem preferred_eq_choice (ips : List Ip) : preferred ips = choice ips := by
  rw [preferred, choice, List.head?_append, List.head?_filter]

theorem recalled_of_literal {host : Text} {ip : Ip} (hread : Ip.readHost host = some ip) (h : History)
    (later : Instant) : h.recalled later host = some ip := by
  rw [recalled, hread]

/-- An entry answers for its own name, and leaves the other names to the older ones. -/
theorem recalled_store {host : Text} (hname : Ip.readHost host = none) (h : History) (later : Instant)
    (stored : Text) (ip : Ip) : (h.store stored ip).recalled later host =
      if Text.sameLetters stored host then if later.since h.now < h.lifeTime then some ip else none
      else h.recalled later host := by
  unfold recalled store
  rw [hname]
  dsimp only
  rw [List.find?_cons]
  cases Text.sameLetters stored host <;> rfl

end History

/-! Entries that no longer count. -/

theorem isFresh_of_later {r : Resolver} {now later : Instant} (hlater : now ≤ later) {e : CacheEntry}
    (h : r.isFresh later e = true) : r.isFresh now e = true := by
  have hage : now.since e.stored ≤ later.since e.stored :=
    Int.toNat_le_toNat (Int.sub_le_sub_right hlater e.stored)
  exact decide_eq_true (Nat.lt_of_le_of_lt hage (of_decide_eq_true h))

theorem cached_of_literal {host : Text} {ip : Ip} (hread : Ip.readHost host = some ip) (r : Resolver)
    (now : Instant) : r.cached now host = some ip := by
  rw [cached, hread]

theorem cached_of_name {host : Text} (hname : Ip.readHost host = none) (r : Resolver) (now : Instant) :
    r.cached now host =
      ((r.entries.find? fun e => e.host == Text.lower host).filter (r.isFresh now)).map (·.ip) := by
  rw [cached, hname]

/-- Where each name has one entry, dropping entries that do not count for a name does not change what it finds. -/
theorem find?_of_kept {entries : List CacheEntry} (hsingle : (entries.map (·.host)).Nodup)
    {kept counts : CacheEntry → Bool} {name : Text}
    (hkept : ∀ e, e.host = name → counts e = true → kept e = true) :
    ((entries.filter kept).find? fun e => e.host == name).filter counts =
      (entries.find? fun e => e.host == name).filter counts := by
  induction entries with
  | nil => rfl
  | cons e rest ih =>
      rw [List.map_cons, List.nodup_cons] at hsingle
      by_cases hname : e.host = name
      · have hfound : ∀ others : List CacheEntry, ((e :: others).find? fun e => e.host == name) = some e :=
          fun _ => List.find?_cons_of_pos (beq_iff_eq.mpr hname)
        rw [hfound]
        by_cases hk : kept e = true
        · rw [List.filter_cons_of_pos hk, hfound]
        · -- The entry is dropped, and it was the only one of its name.
          have hnone : ((rest.filter kept).find? fun e => e.host == name) = none := by
            refine List.find?_eq_none.mpr fun other hother hsame => hsingle.1 ?_
            rw [hname, ← beq_iff_eq.mp hsame]
            exact List.mem_map_of_mem (List.mem_filter.mp hother).1
          rw [List.filter_cons_of_neg hk, hnone, Option.filter_none, Option.filter_some,
            if_neg (mt (hkept e hname) hk)]
      · have hskip : ∀ others : List CacheEntry, ((e :: others).find? fun e => e.host == name) =
            others.find? fun e => e.host == name :=
          fun _ => List.find?_cons_of_neg (mt beq_iff_eq.mp hname)
        rw [hskip, ← ih hsingle.2]
        by_cases hk : kept e = true
        · rw [List.filter_cons_of_pos hk, hskip]
        · rw [List.filter_cons_of_neg hk]

/-- Storing an address with nothing dropped. -/
def keep (r : Resolver) (now : Instant) (host : Text) (ip : Ip) : Resolver :=
  { r with entries := ⟨Text.lower host, ip, now⟩ :: r.entries }

/-- What is dropped when an address is stored is not missed at any later moment. -/
theorem cached_insert_eq_keep {r : Resolver} (hsingle : (r.entries.map (·.host)).Nodup) {now later : Instant}
    (hlater : now ≤ later) (host : Text) (ip : Ip) (other : Text) :
    (r.insert now host ip).cached later other = (r.keep now host ip).cached later other := by
  cases hread : Ip.readHost other with
  | some literal => rw [cached_of_literal hread, cached_of_literal hread]
  | none =>
      rw [cached_of_name hread, cached_of_name hread]
      unfold insert keep
      dsimp only
      rw [List.find?_cons, List.find?_cons]
      cases hsame : Text.lower host == Text.lower other with
      | true => rfl
      | false =>
          refine congrArg (Option.map CacheEntry.ip) (find?_of_kept hsingle fun e hname hcounts => ?_)
          have hother : (e.host != Text.lower host) = true := by
            rw [hname, bne_comm]
            exact bne_iff_ne.mpr (beq_eq_false_iff_ne.mp hsame)
          exact Bool.and_eq_true_iff.mpr ⟨isFresh_of_later hlater hcounts, hother⟩

theorem cached_keep {host : Text} (hname : Ip.readHost host = none) (r : Resolver) (now later : Instant)
    (stored : Text) (ip : Ip) : (r.keep now stored ip).cached later host =
      if Text.sameLetters stored host then if later.since now < r.lifeTime then some ip else none
      else r.cached later host := by
  rw [cached_of_name hname, cached_of_name hname]
  unfold keep Text.sameLetters
  dsimp only
  rw [List.find?_cons]
  cases Text.lower stored == Text.lower host with
  | false => rfl
  | true =>
      dsimp only
      rw [Option.filter_some]
      unfold isFresh
      simp only [decide_eq_true_eq, if_true]
      split <;> rfl

theorem nodup_insert {r : Resolver} (hsingle : (r.entries.map (·.host)).Nodup) (now : Instant) (host : Text)
    (ip : Ip) : ((r.insert now host ip).entries.map (·.host)).Nodup := by
  unfold insert
  dsimp only
  rw [List.map_cons, List.nodup_cons]
  refine ⟨fun hmem => ?_, hsingle.sublist (List.filter_sublist.map _)⟩
  obtain ⟨e, he, hsame⟩ := List.mem_map.mp hmem
  have hother := (Bool.and_eq_true_iff.mp (List.mem_filter.mp he).2).2
  exact bne_iff_ne.mp hother hsame

/-! Steps and runs. -/

/-- A cache that knows, now and at all later moments without another call, what a history recalls. -/
structure Session.Recalls (s : Session) (h : History) : Prop where
  lifeTime : s.resolver.lifeTime = h.lifeTime
  now : s.now = h.now
  single : (s.resolver.entries.map (·.host)).Nodup
  known : ∀ later, s.now ≤ later → ∀ host, s.resolver.cached later host = h.recalled later host

variable {s : Session} {h : History}

theorem recalls_new (lifeTime : Duration) (now : Instant) :
    Session.Recalls ⟨{ lifeTime }, now⟩ { lifeTime, now } where
  lifeTime := rfl
  now := rfl
  single := List.nodup_nil
  known _ _ host := by
    unfold cached History.recalled
    cases Ip.readHost host <;> rfl

theorem Session.Recalls.insert (hs : s.Recalls h) (host : Text) (ip : Ip) :
    Session.Recalls { s with resolver := s.resolver.insert s.now host ip } (h.store host ip) where
  lifeTime := hs.lifeTime
  now := hs.now
  single := nodup_insert hs.single s.now host ip
  known later hlater other := by
    show (s.resolver.insert s.now host ip).cached later other = _
    rw [cached_insert_eq_keep hs.single hlater]
    cases hread : Ip.readHost other with
    | some literal => rw [cached_of_literal hread, History.recalled_of_literal hread]
    | none =>
        rw [cached_keep hread, History.recalled_store hread, hs.known later hlater, hs.lifeTime, hs.now]

/-- A known host is not looked up. Any other one is, and stored if it has an address. -/
theorem Session.Recalls.resolve_eq (hs : s.Recalls h) (network : Network) (host : Text) :
    s.resolver.resolve network s.now host =
      match h.recalled h.now host, History.choice (network.addressesOf host) with
      | some ip, _ => (.ok ip, s.resolver)
      | none, some ip => (.ok ip, s.resolver.insert s.now host ip)
      | none, none => (.error (.unresolvableHost host), s.resolver) := by
  unfold resolve
  rw [hs.known s.now (Int.le_refl _), ← hs.now, History.preferred_eq_choice]
  cases h.recalled s.now host with
  | some ip => rfl
  | none => cases History.choice (network.addressesOf host) <;> rfl

theorem Session.Recalls.after (hs : s.Recalls h) (call : Call) : (s.after call).Recalls (h.after call) := by
  cases call with
  | insert host ip => exact hs.insert host ip
  | cached host => exact hs
  | resolve network host =>
      unfold Session.after History.after
      dsimp only
      rw [hs.resolve_eq]
      cases h.recalled h.now host with
      | some ip => exact hs
      | none =>
          cases History.choice (network.addressesOf host) with
          | some ip => exact hs.insert host ip
          | none => exact hs
  | wait d =>
      refine ⟨hs.lifeTime, congrArg (· + (d : Int)) hs.now, hs.single, fun later hlater host => ?_⟩
      refine hs.known later (Int.le_trans ?_ hlater) host
      exact Int.le_add_of_nonneg_right (Int.natCast_nonneg d)

theorem Session.Recalls.run (hs : s.Recalls h) (calls : List Call) :
    (calls.foldl Session.after s).Recalls (calls.foldl History.after h) := by
  induction calls generalizing s h with
  | nil => exact hs
  | cons call rest ih => exact ih (hs.after call)

/-- After every run a cache that began empty knows what the whole history recalls: the address of a literal, or the
last address stored for the name in any case if less than the life time has passed since. What it drops when it stores
another address changes no later answer. A look-up gives what is known whatever the network says, or else stores and
gives the choice of the network's addresses, or else fails and leaves the cache as it is. -/
theorem run_recalls (lifeTime : Duration) (start : Instant) (calls : List Call) :
    let s := calls.foldl Session.after ⟨{ lifeTime }, start⟩
    let h := calls.foldl History.after { lifeTime, now := start }
    (∀ host, s.resolver.cached s.now host = h.recalled s.now host) ∧
      (∀ stored ip later, s.now ≤ later → ∀ host,
        (s.resolver.insert s.now stored ip).cached later host =
          (s.resolver.keep s.now stored ip).cached later host) ∧
        ∀ network host,
          (∀ ip, s.resolver.cached s.now host = some ip →
            s.resolver.resolve network s.now host = (.ok ip, s.resolver)) ∧
          (s.resolver.cached s.now host = none →
            (∀ ip, History.choice (network.addressesOf host) = some ip →
              s.resolver.resolve network s.now host = (.ok ip, s.resolver.insert s.now host ip)) ∧
            (History.choice (network.addressesOf host) = none →
              s.resolver.resolve network s.now host = (.error (.unresolvableHost host), s.resolver))) := by
  intro s h
  have hs : s.Recalls h := (recalls_new lifeTime start).run calls
  have hknown := hs.known s.now (Int.le_refl _)
  refine ⟨hknown, fun stored ip later hlater host => cached_insert_eq_keep hs.single hlater stored ip host,
    fun network host => ⟨fun ip hip => ?_, fun hnone => ⟨fun ip hip => ?_, fun hfailed => ?_⟩⟩⟩
  · rw [hs.resolve_eq, ← hs.now, ← hknown, hip]
  · rw [hs.resolve_eq, ← hs.now, ← hknown, hnone, hip]
  · rw [hs.resolve_eq, ← hs.now, ← hknown, hnone, hfailed]

end BorderProxy.Resolver
