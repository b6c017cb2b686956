import BorderProxy.Proofs.Registration.Table
import BorderProxy.Proofs.Uri.Reading

/-! Bindings stored twice. A table is meant to hold one binding for each pair of a registered URI and a
contact. An upsert writes over the lowest binding that matches, and what matches depends on the known
addresses: a binding of another host in a lower slot may match as well, once both hosts are known to have
one address. It is written over then, and the binding itself stays behind as a second one of its pair. In
no other way does a table come to hold two bindings of one pair. -/

namespace BorderProxy

namespace Registration

/-- Whether the registered URIs and the contacts of two bindings are written alike. -/
def Twins (a b : Registration) : Prop :=
  a.registered.text = b.registered.text ∧ a.contact.text = b.contact.text

/-- A binding of URIs that were read, as the messages give them. -/
structure IsRead (r : Registration) : Prop where
  registered : ∃ t, Uri.read t = some r.registered
  contact : ∃ t, Uri.read t = some r.contact

variable {a b : Registration}

theorem Twins.symm (h : a.Twins b) : b.Twins a := ⟨h.1.symm, h.2.symm⟩

theorem samePlace_self (known : KnownHosts) (u : Uri) : Uri.samePlace known u u = true := by
  simp [Uri.samePlace, Uri.sameParty, Uri.sameSchemeAndUser, Uri.hostsAgree, Text.sameLetters]

/-- A binding matches its twin, whatever is known about hosts. -/
theorem Twins.binds (h : a.Twins b) (ha : a.IsRead) (hb : b.IsRead) (known : KnownHosts) :
    a.binds known b.registered (some b.contact) = true := by
  obtain ⟨t, ht⟩ := ha.registered
  obtain ⟨s, hs⟩ := hb.registered
  obtain ⟨t', ht'⟩ := ha.contact
  obtain ⟨s', hs'⟩ := hb.contact
  rw [Registration.binds, Uri.eq_of_text_eq ht hs h.1, Uri.eq_of_text_eq ht' hs' h.2]
  simp [samePlace_self]

end Registration

namespace Registrations

variable {known : KnownHosts} {r : Registration} {t t' : Registrations}

/-- No two slots hold bindings of one pair. -/
def Distinct (t : Registrations) : Prop :=
  ∀ i j a b, t.get? i = some a → t.get? j = some b → a.Twins b → i = j

/-- Whether an upsert of `r` writes over another binding while the one of the same pair stays. -/
def Bypasses (known : KnownHosts) (r : Registration) (t : Registrations) : Prop :=
  ∃ i e, t.get? i = some e ∧ e.Twins r ∧ ∃ j < i, t.Binds known r j

/-- A table of bindings whose URIs were read. -/
def AllRead (t : Registrations) : Prop := ∀ i e, t.get? i = some e → e.IsRead

/-! One call. -/

theorem Distinct.of_get? (h : t.Distinct) (hsub : ∀ i e, t'.get? i = some e → t.get? i = some e) :
    t'.Distinct :=
  fun i j a b ha hb => h i j a b (hsub i a ha) (hsub j b hb)

theorem AllRead.twin_binds (ht : t.AllRead) (hr : r.IsRead) {i : Nat} {e : Registration}
    (he : t.get? i = some e) (htwin : e.Twins r) (known : KnownHosts) : t.Binds known r i :=
  ⟨e, he, htwin.binds (ht i e he) hr known⟩

/-- The slot that is written holds the only twin of the binding exactly if the upsert bypasses none. -/
theorem distinct_writes_iff (ht : t.AllRead) (hr : r.IsRead) (hdistinct : t.Distinct) {index : Nat}
    (hlowest : ∀ j, t.Binds known r j → index ≤ j)
    (hwritten : (∃ j, t.Binds known r j) → t.Binds known r index) (hwrites : t.Writes index r t') :
    t'.Distinct ↔ ¬ t.Bypasses known r := by
  have hself : t'.get? index = some r := by simp [hwrites index]
  have hother : ∀ {j}, j ≠ index → t'.get? j = t.get? j := fun hj => by simp [hwrites _, hj]
  constructor
  · rintro h ⟨i, e, he, htwin, j, hj, hbinds⟩
    have hlt : index < i := Nat.lt_of_le_of_lt (hlowest j hbinds) hj
    have heq := h i index e r ((hother (Nat.ne_of_gt hlt)).trans he) hself htwin
    exact Nat.ne_of_gt hlt heq
  · intro hbypass i j a b ha hb htwin
    -- A twin of the new binding in another slot would have been bypassed.
    have hone : ∀ {k e}, t'.get? k = some e → e.Twins r → k = index := by
      intro k e he htwin
      by_contra hne
      rw [hother hne] at he
      have hbinds := ht.twin_binds hr he htwin known
      have hle := hlowest k hbinds
      exact hbypass ⟨k, e, he, htwin, index, by omega, hwritten ⟨k, hbinds⟩⟩
    by_cases hi : i = index
    · subst hi
      rw [hself] at ha
      cases ha
      exact (hone hb htwin.symm).symm
    · by_cases hj : j = index
      · subst hj
        rw [hself] at hb
        cases hb
        exact hone ha htwin
      · rw [hother hi] at ha
        rw [hother hj] at hb
        exact hdistinct i j a b ha hb htwin

theorem distinct_upsert_iff (hformed : t.WellFormed) (ht : t.AllRead) (hr : r.IsRead)
    (hdistinct : t.Distinct) (known : KnownHosts) :
    (t.call (.upsert known r)).Distinct ↔ ¬ t.Bypasses known r := by
  have hupserted := upserted hformed known r
  simp only [call]
  generalize t.upsert known r = result at hupserted ⊢
  cases hupserted with
  | refreshed hbinds hlowest hwrites =>
      refine distinct_writes_iff ht hr hdistinct (fun j hj => ?_) (fun _ => hbinds) hwrites
      exact Nat.le_of_not_lt fun hlt => hlowest j hlt hj
  | stored hnew hfree hwrites =>
      exact distinct_writes_iff ht hr hdistinct (fun j hj => absurd hj (hnew j))
        (fun hbinds => absurd hbinds (not_exists.mpr hnew)) hwrites
  | full hnew hfull =>
      refine iff_of_true hdistinct ?_
      rintro ⟨i, e, he, htwin, j, hj, hbinds⟩
      exact hnew j hbinds

/-- A call is an upsert, or it only empties slots. -/
theorem upsert_or_empties (t : Registrations) (c : Call) :
    (∃ known r, c = .upsert known r) ∨ ∀ i e, (t.call c).get? i = some e → t.get? i = some e := by
  cases c with
  | upsert known r => exact .inl ⟨known, r, rfl⟩
  | remove index =>
      refine .inr fun i e he => ?_
      simp only [call, Arena.get?_erase] at he
      split at he
      · cases he
      · exact he
  | unregister known registered contact =>
      refine .inr fun i e he => ?_
      simp only [call, unregister, get?_removeWhere] at he
      exact (Option.filter_eq_some_iff.mp he).1
  | age now =>
      refine .inr fun i e he => ?_
      simp only [call, age, get?_removeWhere] at he
      exact (Option.filter_eq_some_iff.mp he).1

theorem allRead_call (ht : t.AllRead) {c : Call} (hc : ∀ known r, c = .upsert known r → r.IsRead)
    (hformed : t.WellFormed) : (t.call c).AllRead := by
  rcases upsert_or_empties t c with ⟨known, r, rfl⟩ | hempties
  · have hr := hc known r rfl
    have hwritten : ∀ {index t'}, t.Writes index r t' → t'.AllRead := by
      intro index t' hwrites i e he
      rw [hwrites i] at he
      split at he
      · cases he
        exact hr
      · exact ht i e he
    have hupserted := upserted hformed known r
    simp only [call]
    generalize t.upsert known r = result at hupserted ⊢
    cases hupserted with
    | refreshed hbinds hlowest hwrites => exact hwritten hwrites
    | stored hnew hfree hwrites => exact hwritten hwrites
    | full hnew hfull => exact ht
  · exact fun i e he => ht i e (hempties i e he)

/-! Runs. -/

/-- A table over a run: its slots are in order and the URIs in it were read. -/
theorem invariants_run {calls : List Call} (hread : ∀ known r, .upsert known r ∈ calls → r.IsRead)
    (hformed : t.WellFormed) (ht : t.AllRead) :
    (calls.foldl call t).WellFormed ∧ (calls.foldl call t).AllRead := by
  induction calls generalizing t with
  | nil => exact ⟨hformed, ht⟩
  | cons c rest ih =>
      have hc : ∀ known r, c = .upsert known r → r.IsRead :=
        fun known r heq => hread known r (heq ▸ List.mem_cons_self)
      exact ih (fun known r hmem => hread known r (List.mem_cons_of_mem c hmem))
        (wellFormed_call hformed c) (allRead_call ht hc hformed)

/-- In a run from an empty table no table ever holds two bindings of one pair, exactly if no upsert of the
run bypasses the binding of its pair to write over one in a lower slot. -/
theorem run_distinct_iff (capacity : Nat) (calls : List Call)
    (hread : ∀ known r, .upsert known r ∈ calls → r.IsRead) :
    let after := fun k => (calls.take k).foldl call (Arena.empty capacity)
    (∀ k, (after k).Distinct) ↔
      ∀ k known r, calls[k]? = some (.upsert known r) → ¬ (after k).Bypasses known r := by
  intro after
  have hinvariants : ∀ k, (after k).WellFormed ∧ (after k).AllRead := by
    intro k
    refine invariants_run (fun known r hmem => hread known r (List.mem_of_mem_take hmem))
      (Arena.wellFormed_empty capacity) ?_
    simp [AllRead]
  have hsucc : ∀ {k c}, calls[k]? = some c → after (k + 1) = (after k).call c := by
    intro k c hc
    simp only [after, List.take_add_one, hc, Option.toList_some, List.foldl_append]
    rfl
  constructor
  · intro hdistinct k known r hc
    have hnext := hdistinct (k + 1)
    rw [hsucc hc] at hnext
    obtain ⟨hformed, ht⟩ := hinvariants k
    have hr := hread known r (List.mem_of_getElem? hc)
    exact (distinct_upsert_iff hformed ht hr (hdistinct k) known).mp hnext
  · intro hnever k
    induction k with
    | zero => simp [after, Distinct]
    | succ k ih =>
        cases hc : calls[k]? with
        | none =>
            have hsame : after (k + 1) = after k := by
              simp [after, List.take_add_one, hc]
            rw [hsame]
            exact ih
        | some c =>
            rw [hsucc hc]
            rcases upsert_or_empties (after k) c with ⟨known, r, rfl⟩ | hempties
            · obtain ⟨hformed, ht⟩ := hinvariants k
              have hr := hread known r (List.mem_of_getElem? hc)
              exact (distinct_upsert_iff hformed ht hr ih known).mpr (hnever k known r hc)
            · exact ih.of_get? hempties

/-! Two hosts of one address. A party registers one contact at both before their address is known; when it
is known, it registers at the second host once more. -/

namespace SharedAddress

def party (host : Text) : Uri := ⟨some .sip, some ⟨"alice".toList, none⟩, ⟨.domain host, none⟩, []⟩

def contact : Uri := ⟨some .sip, some ⟨"alice".toList, none⟩, ⟨.ip (.v4 10 0 0 5), none⟩, []⟩

def binding (host : Text) : Registration :=
  { contact, registered := party host, presented := party host, contactIp := none,
    registeredIp := none, presentedIp := none, returnVia := none, expires := 0 }

def first : Registration := binding "a.example".toList

def second : Registration := binding "b.example".toList

def before : Resolver := { lifeTime := .seconds 60 }

def afterwards : Resolver :=
  (before.insert 0 "a.example".toList (.v4 10 0 0 7)).insert 0 "b.example".toList (.v4 10 0 0 7)

def calls : List Call :=
  [.upsert (before.cached 0) first, .upsert (before.cached 0) second,
    .upsert (afterwards.cached 0) second]

theorem isRead : ∀ known r, .upsert known r ∈ calls → r.IsRead := by
  intro known r hmem
  have hr : r = first ∨ r = second := by
    simp only [calls, List.mem_cons, Call.upsert.injEq, List.not_mem_nil, or_false] at hmem
    rcases hmem with ⟨-, rfl⟩ | ⟨-, rfl⟩ | ⟨-, rfl⟩
    · exact .inl rfl
    · exact .inr rfl
    · exact .inr rfl
  rcases hr with rfl | rfl
  · exact ⟨⟨"sip:alice@a.example".toList, by decide +kernel⟩,
      ⟨"sip:alice@10.0.0.5".toList, by decide +kernel⟩⟩
  · exact ⟨⟨"sip:alice@b.example".toList, by decide +kernel⟩,
      ⟨"sip:alice@10.0.0.5".toList, by decide +kernel⟩⟩

end SharedAddress

open SharedAddress in
/-- The general statement at the run with two hosts of one address. -/
theorem shared_address_distinct_iff :
    (∀ known r, .upsert known r ∈ calls → r.IsRead) ∧
      ((∀ k, ((calls.take k).foldl call (Arena.empty 2)).Distinct) ↔
        ∀ k known r, calls[k]? = some (.upsert known r) →
          ¬ Bypasses known r ((calls.take k).foldl call (Arena.empty 2))) :=
  ⟨isRead, run_distinct_iff 2 calls isRead⟩

open SharedAddress in
/-- The second registration is written over the first one, in front of itself. -/
theorem refresh_leaves_twins :
    let t := calls.foldl call (Arena.empty 2)
    t.get? 0 = some second ∧ t.get? 1 = some second ∧ ¬ Distinct t := by
  have hfirst : (calls.foldl call (Arena.empty 2)).get? 0 = some second := by decide +kernel
  have hsecond : (calls.foldl call (Arena.empty 2)).get? 1 = some second := by decide +kernel
  refine ⟨hfirst, hsecond, fun hdistinct => ?_⟩
  exact absurd (hdistinct 0 1 second second hfirst hsecond ⟨rfl, rfl⟩) (by decide)

end Registrations

end BorderProxy
