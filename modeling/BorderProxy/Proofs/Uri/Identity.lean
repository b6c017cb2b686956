import BorderProxy.Proofs.Address.Letters
import BorderProxy.Uri.Identity

/-! The identity of URIs. Two hosts agree by their names or by their known addresses, and agreement passes from one
to the other because names that differ in case only have the same address. So naming the same party is an
equivalence relation whatever is known, and naming the same place is a finer one. -/

namespace BorderProxy

/-- What is known about hosts does not depend on the case in which their names are written. -/
def KnownHosts.IgnoresCase (known : KnownHosts) : Prop :=
  ∀ host host', Text.sameLetters host host' = true → known host = known host'

theorem Resolver.ignoresCase_cached (r : Resolver) (now : Instant) : (r.cached now).IgnoresCase :=
  fun _ _ h => r.cached_congr now h

namespace Uri

theorem sameSchemeAndUser_iff {a b : Uri} :
    a.sameSchemeAndUser b = true ↔ a.schemeOrSip = b.schemeOrSip ∧ a.user = b.user := by
  rw [sameSchemeAndUser, Bool.and_eq_true, beq_iff_eq, beq_iff_eq]

variable {known : KnownHosts} {a b c : Uri}

theorem sameSchemeAndUser_refl (a : Uri) : a.sameSchemeAndUser a = true :=
  sameSchemeAndUser_iff.mpr ⟨rfl, rfl⟩

theorem sameSchemeAndUser_symm (h : a.sameSchemeAndUser b = true) : b.sameSchemeAndUser a = true :=
  sameSchemeAndUser_iff.mpr ((sameSchemeAndUser_iff.mp h).imp Eq.symm Eq.symm)

theorem sameSchemeAndUser_trans (hab : a.sameSchemeAndUser b = true) (hbc : b.sameSchemeAndUser c = true) :
    a.sameSchemeAndUser c = true := by
  obtain ⟨hscheme, huser⟩ := sameSchemeAndUser_iff.mp hab
  obtain ⟨hscheme', huser'⟩ := sameSchemeAndUser_iff.mp hbc
  exact sameSchemeAndUser_iff.mpr ⟨hscheme.trans hscheme', huser.trans huser'⟩

theorem hostsAgree_iff : hostsAgree known a b = true ↔
    Text.sameLetters a.hostText b.hostText = true ∨
      ∃ ip, known a.hostText = some ip ∧ known b.hostText = some ip := by
  unfold hostsAgree
  rw [Bool.or_eq_true]
  refine or_congr Iff.rfl ?_
  cases known a.hostText with
  | none => simp
  | some ip =>
      cases known b.hostText with
      | none => simp
      | some ip' => simpa using eq_comm

theorem hostsAgree_symm (h : hostsAgree known a b = true) : hostsAgree known b a = true := by
  rw [hostsAgree_iff] at h ⊢
  rcases h with h | ⟨ip, ha, hb⟩
  · exact .inl (beq_iff_eq.mpr (beq_iff_eq.mp h).symm)
  · exact .inr ⟨ip, hb, ha⟩

theorem sameParty_iff : sameParty known a b = true ↔
    a.sameSchemeAndUser b = true ∧ hostsAgree known a b = true := Bool.and_eq_true_iff

theorem samePlace_iff : samePlace known a b = true ↔ sameParty known a b = true ∧ a.port = b.port := by
  rw [samePlace, Bool.and_eq_true, beq_iff_eq]

theorem samePartyPinned_iff {pinned : Option Ip} : samePartyPinned known a pinned b = true ↔
    sameParty known a b = true ∨
      ∃ ip, pinned = some ip ∧ a.sameSchemeAndUser b = true ∧ known b.hostText = some ip := by
  unfold samePartyPinned
  rw [Bool.or_eq_true]
  cases pinned <;> simp

section

variable (hknown : known.IgnoresCase)

include hknown

/-- A host with a known address that agrees with another one agrees with it by that address. -/
theorem known_of_hostsAgree {ip : Ip} (hagree : hostsAgree known a b = true) (ha : known a.hostText = some ip) :
    known b.hostText = some ip := by
  rcases hostsAgree_iff.mp hagree with hname | ⟨ip', ha', hb⟩
  · rw [← hknown _ _ hname, ha]
  · rwa [← Option.some.inj (ha'.symm.trans ha)]

theorem hostsAgree_trans (hab : hostsAgree known a b = true) (hbc : hostsAgree known b c = true) :
    hostsAgree known a c = true := by
  rcases hostsAgree_iff.mp hab with hname | ⟨ip, ha, hb⟩
  · rcases hostsAgree_iff.mp hbc with hname' | ⟨ip, hb, hc⟩
    · exact hostsAgree_iff.mpr (.inl (beq_iff_eq.mpr ((beq_iff_eq.mp hname).trans (beq_iff_eq.mp hname'))))
    · exact hostsAgree_iff.mpr (.inr ⟨ip, by rw [hknown _ _ hname, hb], hc⟩)
  · exact hostsAgree_iff.mpr (.inr ⟨ip, ha, known_of_hostsAgree hknown hbc hb⟩)

theorem equivalence_sameParty : Equivalence fun a b => sameParty known a b = true where
  refl a := sameParty_iff.mpr ⟨sameSchemeAndUser_refl a, hostsAgree_iff.mpr (.inl (beq_self_eq_true _))⟩
  symm h := sameParty_iff.mpr ((sameParty_iff.mp h).imp sameSchemeAndUser_symm hostsAgree_symm)
  trans hab hbc := by
    obtain ⟨hsame, hhost⟩ := sameParty_iff.mp hab
    obtain ⟨hsame', hhost'⟩ := sameParty_iff.mp hbc
    exact sameParty_iff.mpr ⟨sameSchemeAndUser_trans hsame hsame', hostsAgree_trans hknown hhost hhost'⟩

theorem equivalence_samePlace : Equivalence fun a b => samePlace known a b = true where
  refl a := samePlace_iff.mpr ⟨(equivalence_sameParty hknown).refl a, rfl⟩
  symm h := samePlace_iff.mpr ((samePlace_iff.mp h).imp (equivalence_sameParty hknown).symm Eq.symm)
  trans hab hbc := by
    obtain ⟨hparty, hport⟩ := samePlace_iff.mp hab
    obtain ⟨hparty', hport'⟩ := samePlace_iff.mp hbc
    exact samePlace_iff.mpr ⟨(equivalence_sameParty hknown).trans hparty hparty', hport.trans hport'⟩

/-- What a stored URI names by its address is named by every URI of the same party. -/
theorem samePartyPinned_of_sameParty {pinned : Option Ip} (hparty : sameParty known b c = true)
    (h : samePartyPinned known a pinned b = true) : samePartyPinned known a pinned c = true := by
  rcases samePartyPinned_iff.mp h with hab | ⟨ip, hpinned, hsame, hb⟩
  · exact samePartyPinned_iff.mpr (.inl ((equivalence_sameParty hknown).trans hab hparty))
  · obtain ⟨hsame', hhost⟩ := sameParty_iff.mp hparty
    exact samePartyPinned_iff.mpr
      (.inr ⟨ip, hpinned, sameSchemeAndUser_trans hsame hsame', known_of_hostsAgree hknown hhost hb⟩)

end

/-- At each moment naming the same party and naming the same place are equivalence relations, and URIs of one place
are of one party. A stored URI with its address names all that it names without the address, and which of the URIs
it names depends on their party only. -/
theorem identities_of_parties (r : Resolver) (now : Instant) :
    Equivalence (fun a b => sameParty (r.cached now) a b = true) ∧
      Equivalence (fun a b => samePlace (r.cached now) a b = true) ∧
        (∀ a b, samePlace (r.cached now) a b = true → sameParty (r.cached now) a b = true) ∧
          ∀ a pinned b,
            (sameParty (r.cached now) a b = true → samePartyPinned (r.cached now) a pinned b = true) ∧
              ∀ b', sameParty (r.cached now) b b' = true →
                samePartyPinned (r.cached now) a pinned b = samePartyPinned (r.cached now) a pinned b' := by
  have hknown := r.ignoresCase_cached now
  refine ⟨equivalence_sameParty hknown, equivalence_samePlace hknown, fun a b h => (samePlace_iff.mp h).1,
    fun a pinned b => ⟨fun h => samePartyPinned_iff.mpr (.inl h), fun b' hparty => ?_⟩⟩
  have hback : sameParty (r.cached now) b' b = true := (equivalence_sameParty hknown).symm hparty
  exact Bool.eq_iff_iff.mpr
    ⟨samePartyPinned_of_sameParty hknown hparty, samePartyPinned_of_sameParty hknown hback⟩

end Uri

end BorderProxy
