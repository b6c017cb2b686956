import BorderProxy.Proofs.Proxy.Bindings
import BorderProxy.Proofs.Uri.Identity
import BorderProxy.Proxy.Classification

/-! Contacts as the other side sees them. A contact that goes out is replaced by the place of the presented
URI of the binding that it is reached by. A request for such a contact comes in for the party that the
binding presents, and there for the first binding of the party. -/

namespace BorderProxy

/-! URIs that name the same party. -/

namespace Uri

theorem sameSchemeAndUser_of_samePartyPinned {known : KnownHosts} {a b : Uri} {pinned : Option Ip}
    (h : samePartyPinned known a pinned b = true) : a.sameSchemeAndUser b = true := by
  unfold samePartyPinned at h
  rw [Bool.or_eq_true] at h
  rcases h with h | h
  · exact (Bool.and_eq_true_iff.mp h).1
  · cases pinned with
    | none => cases h
    | some ip => exact (Bool.and_eq_true_iff.mp h).1

/-- What a URI names depends on its scheme, its user and the text of its host. -/
theorem samePartyPinned_congr {b b' : Uri} (hsame : b.sameSchemeAndUser b' = true)
    (hhost : b.hostText = b'.hostText) (known : KnownHosts) (a : Uri) (pinned : Option Ip) :
    samePartyPinned known a pinned b = samePartyPinned known a pinned b' := by
  obtain ⟨hscheme, huser⟩ := sameSchemeAndUser_iff.mp hsame
  unfold samePartyPinned sameParty hostsAgree sameSchemeAndUser
  rw [hscheme, huser, hhost]

theorem samePartyPinned_self (known : KnownHosts) (a : Uri) (pinned : Option Ip) :
    samePartyPinned known a pinned a = true := by
  have hsame : a.sameSchemeAndUser a = true := sameSchemeAndUser_refl a
  have hhost : hostsAgree known a a = true := by simp [hostsAgree, Text.sameLetters]
  unfold samePartyPinned sameParty
  rw [hsame, hhost]
  rfl

end Uri

/-- The presented URI has the scheme and the user of the registered one. -/
theorem Context.sameSchemeAndUser_presented (cx : Context) (registered : Uri) :
    (cx.presented registered).sameSchemeAndUser registered = true := by
  have hkeeps : (cx.presented registered).scheme = registered.scheme ∧
      (cx.presented registered).userInfo = registered.userInfo := by
    unfold Context.presented
    split
    · split <;> exact ⟨rfl, rfl⟩
    · split <;> exact ⟨rfl, rfl⟩
  rw [Uri.sameSchemeAndUser_iff, Uri.schemeOrSip, Uri.schemeOrSip, Uri.user, Uri.user, hkeeps.1, hkeeps.2]
  exact ⟨rfl, rfl⟩

/-- Whether a URI names a registered party, as it is presented or as it is registered. -/
def Registration.isNamedAs (known : KnownHosts) (uri : Uri) (r : Registration) : Bool :=
  r.isPresentedAs known uri || r.isRegisteredAs known uri

theorem Registration.isNamedAs_congr {uri uri' : Uri} (hsame : uri.sameSchemeAndUser uri' = true)
    (hhost : uri.hostText = uri'.hostText) (known : KnownHosts) (r : Registration) :
    r.isNamedAs known uri = r.isNamedAs known uri' := by
  unfold isNamedAs isPresentedAs isRegisteredAs
  rw [Uri.samePartyPinned_congr hsame hhost, Uri.samePartyPinned_congr hsame hhost]

/-- A request whose receiver is nobody registered is for the party that its Request-URI names. -/
theorem directionOfRequest_of_uri {known : KnownHosts} {now : Instant} {t : Registrations} {source : Ip}
    (hsource : t.ofContactIp? now source = none) {request : Request} (hmethod : request.method ≠ .register)
    (hreceiver : ∀ party, request.headers.toUri? = some party →
      ∀ r ∈ t.current now, r.isNamedAs known party = false) :
    directionOfRequest known now t source request =
      ((t.current now).find? (Registration.isNamedAs known request.uri)).map fun r => (.incoming, r) := by
  have hnamed : ∀ r ∈ t.current now,
      r.isNamedBy known request = r.isNamedAs known request.uri := by
    intro r hr
    have hmethods : (request.method != .register) = true := by simpa using hmethod
    unfold Registration.isNamedBy
    rw [hmethods, List.any_cons]
    cases hto : request.headers.toUri? with
    | none => simp [Registration.isNamedAs]
    | some party =>
        have hnone := hreceiver party hto r hr
        rw [Registration.isNamedAs] at hnone
        simp [hnone, Registration.isNamedAs]
  unfold directionOfRequest
  rw [hsource]
  dsimp only
  rw [← List.head?_filter, ← List.head?_filter, List.filter_congr hnamed]

/-- The binding that a contact which goes out is reached by. -/
def Registrations.reachedAt? (known : KnownHosts) (now : Instant) (t : Registrations) (contact : Uri) :
    Option Registration :=
  (t.current now).find? (Registration.isReachedAt known contact)

/-- A contact as it goes out for a binding. -/
def Registration.outward (r : Registration) (contact : Uri) : Uri :=
  { contact with hostPort := r.presented.hostPort }

theorem presentContact_outgoing {known : KnownHosts} {now : Instant} {t : Registrations} {hs : Headers}
    {contact : Uri} (hcontact : hs.contactUri? = some contact) {found : Registration}
    (hfound : t.reachedAt? known now contact = some found)
    (hmoved : found.presented.hostPort ≠ contact.hostPort) :
    presentContact known now t .outgoing hs = hs.withContactUri (found.outward contact) := by
  unfold Registrations.reachedAt? at hfound
  unfold presentContact
  rw [hcontact]
  dsimp only
  rw [hfound]
  exact if_neg hmoved

/-- A contact as it goes out for a binding that was reached under the user it registered names the party
that the binding presents. -/
theorem Registrations.Built.isNamedAs_outward {cx : Context} {t : Registrations} (hbuilt : t.Built cx)
    {known : KnownHosts} {now : Instant} {contact : Uri} {found : Registration}
    (hfound : t.reachedAt? known now contact = some found)
    (halike : found.registered.sameSchemeAndUser found.contact = true) (known' : KnownHosts)
    (r : Registration) :
    r.isNamedAs known' (found.outward contact) = r.isNamedAs known' found.presented := by
  have hreached := List.find?_some hfound
  have hpresented := hbuilt.presented_of_current (List.mem_of_find?_eq_some hfound)
  have hregistered := cx.sameSchemeAndUser_presented found.registered
  rw [← hpresented] at hregistered
  have hcontact := Uri.sameSchemeAndUser_of_samePartyPinned hreached
  have hsame : found.presented.sameSchemeAndUser (found.outward contact) = true :=
    Uri.sameSchemeAndUser_trans hregistered (Uri.sameSchemeAndUser_trans halike hcontact)
  have hhost : (found.outward contact).hostText = found.presented.hostText := rfl
  exact Registration.isNamedAs_congr (Uri.sameSchemeAndUser_symm hsame) hhost known' r

/-- A contact that went out for a binding whose contact has the scheme and the user that were registered
leads back: while the binding lasts, a request to it from elsewhere comes in for the first unexpired binding
of the party that it presents, which is the binding itself unless another one of the party comes before. -/
theorem presented_contact_leads_back {cx : Context} {t : Registrations} (hbuilt : t.Built cx)
    {known : KnownHosts} {now : Instant} {hs : Headers} {contact : Uri}
    (hcontact : hs.contactUri? = some contact) {found : Registration}
    (hfound : t.reachedAt? known now contact = some found)
    (hmoved : found.presented.hostPort ≠ contact.hostPort)
    (halike : found.registered.sameSchemeAndUser found.contact = true)
    {known' : KnownHosts} {now' : Instant} {t' : Registrations} (hlasts : found ∈ t'.current now')
    {source : Ip} (hsource : t'.ofContactIp? now' source = none) {request : Request}
    (hmethod : request.method ≠ .register) (huri : request.uri = found.outward contact)
    (hreceiver : ∀ party, request.headers.toUri? = some party →
      ∀ r ∈ t'.current now', r.isNamedAs known' party = false) :
    presentContact known now t .outgoing hs = hs.withContactUri request.uri ∧
      found.isReachedAt known contact = true ∧
      ∃ front chosen back,
        directionOfRequest known' now' t' source request = some (.incoming, chosen) ∧
          t'.current now' = front ++ chosen :: back ∧ chosen.isNamedAs known' found.presented = true ∧
          (∀ r ∈ front, r.isNamedAs known' found.presented = false) ∧ (chosen = found ∨ found ∈ back) := by
  refine ⟨huri ▸ presentContact_outgoing hcontact hfound hmoved, List.find?_some hfound, ?_⟩
  have hnames := hbuilt.isNamedAs_outward hfound halike known'
  have hfoundNamed : found.isNamedAs known' found.presented = true := by
    rw [Registration.isNamedAs, Registration.isPresentedAs, Uri.samePartyPinned_self, Bool.true_or]
  rw [directionOfRequest_of_uri hsource hmethod hreceiver, huri, funext hnames]
  cases hchosen : (t'.current now').find? fun r => r.isNamedAs known' found.presented with
  | none =>
      have hnone := List.find?_eq_none.mp hchosen found hlasts
      exact absurd hfoundNamed hnone
  | some chosen =>
      obtain ⟨hnamed, front, back, hsplit, hfront⟩ := List.find?_eq_some_iff_append.mp hchosen
      refine ⟨front, chosen, back, rfl, hsplit, hnamed, fun r hr => by simpa using hfront r hr, ?_⟩
      rw [hsplit] at hlasts
      rcases List.mem_append.mp hlasts with hmem | hmem
      · have hnot := hfront found hmem
        rw [hfoundNamed] at hnot
        cases hnot
      · rcases List.mem_cons.mp hmem with heq | hmem
        · exact .inl heq.symm
        · exact .inr hmem

/-! A party with two devices, and a third one with a user of its own. -/

namespace Devices

def settings : Settings :=
  { sip := { inbound := { address := .v4 10 0 0 1 }, outbound := { address := .v4 192 0 2 1 } } }

def cx : Context := .ofSettings settings

def contactField (value : String) : Header := .of .contact value.toList

/-- The registration of a device for the party. -/
def registration (contact : String) : Request :=
  { method := .register
    uri := ⟨some .sip, none, ⟨.ip (.v4 192 0 2 1), none⟩, []⟩
    version := .two
    headers := [.of .to "<sip:alice@192.0.2.1>".toList, contactField contact]
    body := [] }

def registered (contacts : List String) : World :=
  contacts.foldl (fun w contact => (register cx (registration contact) ⟨.v4 10 0 0 2, 5060⟩ w).2)
    (World.initial settings [] {} ⟨0, 0⟩ 1)

theorem built_registered (contacts : List String) : (registered contacts).registrations.Built cx := by
  have hfold : ∀ (w : World), w.registrations.Built cx →
      (contacts.foldl (fun w contact => (register cx (registration contact) ⟨.v4 10 0 0 2, 5060⟩ w).2)
        w).registrations.Built cx := by
    induction contacts with
    | nil => exact fun w hw => hw
    | cons contact rest ih => exact fun w hw => ih _ (.register _ _ hw)
  exact hfold _ (.empty _)

def world : World := registered ["<sip:alice@10.0.0.5>", "<sip:alice@10.0.0.6>", "<sip:phone@10.0.0.7>"]

/-- A request from elsewhere for a user at the outbound address. -/
def request (user : String) : Request :=
  { method := .message
    uri := ⟨some .sip, some ⟨user.toList, none⟩, ⟨.ip (.v4 192 0 2 1), none⟩, []⟩
    version := .two
    headers := [.of .to "<sip:carol@198.51.100.1>".toList]
    body := [] }

end Devices

open Devices in
theorem leads_back_devices :
    ∃ contact found chosen,
      Headers.contactUri? [contactField "<sip:alice@10.0.0.5>"] = some contact ∧
        world.registrations.reachedAt? world.knownHosts world.clock.now contact = some found ∧
        directionOfRequest world.knownHosts world.clock.now world.registrations (.v4 192 0 2 9)
          (request "alice") = some (.incoming, chosen) ∧
        chosen.isNamedAs world.knownHosts found.presented = true := by
  have hfacts : ∃ contact ∈ Headers.contactUri? [contactField "<sip:alice@10.0.0.5>"],
      ∃ found ∈ world.registrations.reachedAt? world.knownHosts world.clock.now contact,
        found.presented.hostPort ≠ contact.hostPort ∧
          found.registered.sameSchemeAndUser found.contact = true ∧
          found ∈ world.registrations.current world.clock.now ∧
          world.registrations.ofContactIp? world.clock.now (.v4 192 0 2 9) = none ∧
          (request "alice").uri = found.outward contact ∧
          ∀ party ∈ (request "alice").headers.toUri?, ∀ r ∈ world.registrations.current world.clock.now,
            r.isNamedAs world.knownHosts party = false := by
    decide +kernel
  obtain ⟨contact, hcontact, found, hfound, hmoved, halike, hlasts, hsource, huri, hreceiver⟩ := hfacts
  obtain ⟨-, -, front, chosen, back, hdirection, -, hnamed, -, -⟩ := presented_contact_leads_back
    (built_registered _) hcontact hfound hmoved halike hlasts hsource (by decide) huri hreceiver
  exact ⟨contact, found, chosen, hcontact, hfound, hdirection, hnamed⟩

/-- A contact that goes out for a binding and does not lead back: the request for it, from elsewhere and to
nobody registered, comes in for no binding with the contact's host and port. -/
def LeadsAstray (w : World) (source : Ip) (hs : Headers) (request : Request) : Prop :=
  ∃ contact ∈ hs.contactUri?,
    ∃ found ∈ w.registrations.reachedAt? w.knownHosts w.clock.now contact,
      presentContact w.knownHosts w.clock.now w.registrations .outgoing hs =
          hs.withContactUri (found.outward contact) ∧
        found.presented.hostPort ≠ contact.hostPort ∧
        request.uri = found.outward contact ∧ request.method ≠ .register ∧
        w.registrations.ofContactIp? w.clock.now source = none ∧
        (∀ party ∈ request.headers.toUri?, ∀ r ∈ w.registrations.current w.clock.now,
          r.isNamedAs w.knownHosts party = false) ∧
        ∀ directed ∈ directionOfRequest w.knownHosts w.clock.now w.registrations source request,
          directed.1 = .incoming → directed.2.contact.hostPort ≠ contact.hostPort

instance (w : World) (source : Ip) (hs : Headers) (request : Request) :
    Decidable (LeadsAstray w source hs request) :=
  inferInstanceAs (Decidable (∃ _ ∈ _, _))

open Devices in
/-- The contact leads astray from the second device of a party, from another port of a device, and from a
device that has a user of its own. -/
theorem contacts_lead_astray :
    world.registrations.Built cx ∧
      LeadsAstray world (.v4 192 0 2 9) [contactField "<sip:alice@10.0.0.6>"] (request "alice") ∧
      LeadsAstray world (.v4 192 0 2 9) [contactField "<sip:alice@10.0.0.5:5070>"] (request "alice") ∧
      LeadsAstray world (.v4 192 0 2 9) [contactField "<sip:phone@10.0.0.7>"] (request "phone") :=
  ⟨built_registered _, by decide +kernel, by decide +kernel, by decide +kernel⟩

end BorderProxy
