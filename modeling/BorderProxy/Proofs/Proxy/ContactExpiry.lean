import BorderProxy.Proofs.Field.ContactList
import BorderProxy.Proofs.Proxy.Contacts
import BorderProxy.Proofs.Proxy.Registering

/-! For how long a contact is bound when the request names several contacts in one field and does not say
itself. The field is read as if it held a single contact: bound is the one that the URI is read from, and the
seconds are those that its last parameters ask for. -/

namespace BorderProxy

open Text NameAddr

namespace NameAddr

/-- The seconds that a contact asks for, or else the default. -/
def expiry (default : UInt32) (contact : Text) : UInt32 :=
  ((param? contact "expires".toList).bind uint32?).getD default

theorem expiry_listed (default : UInt32) (contacts : List Text) :
    expiry default (listed contacts) = expiry default (listed (paramHolders contacts)) := by
  rw [expiry, param?_listed, expiry]

end NameAddr

theorem registerContact?_of_uri {hs : Headers} {value : Text} (hvalue : hs.value? .contact = some value)
    (hnamed : trim value ≠ ['*']) {contact : Uri} (hcontact : uri? value = some contact) :
    registerContact? hs = some (.one contact) := by
  simp [registerContact?, hvalue, hcontact, hnamed]

theorem askedExpiry_of_contact {hs : Headers} (hunsaid : hs.expires? = none) {value : Text}
    (hvalue : hs.value? .contact = some value) (default : UInt32) :
    askedExpiry hs default = expiry default value := by
  simp [askedExpiry, hunsaid, hvalue, expiry, Option.bind_eq_bind]

/-- A contact is removed or bound as the seconds say that it is registered with. -/
theorem register_of_contact (cx : Context) {r : Request} (source : Endpoint) {w : World}
    (hpassed : (authenticate r w).1 = .authorized) {registered contact : Uri}
    (hto : r.headers.toUri? = some registered) (hcontact : registerContact? r.headers = some (.one contact))
    {seconds : UInt32} (hasked : askedExpiry r.headers cx.settings.registration.defaultExpires = seconds) :
    ∃ a, register cx r source w =
      if seconds = 0 then
        (.success 0 false, (unregister registered (some contact) { w with authenticator := a }).2)
      else bindContact cx r source registered contact seconds { w with authenticator := a } := by
  obtain ⟨a, hauthenticate⟩ := exists_authenticate r w
  refine ⟨a, ?_⟩
  unfold register
  rw [act_bind, hpassed, hauthenticate]
  dsimp only
  rw [hto, hcontact, hasked]
  dsimp only
  split <;> rfl

/-- Where a request names a list of contacts in one field and no seconds apart from it, the contact is the
one that the URI of the list is read from, and the seconds are those that the parameters behind the last
closing bracket ask for. With zero seconds the bindings to the contact are removed; else it is bound for
them, or refused for want of a slot. A single contact thus gets its own seconds; of several contacts the
seconds are those of the last one, if that has a closing bracket. -/
theorem register_listed_contacts (cx : Context) {r : Request} (source : Endpoint) {w : World}
    (htable : w.registrations.WellFormed) (hpassed : (authenticate r w).1 = .authorized)
    {registered : Uri} (hto : r.headers.toUri? = some registered) (hunsaid : r.headers.expires? = none)
    {contacts : List Text} (hcontacts : r.headers.value? .contact = some (listed contacts))
    (hnamed : trim (listed contacts) ≠ ['*'])
    (hclosed : ∀ c ∈ contacts, '<' ∈ c → (uriText? c).isSome) {contact : Uri}
    (hcontact : uri? (uriHolder contacts) = some contact) :
    let default := cx.settings.registration.defaultExpires
    let seconds := expiry default (listed (paramHolders contacts))
    let result := register cx r source w
    (seconds = 0 → result.1 = .success 0 false ∧ ∀ i, result.2.registrations.get? i =
        (w.registrations.get? i).filter fun b => !b.binds w.knownHosts registered (some contact)) ∧
      (seconds ≠ 0 →
        (result.1 = .refused ∧ w.registrations.free = [] ∧
            result.2.registrations = w.registrations) ∨
          (result.1 = .success seconds true ∧ ∃ slot binding,
            binding.registered = registered ∧ binding.contact = contact ∧
              binding.expires = w.clock.now +
                Duration.seconds (seconds.toNat + cx.settings.registration.expiryMargin.toNat) ∧
              (slot ∈ w.registrations.free ∨ w.registrations.Binds result.2.knownHosts binding slot) ∧
              w.registrations.Writes slot binding result.2.registrations)) ∧
      (∀ c, contacts = [c] → uri? c = some contact ∧ seconds = expiry default c) ∧
      ∀ front last, contacts = front ++ [last] → '>' ∈ last → seconds = expiry default last := by
  intro default seconds result
  have huri : uri? (listed contacts) = some contact := by
    rw [uri?, uriText?_listed hclosed]
    exact hcontact
  have hasked : askedExpiry r.headers default = seconds := by
    rw [askedExpiry_of_contact hunsaid hcontacts, expiry_listed]
  obtain ⟨a, hresult⟩ :=
    register_of_contact cx source hpassed hto (registerContact?_of_uri hcontacts hnamed huri) hasked
  refine ⟨fun hzero => ?_, fun hnonzero => ?_, ?_, ?_⟩
  · have hremoved : result = _ := hresult.trans (if_pos hzero)
    rw [hremoved]
    exact ⟨rfl, get?_unregister registered (some contact) { w with authenticator := a }⟩
  · have hbound : result = _ := hresult.trans (if_neg hnonzero)
    rw [hbound]
    obtain ⟨hrefused, hfull, hsame⟩ | hstored := bindContact_spec (w := { w with authenticator := a }) cx r
      source registered contact seconds htable
    · exact .inl ⟨hrefused, hfull, hsame⟩
    · exact .inr hstored
  · rintro c rfl
    rw [uriHolder_singleton] at hcontact
    exact ⟨hcontact, rfl⟩
  · rintro front last rfl hclosing
    have hholders := paramHolders_append_singleton front hclosing
    show expiry default (listed (paramHolders (front ++ [last]))) = expiry default last
    rw [hholders, listed_singleton]

/-! Devices of a party that are named in one field. -/

namespace Devices

/-- The world in which no device is registered. -/
def unregistered : World := registered []

def registering (contacts : List Text) : RegisterResult × World :=
  register cx (registration (String.ofList (listed contacts))) ⟨.v4 10 0 0 2, 5060⟩ unregistered

/-- What becomes of a registration, and the hosts that are then bound with the end of their time. -/
def outcomeOf (contacts : List String) : RegisterResult × List (Text × Instant) :=
  let result := registering (contacts.map String.toList)
  (result.1, result.2.registrations.entries.map fun e => (e.2.contact.hostText, e.2.expires))

def twoContacts : List Text :=
  ["<sip:alice@10.0.0.5>;expires=60".toList, " <sip:alice@10.0.0.6>;expires=3600".toList]

end Devices

open Devices in
theorem register_listed_devices :
    ∃ contact ∈ uri? "<sip:alice@10.0.0.5>".toList, ∃ slot binding,
      (registering twoContacts).2.registrations.get? slot = some binding ∧ binding.contact = contact ∧
        binding.expires = unregistered.clock.now + Duration.seconds (3600 + 30) := by
  let request := registration (String.ofList (listed twoContacts))
  have hfacts : ∃ party ∈ request.headers.toUri?,
      ∃ contact ∈ uri? "<sip:alice@10.0.0.5>".toList,
        uri? (uriHolder twoContacts) = some contact := by
    decide +kernel
  obtain ⟨party, hto, contact, hcontact, hholder⟩ := hfacts
  have hseconds : expiry 600 (listed (paramHolders twoContacts)) = 3600 := by decide +kernel
  have hfree : unregistered.registrations.free ≠ [] := by decide +kernel
  have hvalue : request.headers.value? .contact = some (listed twoContacts) := by decide +kernel
  obtain ⟨-, hbound, -, -⟩ := register_listed_contacts cx ⟨.v4 10 0 0 2, 5060⟩ (w := unregistered)
    (Arena.wellFormed_empty _) rfl hto (by decide +kernel) hvalue (by decide +kernel) (by decide +kernel)
    hholder
  obtain ⟨-, hfull, -⟩ | ⟨-, slot, binding, -, hof, hexpires, -, hwrites⟩ := hbound (by
    show expiry 600 _ ≠ 0
    rw [hseconds]
    decide)
  · exact absurd hfull hfree
  · refine ⟨contact, hcontact, slot, binding, (hwrites slot).trans (if_pos rfl), hof, ?_⟩
    have hmargin : cx.settings.registration.expiryMargin = 30 := rfl
    have hdefault : cx.settings.registration.defaultExpires = 600 := rfl
    rw [hdefault, hmargin, hseconds] at hexpires
    exact hexpires

open Devices in
/-- The device that is bound gets the minute that it asks for if it is the only one. With another one behind
it, it gets what that one asks for, or the default if that one asks for nothing, and is removed if that one is
to go; without brackets it gets the default as well. -/
theorem contacts_misheard :
    let first := "10.0.0.5".toList
    let untilAfter := fun seconds : Nat => unregistered.clock.now + Duration.seconds (seconds + 30)
    outcomeOf ["<sip:alice@10.0.0.5>;expires=60"] = (.success 60 true, [(first, untilAfter 60)]) ∧
      outcomeOf ["<sip:alice@10.0.0.5>;expires=60", " <sip:alice@10.0.0.6>;expires=3600"] =
        (.success 3600 true, [(first, untilAfter 3600)]) ∧
      outcomeOf ["<sip:alice@10.0.0.5>;expires=60", " <sip:alice@10.0.0.6>"] =
        (.success 600 true, [(first, untilAfter 600)]) ∧
      outcomeOf ["<sip:alice@10.0.0.5>", " <sip:alice@10.0.0.6>;expires=0"] = (.success 0 false, []) ∧
      outcomeOf ["sip:alice@10.0.0.5;expires=60", " sip:alice@10.0.0.6;expires=5"] =
        (.success 600 true, [(first, untilAfter 600)]) := by
  decide +kernel

end BorderProxy
