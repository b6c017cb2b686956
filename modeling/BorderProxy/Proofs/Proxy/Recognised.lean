import BorderProxy.Proofs.Field.NameAddr
import BorderProxy.Proofs.Proxy.Vias
import BorderProxy.Proofs.Uri.Reading

/-! Entries of the proxy that come back to it. The Via that the proxy writes is known again at any of its
addresses. A Record-Route is known again at an address of version 4 only: the one that is written for an
address of version 6 stands in brackets, which no URI is read with, and the one that faces such an address in
a response stands without them, so that the port cannot be told from the address. -/

namespace BorderProxy

open Text

/-! Entries as text. -/

/-- A value with a loose route to a host and a port. -/
def routeEntry (host : Text) (port : UInt16) : Text :=
  "<sip:".toList ++ host ++ ':' :: Text.decimal port.toNat ++ ";lr>".toList

theorem ownRecordRoute_eq (ip : Ip) (port : UInt16) : ownRecordRoute ip port = routeEntry ip.hostText port :=
  rfl

theorem routeEntry_eq (host : Text) (port : UInt16) :
    routeEntry host port =
      '<' :: ("sip:".toList ++ (host ++ ':' :: Text.decimal port.toNat ++ ";lr".toList) ++ ['>']) := by
  have hopen : "<sip:".toList = '<' :: "sip:".toList := by decide +kernel
  have hclose : ";lr>".toList = ";lr".toList ++ ['>'] := by decide +kernel
  have hparted : routeEntry host port =
      ('<' :: "sip:".toList) ++ host ++ ':' :: Text.decimal port.toNat ++ (";lr".toList ++ ['>']) :=
    congrArg₂ (fun front back => front ++ host ++ ':' :: Text.decimal port.toNat ++ back) hopen hclose
  rw [hparted]
  simp only [List.append_assoc, List.cons_append]

/-- A text that stands for an address in an entry: the plain text of one of version 4, or one that a colon
tells from a host and a port. -/
structure IsHostOf (ip : Ip) (host : Text) : Prop where
  word : IsWord host
  noAt : '@' ∉ host
  noSemicolon : ';' ∉ host
  noBracket : '>' ∉ host
  plain : ip.isV4 = true → host = ip.text
  colon : ip.isV4 = false → ':' ∈ host

theorem isHostOf_text (ip : Ip) : IsHostOf ip ip.text where
  word := Ip.isWord_text ip
  noAt := Ip.not_mem_text (by decide) (by decide) (by decide) ip
  noSemicolon := Ip.not_mem_text (by decide) (by decide) (by decide) ip
  noBracket := Ip.not_mem_text (by decide) (by decide) (by decide) ip
  plain := fun _ => rfl
  colon := fun h => by
    cases ip with
    | v4 a b c d => cases h
    | v6 groups => exact Ip.colon_mem_v6Text groups

theorem isHostOf_hostText (ip : Ip) : IsHostOf ip ip.hostText := by
  have htext := isHostOf_text ip
  cases ip with
  | v4 a b c d => exact htext
  | v6 groups =>
      have hmem : ∀ {c : Char}, c ∈ Ip.hostText (.v6 groups) →
          c = '[' ∨ c ∈ Ip.text (.v6 groups) ∨ c = ']' := by
        intro c hc
        simpa [Ip.hostText, Ip.text] using hc
      have hnot : ∀ {c : Char}, c ≠ '[' → c ≠ ']' → c ∉ Ip.text (.v6 groups) →
          c ∉ Ip.hostText (.v6 groups) := by
        intro c hopen hclose hplain hc
        rcases hmem hc with h | h | h
        · exact hopen h
        · exact hplain h
        · exact hclose h
      constructor
      case word =>
        refine ⟨List.cons_ne_nil _ _, fun c hc => ?_⟩
        rcases hmem hc with rfl | h | rfl
        · decide
        · exact htext.word.2 c h
        · decide
      case noAt => exact hnot (by decide) (by decide) htext.noAt
      case noSemicolon => exact hnot (by decide) (by decide) htext.noSemicolon
      case noBracket => exact hnot (by decide) (by decide) htext.noBracket
      case plain => exact fun h => by cases h
      case colon =>
        exact fun _ => List.mem_cons_of_mem _ (List.mem_append_left _ (Ip.colon_mem_v6Text groups))

/-- The URI of an entry that can be read. -/
def entryUri (ip : Ip) (port : UInt16) : Uri :=
  ⟨some .sip, none, ⟨.ip ip, some port⟩, [⟨"lr".toList, none⟩]⟩

/-- Host and port are read at the first colon, so that an address of version 6 leaves no port to read. -/
theorem IsHostOf.ofText {ip : Ip} {host : Text} (hhost : IsHostOf ip host) (port : UInt16) :
    HostPort.ofText (host ++ ':' :: Text.decimal port.toNat) =
      if ip.isV4 then some ⟨.ip ip, some port⟩ else none := by
  by_cases hv4 : ip.isV4 = true
  · have hread : Host.ofText ip.text = .ip ip := by
      have htext := Ip.read_text ip
      rw [if_pos hv4] at htext
      rw [Host.ofText, Ip.read, htext, Option.some_or]
    have hcolon : ':' ∉ ip.text := by
      cases ip with
      | v4 a b c d => exact Ip.colon_not_mem_quadText a b c d
      | v6 groups => cases hv4
    rw [if_pos hv4, hhost.plain hv4, HostPort.ofText, cut?_append hcolon]
    dsimp only
    rw [uint16?_decimal, Option.map_some, hread]
  · obtain ⟨front, back, rfl, hfront⟩ := List.eq_append_cons_of_mem (hhost.colon (Bool.eq_false_iff.mpr hv4))
    rw [if_neg hv4, List.append_assoc, List.cons_append, HostPort.ofText, cut?_append hfront]
    dsimp only
    rw [uint16?_of_mem (c := ':') (by simp) (by decide) (by decide)]
    rfl

theorem not_mem_place {host : Text} {c : Char} (hhost : c ∉ host) (hcolon : c ≠ ':')
    (hdigit : c.isDigit = false) (port : UInt16) : c ∉ host ++ ':' :: Text.decimal port.toNat := by
  rw [List.mem_append, List.mem_cons, not_or, not_or]
  exact ⟨hhost, hcolon, not_mem_decimal hdigit⟩

theorem IsHostOf.readFront_userInfo {ip : Ip} {host : Text} (hhost : IsHostOf ip host) (port : UInt16) :
    UserInfo.readFront (host ++ ':' :: Text.decimal port.toNat ++ ";lr".toList) =
      (none, host ++ ':' :: Text.decimal port.toNat ++ ";lr".toList) := by
  have hat := not_mem_place hhost.noAt (by decide) (by decide) port
  refine UserInfo.readFront_eq_none_iff.mpr ⟨rfl, fun h => ?_⟩
  rcases List.mem_append.mp (List.mem_of_find?_eq_some h) with h | h
  · exact hat h
  · exact absurd h (by decide)

/-- The text up to the parameter is read as host and port. -/
theorem IsHostOf.readFront_hostPort {ip : Ip} {host : Text} (hhost : IsHostOf ip host) (port : UInt16) :
    HostPort.readFront (host ++ ':' :: Text.decimal port.toNat ++ ";lr".toList) =
      (HostPort.ofText (host ++ ':' :: Text.decimal port.toNat)).map fun read => (read, ";lr".toList) := by
  have hblank : ' ' ∉ host := fun h => by
    have hvisible := hhost.word.2 ' ' h
    cases hvisible
  have hsemicolon := not_mem_place hhost.noSemicolon (by decide) (by decide) port
  have hspace := not_mem_place hblank (by decide) (by decide) port
  have hfront : ∀ c ∈ host ++ ':' :: Text.decimal port.toNat, (c != ';' && c != ' ') = true := by
    intro c hc
    have hne : c ≠ ';' := fun h => hsemicolon (h ▸ hc)
    have hne' : c ≠ ' ' := fun h => hspace (h ▸ hc)
    simp [hne, hne']
  have hend : ∀ c, (";lr".toList).head? = some c → (c != ';' && c != ' ') = false := by
    intro c hc
    rw [← Option.some.inj hc]
    rfl
  obtain ⟨htake, hdrop⟩ := parted_append hfront hend
  simp only [HostPort.readFront, List.span_eq_takeWhile_dropWhile, htake, hdrop]
  split
  · rename_i hnil
    exact absurd hnil (by simp)
  · rfl

theorem IsHostOf.read_entry {ip : Ip} {host : Text} (hhost : IsHostOf ip host) (port : UInt16) :
    Uri.read ("sip:".toList ++ (host ++ ':' :: Text.decimal port.toNat ++ ";lr".toList)) =
      if ip.isV4 then some (entryUri ip port) else none := by
  have hparams : UriParam.readFront ";lr".toList = some ([⟨"lr".toList, none⟩], []) := by decide +kernel
  rw [Uri.read, Uri.readFront, show "sip:".toList = Scheme.sip.text from rfl, Scheme.readFront_sip]
  dsimp only
  rw [hhost.readFront_userInfo]
  dsimp only
  rw [hhost.readFront_hostPort, hhost.ofText]
  split
  · rw [Option.map_some, Option.bind_eq_bind, Option.bind_some]
    dsimp only
    rw [hparams]
    rfl
  · rfl

theorem IsHostOf.parts?_entry {ip : Ip} {host : Text} (hhost : IsHostOf ip host) (port : UInt16) :
    NameAddr.parts? (routeEntry host port) =
      some ⟨['<'], "sip:".toList ++ (host ++ ':' :: Text.decimal port.toNat ++ ";lr".toList), ['>'],
        true⟩ := by
  have hclose : '>' ∉ "sip:".toList ++ (host ++ ':' :: Text.decimal port.toNat ++ ";lr".toList) := by
    have hport : '>' ∉ Text.decimal port.toNat := not_mem_decimal (by decide)
    have hhost' := hhost.noBracket
    simp [hhost', hport]
  rw [routeEntry_eq]
  exact NameAddr.parts?_of_brackets List.not_mem_nil hclose []

/-- An entry is read at an address of version 4 only. -/
theorem IsHostOf.uri?_entry {ip : Ip} {host : Text} (hhost : IsHostOf ip host) (port : UInt16) :
    NameAddr.uri? (routeEntry host port) = if ip.isV4 then some (entryUri ip port) else none := by
  have hword : IsWord ("sip:".toList ++ (host ++ ':' :: Text.decimal port.toNat ++ ";lr".toList)) := by
    have hscheme : IsWord "sip:".toList := by decide
    have hparam : IsWord ";lr".toList := by decide
    have hport := isWord_decimal port.toNat
    refine ⟨List.append_ne_nil_of_left_ne_nil hscheme.1 _, fun c hc => ?_⟩
    rcases List.mem_append.mp hc with h | h
    · exact hscheme.2 c h
    · rcases List.mem_append.mp h with h | h
      · rcases List.mem_append.mp h with h | h
        · exact hhost.word.2 c h
        · rcases List.mem_cons.mp h with rfl | h
          · decide
          · exact hport.2 c h
      · exact hparam.2 c h
  rw [NameAddr.uri?, NameAddr.uriText?, hhost.parts?_entry, Option.map_some, Option.bind_some,
    trim_of_isWord hword, hhost.read_entry]

/-- Another address in place of the host of an entry stands there without brackets. -/
theorem IsHostOf.replaceUri_entry {ip : Ip} {host : Text} (hhost : IsHostOf ip host) (port : UInt16)
    (away : Ip) :
    NameAddr.replaceUri (routeEntry host port) (entryUri away port) = routeEntry away.text port := by
  have htext : Uri.text (entryUri away port) =
      "sip:".toList ++ (away.text ++ ':' :: Text.decimal port.toNat ++ ";lr".toList) := by
    rw [Uri.text_eq]
    rfl
  rw [NameAddr.replaceUri, hhost.parts?_entry]
  dsimp only
  rw [htext, routeEntry_eq]
  rfl

namespace OwnAddresses

/-! Entries that the proxy knows again. -/

/-- A value that the proxy takes for its own, with an address as host and the proxy's port. -/
def NamesSelf (own : OwnAddresses) (known : KnownHosts) (ip : Ip) (value : Text) : Prop :=
  ∃ uri, NameAddr.uri? value = some uri ∧ uri.hostPort = ⟨.ip ip, some own.port⟩ ∧
    own.ownsUri known uri = true

variable {own : OwnAddresses} {ip away : Ip} {host : Text} (r : Resolver) (now : Instant)

theorem ownsUri_entryUri (hown : ip ∈ own.ips) :
    own.ownsUri (r.cached now) (entryUri ip own.port) = true := by
  have hhost := ownsHost_text r now hown
  unfold ownsUri
  rw [Bool.and_eq_true]
  exact ⟨beq_self_eq_true own.port, hhost⟩

theorem namesSelf_entry (hhost : IsHostOf ip host) (hown : ip ∈ own.ips) :
    own.NamesSelf (r.cached now) ip (routeEntry host own.port) ↔ ip.isV4 = true := by
  unfold NamesSelf
  rw [hhost.uri?_entry]
  constructor
  · rintro ⟨uri, huri, -⟩
    by_contra hv6
    rw [if_neg hv6] at huri
    cases huri
  · intro hv4
    exact ⟨entryUri ip own.port, if_pos hv4, rfl, ownsUri_entryUri r now hown⟩

theorem ownsRoute_entry (hhost : IsHostOf ip host) (hown : ip ∈ own.ips) :
    own.ownsRoute (r.cached now) (routeEntry host own.port) = ip.isV4 := by
  unfold ownsRoute
  rw [hhost.uri?_entry]
  by_cases hv4 : ip.isV4 = true
  · rw [if_pos hv4, hv4]
    exact ownsUri_entryUri r now hown
  · rw [if_neg hv4, Bool.eq_false_iff.mpr hv4]

theorem faceRoute_entry (hhost : IsHostOf ip host) (hown : ip ∈ own.ips) :
    own.faceRoute (r.cached now) away (routeEntry host own.port) =
      if ip.isV4 then some (routeEntry away.text own.port) else none := by
  unfold faceRoute
  rw [hhost.uri?_entry]
  by_cases hv4 : ip.isV4 = true
  · rw [if_pos hv4, if_pos hv4]
    dsimp only
    rw [if_pos (ownsUri_entryUri r now hown)]
    exact congrArg some (hhost.replaceUri_entry own.port away)
  · rw [if_neg hv4, if_neg hv4]

theorem namesSelf_faced (hhost : IsHostOf ip host) (hown : ip ∈ own.ips) (haway : away ∈ own.ips) :
    own.NamesSelf (r.cached now) away
        ((own.faceRoute (r.cached now) away (routeEntry host own.port)).getD (routeEntry host own.port)) ↔
      ip.isV4 = true ∧ away.isV4 = true := by
  rw [faceRoute_entry r now hhost hown]
  by_cases hv4 : ip.isV4 = true
  · rw [if_pos hv4, Option.getD_some, namesSelf_entry r now (isHostOf_text away) haway]
    exact ⟨fun h => ⟨hv4, h⟩, And.right⟩
  · -- The entry stands as it was written, and is not read.
    rw [if_neg hv4, Option.getD_none]
    constructor
    · rintro ⟨uri, huri, -⟩
      rw [hhost.uri?_entry, if_neg hv4] at huri
      cases huri
    · exact fun h => absurd h.1 hv4

/-! The lists of a message. -/

/-- A Route list without the own entry at its end. -/
def stripLast (own : OwnAddresses) (known : KnownHosts) (routes : List Text) : List Text :=
  match routes.getLast? with
  | some last => if own.ownsRoute known last then routes.dropLast else routes
  | none => routes

theorem stripEnds_cons (own : OwnAddresses) (known : KnownHosts) (first : Text) (rest : List Text) :
    own.stripEnds known (first :: rest) =
      own.stripLast known (if own.ownsRoute known first then rest else first :: rest) :=
  rfl

theorem stripLast_sublist (own : OwnAddresses) (known : KnownHosts) (routes : List Text) :
    (own.stripLast known routes).Sublist routes := by
  unfold stripLast
  split
  · split
    · exact List.dropLast_sublist routes
    · exact List.Sublist.refl routes
  · exact List.Sublist.refl routes

theorem stripEnds_sublist (own : OwnAddresses) (known : KnownHosts) (routes : List Text) :
    (own.stripEnds known routes).Sublist routes := by
  cases routes with
  | nil => exact List.Sublist.refl []
  | cons first rest =>
      rw [stripEnds_cons]
      refine (stripLast_sublist own known _).trans ?_
      split
      · exact List.sublist_cons_self first rest
      · exact List.Sublist.refl _

theorem routes_stripRoutes (own : OwnAddresses) (known : KnownHosts) (hs : Headers) :
    (own.stripRoutes known hs).1.routes = own.stripEnds known hs.routes := by
  unfold stripRoutes
  dsimp only
  split
  · rename_i hnone
    exact ((stripEnds_sublist own known hs.routes).eq_of_length_le (Nat.le_of_sub_eq_zero hnone)).symm
  · exact Headers.values_replaceAll .route _ hs

theorem recordRoutes_faceRecordRoutes (own : OwnAddresses) (known : KnownHosts) (ip : Ip) (hs : Headers) :
    (own.faceRecordRoutes known ip hs).1.recordRoutes =
      hs.recordRoutes.map fun value => (own.faceRoute known ip value).getD value := by
  unfold faceRecordRoutes
  dsimp only
  split
  · rename_i hnone
    -- No entry was faced, so every value stands as it was.
    rw [List.length_eq_zero_iff, List.filter_eq_nil_iff] at hnone
    have hkept : ∀ value ∈ hs.recordRoutes, (own.faceRoute known ip value).getD value = value := by
      intro value hvalue
      have hface : own.faceRoute known ip value = none :=
        Option.not_isSome_iff_eq_none.mp (hnone _ (List.mem_map_of_mem hvalue))
      rw [hface, Option.getD_none]
    rw [List.map_congr_left hkept, List.map_id']
  · rw [Headers.recordRoutes, Headers.withRecordRoutes, Headers.values_replaceAllInFront, List.map_map]
    rfl

end OwnAddresses

/-- The proxy knows its own Via again in any case. Its Record-Route for an interface, come back as the first
Route of a request, is taken off if the address is of version 4, and not if it is of version 6. Faced another
way in a response it is known again if both addresses are of version 4, and in no other case. -/
theorem recognises_own_entries (s : Settings) (w : World) (facing away : Direction)
    {asked answered : Headers} {rest : List Text} {i : Nat}
    (hroutes : asked.routes =
      ownRecordRoute ((Context.ofSettings s).ipTowards facing) (Context.ofSettings s).ownPort :: rest)
    (hrecorded : answered.recordRoutes[i]? =
      some (ownRecordRoute ((Context.ofSettings s).ipTowards facing) (Context.ofSettings s).ownPort)) :
    let cx := Context.ofSettings s
    (∀ method branch hs,
        ((cx.forwardHeaders method facing branch hs).topVia?.map (cx.own.ownsVia w.knownHosts)).getD false =
          true) ∧
      (cx.own.stripRoutes w.knownHosts asked).1.routes =
        cx.own.stripLast w.knownHosts (if (cx.ipTowards facing).isV4 then rest else asked.routes) ∧
      ∃ faced,
        (cx.own.faceRecordRoutes w.knownHosts (cx.ipTowards away) answered).1.recordRoutes[i]? = some faced ∧
          (cx.own.NamesSelf w.knownHosts (cx.ipTowards away) faced ↔
            (cx.ipTowards facing).isV4 = true ∧ (cx.ipTowards away).isV4 = true) := by
  dsimp only
  have hhost := isHostOf_hostText ((Context.ofSettings s).ipTowards facing)
  have hfacing := Context.ipTowards_mem_ownIps s facing
  have haway := Context.ipTowards_mem_ownIps s away
  rw [ownRecordRoute_eq] at hroutes hrecorded
  refine ⟨fun method branch hs => ?_, ?_, ?_⟩
  · have hvia := ownsVia_ownVia s w facing branch []
    rw [List.append_nil] at hvia
    rw [Headers.topVia?_eq_head?, Context.vias_forwardHeaders, List.head?_cons, Option.map_some,
      Option.getD_some]
    exact hvia
  · have howns : (Context.ofSettings s).own.ownsRoute w.knownHosts (routeEntry
        ((Context.ofSettings s).ipTowards facing).hostText (Context.ofSettings s).ownPort) = _ :=
      OwnAddresses.ownsRoute_entry w.resolver w.clock.now hhost hfacing
    rw [OwnAddresses.routes_stripRoutes, hroutes, OwnAddresses.stripEnds_cons, howns]
  · refine ⟨_, ?_, OwnAddresses.namesSelf_faced w.resolver w.clock.now hhost hfacing haway⟩
    rw [OwnAddresses.recordRoutes_faceRecordRoutes, List.getElem?_map, hrecorded, Option.map_some]
    rfl

open OutgoingCall in
/-- The entry for the outbound address comes back as the first Route, and is faced inwards in a response. -/
theorem recognises_outgoing_entries :
    let cx := Context.ofSettings settings
    let asked := [field .route "<sip:192.0.2.1:5060;lr>", field .route "<sip:192.0.2.9;lr>"]
    let answered := [field .recordRoute "<sip:192.0.2.9;lr>", field .recordRoute "<sip:192.0.2.1:5060;lr>"]
    Headers.routes asked =
        ownRecordRoute (cx.ipTowards .outgoing) cx.ownPort :: ["<sip:192.0.2.9;lr>".toList] ∧
      (Headers.recordRoutes answered)[1]? = some (ownRecordRoute (cx.ipTowards .outgoing) cx.ownPort) ∧
        (cx.own.stripRoutes registered.knownHosts asked).1.routes = ["<sip:192.0.2.9;lr>".toList] ∧
          ∃ faced,
            (cx.own.faceRecordRoutes registered.knownHosts (cx.ipTowards .incoming)
                answered).1.recordRoutes[1]? = some faced ∧
              cx.own.NamesSelf registered.knownHosts (cx.ipTowards .incoming) faced := by
  dsimp only
  have hroutes : Headers.routes
      [field .route "<sip:192.0.2.1:5060;lr>", field .route "<sip:192.0.2.9;lr>"] =
        ownRecordRoute ((Context.ofSettings settings).ipTowards .outgoing)
          (Context.ofSettings settings).ownPort :: ["<sip:192.0.2.9;lr>".toList] := by
    decide +kernel
  have hrecorded : (Headers.recordRoutes
      [field .recordRoute "<sip:192.0.2.9;lr>", field .recordRoute "<sip:192.0.2.1:5060;lr>"])[1]? =
        some (ownRecordRoute ((Context.ofSettings settings).ipTowards .outgoing)
          (Context.ofSettings settings).ownPort) := by
    decide +kernel
  obtain ⟨-, hstripped, faced, hfaced, hnames⟩ :=
    recognises_own_entries settings registered .outgoing .incoming hroutes hrecorded
  refine ⟨hroutes, hrecorded, hstripped.trans ?_, faced, hfaced, hnames.mpr ⟨rfl, rfl⟩⟩
  decide +kernel

/-- Settings with an outbound address of version 6. -/
def OutgoingCall.mixedSettings : Settings :=
  { sip :=
      { inbound := { address := .v4 10 0 0 1 }
        outbound := { address := .v6 #v[0x2001, 0xdb8, 0, 0, 0, 0, 0, 1] } } }

def OutgoingCall.mixedWorld : World := .initial mixedSettings [] {} ⟨0, 0⟩ 1

open OutgoingCall in
/-- With an outbound address of version 6, the entry for it is not taken off a request that comes back with
it, and the entry for the inbound address cannot be read once it was faced outwards. -/
theorem outbound_entries_unrecognised :
    (Headers.routes [field .route "<sip:[2001:db8::1]:5060;lr>"] =
        [ownRecordRoute ((Context.ofSettings mixedSettings).ipTowards .outgoing)
          (Context.ofSettings mixedSettings).ownPort] ∧
      ((Context.ofSettings mixedSettings).own.stripRoutes mixedWorld.knownHosts
        [field .route "<sip:[2001:db8::1]:5060;lr>"]).2 = 0) ∧
      Headers.recordRoutes [field .recordRoute "<sip:10.0.0.1:5060;lr>"] =
          [ownRecordRoute ((Context.ofSettings mixedSettings).ipTowards .incoming)
            (Context.ofSettings mixedSettings).ownPort] ∧
        ((Context.ofSettings mixedSettings).own.faceRecordRoutes mixedWorld.knownHosts
            ((Context.ofSettings mixedSettings).ipTowards .outgoing)
            [field .recordRoute "<sip:10.0.0.1:5060;lr>"]).1.recordRoutes =
          ["<sip:2001:db8::1:5060;lr>".toList] ∧
          NameAddr.uri? "<sip:2001:db8::1:5060;lr>".toList = none := by
  decide +kernel

end BorderProxy
