import BorderProxy.Proofs.Proxy.Vias

/-! Branches of forwarded requests. What the proxy pushes is read back from its Via, and noting the source
of a request does not change it, so requests that repeat the fields of another one have its branch exactly
if they agree with it in the branch of the lowest Via and in the tag of the receiver, up to collisions of
the digest. -/

namespace BorderProxy

/-! Digests. -/

namespace Md5

/-- Two texts collide: they differ, but have the same digest. -/
def Collide (a b : Text) : Prop := a ≠ b ∧ hexDigest a = hexDigest b

theorem hexDigest_eq_iff {a b : Text} : hexDigest a = hexDigest b ↔ a = b ∨ Collide a b := by
  constructor
  · intro h
    by_cases hab : a = b
    · exact .inl hab
    · exact .inr ⟨hab, h⟩
  · rintro (rfl | ⟨-, h⟩)
    · rfl
    · exact h

end Md5

namespace TransactionKey

/-- The text that a branch is the digest of. -/
def material (k : TransactionKey) : Text :=
  Text.join ['|'] [k.uri, k.originBranch, k.callId, Text.decimal k.sequence, k.fromTag, k.toTag]

theorem branch_eq_iff {k k' : TransactionKey} :
    k.branch = k'.branch ↔ k.material = k'.material ∨ Md5.Collide k.material k'.material := by
  rw [branch, branch, List.append_cancel_left_eq]
  exact Md5.hexDigest_eq_iff

theorem material_originBranch (k : TransactionKey) (branch : Text) :
    ({ k with originBranch := branch } : TransactionKey).material = k.material ↔
      branch = k.originBranch := by
  simp [material, Text.join]

theorem material_toTag (k : TransactionKey) (tag : Text) :
    ({ k with toTag := tag } : TransactionKey).material = k.material ↔ tag = k.toTag := by
  simp [material, Text.join]

theorem isWord_branch (k : TransactionKey) : Text.IsWord k.branch := by
  have hmark : Text.IsWord branchMark := by decide
  have hdigit : ∀ d < 16, Text.isBlank (Nat.digitChar d) = false := by decide
  refine ⟨List.append_ne_nil_of_left_ne_nil hmark.1 _, fun c hc => ?_⟩
  rcases List.mem_append.mp hc with hc | hc
  · exact hmark.2 c hc
  · obtain ⟨d, hd, rfl⟩ := Text.digit_of_mem_hexBytes hc
    exact hdigit d hd

theorem semicolon_not_mem_branch (k : TransactionKey) : ';' ∉ k.branch := by
  have hmark : ';' ∉ branchMark := by decide
  have hdigit : ∀ d < 16, ';' ≠ Nat.digitChar d := by decide
  intro hc
  rcases List.mem_append.mp hc with hc | hc
  · exact hmark hc
  · obtain ⟨d, hd, heq⟩ := Text.digit_of_mem_hexBytes hc
    exact hdigit d hd heq

end TransactionKey

/-! Branches of Vias. -/

def Via.branch? (via : Text) : Option Text := Via.param? via "branch".toList

theorem branch?_ownVia (ip : Ip) (port : UInt16) {branch : Text} (hword : Text.IsWord branch)
    (hmark : ';' ∉ branch) : Via.branch? (ownVia ip port branch) = some branch := by
  have hparam : ';' ∉ "branch".toList ++ '=' :: branch := by
    have hkey : ';' ∉ "branch".toList := by decide
    simp only [List.mem_append, List.mem_cons, not_or]
    exact ⟨hkey, by decide, hmark⟩
  have hcut := Text.splitOn_append (semicolon_not_mem_ownSender ip port) ("branch".toList ++ '=' :: branch)
  rw [Text.splitOn_of_not_mem hparam, List.append_assoc, List.cons_append, ← ownVia_eq] at hcut
  rw [Via.branch?, Via.param?, hcut, List.drop_succ_cons, List.drop_zero, paramAmong?_cons,
    readParam_written (by decide) (by decide), Text.trim_of_isWord hword]
  rfl

theorem branch?_stamp? {source : Endpoint} {via stamped : Text} (h : Via.stamp? source via = some stamped) :
    Via.branch? stamped = Via.branch? via :=
  Via.param?_stamp? h (by decide) (by decide)

namespace Headers

/-- The branch of the topmost Via, empty where there is none. -/
def topBranch (hs : Headers) : Text := (hs.vias.head?.bind Via.branch?).getD []

/-- The branch of the lowest Via, empty where there is none. -/
def originBranch (hs : Headers) : Text := (hs.vias.getLast?.bind Via.branch?).getD []

theorem branches_stamp (source : Endpoint) (hs : Headers) :
    (hs.stamp source).vias.map Via.branch? = hs.vias.map Via.branch? := by
  rw [vias_stamp]
  cases hs.vias with
  | nil => rfl
  | cons top below =>
      dsimp only
      rw [List.map_cons, List.map_cons]
      cases hstamped : Via.stamp? source top with
      | none => rfl
      | some stamped => rw [Option.getD_some, branch?_stamp? hstamped]

theorem originBranch_congr {hs hs' : Headers}
    (h : hs.vias.map Via.branch? = hs'.vias.map Via.branch?) : hs.originBranch = hs'.originBranch := by
  have hlast : ∀ hs : Headers, hs.vias.getLast?.bind Via.branch? =
      (hs.vias.map Via.branch?).getLast?.bind id := by
    intro hs
    rw [List.getLast?_map, Option.bind_map]
    rfl
  rw [originBranch, originBranch, hlast, hlast, h]

theorem tag_congr {hs hs' : Headers} {n : StandardName} (h : hs.values n = hs'.values n) :
    hs.tag n = hs'.tag n := by
  rw [tag, tag, value?_eq_head?, value?_eq_head?, h]

/-- Vias that are pushed do not change the lowest one. -/
theorem originBranch_of_pushed {hs hs' : Headers} {more : List Text} (hne : hs.vias ≠ [])
    (h : hs'.vias = more ++ hs.vias) : hs'.originBranch = hs.originBranch := by
  rw [originBranch, originBranch, h, List.getLast?_append_of_ne_nil _ hne]

end Headers

/-! Requests that repeat the fields of another one. -/

/-- A request that has the fields of another one by which its transaction is told, except for the receiver
and the Vias. -/
structure Request.Repeats (r q : Request) : Prop where
  uri : r.uri = q.uri
  callId : r.headers.callId? = q.headers.callId?
  sender : r.headers.value? .from = q.headers.value? .from
  sequence : r.headers.sequence?.map (·.1) = q.headers.sequence?.map (·.1)

namespace Request

variable {q r : Request}

theorem Repeats.transactionKey (h : r.Repeats q) :
    r.transactionKey =
      { q.transactionKey with
        originBranch := r.headers.originBranch
        toTag := r.headers.tag .to } := by
  have hsequence : ∀ r : Request, (r.headers.sequence?.map fun s => s.1.toNat) =
      (r.headers.sequence?.map (·.1)).map UInt32.toNat := by
    intro r
    rw [Option.map_map]
    rfl
  have hfrom : r.headers.tag .from = q.headers.tag .from := by rw [Headers.tag, Headers.tag, h.sender]
  unfold Request.transactionKey
  rw [h.uri, h.callId, hfrom, hsequence, hsequence, h.sequence]
  rfl

theorem Repeats.trans {p : Request} (h : r.Repeats q) (h' : q.Repeats p) : r.Repeats p where
  uri := h.uri.trans h'.uri
  callId := h.callId.trans h'.callId
  sender := h.sender.trans h'.sender
  sequence := h.sequence.trans h'.sequence

theorem repeats_of_values (huri : r.uri = q.uri) (hcall : r.headers.values .callId = q.headers.values .callId)
    (hfrom : r.headers.values .from = q.headers.values .from)
    (hsequence : r.headers.values .cseq = q.headers.values .cseq) : r.Repeats q where
  uri := huri
  callId := Headers.callId?_congr hcall
  sender := by rw [Headers.value?_eq_head?, Headers.value?_eq_head?, hfrom]
  sequence := by rw [Headers.sequence?, Headers.sequence?, hsequence]

/-- A request has the same transaction as it is received. -/
theorem transactionKey_received (cx : Context) (w : World) (source : Endpoint) (r : Request) :
    (r.received cx w source).transactionKey = r.transactionKey := by
  have hvalues : ∀ n : StandardName, n ≠ .via → n ≠ .route →
      (r.received cx w source).headers.values n = r.headers.values n := by
    intro n hvia hroute
    rw [received, Headers.values_stripRoutes hroute, Headers.values_stamp hvia]
  have hrepeats : (r.received cx w source).Repeats r :=
    repeats_of_values rfl (hvalues _ (by decide) (by decide)) (hvalues _ (by decide) (by decide))
      (hvalues _ (by decide) (by decide))
  have horigin : (r.received cx w source).headers.originBranch = r.headers.originBranch := by
    refine Headers.originBranch_congr ?_
    rw [vias_received, Headers.branches_stamp]
  rw [hrepeats.transactionKey, horigin, Headers.tag_congr (hvalues .to (by decide) (by decide))]
  rfl

end Request

/-! The branch of a forwarded request. -/

/-- The branch in the topmost Via of a message, where a forwarded one has the proxy's own. -/
def Message.pushedBranch? (m : Message) : Option Text := m.headers.topVia?.bind Via.branch?

theorem Request.Passes.pushedBranch? {cx : Context} {t : Ticket} {w next after : World} {r : Request}
    {direction : Direction} {registration : Option Registration} {m : Message} {destination : Endpoint}
    (h : r.Passes cx t w direction registration next m destination after) :
    m.pushedBranch? = some r.branch := by
  rw [Message.pushedBranch?, Headers.topVia?_eq_head?, h.vias, List.head?_cons, Option.bind_some]
  exact branch?_ownVia _ _ r.transactionKey.isWord_branch r.transactionKey.semicolon_not_mem_branch

theorem pushedBranch?_of_route {cx : Context} {t : Ticket} {w after : World} {q : Request} {m : Message}
    {destination : Endpoint} (hq : t.message = .request q) (hplugins : w.plugins.plugins = [])
    (hroute : route cx t w = (.forward m destination, after)) : m.pushedBranch? = some q.branch := by
  obtain ⟨direction, registration, next, hpasses⟩ := request_passes hq hplugins hroute
  rw [hpasses.pushedBranch?, Request.branch, Request.transactionKey_received]
  rfl

/-! The CANCEL and the ACK of a request, as the hop before the proxy makes them. -/

/-- A CANCEL of a request: its only Via is the topmost one of the request. -/
structure Request.Cancels (c q : Request) : Prop extends c.Repeats q where
  method : c.method = .cancel
  receiver : c.headers.value? .to = q.headers.value? .to
  vias : c.headers.vias = q.headers.vias.take 1

/-- An ACK of the final response to a failed request with a single Via: it has the tag that the receiver was
given in the response. -/
structure Request.Acknowledges (a q : Request) : Prop extends a.Repeats q where
  method : a.method = .ack
  untagged : q.headers.tag .to = []
  tagged : a.headers.tag .to ≠ []
  vias : ∃ via, q.headers.vias = [via] ∧ a.headers.vias = [via]

section

variable {q r : Request}

theorem Request.Cancels.transactionKey (h : r.Cancels q) :
    r.transactionKey = { q.transactionKey with originBranch := q.headers.topBranch } := by
  have horigin : r.headers.originBranch = q.headers.topBranch := by
    rw [Headers.originBranch, Headers.topBranch, h.vias]
    cases q.headers.vias <;> rfl
  have htag : r.headers.tag .to = q.headers.tag .to := by rw [Headers.tag, Headers.tag, h.receiver]
  rw [h.toRepeats.transactionKey, horigin, htag]
  rfl

theorem Request.Acknowledges.transactionKey (h : r.Acknowledges q) :
    r.transactionKey = { q.transactionKey with toTag := r.headers.tag .to } := by
  obtain ⟨via, hq, hr⟩ := h.vias
  have horigin : r.headers.originBranch = q.headers.originBranch := by
    rw [Headers.originBranch, Headers.originBranch, hq, hr]
  rw [h.toRepeats.transactionKey, horigin]
  rfl

variable {cx : Context} {t t' : Ticket} {w w' after after' : World} {m m' : Message}
  {destination destination' : Endpoint}

/-- A CANCEL that is forwarded has the branch of the request that it cancels exactly if the topmost Via of the
request has the branch of the lowest one, up to a collision. -/
theorem cancel_branch_iff (hq : t.message = .request q) (hplugins : w.plugins.plugins = [])
    (hroute : route cx t w = (.forward m destination, after)) (hr : t'.message = .request r)
    (hplugins' : w'.plugins.plugins = []) (hroute' : route cx t' w' = (.forward m' destination', after'))
    (hcancels : r.Cancels q) :
    ∃ branch branch', m.pushedBranch? = some branch ∧ m'.pushedBranch? = some branch' ∧
      (branch' = branch ↔ q.headers.topBranch = q.headers.originBranch ∨
        Md5.Collide r.transactionKey.material q.transactionKey.material) := by
  refine ⟨q.branch, r.branch, pushedBranch?_of_route hq hplugins hroute,
    pushedBranch?_of_route hr hplugins' hroute', ?_⟩
  rw [Request.branch, Request.branch, TransactionKey.branch_eq_iff]
  refine or_congr_left ?_
  rw [hcancels.transactionKey, TransactionKey.material_originBranch]
  rfl

/-- An ACK that is forwarded has another branch than the request whose failure it acknowledges, unless there
is a collision. -/
theorem ack_branch_iff (hq : t.message = .request q) (hplugins : w.plugins.plugins = [])
    (hroute : route cx t w = (.forward m destination, after)) (hr : t'.message = .request r)
    (hplugins' : w'.plugins.plugins = []) (hroute' : route cx t' w' = (.forward m' destination', after'))
    (hacknowledges : r.Acknowledges q) :
    ∃ branch branch', m.pushedBranch? = some branch ∧ m'.pushedBranch? = some branch' ∧
      (branch' = branch ↔ Md5.Collide r.transactionKey.material q.transactionKey.material) := by
  refine ⟨q.branch, r.branch, pushedBranch?_of_route hq hplugins hroute,
    pushedBranch?_of_route hr hplugins' hroute', ?_⟩
  have hdiffer : r.transactionKey.material ≠ q.transactionKey.material := by
    rw [hacknowledges.transactionKey, Ne, TransactionKey.material_toTag]
    intro htag
    exact hacknowledges.tagged (htag.trans hacknowledges.untagged)
  rw [Request.branch, Request.branch, TransactionKey.branch_eq_iff, or_iff_right hdiffer]

end

namespace OutgoingCall

/-- The invitation with a Via of a hop before the party. -/
def relayedInvitation : Ticket :=
  ticket .invite (.v4 192 0 2 9)
    [field .to "<sip:bob@192.0.2.9>", field .cseq "2 INVITE",
      field .via "SIP/2.0/UDP 10.0.0.7;branch=z9hG4bK0"] ""

def cancellation : Ticket :=
  ticket .cancel (.v4 192 0 2 9) [field .to "<sip:bob@192.0.2.9>", field .cseq "2 CANCEL"] ""

def acknowledgement : Ticket :=
  ticket .ack (.v4 192 0 2 9) [field .to "<sip:bob@192.0.2.9>;tag=2", field .cseq "2 ACK"] ""

/-- A message of the registered party and the next one are forwarded as two messages. -/
def Forwards (t t' : Ticket) (m m' : Message) : Prop :=
  ∃ destination after destination' after',
    route (.ofSettings settings) t registered = (.forward m destination, after) ∧
      after.plugins.plugins = [] ∧
      route (.ofSettings settings) t' after = (.forward m' destination', after')

theorem forwards_of (t t' : Ticket) (p : Message → Message → Prop)
    (h : ∃ sent ∈ (route (.ofSettings settings) t registered).1.forwarded?,
      ∃ sent' ∈ (route (.ofSettings settings) t'
        (route (.ofSettings settings) t registered).2).1.forwarded?, p sent.1 sent'.1) :
    ∃ m m', Forwards t t' m m' ∧ p m m' := by
  obtain ⟨⟨m, destination⟩, hsent, ⟨m', destination'⟩, hsent', hp⟩ := h
  exact ⟨m, m', ⟨destination, _, destination', _,
    Prod.ext (Routed.forwarded?_eq_some_iff.mp hsent) rfl,
    (reachable_registered.route t).ready.plugins,
    Prod.ext (Routed.forwarded?_eq_some_iff.mp hsent') rfl⟩, hp⟩

end OutgoingCall

open OutgoingCall in
theorem cancellation_cancels {t : Ticket} (ht : t = invitation ∨ t = relayedInvitation) {q c : Request}
    (hq : t.message = .request q) (hc : cancellation.message = .request c) : c.Cancels q := by
  obtain rfl := Message.request.inj hc
  rcases ht with rfl | rfl <;> obtain rfl := Message.request.inj hq <;>
    exact ⟨⟨rfl, by decide +kernel, by decide +kernel, by decide +kernel⟩, rfl, by decide +kernel,
      by decide +kernel⟩

open OutgoingCall in
/-- The CANCEL of an invitation with a single Via has the branch of the invitation. -/
theorem cancel_branch_invitation :
    ∃ m m', Forwards invitation cancellation m m' ∧ m'.pushedBranch? = m.pushedBranch? := by
  obtain ⟨m, m', hforwards, -⟩ := forwards_of invitation cancellation (fun _ _ => True) (by decide +kernel)
  obtain ⟨destination, after, destination', after', hroute, hplugins, hroute'⟩ := hforwards
  obtain ⟨q, hq⟩ : ∃ q, invitation.message = .request q := ⟨_, rfl⟩
  obtain ⟨c, hc⟩ : ∃ c, cancellation.message = .request c := ⟨_, rfl⟩
  have hsingle : q.headers.topBranch = q.headers.originBranch := by
    obtain rfl := Message.request.inj hq
    decide +kernel
  obtain ⟨branch, branch', hbranch, hbranch', hiff⟩ := cancel_branch_iff hq
    reachable_registered.ready.plugins hroute hc hplugins hroute' (cancellation_cancels (.inl rfl) hq hc)
  refine ⟨m, m', ⟨destination, after, destination', after', hroute, hplugins, hroute'⟩, ?_⟩
  rw [hbranch, hbranch', hiff.mpr (.inl hsingle)]

open OutgoingCall in
/-- The CANCEL of an invitation that came over another hop has another branch than the invitation. -/
theorem relayed_invitation_is_not_cancelled :
    ∃ q c m m', relayedInvitation.message = .request q ∧ cancellation.message = .request c ∧ c.Cancels q ∧
      Forwards relayedInvitation cancellation m m' ∧ m'.pushedBranch? ≠ m.pushedBranch? := by
  obtain ⟨m, m', hforwards, hdiffer⟩ := forwards_of relayedInvitation cancellation
    (fun m m' => m'.pushedBranch? ≠ m.pushedBranch?) (by decide +kernel)
  exact ⟨_, _, m, m', rfl, rfl, cancellation_cancels (.inr rfl) rfl rfl, hforwards, hdiffer⟩

open OutgoingCall in
theorem acknowledgement_acknowledges {q a : Request} (hq : invitation.message = .request q)
    (ha : acknowledgement.message = .request a) : a.Acknowledges q := by
  obtain rfl := Message.request.inj hq
  obtain rfl := Message.request.inj ha
  exact ⟨⟨rfl, by decide +kernel, by decide +kernel, by decide +kernel⟩, rfl, by decide +kernel,
    by decide +kernel, _, rfl, rfl⟩

open OutgoingCall in
theorem ack_branch_invitation :
    ∃ q a m m', invitation.message = .request q ∧ acknowledgement.message = .request a ∧
      Forwards invitation acknowledgement m m' ∧
        (m'.pushedBranch? = m.pushedBranch? ↔
          Md5.Collide a.transactionKey.material q.transactionKey.material) := by
  obtain ⟨m, m', hforwards, -⟩ :=
    forwards_of invitation acknowledgement (fun _ _ => True) (by decide +kernel)
  obtain ⟨destination, after, destination', after', hroute, hplugins, hroute'⟩ := hforwards
  obtain ⟨q, hq⟩ : ∃ q, invitation.message = .request q := ⟨_, rfl⟩
  obtain ⟨a, ha⟩ : ∃ a, acknowledgement.message = .request a := ⟨_, rfl⟩
  obtain ⟨branch, branch', hbranch, hbranch', hiff⟩ := ack_branch_iff hq reachable_registered.ready.plugins
    hroute ha hplugins hroute' (acknowledgement_acknowledges hq ha)
  refine ⟨q, a, m, m', hq, ha, ⟨destination, after, destination', after', hroute, hplugins, hroute'⟩, ?_⟩
  rw [hbranch, hbranch', Option.some.injEq]
  exact hiff

open OutgoingCall in
/-- The ACK of the failure of an invitation with a single Via has another branch than the invitation. -/
theorem failed_invitation_is_not_acknowledged :
    ∃ q a m m', invitation.message = .request q ∧ acknowledgement.message = .request a ∧
      a.Acknowledges q ∧ Forwards invitation acknowledgement m m' ∧
        m'.pushedBranch? ≠ m.pushedBranch? := by
  obtain ⟨m, m', hforwards, hdiffer⟩ := forwards_of invitation acknowledgement
    (fun m m' => m'.pushedBranch? ≠ m.pushedBranch?) (by decide +kernel)
  exact ⟨_, _, m, m', rfl, rfl, acknowledgement_acknowledges rfl rfl, hforwards, hdiffer⟩

end BorderProxy
