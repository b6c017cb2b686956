import BorderProxy.Proofs.Proxy.Vias
import BorderProxy.Proofs.Text.Number

/-! How often a request may be forwarded. A request that says it, in the first field that can be read, is
forwarded at most that often; one that does not say it counts as if it had come with one hop more than it
is then given. Each time it is forwarded it has a single field, which says one less; so it comes to an end
however it is sent in a circle, whatever becomes of its Request-URI and its Routes on the way. -/

namespace BorderProxy

/-- How often a request with these fields may still be forwarded. -/
def Headers.hopsLeft (hs : Headers) : Nat :=
  match hs.maxForwards? with
  | some n => n.toNat
  | none => 71

theorem toNat_oneLess (n : UInt32) : (oneLess n).toNat = n.toNat - 1 := by
  unfold oneLess
  split
  · rename_i hzero
    rw [hzero]
    rfl
  · rename_i hne
    have hle : 1 ≤ n := by
      rw [UInt32.le_iff_toNat_le]
      have hpos : n.toNat ≠ 0 := fun h => hne (UInt32.toNat_inj.mp h)
      show 1 ≤ n.toNat
      omega
    exact UInt32.toNat_sub_of_le n 1 hle

theorem Headers.maxForwards?_of_values {hs : Headers} {n : UInt32}
    (h : hs.values .maxForwards = [Text.decimal n.toNat]) : hs.maxForwards? = some n := by
  rw [maxForwards?, number?, h, List.findSome?_cons, Text.trim_of_isWord (Text.isWord_decimal _),
    Text.uint32?_decimal]

/-- The fields of a forwarded request say how often it may be forwarded, and say it once. -/
theorem Context.values_maxForwards_forwardHeaders (cx : Context) (method : Method) (direction : Direction)
    (branch : Text) (hs : Headers) :
    (cx.forwardHeaders method direction branch hs).values .maxForwards =
      [Text.decimal ((hs.maxForwards?.map oneLess).getD defaultHops).toNat] := by
  unfold Context.forwardHeaders
  dsimp only
  rw [Headers.values_pushAbove_other (by decide)]
  split
  · exact Headers.values_setLast _ _ hs
  · rw [Headers.recordRoute, Headers.withRecordRoutes, Headers.values_replaceAllInFront_other (by decide)]
    exact Headers.values_setLast _ _ hs

/-- A request passes only with a hop left, and is forwarded with one less. -/
theorem Request.Passes.hops {cx : Context} {t : Ticket} {w next after : World} {q : Request}
    {direction : Direction} {registration : Option Registration} {m : Message} {destination : Endpoint}
    (h : (q.received cx w t.source).Passes cx t w direction registration next m destination after) :
    0 < q.headers.hopsLeft ∧
      ∃ n : UInt32, m.headers.values .maxForwards = [Text.decimal n.toNat] ∧
        n.toNat = q.headers.hopsLeft - 1 := by
  obtain ⟨-, -, hleft, -⟩ := checkLoop_eq_ok h.checked
  rw [q.maxForwards?_received] at hleft
  have hvalues : m.headers.values .maxForwards =
      [Text.decimal ((q.headers.maxForwards?.map oneLess).getD defaultHops).toNat] := by
    rw [h.sent, values_promoteStrictRoute (by decide), Request.values_handled (by decide)]
    unfold Request.prepared
    dsimp only
    rw [cx.values_maxForwards_forwardHeaders, Headers.maxForwards?, Headers.number?,
      Headers.values_presentContact (by decide), headers_aimAt, ← Headers.number?, ← Headers.maxForwards?,
      q.maxForwards?_received]
  refine ⟨?_, _, hvalues, ?_⟩
  · unfold Headers.hopsLeft
    cases hhops : q.headers.maxForwards? with
    | none => exact Nat.succ_pos _
    | some n =>
        have hne : n ≠ 0 := fun hzero => hleft (by rw [hhops, hzero])
        exact Nat.pos_of_ne_zero fun hzero => hne (UInt32.toNat_inj.mp hzero)
  · unfold Headers.hopsLeft
    cases q.headers.maxForwards? with
    | none => rfl
    | some n => exact toNat_oneLess n

/-- A request that is forwarded without plugins had a hop left, and goes on as a request with one less. -/
theorem hops_of_route {cx : Context} {t : Ticket} {q : Request} (hq : t.message = .request q) {w : World}
    (hplugins : w.plugins.plugins = []) {m : Message} {destination : Endpoint}
    (hroute : (route cx t w).1 = .forward m destination) :
    0 < q.headers.hopsLeft ∧ ∃ f, m = .request f ∧ f.headers.hopsLeft = q.headers.hopsLeft - 1 ∧
      f.headers.values .maxForwards = [Text.decimal (q.headers.hopsLeft - 1)] := by
  obtain ⟨direction, registration, next, hpasses⟩ :=
    request_passes hq hplugins (Prod.ext hroute rfl : route cx t w = (_, (route cx t w).2))
  obtain ⟨hleft, n, hvalues, hn⟩ := hpasses.hops
  obtain ⟨f, rfl, -⟩ := hpasses.target
  have hsaid : f.headers.maxForwards? = some n := Headers.maxForwards?_of_values hvalues
  refine ⟨hleft, f, rfl, ?_, hn ▸ hvalues⟩
  rw [Headers.hopsLeft, hsaid]
  exact hn

/-! Requests that go round. -/

/-- Where a message arrives from, and the world that it then finds. -/
structure Visit where
  source : Endpoint
  world : World

/-- What is forwarded, one message after the other, when each message that is forwarded arrives again; a
message that is not forwarded ends the round. -/
def Context.circulate (cx : Context) : Message → List Visit → List Message
  | _, [] => []
  | m, visit :: later =>
    match (route cx { message := m, source := visit.source } visit.world).1 with
    | .forward next _ => next :: cx.circulate next later
    | _ => []

/-- A request that goes round is forwarded at most as often as it says, or 71 times if it does not say it.
Whatever it finds when it arrives, it goes on each time with a single field that says one less. -/
theorem circulation_ends (cx : Context) (q : Request) (visits : List Visit)
    (hplugins : ∀ visit ∈ visits, visit.world.plugins.plugins = []) :
    (cx.circulate (.request q) visits).length ≤ q.headers.hopsLeft ∧
      ∀ i m, (cx.circulate (.request q) visits)[i]? = some m →
        m.headers.values .maxForwards = [Text.decimal (q.headers.hopsLeft - (i + 1))] := by
  induction visits generalizing q with
  | nil => exact ⟨Nat.zero_le _, fun i m h => by cases h⟩
  | cons visit later ih =>
      rw [Context.circulate]
      split
      · rename_i next destination hroute
        obtain ⟨hleft, f, rfl, hf, hvalues⟩ := hops_of_route rfl
          (hplugins visit List.mem_cons_self) hroute
        obtain ⟨hlength, hsent⟩ := ih f fun a ha => hplugins a (List.mem_cons_of_mem _ ha)
        rw [hf] at hlength hsent
        refine ⟨?_, fun i m h => ?_⟩
        · rw [List.length_cons]
          omega
        · cases i with
          | zero =>
              rw [List.getElem?_cons_zero, Option.some.injEq] at h
              rw [← h]
              exact hvalues
          | succ i =>
              rw [List.getElem?_cons_succ] at h
              rw [hsent i m h, Nat.sub_sub, Nat.add_comm 1]
      · exact ⟨Nat.zero_le _, fun i m h => by cases h⟩

namespace OutgoingCall

/-- A call to the registered party, which may be forwarded twice. -/
def callBack : Request :=
  { method := .invite
    uri := { hostUri (.v4 192 0 2 1) with userInfo := some ⟨"alice".toList, none⟩ }
    version := .two
    headers :=
      [field .via "SIP/2.0/UDP 192.0.2.9;branch=z9hG4bK2",
        field .from "<sip:bob@192.0.2.9>;tag=2",
        field .to "<sip:alice@192.0.2.1>",
        field .callId "b",
        field .cseq "1 INVITE",
        field .maxForwards "many",
        field .maxForwards "2",
        field .maxForwards "70"]
    body := [] }

/-- The call arrives three times from the other party. -/
def visits : List Visit := List.replicate 3 ⟨⟨.v4 192 0 2 9, 5060⟩, registered⟩

end OutgoingCall

open OutgoingCall in
theorem circulation_ends_callBack :
    ((Context.ofSettings settings).circulate (.request callBack) visits).length = 2 ∧
      (∀ visit ∈ visits, visit.world.plugins.plugins = []) ∧
      ((Context.ofSettings settings).circulate (.request callBack) visits).length ≤ 2 ∧
      ∀ i m, ((Context.ofSettings settings).circulate (.request callBack) visits)[i]? = some m →
        m.headers.values .maxForwards = [Text.decimal (2 - (i + 1))] := by
  have hlength : ((Context.ofSettings settings).circulate (.request callBack) visits).length = 2 := by
    decide +kernel
  have hplugins : ∀ visit ∈ visits, visit.world.plugins.plugins = [] := by
    intro visit h
    rw [List.eq_of_mem_replicate h]
    exact reachable_registered.ready.plugins
  have hleft : callBack.headers.hopsLeft = 2 := by decide +kernel
  have hends := circulation_ends (.ofSettings settings) callBack visits hplugins
  rw [hleft] at hends
  exact ⟨hlength, hplugins, hends⟩

end BorderProxy
