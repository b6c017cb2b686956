import BorderProxy.Proofs.Proxy.Forwarded
import BorderProxy.Proofs.Proxy.Parts
import BorderProxy.Proofs.Proxy.Presented

/-! Bodies that are passed on. Where no section of it is given a port, a message is routed with the body that it
came with and with the length that was announced for it. It is sent as text, and so the body arrives as it was
if it is well-formed UTF-8, and in no other case. -/

namespace BorderProxy

/-- The body of a message, and the lengths that its fields announce for it. -/
def Message.announced (m : Message) : List UInt8 × List Text := (m.body, m.headers.values .contentLength)

theorem Message.isOffRoute_announced : IsOffRoute Message.announced := fun m edit hedit =>
  Prod.ext (isOffRoute_body m edit hedit) (isOffRoute_values (by decide) m edit hedit)

/-! Messages on their course. -/

/-- The relay ports that the sections of a request are given on its course. -/
def RequestCourse.ports (cx : Context) (source : Endpoint) (w : World) (c : RequestCourse) :
    List (Option UInt16) :=
  match c.method with
  | .invite | .ack | .update =>
    anchorPorts cx c.direction (clientOf c.ticket.message.headers source) (.request c.request) w
  | _ => []

/-- The relay ports that the sections of a response are given on its course, also where it ends its call. -/
def ResponseCourse.ports (cx : Context) (source : Endpoint) (w : World) (c : ResponseCourse) :
    List (Option UInt16) :=
  anchorPorts cx c.direction (clientOf c.ticket.message.headers source) (.response c.response) w

def Course.ports (cx : Context) (source : Endpoint) (w : World) : Course → List (Option UInt16)
  | .request c => c.ports cx source w
  | .response c => c.ports cx source w

/-- The relay ports that the sections of a message are given when it is routed. -/
def Ticket.sectionPorts (cx : Context) (w : World) (t : Ticket) : List (Option UInt16) :=
  match t.settled? cx w with
  | some course => course.ports cx t.source (t.settledWorld cx w)
  | none => []

theorem Course.IsSettledFor.settledWorld {course : Course} {cx : Context} {t : Ticket} {w v : World}
    (h : course.IsSettledFor cx t w v) : t.settledWorld cx w = v := by
  unfold Ticket.settledWorld
  cases course with
  | request c =>
      obtain ⟨hmethod, hsettled⟩ := h
      cases hmessage : t.message with
      | request q => exact congrArg Prod.snd hsettled
      | response r =>
          rw [hmessage] at hmethod
          cases hmethod
  | response c =>
      obtain ⟨hmethod, hsettled⟩ := h
      cases hmessage : t.message with
      | request q =>
          rw [hmessage] at hmethod
          cases hmethod
      | response r => exact congrArg Prod.snd hsettled

section

variable {cx : Context} {source : Endpoint} {w v after : World} {m : Message} {destination : Endpoint}

theorem part_passRequest {α : Type} {part : Message → α} {direction : Direction} {strict : Bool} {t : Ticket}
    (hkeeps : w.plugins.KeepsPart part)
    (h : (passRequest cx direction strict t).outcome w = (.forward m destination, after)) :
    part m = part t.message := by
  obtain ⟨t', w₁, hconsulted, h⟩ := forward_of_andThen (endsUnsent_consult _ _) h
  obtain ⟨r, w₂, -, h⟩ := forward_of_andThen (endsUnsent_requestOf t') h
  rw [outcome_of_ok (processing_lift _ _), outcome_eq, processing_pure] at h
  rw [(forwardTo_eq_forward (Prod.mk.inj h).1).1]
  exact (part_consult hkeeps hconsulted).1

theorem part_passResponse {α : Type} {part : Message → α} {registration : Registration} {t : Ticket}
    (hkeeps : w.plugins.KeepsPart part)
    (h : (passResponse registration t).outcome w = (.forward m destination, after)) :
    part m = part t.message := by
  obtain ⟨t', w₁, hconsulted, h⟩ := forward_of_andThen (endsUnsent_consult _ _) h
  have hmessage : m = t'.message := by
    split at h
    · rw [outcome_eq, processing_pure] at h
      exact (forwardTo_eq_forward (Prod.mk.inj h).1).1
    · rw [outcome_of_ok (processing_lift _ _), outcome_eq, processing_pure] at h
      exact (forwardTo_eq_forward (Prod.mk.inj h).1).1
  rw [hmessage]
  exact (part_consult hkeeps hconsulted).1

theorem RequestCourse.announced_faced (cx : Context) (w : World) (c : RequestCourse) :
    (Message.request (c.faced cx w)).announced = (Message.request c.request).announced :=
  Prod.ext (c.body_faced cx w) (c.values_faced cx w rfl)

/-- Where no section of it is given a port, a request goes through media as it faces the other side. -/
theorem RequestCourse.handled_of_none {c : RequestCourse}
    (hnone : (c.ports cx source w).all Option.isNone = true) :
    (handleMedia cx c.method c.direction (clientOf c.ticket.message.headers source)
      (c.faced cx w) w).1 = .request (c.faced cx w) := by
  have hdescription : (Message.request (c.faced cx w)).description? =
      (Message.request c.request).description? :=
    description?_congr (c.body_faced cx w) fun n hn => c.values_faced cx w hn
  have hanchor : ∀ client, (anchorPorts cx c.direction client (.request c.request) w).all Option.isNone = true →
      (anchorMedia cx c.direction client (.request (c.faced cx w)) w).1 = .request (c.faced cx w) := by
    intro client hnone
    rw [← anchorPorts_congr cx c.direction client hdescription] at hnone
    exact anchorMedia_of_none hnone
  unfold ports at hnone
  unfold handleMedia
  cases hmethod : c.method with
  | invite => rw [hmethod] at hnone; exact hanchor _ hnone
  | ack => rw [hmethod] at hnone; exact hanchor _ hnone
  | update => rw [hmethod] at hnone; exact hanchor _ hnone
  | _ => rfl

theorem keepsPart_anchorMedia {α : Type} (part : Message → α) (cx : Context) (direction : Direction)
    (client : Text) (m : Message) :
    Keeps (fun w => w.plugins.KeepsPart part) (anchorMedia cx direction client m) :=
  keeps_anchorMedia (keeps_startStream fun _ _ hw => hw) cx direction client m

theorem keepsPart_stopStreams {α : Type} (part : Message → α) (hs : Headers) :
    Keeps (fun w => w.plugins.KeepsPart part) (stopStreams hs) :=
  keeps_stopStreams (keeps_stopDirection fun _ _ hw => hw) hs

theorem announced_promoteStrictRoute (m : Message) : m.promoteStrictRoute.1.announced = m.announced :=
  Prod.ext (body_promoteStrictRoute m) (values_promoteStrictRoute (by decide) m)

theorem announced_sendRequest {c : RequestCourse} (hkeeps : v.plugins.KeepsPart Message.announced)
    (hnone : (c.ports cx source v).all Option.isNone = true)
    (h : (sendRequest cx source c).outcome v = (.forward m destination, after)) :
    m.announced = (Message.request c.request).announced := by
  have hhandled := RequestCourse.handled_of_none hnone
  have hkept := keeps_handleMedia (keepsPart_anchorMedia Message.announced cx) (keepsPart_stopStreams _)
    c.method c.direction (clientOf c.ticket.message.headers source) (c.faced cx v) v hkeeps
  unfold sendRequest at h
  rw [outcome_of_ok (processing_get v), outcome_of_ok (processing_lift _ _)] at h
  change (passRequest _ _ _ { c.ticket with message := Message.promoteStrictRoute (handleMedia cx c.method
    c.direction (clientOf c.ticket.message.headers source) (c.faced cx v) v).1 |>.1 }).outcome _ = _ at h
  calc m.announced
      = (handleMedia cx c.method c.direction (clientOf c.ticket.message.headers source)
          (c.faced cx v) v).1.promoteStrictRoute.1.announced := part_passRequest hkept h
    _ = (Message.request (c.faced cx v)).announced := by rw [hhandled, announced_promoteStrictRoute]
    _ = (Message.request c.request).announced := c.announced_faced cx v

theorem ResponseCourse.announced_prepared (cx : Context) (w : World) (c : ResponseCourse) :
    (Message.response (c.response.prepared cx w c.direction)).announced =
      (Message.response c.response).announced :=
  Prod.ext rfl (c.response.values_prepared cx w c.direction rfl)

theorem announced_sendResponse {c : ResponseCourse} (hkeeps : v.plugins.KeepsPart Message.announced)
    (hnone : (c.ports cx source v).all Option.isNone = true)
    (h : (sendResponse cx source c).outcome v = (.forward m destination, after)) :
    m.announced = (Message.response c.response).announced := by
  have hdescription : (Message.response (c.response.prepared cx v c.direction)).description? =
      (Message.response c.response).description? :=
    description?_congr rfl fun n hn => c.response.values_prepared cx v c.direction hn
  rw [ResponseCourse.ports, ← anchorPorts_congr cx c.direction _ hdescription] at hnone
  have hanchored := anchorMedia_of_none hnone
  have hkept := keepsPart_anchorMedia Message.announced cx c.direction
    (clientOf c.ticket.message.headers source) (.response (c.response.prepared cx v c.direction)) v hkeeps
  unfold sendResponse at h
  rw [outcome_of_ok (processing_get v), outcome_of_ok (processing_lift _ _)] at h
  rw [← c.announced_prepared cx v, ← hanchored]
  dsimp only at h
  split at h
  · rw [outcome_of_ok (processing_lift _ _)] at h
    exact part_passResponse (keepsPart_stopStreams _ _ _ hkept) h
  · exact part_passResponse hkept h

/-- A message that is sent on its course goes out with the body and the announced length that it was settled
with. -/
theorem Course.announced_send {course : Course} (hkeeps : v.plugins.KeepsPart Message.announced)
    (hnone : (course.ports cx source v).all Option.isNone = true)
    (h : (course.send cx source).outcome v = (.forward m destination, after)) :
    m.announced = course.message.announced := by
  cases course with
  | request c => exact announced_sendRequest hkeeps hnone h
  | response c => exact announced_sendResponse hkeeps hnone h

/-- A message of which no section is given a port is routed with the body that it came with and with the
length that was announced for it. -/
theorem Ticket.announced_of_forward {t : Ticket} (hkeeps : w.plugins.KeepsPart Message.announced)
    (hroute : route cx t w = (.forward m destination, after))
    (hnone : (t.sectionPorts cx w).all Option.isNone = true) : m.announced = t.message.announced := by
  obtain ⟨course, v, hsettled, hcourse, hsent⟩ := Ticket.settled_of_forward hroute
  rw [sectionPorts, hsettled, hcourse.settledWorld] at hnone
  obtain ⟨hcame, hplugins⟩ := hcourse.part Message.isOffRoute_announced hkeeps
  exact (Course.announced_send (hkeeps.of_plugins hplugins) hnone hsent).trans hcame

theorem Ticket.message_of_read {bytes : List UInt8} {t : Ticket} (h : Ticket.read bytes source = .ok t) :
    Message.read bytes = .ok t.message := by
  unfold Ticket.read at h
  cases hread : Message.read bytes with
  | error fault =>
      rw [hread] at h
      cases h
  | ok message =>
      rw [hread] at h
      rw [← Except.ok.inj h]

/-- A datagram with a character of a name in it holds more than blanks. -/
theorem not_isKeepalive_of_token {bytes : List UInt8} {c : Char} (hc : isTokenChar c = true)
    (hamong : ∀ b ∈ Utf8.encodeChar c, b ∈ bytes) : isKeepalive bytes = false := by
  obtain ⟨b, rest, hfirst, hb⟩ := Utf8.encodeChar_eq_cons c
  have hmem : b ∈ bytes := hamong b (by rw [hfirst]; exact List.mem_cons_self)
  refine List.all_eq_false.mpr ⟨b, hmem, fun hblank => ?_⟩
  have hblanks : ∀ n ∈ [9, 10, 12, 13, 32], n < 0x80 ∧ isTokenChar (Char.ofNat n) = false := by decide
  have hcode : b.toNat ∈ [9, 10, 12, 13, 32] := by
    simp only [Bool.or_eq_true, beq_iff_eq] at hblank
    rcases hblank with (((rfl | rfl) | rfl) | rfl) | rfl <;> decide
  obtain ⟨hascii, hnot⟩ := hblanks _ hcode
  rcases hb with hb | hb
  · rw [hb, Char.ofNat_toNat, hc] at hnot
    cases hnot
  · omega

/-- What the listener sends of a message that is forwarded. -/
theorem Listener.receive_of_forward (l : Listener) {bytes : List UInt8} {t : Ticket}
    (hread : Ticket.read bytes source = .ok t) (hroute : route cx t w = (.forward m destination, after)) :
    (l.receive cx source bytes w).1 =
      if after.network.deliver l.endpoint destination = .sent then [⟨l.endpoint, destination, m.wire⟩]
      else [] := by
  obtain ⟨c, hc, hamong⟩ := Message.exists_token (Ticket.message_of_read hread) (route_eq_forward hroute).1
  unfold receive
  rw [if_neg (by rw [not_isKeepalive_of_token hc hamong]; decide), hread]
  dsimp only
  rw [act_bind, hroute]
  dsimp only
  unfold send
  rw [act_bind, act_get]
  dsimp only
  cases after.network.deliver l.endpoint destination <;> rfl

end

/-- A datagram whose message is forwarded without a port for any of its sections has its body behind a blank
line. If the network takes it, one datagram is sent for it, with the length that was announced for the body and
with each damaged piece of the body replaced. What is sent for the body is the body itself exactly if that is
well-formed UTF-8. -/
theorem body_intact_iff {l : Listener} {cx : Context} {source : Endpoint} {bytes : List UInt8}
    {w after : World} {t : Ticket} {m : Message} {destination : Endpoint}
    (hkeeps : w.plugins.KeepsPart Message.announced) (hread : Ticket.read bytes source = .ok t)
    (hroute : route cx t w = (.forward m destination, after))
    (hnone : (t.sectionPorts cx w).all Option.isNone = true) :
    ∃ front, bytes = front ++ blankLine ++ t.message.body ∧
      m.headers.values .contentLength = t.message.headers.values .contentLength ∧
      (l.receive cx source bytes w).1 =
        (if after.network.deliver l.endpoint destination = .sent then
          [⟨l.endpoint, destination, m.framed (Utf8.encode (Utf8.decodeLossy t.message.body))⟩]
        else []) ∧
      (Utf8.encode (Utf8.decodeLossy t.message.body) = t.message.body ↔
        (Utf8.decode? t.message.body).isSome) := by
  obtain ⟨hbody, hlength⟩ := Prod.mk.inj (Ticket.announced_of_forward hkeeps hroute hnone)
  obtain ⟨front, hfront⟩ := Message.exists_blankLine (Ticket.message_of_read hread) (route_eq_forward hroute).1
  refine ⟨front, hfront, hlength, ?_, Utf8.encode_decodeLossy_eq_iff _⟩
  rw [Listener.receive_of_forward l hread hroute, m.wire_eq, hbody]

namespace OutgoingCall

/-- The datagram of a message that the registered party sends, with a body of one byte. -/
def sentMessage (byte : UInt8) : List UInt8 :=
  let lines := ["MESSAGE sip:bob@192.0.2.9 SIP/2.0", "Via: SIP/2.0/UDP 10.0.0.5;branch=z9hG4bK1",
    "From: <sip:alice@192.0.2.1>;tag=1", "To: <sip:bob@192.0.2.9>", "Call-ID: a", "CSeq: 2 MESSAGE",
    "Content-Length: 1", ""]
  Utf8.encode (lines.flatMap fun line => line.toList ++ lineEnd) ++ [byte]

def listener : Listener := ⟨settings.sip.listenEndpoint, registered.clock.now⟩

/-- Whether the datagram with a byte for its body is sent on with a body, and announces one byte for it as it
did before. -/
def SentOnWith (byte : UInt8) (body : List UInt8) : Prop :=
  ∃ t ∈ (Ticket.read (sentMessage byte) party).toOption,
    t.message.body = [byte] ∧ (t.sectionPorts (.ofSettings settings) registered).all Option.isNone = true ∧
      ∃ sent ∈ (route (.ofSettings settings) t registered).1.forwarded?,
        sent.1.headers.values .contentLength = ["1".toList] ∧
          (listener.receive (.ofSettings settings) party (sentMessage byte) registered).1.map (·.payload) =
            [sent.1.framed body]

instance (byte : UInt8) (body : List UInt8) : Decidable (SentOnWith byte body) :=
  inferInstanceAs (Decidable (∃ _ ∈ _, _))

theorem SentOnWith.unique {byte : UInt8} {body body' : List UInt8} (h : SentOnWith byte body)
    (h' : SentOnWith byte body') : body = body' := by
  obtain ⟨t, ht, -, -, sent, hsent, -, hpayload⟩ := h
  obtain ⟨t', ht', -, -, sent', hsent', -, hpayload'⟩ := h'
  obtain rfl := Option.mem_unique ht ht'
  obtain rfl := Option.mem_unique hsent hsent'
  rw [hpayload, List.singleton_inj] at hpayload'
  exact Message.framed_inj.mp hpayload'

end OutgoingCall

open OutgoingCall in
theorem body_intact_sentMessage :
    ∃ t m destination after,
      Ticket.read (sentMessage 0x41) party = .ok t ∧
        route (.ofSettings settings) t registered = (.forward m destination, after) ∧
        (listener.receive (.ofSettings settings) party (sentMessage 0x41) registered).1 =
          [⟨listener.endpoint, destination, m.framed [0x41]⟩] := by
  have hsent : SentOnWith 0x41 [0x41] := by decide +kernel
  obtain ⟨t, ht, hbody, hnone, ⟨m, destination⟩, hforwarded, -, hpayloads⟩ := hsent
  have hread : Ticket.read (sentMessage 0x41) party = .ok t := by
    cases hread : Ticket.read (sentMessage 0x41) party with
    | error fault =>
        rw [hread] at ht
        cases ht
    | ok t' =>
        rw [hread] at ht
        rw [Option.some.inj ht]
  rcases hroute : route (.ofSettings settings) t registered with ⟨outcome, after⟩
  rw [hroute] at hforwarded
  obtain rfl := Routed.forwarded?_eq_some_iff.mp hforwarded
  have hplugins := reachable_registered.ready.plugins
  obtain ⟨front, -, -, hreceived, hintact⟩ := body_intact_iff (l := listener)
    ((PluginChain.keepsMessages_of_none hplugins).keepsPart _) hread hroute hnone
  refine ⟨t, m, destination, after, hread, hroute, ?_⟩
  rw [hreceived] at hpayloads ⊢
  split at hpayloads
  · rename_i htaken
    have hwellFormed : (Utf8.decode? t.message.body).isSome := by
      rw [hbody]
      rfl
    rw [if_pos htaken, hintact.mpr hwellFormed, hbody]
  · cases hpayloads

open OutgoingCall in
/-- A body of one byte that is no character goes out as the three bytes of the replacement character. -/
theorem damaged_byte_replaced :
    SentOnWith 0xFF [0xEF, 0xBF, 0xBD] ∧ ¬ SentOnWith 0xFF [0xFF] := by
  have hreplaced : SentOnWith 0xFF [0xEF, 0xBF, 0xBD] := by decide +kernel
  exact ⟨hreplaced, fun hintact => absurd (hreplaced.unique hintact) (by decide)⟩

end BorderProxy
