import BorderProxy.Proofs.Digest.Attempt
import BorderProxy.Proofs.Message.Answer
import BorderProxy.Proofs.Proxy.LocalAnswers
import BorderProxy.Proofs.Proxy.Loops

/-! What local answers repeat of their requests. Only requests are answered, and no ACK is. The steps up to an answer
edit the Vias and Routes of the request only, and of these an answer repeats the Vias, in which the source is noted.
So whoever sent the request knows its answer. -/

namespace BorderProxy

/-! The fields that an answer says more by. -/

theorem Header.isSpare_of_isNamed {h : Header} {n : StandardName} (hnamed : h.isNamed n = true)
    (hn : n ∉ repeatedNames ++ [StandardName.to, .contentLength]) : h.isSpare = true := by
  refine List.all_eq_true.mpr fun name hname => ?_
  have hne : n ≠ name := fun heq => hn (heq ▸ hname)
  rw [Headers.isNamed_of_ne hne hnamed]
  rfl

/-- A client is challenged by a field for that. -/
theorem Authenticator.isNamed_of_challenge {a : Authenticator} {clock : Clock} {r : Request} {field : Header}
    (h : (a.authenticate clock r).1 = .challenge field) : field.isNamed .proxyAuthenticate = true := by
  have hattempted := a.attempted clock r
  generalize a.authenticate clock r = result at hattempted h
  cases hattempted with
  | unpresented => rw [← AuthVerdict.challenge.inj h]; rfl
  | lapsed => rw [← AuthVerdict.challenge.inj h]; rfl
  | refused => rw [← AuthVerdict.challenge.inj h]; rfl
  | granted => cases h

theorem bindContact_ne_challenged (cx : Context) (r : Request) (source : Endpoint) (registered contact : Uri)
    (expiry : UInt32) (w : World) (field : Header) :
    (bindContact cx r source registered contact expiry w).1 ≠ .challenged field := by
  unfold bindContact
  simp only [act_bind, act_get]
  generalize Registrations.upsert _ _ _ = upserted
  cases upserted <;> exact fun h => by cases h

/-- Only the authenticator challenges a client. -/
theorem challenge_of_register {cx : Context} {r : Request} {source : Endpoint} {w : World} {field : Header}
    (h : (register cx r source w).1 = .challenged field) : (authenticate r w).1 = .challenge field := by
  unfold register at h
  rw [act_bind] at h
  cases hverdict : (authenticate r w).1 with
  | challenge asked =>
      rw [hverdict] at h
      rw [RegisterResult.challenged.inj h]
  | authorized =>
      rw [hverdict] at h
      dsimp only at h
      cases hto : r.headers.toUri? with
      | none =>
          rw [hto] at h
          cases h
      | some registered =>
          rw [hto] at h
          rcases hcontact : registerContact? r.headers with _ | _ | contact
          · rw [hcontact] at h
            cases h
          · rw [hcontact] at h
            cases h
          · rw [hcontact] at h
            dsimp only at h
            split at h
            · cases h
            · exact absurd h (bindContact_ne_challenged _ _ _ _ _ _ _ _)

theorem isNamed_of_challenged {cx : Context} {r : Request} {source : Endpoint} {w : World} {field : Header}
    (h : (register cx r source w).1 = .challenged field) : field.isNamed .proxyAuthenticate = true := by
  have hasked := challenge_of_register h
  unfold authenticate at hasked
  rw [act_bind, act_get] at hasked
  dsimp only at hasked
  cases hauthenticator : w.authenticator with
  | none =>
      rw [hauthenticator] at hasked
      cases hasked
  | some a =>
      rw [hauthenticator] at hasked
      exact Authenticator.isNamed_of_challenge hasked

/-! Answers of the proxy. -/

/-- An answer to a REGISTER tells the contact and how long it is bound, or what the client is asked for. -/
theorem Request.repeats_registerAnswer (cx : Context) (r : Request) (source : Endpoint) (w : World) (wallNanos : Nat) :
    (cx.registerAnswer r (register cx r source w).1 wallNanos).Repeats r.headers := by
  unfold Context.registerAnswer
  cases hresult : (register cx r source w).1 with
  | success expires bound =>
      refine r.repeats_answer (by rw [Status.code_ofCode]; decide) (fun h hh => ?_) _ _
      rcases List.mem_append.mp hh with hcontact | hexpires
      · have hfound : r.headers.find? (Header.isNamed .contact) = some h := by
          cases bound with
          | true => exact Option.mem_toList.mp hcontact
          | false => cases hcontact
        exact Header.isSpare_of_isNamed (List.find?_some hfound) (by decide)
      · rw [List.mem_singleton.mp hexpires]
        rfl
  | refused =>
      exact r.repeats_answer (by rw [Status.code_ofCode]; decide) (fun h hh => by cases hh) _ _
  | challenged field =>
      refine r.repeats_answer (by rw [Status.code_ofCode]; decide) (fun h hh => ?_) _ _
      rw [List.mem_singleton.mp hh]
      exact Header.isSpare_of_isNamed (isNamed_of_challenged hresult) (by decide)

theorem Request.HasAnswer.repeats {cx : Context} {r : Request} {source : Endpoint} {answer : Nat → Response}
    (h : r.HasAnswer cx source answer) (wallNanos : Nat) :
    r.method ≠ .ack ∧ (answer wallNanos).Repeats r.headers := by
  cases h with
  | refusal code hcode hmethod =>
      exact ⟨hmethod, r.repeats_answer (by rwa [Status.code_ofCode]) (fun h hh => by cases hh) _ _⟩
  | registration hmethod v =>
      exact ⟨by rw [hmethod]; decide, r.repeats_registerAnswer cx source v wallNanos⟩

/-- Only requests are answered, whatever the plugins do. -/
theorem request_of_respond {cx : Context} {t : Ticket} {w after : World} {response : Response}
    {destination : Endpoint} (h : route cx t w = (.respond response destination, after)) :
    ∃ q, t.message = .request q := by
  cases hmessage : t.message with
  | request q => exact ⟨q, rfl⟩
  | response r =>
      cases hcomplete : t.message.headers.checkComplete with
      | error fault =>
          rw [route_of_incomplete cx hcomplete] at h
          cases (Prod.mk.inj h).1
      | ok u =>
          rw [route_of_complete cx hcomplete, hmessage] at h
          exact absurd h (processResponse_ne_respond cx t)

/-- Noting the source leaves fields complete. -/
theorem Headers.checkComplete_stamp {hs : Headers} (h : hs.checkComplete = .ok ()) (source : Endpoint) :
    (hs.stamp source).checkComplete = .ok () := by
  rw [checkComplete_eq_ok_iff]
  obtain ⟨-, hfrom, hto, hcallId, hcseq⟩ := (checkComplete_eq_ok_iff hs).mp h
  refine ⟨?_, ?_, ?_, ?_, ?_⟩
  · rw [topVia?_eq_head?, List.isSome_head?]
    exact vias_stamp_ne_nil h source
  · rwa [value?_eq_head?, values_stamp (by decide), ← value?_eq_head?]
  · rwa [value?_eq_head?, values_stamp (by decide), ← value?_eq_head?]
  · rwa [callId?_congr (values_stamp (by decide) source hs)]
  · rwa [sequence?, values_stamp (by decide)]

theorem Headers.repeated_of_without {hs hs' : Headers} (h : hs.without .route = hs'.without .route) :
    hs.filter Header.isRepeated = hs'.filter Header.isRepeated := by
  have hfilter : ∀ l : Headers, l.filter Header.isRepeated = (l.without .route).filter Header.isRepeated := by
    intro l
    unfold without
    rw [List.filter_filter]
    refine List.filter_congr fun f _ => ?_
    cases hrepeated : f.isRepeated with
    | false => rw [Bool.false_and]
    | true => rw [Header.isNamed_of_isRepeated hrepeated (by decide), Bool.true_and, Bool.not_false]
  rw [hfilter hs, h, ← hfilter hs']

/-- Without plugins a message that is answered is a complete request and no ACK. The answer is complete. It repeats,
in their order, the fields that the request is recognised by, with the source noted in the topmost Via; a receiver
without a tag has one added that is read back, and any other stays; and the answer has no body and says so. -/
theorem local_answers_repeat {cx : Context} {t : Ticket} {w after : World} (hplugins : w.plugins.plugins = [])
    {response : Response} {destination : Endpoint}
    (hroute : route cx t w = (.respond response destination, after)) :
    ∃ q, t.message = .request q ∧ q.method ≠ .ack ∧ q.headers.checkComplete = .ok () ∧
      response.headers.checkComplete = .ok () ∧ response.Repeats (q.headers.stamp t.source) := by
  obtain ⟨q, hq⟩ := request_of_respond hroute
  obtain ⟨hcomplete, answer, v, hanswer, hrespond⟩ := answer_of_route hq hplugins hroute
  have hresponse : answer v.clock.wallNanos = response :=
    (Routed.respond.inj (congrArg Prod.fst hrespond)).1
  obtain ⟨hmethod, hrepeats⟩ := hanswer.repeats v.clock.wallNanos
  rw [hresponse] at hrepeats
  have hstripped : (q.received cx w t.source).headers.without .route = (q.headers.stamp t.source).without .route :=
    Headers.without_stripRoutes _ _ _
  have hstamped : response.Repeats (q.headers.stamp t.source) :=
    hrepeats.congr (Headers.repeated_of_without hstripped) (Headers.values_of_without (by decide) hstripped)
  exact ⟨q, hq, hmethod, hcomplete, hstamped.complete (Headers.checkComplete_stamp hcomplete t.source), hstamped⟩

open Stranger in
open OutgoingCall (settings registered) in
/-- A query that is refused is told from others by its Call-ID and number. -/
theorem stranger_knows_answer :
    ∃ response destination after,
      registered.plugins.plugins = [] ∧
        route (.ofSettings settings) (query "SIP/2.0/UDP 10.0.0.8:5061;branch=z9hG4bK1") registered =
          (.respond response destination, after) ∧
        response.headers.checkComplete = .ok () ∧ response.headers.values .callId = ["b".toList] ∧
        response.headers.values .cseq = ["1 OPTIONS".toList] ∧ response.body = [] := by
  generalize hvia : "SIP/2.0/UDP 10.0.0.8:5061;branch=z9hG4bK1" = via
  have hanswered : (route (.ofSettings settings) (query via) registered).1.answeredTo?.isSome := by
    rw [← hvia]
    decide +kernel
  have hplugins : registered.plugins.plugins = [] := by decide +kernel
  obtain ⟨destination, hanswered⟩ := Option.isSome_iff_exists.mp hanswered
  rcases hroute : route (.ofSettings settings) (query via) registered with ⟨outcome, after⟩
  rw [hroute] at hanswered
  obtain ⟨response, rfl⟩ := Routed.answeredTo?_eq_some_iff.mp hanswered
  obtain ⟨q, hq, -, -, hcomplete, hrepeats⟩ := local_answers_repeat hplugins hroute
  obtain rfl := Message.request.inj hq
  refine ⟨response, destination, after, hplugins, rfl, hcomplete, ?_, ?_, hrepeats.body⟩
  · rw [hrepeats.values (by decide), Headers.values_stamp (by decide)]
    rfl
  · rw [hrepeats.values (by decide), Headers.values_stamp (by decide)]
    rfl

end BorderProxy
