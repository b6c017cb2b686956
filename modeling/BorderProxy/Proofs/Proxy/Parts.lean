import BorderProxy.Proofs.Message.Wire
import BorderProxy.Proofs.Proxy.Commands

/-! Parts of messages that are kept. Before the course of a message is settled the proxy edits only its Vias
and Routes. What does not depend on these is then what the message came with, unless a plugin changed it. -/

namespace BorderProxy

/-- Plugins that leave a part of every message as it is. -/
def PluginChain.KeepsPart {α : Type} (part : Message → α) (c : PluginChain) : Prop :=
  ∀ p ∈ c.plugins, ∀ log stage t, part (p.process log stage t).2.message = part t.message

theorem PluginChain.KeepsPart.of_plugins {α : Type} {part : Message → α} {c c' : PluginChain}
    (h : c.KeepsPart part) (hplugins : c'.plugins = c.plugins) : c'.KeepsPart part := by
  rw [KeepsPart, hplugins]
  exact h

/-- Plugins that leave messages as they are. They may still redirect or answer them, or fail. -/
def PluginChain.KeepsMessages (c : PluginChain) : Prop := c.KeepsPart id

theorem PluginChain.KeepsMessages.keepsPart {α : Type} {c : PluginChain} (h : c.KeepsMessages)
    (part : Message → α) : c.KeepsPart part :=
  fun p hp log stage t => congrArg part (h p hp log stage t)

theorem PluginChain.keepsMessages_of_none {c : PluginChain} (h : c.plugins = []) : c.KeepsMessages := by
  intro p hp
  rw [h] at hp
  cases hp

/-- Plugins that are called in turn keep what each of them keeps. -/
theorem PluginChain.keeps_runOn {Q : Ticket → PluginChain → Prop} (stage : Stage) {plugins : List Plugin}
    (hstep : ∀ p ∈ plugins, ∀ t c, Q t c →
      Q (p.process c.log stage t).2 (c.note p (.process stage t.direction)))
    {t : Ticket} {c : PluginChain} (h : Q t c) :
    Q (runOn stage plugins t c).2.1 (runOn stage plugins t c).2.2 := by
  induction plugins generalizing t c with
  | nil => exact h
  | cons p rest ih =>
      have hrest : ∀ p' ∈ rest, ∀ t c, Q t c →
          Q (p'.process c.log stage t).2 (c.note p' (.process stage t.direction)) :=
        fun p' hp' => hstep p' (List.mem_cons_of_mem _ hp')
      rw [runOn]
      split
      · have hfirst := hstep p List.mem_cons_self t c h
        generalize p.process c.log stage t = processed at hfirst ⊢
        obtain ⟨outcome, t'⟩ := processed
        cases outcome with
        | responded => exact hfirst
        | handled =>
            dsimp only
            split
            · exact hfirst
            · exact ih hrest hfirst
        | proceed => exact ih hrest hfirst
        | failed => exact ih hrest hfirst
      · exact ih hrest h

theorem responseOf_eq_ok {t : Ticket} {r : Response} {w after : World}
    (h : responseOf t w = (.ok r, after)) : t.message = .response r ∧ after = w := by
  obtain ⟨message, source, direction, nextHop⟩ := t
  cases message with
  | response r' =>
      obtain ⟨hok, hafter⟩ := Prod.mk.inj h
      exact ⟨by rw [Except.ok.inj hok], hafter.symm⟩
  | request r' => cases (Prod.mk.inj h).1

/-- A part of messages that no edit of their Vias and Routes changes. -/
def Message.IsOffRoute {α : Type} (part : Message → α) : Prop :=
  ∀ m edit, (edit m.headers).apartFrom [.via, .route] = m.headers.apartFrom [.via, .route] →
    part (m.mapHeaders edit) = part m

/-- The method of a request; a response has none of its own. -/
def Message.method? : Message → Option Method
  | .request r => some r.method
  | .response _ => none

theorem Message.isOffRoute_method? : IsOffRoute Message.method? := by
  intro m edit _
  cases m <;> rfl

theorem Message.isOffRoute_body : IsOffRoute Message.body := fun m edit _ => m.body_mapHeaders edit

theorem Message.isOffRoute_values {n : StandardName} (hn : n ∉ [StandardName.via, .route]) :
    IsOffRoute fun m => m.headers.values n := by
  intro m edit hedit
  dsimp only
  rw [m.headers_mapHeaders]
  exact Headers.values_of_apartFrom hedit hn

section

variable {α : Type} {part : Message → α} {cx : Context} {t t' : Ticket} {w v : World}

theorem part_consult {stage : Stage} (hkeeps : w.plugins.KeepsPart part)
    (h : consult stage t w = (.ok t', v)) :
    part t'.message = part t.message ∧ v.plugins.plugins = w.plugins.plugins := by
  rw [consult_eq] at h
  obtain ⟨hresult, rfl⟩ := Prod.mk.inj h
  split at hresult
  · cases hresult
  · rw [← Except.ok.inj hresult]
    exact PluginChain.keeps_runOn
      (Q := fun t₁ c => part t₁.message = part t.message ∧ c.plugins = w.plugins.plugins) stage
      (fun p hp t₁ c hkept => ⟨(hkeeps p hp c.log stage t₁).trans hkept.1, hkept.2⟩) ⟨rfl, rfl⟩

variable (hpart : Message.IsOffRoute part)

include hpart

theorem part_receiveRequest {r : Request} (hkeeps : w.plugins.KeepsPart part)
    (h : receiveRequest cx t w = (.ok (t', r), v)) :
    part (.request r) = part t.message ∧ v.plugins.plugins = w.plugins.plugins := by
  obtain ⟨t₁, w₁, hconsulted, hread⟩ := processing_bind_eq_ok h
  obtain ⟨r₁, w₂, hrequest, hstripped⟩ := processing_bind_eq_ok hread
  rw [processing_bind, processing_get] at hstripped
  obtain ⟨hok, hv⟩ := Prod.mk.inj hstripped
  obtain ⟨-, hr⟩ := Prod.mk.inj (Except.ok.inj hok)
  obtain ⟨hmessage, hsame⟩ := requestOf_eq_ok hrequest
  obtain ⟨hconsult, hplugins⟩ := part_consult hkeeps hconsulted
  rw [hmessage] at hconsult
  refine ⟨?_, by rw [← hv, hsame, hplugins]⟩
  calc part (.request r)
      = part (.request r₁) := by
        rw [← hr]
        exact hpart (.request r₁) (fun hs => (cx.own.stripRoutes w₂.knownHosts hs).1)
          (Headers.apartFrom_of_without (by decide) (Headers.without_stripRoutes _ _ _))
    _ = part (t.message.mapHeaders (Headers.stamp t.source)) := hconsult
    _ = part t.message := hpart t.message (Headers.stamp t.source)
        (Headers.apartFrom_of_without (by decide) (Headers.without_stamp _ _))

theorem part_settleRequest {c : RequestCourse} (hkeeps : w.plugins.KeepsPart part)
    (h : settleRequest cx t w = (.ok c, v)) :
    part (.request c.request) = part t.message ∧ v.plugins.plugins = w.plugins.plugins := by
  obtain ⟨⟨t₁, r⟩, w₁, hreceived, hrest⟩ := processing_bind_eq_ok h
  obtain ⟨branch, w₂, hchecked, hrest⟩ := processing_bind_eq_ok hrest
  obtain ⟨⟨direction, registration⟩, w₃, hdirected, hrest⟩ := processing_bind_eq_ok hrest
  obtain ⟨t₂, w₄, hconsulted, hrest⟩ := processing_bind_eq_ok hrest
  obtain ⟨request, w₅, hrequest, hrest⟩ := processing_bind_eq_ok hrest
  obtain ⟨hcame, hplugins⟩ := part_receiveRequest hpart hkeeps hreceived
  have hunchanged := (checkLoop_eq_ok hchecked).1
  have hdirect := Keeps.same World.plugins (fun plugins => keeps_directRequest
    ⟨fun _ hv => hv, fun _ hv => hv, fun _ hv => hv⟩ cx r t.source) w₂
  rw [hdirected, hunchanged] at hdirect
  have hdirected' := (congrArg PluginChain.plugins hdirect).trans hplugins
  obtain ⟨hmessage, hsame⟩ := requestOf_eq_ok hrequest
  obtain ⟨hsettled, hconsult⟩ := part_consult (hkeeps.of_plugins hdirected') hconsulted
  rw [hmessage] at hsettled
  obtain ⟨hok, hv⟩ := Prod.mk.inj hrest
  rw [← Except.ok.inj hok, ← hv, hsame]
  exact ⟨hsettled.trans hcame, hconsult.trans hdirected'⟩

theorem part_receiveResponse {r : Response} (hkeeps : w.plugins.KeepsPart part)
    (h : receiveResponse cx t w = (.ok (t', r), v)) :
    part (.response r) = part t.message ∧ v.plugins.plugins = w.plugins.plugins := by
  obtain ⟨t₁, w₁, hconsulted, hread⟩ := processing_bind_eq_ok h
  obtain ⟨r₁, w₂, hresponse, hreceived⟩ := processing_bind_eq_ok hread
  rw [processing_bind, processing_get] at hreceived
  dsimp only at hreceived
  obtain ⟨hconsult, hplugins⟩ := part_consult hkeeps hconsulted
  obtain ⟨hmessage, hsame⟩ := responseOf_eq_ok hresponse
  split at hreceived
  · obtain ⟨hok, hv⟩ := Prod.mk.inj hreceived
    obtain ⟨-, hr⟩ := Prod.mk.inj (Except.ok.inj hok)
    refine ⟨?_, by rw [← hv, hsame, hplugins]⟩
    rw [← hr, ← hconsult, hmessage]
    exact hpart (.response r₁) (Headers.eraseFirst .via)
      (Headers.apartFrom_of_without (by decide) (Headers.without_eraseFirst .via _))
  · cases (Prod.mk.inj hreceived).1

theorem part_settleResponse {c : ResponseCourse} (hkeeps : w.plugins.KeepsPart part)
    (h : settleResponse cx t w = (.ok c, v)) :
    part (.response c.response) = part t.message ∧ v.plugins.plugins = w.plugins.plugins := by
  obtain ⟨⟨t₁, r⟩, w₁, hreceived, hrest⟩ := processing_bind_eq_ok h
  dsimp only at hrest
  rw [processing_bind, processing_get] at hrest
  dsimp only at hrest
  cases hfound : directionOfResponse w₁.knownHosts w₁.clock.now w₁.registrations t.source.ip
      r.headers with
  | none =>
      rw [hfound] at hrest
      cases (Prod.mk.inj hrest).1
  | some directed =>
      rw [hfound] at hrest
      obtain ⟨t₂, w₂, hconsulted, hrest⟩ := processing_bind_eq_ok hrest
      obtain ⟨response, w₃, hresponse, hrest⟩ := processing_bind_eq_ok hrest
      obtain ⟨hcame, hplugins⟩ := part_receiveResponse hpart hkeeps hreceived
      obtain ⟨hmessage, hsame⟩ := responseOf_eq_ok hresponse
      obtain ⟨hsettled, hconsult⟩ := part_consult (hkeeps.of_plugins hplugins) hconsulted
      rw [hmessage] at hsettled
      obtain ⟨hok, hv⟩ := Prod.mk.inj hrest
      rw [← Except.ok.inj hok, ← hv, hsame]
      exact ⟨hsettled.trans hcame, hconsult.trans hplugins⟩

end

/-! Messages of which the course is settled. -/

def Course.message : Course → Message
  | .request c => .request c.request
  | .response c => .response c.response

/-- Whether the course of a message is settled in a world, and leaves another one. -/
def Course.IsSettledFor (course : Course) (cx : Context) (t : Ticket) (w v : World) : Prop :=
  match course with
  | .request c => t.message.method?.isSome ∧ settleRequest cx t w = (.ok c, v)
  | .response c => t.message.method? = none ∧ settleResponse cx t w = (.ok c, v)

theorem Ticket.exists_settled {cx : Context} {t : Ticket} {w : World} {course : Course}
    (h : t.settled? cx w = some course) : ∃ v, course.IsSettledFor cx t w v := by
  unfold settled? at h
  cases hcomplete : t.message.headers.checkComplete with
  | error fault =>
      rw [hcomplete] at h
      cases h
  | ok u =>
      rw [hcomplete] at h
      cases hmessage : t.message with
      | request q =>
          rw [hmessage] at h
          rcases hsettled : settleRequest cx t w with ⟨outcome | c, v⟩
          · rw [hsettled] at h
            cases h
          · rw [hsettled] at h
            obtain rfl := Option.some.inj h
            exact ⟨v, by rw [hmessage]; rfl, hsettled⟩
      | response r =>
          rw [hmessage] at h
          rcases hsettled : settleResponse cx t w with ⟨outcome | c, v⟩
          · rw [hsettled] at h
            cases h
          · rw [hsettled] at h
            obtain rfl := Option.some.inj h
            exact ⟨v, by rw [hmessage]; rfl, hsettled⟩

/-- What does not depend on Vias and Routes is settled as the message came with it, if the plugins keep
it. -/
theorem Course.IsSettledFor.part {α : Type} {part : Message → α} (hpart : Message.IsOffRoute part)
    {cx : Context} {t : Ticket} {w v : World} (hkeeps : w.plugins.KeepsPart part) {course : Course}
    (h : course.IsSettledFor cx t w v) :
    part course.message = part t.message ∧ v.plugins.plugins = w.plugins.plugins := by
  cases course with
  | request c => exact part_settleRequest hpart hkeeps h.2
  | response c => exact part_settleResponse hpart hkeeps h.2

theorem Ticket.part_settled {α : Type} {part : Message → α} (hpart : Message.IsOffRoute part)
    {cx : Context} {t : Ticket} {w : World} (hkeeps : w.plugins.KeepsPart part) {course : Course}
    (h : t.settled? cx w = some course) : part course.message = part t.message := by
  obtain ⟨v, hsettled⟩ := exists_settled h
  exact (hsettled.part hpart hkeeps).1

/-- A request keeps its method. -/
theorem method_settleRequest {cx : Context} {t : Ticket} {w v : World} {c : RequestCourse}
    (hkeeps : w.plugins.KeepsPart Message.method?) (h : settleRequest cx t w = (.ok c, v)) :
    t.message.method? = some c.method := by
  obtain ⟨⟨t₁, r⟩, w₁, hreceived, hrest⟩ := processing_bind_eq_ok h
  obtain ⟨branch, w₂, -, hrest⟩ := processing_bind_eq_ok hrest
  obtain ⟨⟨direction, registration⟩, w₃, -, hrest⟩ := processing_bind_eq_ok hrest
  obtain ⟨t₂, w₄, -, hrest⟩ := processing_bind_eq_ok hrest
  obtain ⟨request, w₅, -, hrest⟩ := processing_bind_eq_ok hrest
  rw [← Except.ok.inj (Prod.mk.inj hrest).1]
  exact (part_receiveRequest Message.isOffRoute_method? hkeeps hreceived).1.symm

/-! Only a message of which the course is settled is forwarded. -/

theorem endsUnsent_settleRequest (cx : Context) (t : Ticket) : EndsUnsent (settleRequest cx t) := by
  have hreceive : EndsUnsent (receiveRequest cx t) :=
    (endsUnsent_consult _ _).andThen fun t => (endsUnsent_requestOf t).andThen fun _ =>
      endsBy_get.andThen fun _ => endsBy_pure _
  exact hreceive.andThen fun _ => (endsAnswered_checkLoop cx _ _).unsent.andThen fun _ =>
    (endsAnswered_directRequest cx _ _).unsent.andThen fun _ => (endsUnsent_consult _ _).andThen fun t =>
      (endsUnsent_requestOf t).andThen fun _ => endsBy_pure _

/-- Settling a response ends early only by a drop or by the answer of a plugin. -/
theorem endsBy_settleResponse {P : Routed → World → Prop} (hdrop : ∀ reason w, P (.drop reason) w)
    (hconsumed : ∀ w, P .consumed w) (cx : Context) (t : Ticket) : EndsBy P (settleResponse cx t) := by
  have hreceive : EndsBy P (receiveResponse cx t) := by
    refine (endsBy_consult hconsumed _ _).andThen fun t => (endsBy_responseOf hdrop t).andThen fun _ =>
      endsBy_get.andThen fun _ => ?_
    split
    · exact endsBy_pure _
    · exact endsBy_finish (hdrop _)
  refine hreceive.andThen fun _ => endsBy_get.andThen fun _ => ?_
  split
  · exact endsBy_finish (hdrop _)
  · exact (endsBy_consult hconsumed _ _).andThen fun t => (endsBy_responseOf hdrop t).andThen fun _ =>
      endsBy_pure _

theorem endsUnsent_settleResponse (cx : Context) (t : Ticket) : EndsUnsent (settleResponse cx t) :=
  endsBy_settleResponse (fun _ _ _ _ h => by cases h) (fun _ _ _ h => by cases h) cx t

/-- Sends a message on its course. -/
def Course.send (cx : Context) (source : Endpoint) : Course → Processing Routed
  | .request c => sendRequest cx source c
  | .response c => sendResponse cx source c

/-- A message that is forwarded was settled on a course, and sent on it. -/
theorem Ticket.settled_of_forward {cx : Context} {t : Ticket} {w after : World} {m : Message}
    {destination : Endpoint} (h : route cx t w = (.forward m destination, after)) :
    ∃ course v, t.settled? cx w = some course ∧ course.IsSettledFor cx t w v ∧
      (course.send cx t.source).outcome v = (.forward m destination, after) := by
  obtain ⟨hcomplete, hprocessed⟩ := route_eq_forward h
  unfold settled?
  rw [hcomplete]
  cases hmessage : t.message with
  | request q =>
      rw [hmessage] at hprocessed
      dsimp only at hprocessed
      rw [processRequest_eq] at hprocessed
      obtain ⟨c, v, hsettled, hsent⟩ := forward_of_andThen (endsUnsent_settleRequest cx t) hprocessed
      exact ⟨.request c, v, by rw [hsettled]; rfl, ⟨by rw [hmessage]; rfl, hsettled⟩, hsent⟩
  | response r =>
      rw [hmessage] at hprocessed
      dsimp only at hprocessed
      rw [processResponse_eq] at hprocessed
      obtain ⟨c, v, hsettled, hsent⟩ := forward_of_andThen (endsUnsent_settleResponse cx t) hprocessed
      exact ⟨.response c, v, by rw [hsettled]; rfl, ⟨by rw [hmessage]; rfl, hsettled⟩, hsent⟩

end BorderProxy
