import BorderProxy.Proofs.Plugin.Turns
import BorderProxy.Proofs.Proxy.Steps

/-! Processing as a pipeline through the three stages at which plugins are consulted. Between them nothing is
done to the plugins, so that all calls of plugins for a message can be told as a sequence of turns. -/

namespace BorderProxy

variable {α β γ : Type}

/-- Processing between the stages. -/
structure Pipeline (β γ : Type) where
  /-- The ticket as the plugins see it first. -/
  arriving : Ticket
  settle : Ticket → Processing (Ticket × β)
  adapt : β → Ticket → Processing (Ticket × γ)
  send : γ → Ticket → Processing Routed

/-- What is done up to the next stage, or to the end: the plugins are consulted, and processing goes on. -/
def stretch (stage : Stage) (t : Ticket) (rest : Ticket → Processing α) : Processing α :=
  consult stage t >>= rest

/-- The turns at a stage, and those after it if processing gets there. -/
def stretchTurns (stage : Stage) (t : Ticket) (rest : Ticket → Processing α) (next : α → World → List PluginTurn)
    (w : World) : List PluginTurn :=
  w.plugins.turns stage t ++
    match stretch stage t rest w with
    | (.ok a, v) => next a v
    | (.error _, _) => []

namespace Pipeline

def run (p : Pipeline β γ) : Processing Routed := do
  let (t, settled) ← stretch .preProxy p.arriving p.settle
  let (t, adapted) ← stretch .determineTarget t (p.adapt settled)
  stretch .postProxy t (p.send adapted)

/-- The turns of plugins in a pipeline. -/
def turns (p : Pipeline β γ) : World → List PluginTurn :=
  stretchTurns .preProxy p.arriving p.settle fun (t, settled) =>
    stretchTurns .determineTarget t (p.adapt settled) fun (t, adapted) =>
      stretchTurns .postProxy t (p.send adapted) fun _ _ => []

end Pipeline

/-- What is known of a request beside its ticket once its course is settled. -/
structure RequestCard where
  method : Method
  branch : Text
  direction : Direction
  registration : Option Registration

def requestPipeline (cx : Context) (t : Ticket) : Pipeline RequestCard (Direction × Bool) where
  arriving := { t with message := t.message.mapHeaders (Headers.stamp t.source) }
  settle t₁ := do
    let r ← requestOf t₁
    let w ← get
    let r := { r with headers := (cx.own.stripRoutes w.knownHosts r.headers).1 }
    let branch ← checkLoop cx r t.source
    let (direction, registration) ← directRequest cx r t.source
    return ({ t₁ with message := .request r, direction := some direction },
      ⟨r.method, branch, direction, registration⟩)
  adapt c t₂ := do
    let client := clientOf t₂.message.headers t.source
    let r ← requestOf t₂
    let w ← get
    let r := r.aimAt c.direction c.registration
    let headers := presentContact w.knownHosts w.clock.now w.registrations c.direction r.headers
    let r := { r with headers := cx.forwardHeaders c.method c.direction c.branch headers }
    let m ← handleMedia cx c.method c.direction client r
    let (m, strict) := m.promoteStrictRoute
    return ({ t₂ with message := m }, (c.direction, strict))
  send c t₃ := do
    let r ← requestOf t₃
    return forwardTo t₃.message (← requestTarget cx r c.1 t₃.nextHop c.2)

def responsePipeline (cx : Context) (t : Ticket) :
    Pipeline (Direction × Registration) Registration where
  arriving := t
  settle t₁ := do
    let r ← responseOf t₁
    let w ← get
    if (r.headers.topVia?.map (cx.own.ownsVia w.knownHosts)).getD false then
      let r := { r with headers := r.headers.eraseFirst .via }
      let w ← get
      match directionOfResponse w.knownHosts w.clock.now w.registrations t.source.ip r.headers with
      | none => finish (.drop .unmatchedResponse)
      | some directed =>
        return ({ t₁ with message := .response r, direction := some directed.1 }, directed)
    else finish (.drop .foreignVia)
  adapt directed t₂ := do
    let client := clientOf t₂.message.headers t.source
    let r ← responseOf t₂
    let ends := endsCall r.headers r.status.code
    let w ← get
    let headers := (cx.own.faceRecordRoutes w.knownHosts (cx.ipTowards directed.1) r.headers).1
    let headers := presentContact w.knownHosts w.clock.now w.registrations directed.1 headers
    let m ← anchorMedia cx directed.1 client
      (.response { r with status := cx.passedStatus r, headers := headers })
    if ends then stopStreams m.headers
    return ({ t₂ with message := m }, directed.2)
  send registration t₃ := do
    match t₃.nextHop with
    | some endpoint => return forwardTo t₃.message (.ok endpoint)
    | none => return forwardTo t₃.message (← responseTarget t₃.message.headers registration)

theorem processRequest_eq_run (cx : Context) (t : Ticket) :
    processRequest cx t = (requestPipeline cx t).run := by
  simp only [processRequest, receiveRequest, Pipeline.run, requestPipeline, stretch, bind_assoc, pure_bind]

theorem processResponse_eq_run (cx : Context) (t : Ticket) :
    processResponse cx t = (responsePipeline cx t).run := by
  simp only [processResponse, receiveResponse, Pipeline.run, responsePipeline, stretch, bind_assoc]
  refine bind_congr fun t₁ => bind_congr fun r => bind_congr fun w => ?_
  split
  · rw [pure_bind, bind_assoc]
    refine bind_congr fun v => ?_
    dsimp only
    cases directionOfResponse v.knownHosts v.clock.now v.registrations t.source.ip
      (r.headers.eraseFirst .via) with
    | none => rfl
    | some directed =>
        obtain ⟨direction, registration⟩ := directed
        simp only [pure_bind]
        refine bind_congr fun t₂ => bind_congr fun response => bind_congr fun u => bind_congr fun m => ?_
        split
        · exact ((bind_assoc _ _ _).trans (bind_congr fun _ => pure_bind _ _)).symm
        · exact (pure_bind _ _).symm
  · rfl

/-! Turns account for what becomes of the plugins. -/

/-- Processing that does nothing to the plugins. -/
def Silent (p : Processing α) : Prop := ∀ plugins, Keeps (fun w => w.plugins = plugins) p.run

/-- The turns are all calls of plugins from a world on: they follow one another in the log, each is of a
plugin that asked for its stage, and if one of them answers the message, then that is the end of it. -/
structure Accounts (ended : α) (w : World) (turns : List PluginTurn) (result : α × World) : Prop where
  followOn : FollowOn w.plugins.log turns
  noted : result.2.plugins = { w.plugins with log := w.plugins.log ++ turns.map PluginTurn.note }
  asked : ∀ turn ∈ turns, turn.plugin ∈ w.plugins.plugins ∧ turn.plugin.serves turn.stage = true
  answered : (∃ turn ∈ turns, turn.outcome = .responded) → result.1 = ended

/-- Without turns the plugins are left as they are. -/
theorem accounts_nil (ended a : α) (w : World) : Accounts ended w [] (a, w) where
  followOn := trivial
  noted := by simp
  asked _ h := by cases h
  answered h := by
    obtain ⟨_, hmem, -⟩ := h
    cases hmem

theorem accounts_stretch (stage : Stage) (t : Ticket) {rest : Ticket → Processing α}
    (hrest : ∀ t, Silent (rest t)) (w : World) :
    Accounts (.error .consumed) w (w.plugins.turns stage t) (stretch stage t rest w) := by
  have hnoted : (w.plugins.run stage t).2.2 = _ := PluginChain.runOn_log stage w.plugins.plugins t w.plugins
  have hanswered : (w.plugins.run stage t).1 = .responded ↔ _ :=
    PluginChain.runOn_eq_responded_iff stage w.plugins.plugins t w.plugins
  have hasked : ∀ turn ∈ w.plugins.turns stage t,
      turn.plugin ∈ w.plugins.plugins ∧ turn.plugin.serves turn.stage = true := by
    intro turn h
    have hcalled := (PluginChain.turnsOn_isPrefix stage w.plugins.plugins t w.plugins).subset
      (List.mem_map_of_mem h)
    rw [PluginChain.stage_of_mem_turnsOn h]
    exact List.mem_filter.mp hcalled
  have hfollow := PluginChain.followOn_turnsOn stage w.plugins.plugins t w.plugins
  rw [stretch, processing_bind, consult_eq]
  by_cases hresponded : (w.plugins.run stage t).1 = .responded
  · rw [if_pos hresponded]
    exact ⟨hfollow, hnoted, hasked, fun _ => rfl⟩
  · rw [if_neg hresponded]
    exact ⟨hfollow, (hrest _ _ _ rfl).trans hnoted, hasked, fun h => absurd (hanswered.mpr h) hresponded⟩

/-- The turns of what follows come after those of the first part, if processing gets there. -/
theorem Accounts.andThen {x : Processing α} {f : α → Processing β} {w : World} {turns : List PluginTurn}
    {next : α → World → List PluginTurn} (hx : Accounts (.error .consumed) w turns (x w))
    (hnext : ∀ a v, Accounts (.error .consumed) v (next a v) (f a v)) :
    Accounts (.error .consumed) w
      (turns ++
        match x w with
        | (.ok a, v) => next a v
        | (.error _, _) => [])
      ((x >>= f) w) := by
  obtain ⟨hfollow, hnoted, hasked, hanswered⟩ := hx
  rw [processing_bind]
  generalize x w = result at hnoted hanswered ⊢
  obtain ⟨outcome | a, v⟩ := result
  · dsimp only
    rw [List.append_nil]
    exact ⟨hfollow, hnoted, hasked, fun h => by rw [Except.error.inj (hanswered h)]⟩
  · -- Processing goes on, so no turn has answered the message yet.
    have hunanswered : ∀ turn ∈ turns, turn.outcome ≠ .responded :=
      fun turn hturn hresponded => by cases hanswered ⟨turn, hturn, hresponded⟩
    obtain ⟨hfollow', hnoted', hasked', hanswered'⟩ := hnext a v
    dsimp only at hnoted ⊢
    rw [hnoted] at hfollow' hnoted' hasked'
    refine ⟨hfollow.append hunanswered hfollow', ?_, ?_, ?_⟩
    · rw [hnoted', List.map_append, List.append_assoc]
    · exact fun turn h => (List.mem_append.mp h).elim (hasked turn) (hasked' turn)
    · rintro ⟨turn, h, hresponded⟩
      rcases List.mem_append.mp h with h | h
      · exact absurd hresponded (hunanswered turn h)
      · exact hanswered' ⟨turn, h, hresponded⟩

theorem Accounts.outcome {p : Processing Routed} {w : World} {turns : List PluginTurn}
    (h : Accounts (.error .consumed) w turns (p w)) : Accounts .consumed w turns (p.outcome w) := by
  refine ⟨h.followOn, (congrArg World.plugins (outcome_snd p w)).trans h.noted, h.asked, fun hanswered => ?_⟩
  have hend := h.answered hanswered
  rw [outcome_eq]
  generalize p w = result at hend ⊢
  obtain ⟨early | late, after⟩ := result
  · exact Except.error.inj hend
  · cases hend

/-- A pipeline in which only the stages concern the plugins. -/
structure Pipeline.IsSilent (p : Pipeline β γ) : Prop where
  settle : ∀ t, Silent (p.settle t)
  adapt : ∀ b t, Silent (p.adapt b t)
  send : ∀ c t, Silent (p.send c t)

theorem Pipeline.IsSilent.accounts {p : Pipeline β γ} (hp : p.IsSilent) (w : World) :
    Accounts (.error .consumed) w (p.turns w) (p.run w) := by
  have hlast : ∀ t c v, Accounts (.error .consumed) v
      (stretchTurns .postProxy t (p.send c) (fun _ _ => []) v) (stretch .postProxy t (p.send c) v) := by
    intro t c v
    rw [stretchTurns]
    split <;>
    · rw [List.append_nil]
      exact accounts_stretch .postProxy t (hp.send c) v
  exact (accounts_stretch .preProxy p.arriving hp.settle w).andThen fun settled v =>
    (accounts_stretch .determineTarget settled.1 (hp.adapt settled.2) v).andThen fun adapted u =>
      hlast adapted.1 adapted.2 u

theorem lasting_plugins (plugins : PluginChain) : World.Lasting fun w => w.plugins = plugins :=
  ⟨fun _ hw => hw, fun _ hw => hw, fun _ hw => hw⟩

theorem isSilent_requestPipeline (cx : Context) (t : Ticket) : (requestPipeline cx t).IsSilent where
  settle t₁ plugins := by
    refine (keeps_requestOf t₁).andThen fun r => Keeps.look.andThen fun w => ?_
    refine (keeps_checkLoop (fun _ hw => hw) cx _ _).andThen fun branch => ?_
    exact (keeps_directRequest (lasting_plugins plugins) cx _ _).andThen fun directed => Keeps.done _
  adapt c t₂ plugins := by
    refine (keeps_requestOf t₂).andThen fun r => Keeps.look.andThen fun w => ?_
    refine (Keeps.lift (keeps_handleMedia (keeps_anchorMedia (keeps_startStream fun _ _ hw => hw) cx)
      (keeps_stopStreams (keeps_stopDirection fun _ _ hw => hw)) _ _ _ _)).andThen fun m => Keeps.done _
  send c t₃ plugins :=
    (keeps_requestOf t₃).andThen fun r =>
      (Keeps.lift (keeps_requestTarget (fun _ hw => hw) cx r c.1 t₃.nextHop c.2)).andThen
        fun _ => Keeps.done _

theorem isSilent_responsePipeline (cx : Context) (t : Ticket) : (responsePipeline cx t).IsSilent where
  settle t₁ plugins := by
    refine (keeps_responseOf t₁).andThen fun r => Keeps.look.andThen fun w => ?_
    split
    · refine Keeps.look.andThen fun v => ?_
      dsimp only
      split
      · exact Keeps.finish _
      · exact Keeps.done _
    · exact Keeps.finish _
  adapt directed t₂ plugins := by
    refine (keeps_responseOf t₂).andThen fun r => Keeps.look.andThen fun w => ?_
    refine (Keeps.lift (keeps_anchorMedia (keeps_startStream fun _ _ hw => hw) cx _ _ _)).andThen
      fun m => ?_
    exact Keeps.andThenIf (keeps_stopStreams (keeps_stopDirection fun _ _ hw => hw) _) (Keeps.done _)
  send registration t₃ plugins := by
    dsimp only [responsePipeline]
    split
    · exact Keeps.done _
    · exact (Keeps.lift (keeps_responseTarget (fun _ hw => hw) _ registration)).andThen
        fun _ => Keeps.done _

end BorderProxy
