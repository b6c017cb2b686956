import BorderProxy.Plugin

/-! Plugins in turn. At a stage the plugins that asked for it are called one after the other, each with the
ticket as the one before left it. A plugin that answers the message is the last one to be called, and passive
plugins, which leave the ticket alone and do not answer, all go unnoticed. -/

namespace BorderProxy

/-- A call of a plugin at a stage, with the ticket that it is given and the calls before it. -/
structure PluginTurn where
  plugin : Plugin
  stage : Stage
  ticket : Ticket
  log : List PluginNote

namespace PluginTurn

/-- What the plugin makes of the message. -/
def outcome (turn : PluginTurn) : Outcome := (turn.plugin.process turn.log turn.stage turn.ticket).1

/-- The ticket as the plugin leaves it. -/
def left (turn : PluginTurn) : Ticket := (turn.plugin.process turn.log turn.stage turn.ticket).2

def note (turn : PluginTurn) : PluginNote :=
  ⟨turn.plugin.name, .process turn.stage turn.ticket.direction⟩

/-- Whether no further plugin is called at the stage. -/
def endsStage (turn : PluginTurn) : Bool :=
  turn.outcome = .responded || (turn.outcome = .handled && turn.stage = .determineTarget)

theorem endsStage_of_responded {turn : PluginTurn} (h : turn.outcome = .responded) :
    turn.endsStage = true := by
  rw [endsStage, h]
  rfl

end PluginTurn

/-- Whether a plugin asked to be called at a stage. -/
def Plugin.serves (p : Plugin) (stage : Stage) : Bool := p.occasions.contains (.ofStage stage)

/-- A plugin that leaves every ticket alone and answers no message where it is called. It may still let the
message go on, fail or say that the target is determined. -/
def Plugin.Passive (p : Plugin) : Prop :=
  ∀ log stage t, p.serves stage = true →
    (p.process log stage t).1 ≠ .responded ∧ (p.process log stage t).2 = t

/-- Turns that follow one another from a log on: each sees the calls before it, and only the last one may
answer the message. -/
def FollowOn : List PluginNote → List PluginTurn → Prop
  | _, [] => True
  | log, turn :: rest =>
    turn.log = log ∧ (turn.outcome = .responded → rest = []) ∧ FollowOn (log ++ [turn.note]) rest

theorem FollowOn.append {log : List PluginNote} {front back : List PluginTurn} (hfront : FollowOn log front)
    (hunanswered : ∀ turn ∈ front, turn.outcome ≠ .responded)
    (hback : FollowOn (log ++ front.map PluginTurn.note) back) : FollowOn log (front ++ back) := by
  induction front generalizing log with
  | nil => simpa using hback
  | cons turn rest ih =>
      obtain ⟨hlog, -, hrest⟩ := hfront
      refine ⟨hlog, fun h => absurd h (hunanswered turn List.mem_cons_self), ?_⟩
      refine ih hrest (fun next hnext => hunanswered next (List.mem_cons_of_mem _ hnext)) ?_
      simpa using hback

/-- A turn in a sequence sees the calls before it, and is the last one if it answers the message. -/
theorem FollowOn.turn {log : List PluginNote} {front back : List PluginTurn} {turn : PluginTurn}
    (h : FollowOn log (front ++ turn :: back)) :
    turn.log = log ++ front.map PluginTurn.note ∧ (turn.outcome = .responded → back = []) := by
  induction front generalizing log with
  | nil => exact ⟨by simpa using h.1, h.2.1⟩
  | cons first rest ih =>
      obtain ⟨hlog, hends⟩ := ih h.2.2
      exact ⟨by simpa using hlog, hends⟩

namespace PluginChain

/-- The turn of a plugin that is called now. -/
def turnOf (c : PluginChain) (p : Plugin) (stage : Stage) (t : Ticket) : PluginTurn := ⟨p, stage, t, c.log⟩

/-- The chain once a turn has been noted. -/
def noted (c : PluginChain) (turn : PluginTurn) : PluginChain := { c with log := c.log ++ [turn.note] }

/-- The turns of plugins at a stage. -/
def turnsOn (stage : Stage) : List Plugin → Ticket → PluginChain → List PluginTurn
  | [], _, _ => []
  | p :: rest, t, c =>
    if p.serves stage then
      if (c.turnOf p stage t).endsStage then [c.turnOf p stage t]
      else
        c.turnOf p stage t ::
          turnsOn stage rest (c.turnOf p stage t).left (c.noted (c.turnOf p stage t))
    else turnsOn stage rest t c

def turns (c : PluginChain) (stage : Stage) (t : Ticket) : List PluginTurn := turnsOn stage c.plugins t c

/-- Calling plugins ends with a turn that ends the stage, and else goes on from where the turn leaves off. -/
theorem runOn_cons (stage : Stage) (p : Plugin) (rest : List Plugin) (t : Ticket) (c : PluginChain) :
    runOn stage (p :: rest) t c =
      if p.serves stage then
        if (c.turnOf p stage t).endsStage then
          ((c.turnOf p stage t).outcome, (c.turnOf p stage t).left, c.noted (c.turnOf p stage t))
        else runOn stage rest (c.turnOf p stage t).left (c.noted (c.turnOf p stage t))
      else runOn stage rest t c := by
  have hturn : p.process c.log stage t = ((c.turnOf p stage t).outcome, (c.turnOf p stage t).left) := rfl
  have hnoted : c.note p (.process stage t.direction) = c.noted (c.turnOf p stage t) := rfl
  have hstage : (c.turnOf p stage t).stage = stage := rfl
  rw [runOn, Plugin.serves, hturn, hnoted, PluginTurn.endsStage, hstage]
  dsimp only
  cases (c.turnOf p stage t).outcome with
  | handled => simp
  | proceed => simp
  | responded => simp
  | failed => simp

theorem runOn_log (stage : Stage) (plugins : List Plugin) (t : Ticket) (c : PluginChain) :
    (runOn stage plugins t c).2.2 =
      { c with log := c.log ++ (turnsOn stage plugins t c).map PluginTurn.note } := by
  induction plugins generalizing t c with
  | nil => simp [runOn, turnsOn]
  | cons p rest ih =>
      rw [runOn_cons, turnsOn]
      split
      · split
        · rfl
        · rw [ih]
          simp [noted]
      · exact ih t c

/-- The plugins that are called at a stage are the first ones of those that asked for it, in order. -/
theorem turnsOn_isPrefix (stage : Stage) (plugins : List Plugin) (t : Ticket) (c : PluginChain) :
    (turnsOn stage plugins t c).map PluginTurn.plugin <+: plugins.filter fun p => p.serves stage := by
  induction plugins generalizing t c with
  | nil => exact List.prefix_rfl
  | cons p rest ih =>
      rw [turnsOn, List.filter_cons]
      split
      · split
        · exact (List.prefix_cons_inj p).mpr List.nil_prefix
        · exact (List.prefix_cons_inj p).mpr (ih _ _)
      · exact ih t c

theorem stage_of_mem_turnsOn {stage : Stage} {plugins : List Plugin} {t : Ticket} {c : PluginChain}
    {turn : PluginTurn} (h : turn ∈ turnsOn stage plugins t c) : turn.stage = stage := by
  induction plugins generalizing t c with
  | nil => cases h
  | cons p rest ih =>
      rw [turnsOn] at h
      split at h
      · split at h
        · rw [List.mem_singleton.mp h]
          rfl
        · rcases List.mem_cons.mp h with rfl | h
          · rfl
          · exact ih h
      · exact ih h

/-- The message is answered at a stage exactly if one of the turns answers it. -/
theorem runOn_eq_responded_iff (stage : Stage) (plugins : List Plugin) (t : Ticket) (c : PluginChain) :
    (runOn stage plugins t c).1 = .responded ↔
      ∃ turn ∈ turnsOn stage plugins t c, turn.outcome = .responded := by
  induction plugins generalizing t c with
  | nil => simp [runOn, turnsOn]
  | cons p rest ih =>
      rw [runOn_cons, turnsOn]
      split
      · split
        · simp
        · rename_i hopen
          have hunanswered : (c.turnOf p stage t).outcome ≠ .responded :=
            fun h => hopen (PluginTurn.endsStage_of_responded h)
          simp [ih, hunanswered]
      · exact ih t c

theorem followOn_turnsOn (stage : Stage) (plugins : List Plugin) (t : Ticket) (c : PluginChain) :
    FollowOn c.log (turnsOn stage plugins t c) := by
  induction plugins generalizing t c with
  | nil => trivial
  | cons p rest ih =>
      rw [turnsOn]
      split
      · split
        · exact ⟨rfl, fun _ => rfl, trivial⟩
        · rename_i hopen
          exact ⟨rfl, fun h => absurd (PluginTurn.endsStage_of_responded h) hopen,
            ih (c.turnOf p stage t).left (c.noted (c.turnOf p stage t))⟩
      · exact ih t c

/-- Passive plugins leave the ticket as it was and answer nothing. -/
theorem runOn_of_passive (stage : Stage) {plugins : List Plugin} (hpassive : ∀ p ∈ plugins, p.Passive)
    (t : Ticket) (c : PluginChain) :
    (runOn stage plugins t c).1 ≠ .responded ∧ (runOn stage plugins t c).2.1 = t := by
  induction plugins generalizing c with
  | nil => exact ⟨by simp [runOn], rfl⟩
  | cons p rest ih =>
      have hrest := fun c => ih (fun p' hp' => hpassive p' (List.mem_cons_of_mem _ hp')) c
      rw [runOn_cons]
      split
      · rename_i hserves
        obtain ⟨hunanswered, hleft⟩ :
            (c.turnOf p stage t).outcome ≠ .responded ∧ (c.turnOf p stage t).left = t :=
          hpassive p List.mem_cons_self c.log stage t hserves
        rw [hleft]
        split
        · exact ⟨hunanswered, rfl⟩
        · exact hrest _
      · exact hrest c

end PluginChain

end BorderProxy
