import BorderProxy.Message.Normal

/-! Plugins: extensions that are called at fixed points of the processing of a message. A plugin sees the
calls made so far, so its behaviour may depend on them; every call is noted in the chain's log. -/

namespace BorderProxy

/-- The points of processing at which plugins are called. -/
inductive Stage where
  /-- The message is as received. -/
  | preProxy
  /-- The direction is known, and the next hop is not chosen yet. -/
  | determineTarget
  /-- The message is about to be sent. -/
  | postProxy
  deriving DecidableEq, Repr

def Stage.text : Stage → Text
  | .preProxy => "pre-proxy".toList
  | .determineTarget => "determine-target".toList
  | .postProxy => "post-proxy".toList

/-- The occasions that a plugin asks to be called for. -/
structure Occasions where
  preProxy : Bool := false
  determineTarget : Bool := false
  postProxy : Bool := false
  timer : Bool := false
  deriving DecidableEq, Repr

namespace Occasions

def ofStage : Stage → Occasions
  | .preProxy => { preProxy := true }
  | .determineTarget => { determineTarget := true }
  | .postProxy => { postProxy := true }

def ofTimer : Occasions := { timer := true }

def union (a b : Occasions) : Occasions :=
  ⟨a.preProxy || b.preProxy, a.determineTarget || b.determineTarget, a.postProxy || b.postProxy,
    a.timer || b.timer⟩

/-- Whether some occasion is asked about and all of them are among these. -/
def contains (these asked : Occasions) : Bool :=
  asked != {} && these.union asked == these

end Occasions

inductive Outcome where
  | proceed
  /-- The target is determined; no further plugin is asked about it. -/
  | handled
  /-- The plugin answered the message itself. -/
  | responded
  | failed
  deriving DecidableEq, Repr

inductive PluginCall where
  | init
  | process (stage : Stage) (direction : Option Direction)
  | timer
  | shutdown
  deriving DecidableEq, Repr

/-- A call with the name of the plugin that was called. -/
structure PluginNote where
  plugin : Text
  call : PluginCall
  deriving DecidableEq, Repr

structure Plugin where
  name : Text
  occasions : Occasions
  /-- Whether the plugin is ready, given the calls so far. -/
  init : List PluginNote → Bool
  /-- What the plugin makes of a message, and the message as it leaves it. -/
  process : List PluginNote → Stage → Ticket → Outcome × Ticket

/-- Plugins in the order in which they are called, and the calls so far, the latest last. -/
structure PluginChain where
  plugins : List Plugin := []
  log : List PluginNote := []

namespace PluginChain

def note (c : PluginChain) (p : Plugin) (call : PluginCall) : PluginChain :=
  { c with log := c.log ++ [⟨p.name, call⟩] }

/-- Notes a call of each plugin in turn. -/
def noteAll (c : PluginChain) (plugins : List Plugin) (call : PluginCall) : PluginChain :=
  plugins.foldl (fun c p => c.note p call) c

/-- Prepares plugins in turn, and adds those that are ready. -/
def initAll : List Plugin → PluginChain → PluginChain
  | [], c => c
  | p :: rest, c =>
    let noted := c.note p .init
    initAll rest (if p.init c.log then { noted with plugins := noted.plugins ++ [p] } else noted)

def ofPlugins (plugins : List Plugin) : PluginChain := initAll plugins {}

/-- Calls plugins in turn for a stage: one that answers the message ends the processing, and one that
determines the target ends that stage; a failed one counts for nothing. -/
def runOn (stage : Stage) : List Plugin → Ticket → PluginChain → Outcome × Ticket × PluginChain
  | [], t, c => (.proceed, t, c)
  | p :: rest, t, c =>
    if p.occasions.contains (.ofStage stage) then
      let (outcome, t') := p.process c.log stage t
      let c := c.note p (.process stage t.direction)
      match outcome with
      | .responded => (.responded, t', c)
      | .handled => if stage = .determineTarget then (.handled, t', c) else runOn stage rest t' c
      | .proceed | .failed => runOn stage rest t' c
    else runOn stage rest t c

def run (c : PluginChain) (stage : Stage) (t : Ticket) : Outcome × Ticket × PluginChain :=
  runOn stage c.plugins t c

def callTimer (c : PluginChain) : PluginChain :=
  c.noteAll (c.plugins.filter fun p => p.occasions.contains .ofTimer) .timer

def shutdown (c : PluginChain) : PluginChain := c.noteAll c.plugins .shutdown

end PluginChain

end BorderProxy
