import CallGate.Gate

/-!
# Trials of a context

One context is enriched several times, with the metadata and the trace contexts of different calls.
Before each time its token may be fired and the profile of its principal may be set from outside.
-/

namespace CallGate.Rehearsal

/-- One enrichment, with what happens before it. -/
structure ContextStep where
  /-- The metadata. -/
  metadata : Metadata
  /-- The trace context. -/
  trace : Option String
  /-- The token of the context is fired first. -/
  fires : Bool
  /-- The tag of the locale that the principal's profile is set to first, if it names one. -/
  profile : Option String

/-- What an enrichment came to. -/
structure ContextReport where
  /-- The context afterwards. -/
  context : Context
  /-- The locale in the principal's profile afterwards. -/
  profile : Option Locale
  /-- The token of the context has been fired. -/
  fired : Bool
  /-- The events that were logged. -/
  logs : List LogEntry

/-- A context that is being tried out. -/
structure ContextTrial where
  /-- The settings for the enrichments. -/
  settings : Settings
  /-- The context. -/
  context : Context
  /-- The principal and the token. -/
  world : World

namespace ContextTrial

/-- The context of a new call in the name of `principal`. -/
def new (settings : Settings) (principal : Option PrincipalId) (world : World) : ContextTrial where
  settings := settings
  context := .new ⟨"", "", .empty, principal, none, .own 0⟩ world.nextId
  world := world.drawId

/-- The world after what happens before an enrichment. -/
def prepare (t : ContextTrial) (step : ContextStep) : World :=
  let w := if step.fires then t.world.fire t.context.token else t.world
  match t.context.principal, step.profile.map Locale.parse with
  | some principal, some (.ok locale) => w.setProfile principal locale
  | _, _ => w

/-- One enrichment. -/
def perform (t : ContextTrial) (step : ContextStep) : ContextReport × ContextTrial :=
  let w := t.prepare step
  let enriched := t.context.enrich t.settings step.metadata step.trace
  let now := Gate.record none enriched w
  ({ context := enriched.context
     profile := enriched.context.principal.bind now.profile
     fired := now.isFired enriched.context.token
     logs := now.entriesSince w },
   { t with context := enriched.context, world := now })

/-- The reports of enrichments that are made one after the other. -/
def performAll (t : ContextTrial) : List ContextStep → List ContextReport
  | [] => []
  | step :: rest => (t.perform step).1 :: (t.perform step).2.performAll rest

end ContextTrial

end CallGate.Rehearsal
