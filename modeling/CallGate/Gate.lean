import CallGate.Decision

/-!
# Gates

A gate stands before the handlers of services. It screens a call in three steps: it makes a new
context and enriches it with the culture and the trace context of the call, finds out what the
method requires, and decides about the call. Infrastructure calls, which only calls with two streams
can be, are let in without any of the three, and get a context that nothing has been read into.
-/

namespace CallGate

/-- How many elements go each way in a call. -/
inductive Shape where
  /-- One request and one response. -/
  | unary
  /-- One request and a stream of responses. -/
  | serverStreaming
  /-- A stream of requests and a stream of responses. -/
  | duplex
deriving DecidableEq, Repr

/-- Infrastructure calls can be of the shape. -/
def Shape.carriesInfrastructure : Shape → Bool
  | .duplex => true
  | _ => false

/-- A gate. -/
structure Gate where
  /-- The settings. -/
  settings : Settings
  /-- Where requirements come from. -/
  resolver : Resolver
  /-- Requirements are remembered, so that the resolver is asked about a method only once. -/
  remembers : Bool

namespace Gate

/-- What a method of a service requires. -/
def requirement (g : Gate) (method service : String) (w : World) : Requirement :=
  if g.remembers then
    (w.memo.get? (method, service)).getD (g.resolver method service).requirement
  else
    (g.resolver method service).requirement

/-- The world after the resolver has been asked about a method. -/
def askResolver (g : Gate) (span : Option Span) (method service : String) (w : World) : World :=
  (w.note (.resolved method service)).logAll span (g.resolver method service).events

/-- The world after a method has been resolved: the resolver is asked unless its answer is
remembered, and a gate that remembers keeps the answer. -/
def consult (g : Gate) (span : Option Span) (method service : String) (w : World) : World :=
  if g.remembers then
    match w.memo.get? (method, service) with
    | some _ => w
    | none =>
      let answer := (g.resolver method service).requirement
      { g.askResolver span method service w with memo := w.memo.insert (method, service) answer }
  else
    g.askResolver span method service w

/-- The world after an enrichment has set a profile and logged its events. -/
def record (span : Option Span) (e : Enrichment) (w : World) : World :=
  let w := w.logAll span e.events
  match e.context.principal, e.profile with
  | some principal, some locale => w.setProfile principal locale
  | _, _ => w

/-- Screens a call: admits it or refuses it. An admitted call gets its context. -/
def screen (g : Gate) (span : Option Span) (call : Call) (w : World) :
    Except Status Context × World :=
  let enriched := (Context.new call w.nextId).enrich g.settings call.metadata call.trace
  let w := record span enriched w.drawId
  let requirement := g.requirement call.method call.service w
  let w := g.consult span call.method call.service w
  let decision := w.decision call.principal requirement
  let w := w.afterDecision span call.principal requirement
  match decision.refusal? with
  | none => (.ok enriched.context, w)
  | some status => (.error status, w)

/-- The span of a call before it has been admitted. -/
def callSpan (call : Call) : Span := ⟨call.method, call.service, none⟩

/-- Lets a call of some shape in: unscreened, if it is an infrastructure call, or else by screening.
All events belong to the call, whose correlation id is not known yet. -/
def enter (g : Gate) (shape : Shape) (call : Call) (w : World) :
    Except Status Context × World :=
  let span := some (callSpan call)
  if shape.carriesInfrastructure && g.settings.isInfrastructure call.method then
    (.ok (.new call w.nextId), w.drawId.log span .infrastructureCall)
  else
    g.screen span call w

end Gate

end CallGate
