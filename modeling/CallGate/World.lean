import CallGate.Requirement.Resolver
import CallGate.Call.Context

/-!
# What calls share

Calls on the same gate share the principals in whose names they are made, the tokens by which they
are cancelled, the remembered requirements, the source of random identifiers, and a journal. The
journal holds what can be observed of the gate, in the order in which it happens: the events that it
logs, the questions that it asks of its resolver and of principals, and the invocations of handlers.
-/

namespace CallGate

/-- The call to which log events belong. -/
structure Span where
  /-- The path of the method. -/
  method : String
  /-- The name of the service. -/
  service : String
  /-- The correlation id, once the call has been admitted. -/
  correlation : Option CorrelationId
deriving DecidableEq

/-- An event with the call to which it belongs. -/
structure LogEntry where
  /-- What happened. -/
  event : Event
  /-- The call during which it happened. -/
  span : Option Span
deriving DecidableEq

/-- What can be observed of a gate. -/
inductive Occurrence where
  /-- An event was logged. -/
  | logged (entry : LogEntry)
  /-- The resolver was asked about a method. -/
  | resolved (method service : String)
  /-- A principal was asked a question. -/
  | asked (principal : PrincipalId) (question : Requirement) (answer : Bool)
  /-- A handler was invoked. -/
  | invoked (context : Context)
deriving DecidableEq

namespace Occurrence

/-- The entry, if an event was logged. -/
def entry? : Occurrence → Option LogEntry
  | logged entry => some entry
  | _ => none

/-- The question and its answer, if the given principal was asked. -/
def check? (p : PrincipalId) : Occurrence → Option (Requirement × Bool)
  | asked q question answer => if q = p then some (question, answer) else none
  | _ => none

/-- The resolver was asked. -/
def isResolution : Occurrence → Bool
  | resolved .. => true
  | _ => false

end Occurrence

/-- The state that calls share. -/
structure World where
  /-- The principals, by name. -/
  principals : PrincipalId → Principal
  /-- The tokens that have been fired. -/
  fired : List TokenId
  /-- The remembered requirements. -/
  memo : Memo
  /-- The identifiers that are drawn, by how many were drawn before. -/
  source : Nat → Uuid
  /-- The number of identifiers drawn so far. -/
  drawn : Nat
  /-- What has been observed so far, in the order in which it happened. -/
  journal : List Occurrence

namespace World

/-- The world before any call. -/
def initial (principals : PrincipalId → Principal) (source : Nat → Uuid) : World where
  principals := principals
  fired := []
  memo := .empty
  source := source
  drawn := 0
  journal := []

/-- The world after one more observation. -/
def note (w : World) (o : Occurrence) : World := { w with journal := w.journal ++ [o] }

/-- What has been observed since an earlier world. -/
def since (w before : World) : List Occurrence := w.journal.drop before.journal.length

/-- What has been logged since an earlier world. -/
def entriesSince (w before : World) : List LogEntry := (w.since before).filterMap Occurrence.entry?

/-- The questions that a principal was asked since an earlier world, with its answers. -/
def checksSince (w before : World) (p : PrincipalId) : List (Requirement × Bool) :=
  (w.since before).filterMap (Occurrence.check? p)

/-- How often the resolver was asked since an earlier world. -/
def resolutionsSince (w before : World) : Nat := (w.since before).countP Occurrence.isResolution

/-- Logs an event. -/
def log (w : World) (span : Option Span) (e : Event) : World := w.note (.logged ⟨e, span⟩)

/-- Logs events one after the other. -/
def logAll (w : World) (span : Option Span) (events : List Event) : World :=
  events.foldl (fun w e => w.log span e) w

/-- The token has been fired. -/
def isFired (w : World) (t : TokenId) : Bool := w.fired.contains t

/-- Fires a token. A token stays fired. -/
def fire (w : World) (t : TokenId) : World :=
  if w.isFired t then w else { w with fired := t :: w.fired }

/-- The locale in the profile of a principal. -/
def profile (w : World) (p : PrincipalId) : Option Locale := (w.principals p).profile

/-- Replaces one principal. -/
def setPrincipal (w : World) (p : PrincipalId) (principal : Principal) : World :=
  { w with principals := fun q => if q = p then principal else w.principals q }

/-- Sets the locale in the profile of a principal. -/
def setProfile (w : World) (p : PrincipalId) (locale : Locale) : World :=
  w.setPrincipal p { w.principals p with profile := some locale }

/-- The answer of a principal to a question. -/
def answer (w : World) (p : PrincipalId) (question : Requirement) : Bool :=
  (w.principals p).answer question

/-- The world after a principal has answered a question. -/
def ask (w : World) (p : PrincipalId) (question : Requirement) : World :=
  (w.setPrincipal p ((w.principals p).afterQuestion question)).note
    (.asked p question (w.answer p question))

/-- The identifier that is drawn next. -/
def nextId (w : World) : Uuid := w.source w.drawn

/-- The world after an identifier has been drawn. -/
def drawId (w : World) : World := { w with drawn := w.drawn + 1 }

end World

end CallGate
