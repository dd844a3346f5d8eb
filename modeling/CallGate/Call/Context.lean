import CallGate.Call.Correlation
import CallGate.Call.Basic
import CallGate.Log.Event
import CallGate.Settings.Basic

/-!
# The context of a call

A handler gets a context with the locale and the correlation id of its call, the principal and the
token. A new context has no locale and a generated id. Enrichment reads the culture in the metadata
and the trace context into it: a culture that names an available locale becomes the locale of the
context and of the principal's profile, and one that does not is logged and has no other effect.
-/

namespace CallGate

/-- What a handler knows about its call. -/
structure Context where
  /-- The locale that the call asked for. -/
  locale : Option Locale
  /-- The id under which the events of the call are found. -/
  correlation : CorrelationId
  /-- The principal in whose name the call is made. -/
  principal : Option PrincipalId
  /-- The token by which the call can be cancelled. -/
  token : TokenId
deriving DecidableEq

/-- What the metadata of a call say about its culture. -/
inductive Culture where
  /-- There is no readable culture. -/
  | absent
  /-- The culture names an available locale. -/
  | accepted (locale : Locale)
  /-- The culture names no available locale. -/
  | rejected (tag : String) (cause : TagError)
deriving DecidableEq

/-- The culture in the first value under the culture header. -/
def Settings.culture (s : Settings) (m : Metadata) : Culture :=
  match m.text? s.cultureHeader with
  | none => .absent
  | some tag =>
    match Locale.parseAmong tag s.supportedLanguages with
    | .ok locale => .accepted locale
    | .error cause => .rejected tag cause

/-- The result of enriching a context. -/
structure Enrichment where
  /-- The context afterwards. -/
  context : Context
  /-- The new locale of the principal's profile, if there is one. -/
  profile : Option Locale
  /-- What is logged. -/
  events : List Event
deriving DecidableEq

namespace Context

/-- The context of a call before anything is read into it. -/
def new (call : Call) (id : Uuid) : Context where
  locale := none
  correlation := .generated id
  principal := call.principal
  token := call.token

/-- The context with the id of a trace context that is not blank. -/
def withTrace (ctx : Context) (trace : Option String) : Context :=
  { ctx with correlation := (trace.bind CorrelationId.ofTrace?).getD ctx.correlation }

/-- Reads metadata and a trace context into a context. Only the culture of a principal counts. -/
def enrich (ctx : Context) (s : Settings) (m : Metadata) (trace : Option String) :
    Enrichment :=
  let ctx := ctx.withTrace trace
  match ctx.principal, s.culture m with
  | some _, .accepted locale => ⟨{ ctx with locale := some locale }, some locale, []⟩
  | some _, .rejected tag cause => ⟨ctx, none, [.cultureIgnored tag cause]⟩
  | _, _ => ⟨ctx, none, []⟩

end Context

end CallGate
