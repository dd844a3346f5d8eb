import CallGate.Proofs.CorrelationId
import CallGate.Proofs.Severity

/-!
# Which call an event belongs to

All that is logged about a call is marked with its method and service. As long as the call is not let
in that is all, and from the invocation of its handler on the id in the context of the handler is added.
Main statements: `tells_callSeen` says so of every call in traffic, `dispenses_run` that every id that is
drawn goes to one handler at most, and `span_correlation` that no call is mistaken for another.
-/

namespace CallGate

variable {α σ : Type}

/-! ## What is seen of a call -/

namespace Occurrence

/-- Something was logged, or a handler was invoked. -/
def isSeen : Occurrence → Bool
  | logged _ | invoked _ => true
  | resolved .. | asked .. => false

/-- An event was logged with a span, or a handler was invoked. -/
def isOfCall : Occurrence → Bool
  | logged entry => entry.span.isSome
  | invoked _ => true
  | resolved .. | asked .. => false

/-- What is logged about the response stream of a served call, which is watched outside the call. -/
def isStreamNotice : Occurrence → Bool
  | logged ⟨.streamGone, none⟩ | logged ⟨.statusLost, none⟩ => true
  | _ => false

/-- Events that were logged one after the other. -/
def ofLog (span : Option Span) (events : List Event) : List Occurrence :=
  events.map fun e => .logged ⟨e, span⟩

theorem mem_ofLog_iff {span : Option Span} {events : List Event} {o : Occurrence} :
    o ∈ ofLog span events ↔ ∃ e ∈ events, o = .logged ⟨e, span⟩ := by
  simp [ofLog, eq_comm]

theorem isStreamNotice_of_span (e : Event) (span : Span) :
    isStreamNotice (.logged ⟨e, some span⟩) = false := by
  cases e <;> rfl

theorem not_notice_ofLog (span : Span) (events : List Event) :
    ∀ o ∈ ofLog (some span) events, o.isStreamNotice = false := by
  intro o ho
  obtain ⟨e, -, rfl⟩ := mem_ofLog_iff.mp ho
  exact isStreamNotice_of_span e span

end Occurrence

namespace Change

/-- What is seen of a change. -/
def seen? (c : Change) : Option Occurrence := c.occurrence?.filter Occurrence.isSeen

theorem seen_logChanges (span : Option Span) (events : List Event) :
    (logChanges span events).filterMap seen? = Occurrence.ofLog span events := by
  rw [logChanges, List.filterMap_map]
  exact congrFun List.filterMap_eq_map events

theorem filter_isOfCall (c : Change) :
    c.occurrence?.filter Occurrence.isOfCall = c.seen?.bind (Option.guard Occurrence.isOfCall) := by
  cases c with
  | noted o => cases o <;> rfl
  | drawn | asked | profileSet | fired | remembered => rfl

end Change

/-- Of the changes only is seen that events are logged, which are as `P` says and all have one span. -/
def OnlyLogs (span : Option Span) (P : Event → Prop) (changes : List Change) : Prop :=
  ∃ events, changes.filterMap Change.seen? = Occurrence.ofLog span events ∧ ∀ e ∈ events, P e

namespace OnlyLogs

variable {span : Option Span} {P : Event → Prop} {changes more : List Change}

theorem of_unseen (h : changes.filterMap Change.seen? = []) : OnlyLogs span P changes :=
  ⟨[], h, List.forall_mem_nil _⟩

theorem logChanges {events : List Event} (h : ∀ e ∈ events, P e) :
    OnlyLogs span P (logChanges span events) :=
  ⟨events, Change.seen_logChanges span events, h⟩

theorem append (h : OnlyLogs span P changes) (h' : OnlyLogs span P more) :
    OnlyLogs span P (changes ++ more) := by
  obtain ⟨events, hseen, hP⟩ := h
  obtain ⟨events', hseen', hP'⟩ := h'
  refine ⟨events ++ events', ?_, List.forall_mem_append.mpr ⟨hP, hP'⟩⟩
  rw [List.filterMap_append, hseen, hseen', Occurrence.ofLog, Occurrence.ofLog, ← List.map_append]
  rfl

theorem cons {c : Change} (hc : c.seen? = none) (h : OnlyLogs span P changes) :
    OnlyLogs span P (c :: changes) := by
  obtain ⟨events, hseen, hP⟩ := h
  exact ⟨events, (List.filterMap_cons_none hc).trans hseen, hP⟩

theorem mono {Q : Event → Prop} (h : OnlyLogs span P changes) (hPQ : ∀ e, P e → Q e) :
    OnlyLogs span Q changes := by
  obtain ⟨events, hseen, hP⟩ := h
  exact ⟨events, hseen, fun e he => hPQ e (hP e he)⟩

/-- What can be told of an event can be told of all that is seen. -/
theorem forall_seen (h : OnlyLogs span P changes) {Q : Occurrence → Prop}
    (hQ : ∀ e, Q (.logged ⟨e, span⟩)) : ∀ o ∈ changes.filterMap Change.seen?, Q o := by
  obtain ⟨events, hseen, -⟩ := h
  intro o ho
  rw [hseen] at ho
  obtain ⟨e, -, rfl⟩ := Occurrence.mem_ofLog_iff.mp ho
  exact hQ e

/-- What is shown of what is seen, but not of events, is not shown of the changes. -/
theorem filterMap_eq_nil {β : Type} (h : OnlyLogs span P changes) {f : Occurrence → Option β}
    (hf : ∀ e, f (.logged ⟨e, span⟩) = none) : changes.filterMap (fun c => c.seen?.bind f) = [] := by
  rw [← List.filterMap_filterMap, List.filterMap_eq_nil_iff]
  exact h.forall_seen hf

end OnlyLogs

/-! ## Letting a call in -/

/-- The event tells how a call is let in or refused. -/
def Event.isAdmission : Event → Bool
  | undeclared .. | principalMissing _ | operationsMissing .. | cultureIgnored .. | infrastructureCall =>
    true
  | _ => false

theorem Context.isAdmission_enrich (ctx : Context) (s : Settings) (m : Metadata) (trace : Option String) :
    ∀ e ∈ (ctx.enrich s m trace).events, e.isAdmission = true := by
  unfold Context.enrich
  intro e he
  dsimp only at he
  split at he <;> simp only [List.mem_singleton, List.not_mem_nil] at he
  rw [he]
  rfl

namespace Gate

variable (g : Gate)

/-- The event tells how the call is let in or refused, or the resolver logs it about its method. -/
def Announces (call : Call) (e : Event) : Prop :=
  e.isAdmission = true ∨ e ∈ (g.resolver call.method call.service).events

theorem onlyLogs_recordChanges (span : Option Span) {e : Enrichment} {P : Event → Prop}
    (h : ∀ event ∈ e.events, P event) : OnlyLogs span P (recordChanges span e) := by
  refine (OnlyLogs.logChanges h).append (.of_unseen ?_)
  rw [List.filterMap_map, List.filterMap_eq_nil_iff]
  exact fun _ _ => rfl

theorem onlyLogs_consultChanges (span : Option Span) (method service : String) (w : World) :
    OnlyLogs span (· ∈ (g.resolver method service).events)
      (g.consultChanges span method service w) := by
  have hasking : OnlyLogs span (· ∈ (g.resolver method service).events)
      (.noted (.resolved method service) :: logChanges span (g.resolver method service).events) :=
    .cons rfl (.logChanges fun _ he => he)
  unfold consultChanges
  dsimp only
  split
  · cases w.memo.get? (method, service) with
    | some r => exact .of_unseen rfl
    | none => exact hasking.append (.of_unseen rfl)
  · exact hasking

theorem onlyLogs_decisionChanges (span : Option Span) (w : World) (principal : Option PrincipalId)
    (r : Requirement) :
    OnlyLogs span (fun e => e.isAdmission = true) (w.decisionChanges span principal r) := by
  unfold World.decisionChanges
  split
  · exact .of_unseen rfl
  · cases principal with
    | none => exact .logChanges (List.forall_mem_singleton.mpr rfl)
    | some p =>
      refine .cons rfl ?_
      split
      · exact .of_unseen rfl
      · exact .logChanges (List.forall_mem_singleton.mpr rfl)

theorem onlyLogs_screenChanges (span : Option Span) (call : Call) (w : World) :
    OnlyLogs span (g.Announces call) (g.screenChanges span call w) := by
  have hrecord := onlyLogs_recordChanges span
    ((Context.new call w.nextId).isAdmission_enrich g.settings call.metadata call.trace)
  have hconsult := g.onlyLogs_consultChanges span call.method call.service w
  have hdecision := onlyLogs_decisionChanges span w call.principal
    (g.requirement call.method call.service w)
  unfold screenChanges
  exact ((OnlyLogs.cons rfl (hrecord.mono fun _ => Or.inl)).append (hconsult.mono fun _ => Or.inr)).append
    (hdecision.mono fun _ => Or.inl)

theorem onlyLogs_enterChanges (shape : Shape) (call : Call) (w : World) :
    OnlyLogs (some ⟨call.method, call.service, none⟩) (g.Announces call)
      (g.enterChanges shape call w) := by
  unfold enterChanges
  split
  · exact .cons rfl (.logChanges (List.forall_mem_singleton.mpr (Or.inl rfl)))
  · exact g.onlyLogs_screenChanges _ call w

end Gate

/-! ## What is seen of a turn -/

/-- What is seen of a call whose handler fares like that. All events have the call's own method and service
in their span. Until the handler is invoked they tell how the call is let in or refused, and their span
has no id; then they tell how the handler has ended, and have the id in its context, which was drawn or
is what is left of the call's own trace. -/
inductive Gate.Tells (g : Gate) (shape : Shape) (call : Call) :
    List TurnFate → List Occurrence → Prop where
  | outside {admission : List Event} (announced : ∀ e ∈ admission, g.Announces call e) :
      Tells g shape call [] (Occurrence.ofLog (some ⟨call.method, call.service, none⟩) admission)
  | inside {admission : List Event} {fates : List TurnFate} {ctx : Context} {own : Uuid}
      (invoked : fates ≠ []) (announced : ∀ e ∈ admission, g.Announces call e)
      (originates : CorrelationId.Originates (.generated own) (g.traces (.entering shape) call)
        ctx.correlation) :
      Tells g shape call fates
        (Occurrence.ofLog (some ⟨call.method, call.service, none⟩) admission ++ .invoked ctx ::
          Occurrence.ofLog (some (call.markedWith ctx.correlation))
            (fates.findSome? TurnFate.event?).toList)

theorem TurnFate.isAdmission_event? {fate : TurnFate} {e : Event} (h : fate.event? = some e) :
    e.isAdmission = false := by
  cases fate with
  | goesOn | returned => cases h
  | dropped | panicked payload =>
    cases h
    rfl
  | failed error => cases error <;> cases h <;> rfl

namespace Gate.Tells

variable {g : Gate} {shape : Shape} {call : Call} {fates : List TurnFate} {seen : List Occurrence}

theorem not_notice (h : g.Tells shape call fates seen) : ∀ o ∈ seen, o.isStreamNotice = false := by
  cases h with
  | outside => exact Occurrence.not_notice_ofLog _ _
  | inside =>
    refine List.forall_mem_append.mpr ⟨Occurrence.not_notice_ofLog _ _, ?_⟩
    exact List.forall_mem_cons.mpr ⟨rfl, Occurrence.not_notice_ofLog _ _⟩

theorem originates (h : g.Tells shape call fates seen) {ctx : Context} (hctx : .invoked ctx ∈ seen) :
    ∃ own,
      CorrelationId.Originates (.generated own) (g.traces (.entering shape) call) ctx.correlation := by
  have hlog (span : Option Span) (events : List Event) : .invoked ctx ∉ Occurrence.ofLog span events := by
    intro hmem
    obtain ⟨e, -, he⟩ := Occurrence.mem_ofLog_iff.mp hmem
    cases he
  cases h with
  | outside => exact absurd hctx (hlog _ _)
  | @inside admission fates ctx' own _ _ originates =>
    rcases List.mem_append.mp hctx with hctx | hctx
    · exact absurd hctx (hlog _ _)
    · rcases List.mem_cons.mp hctx with heq | hctx
      · cases heq
        exact ⟨own, originates⟩
      · exact absurd hctx (hlog _ _)

/-- Which events have an id in their span can be told by what they say. -/
theorem span_eq (h : g.Tells shape call fates seen) {e : Event} {span : Span}
    (he : .logged ⟨e, some span⟩ ∈ seen) :
    g.Announces call e ∧ span = ⟨call.method, call.service, none⟩ ∨
      e.isAdmission = false ∧
        ∃ ctx, .invoked ctx ∈ seen ∧ span = call.markedWith ctx.correlation := by
  cases h with
  | outside announced =>
    obtain ⟨e', he', heq⟩ := Occurrence.mem_ofLog_iff.mp he
    cases heq
    exact Or.inl ⟨announced _ he', rfl⟩
  | @inside admission fates ctx own _ announced _ =>
    rcases List.mem_append.mp he with he | he
    · obtain ⟨e', he', heq⟩ := Occurrence.mem_ofLog_iff.mp he
      cases heq
      exact Or.inl ⟨announced _ he', rfl⟩
    · rcases List.mem_cons.mp he with heq | he
      · cases heq
      · obtain ⟨e', he', heq⟩ := Occurrence.mem_ofLog_iff.mp he
        cases heq
        obtain ⟨fate, -, hfate⟩ := List.exists_of_findSome?_eq_some (Option.mem_toList.mp he')
        refine Or.inr ⟨TurnFate.isAdmission_event? hfate, ctx, ?_, rfl⟩
        exact List.mem_append_right _ List.mem_cons_self

end Gate.Tells

namespace Job

variable {j : Job α σ}

theorem Explained.tells {call : Passage α σ} {opening closing : List Change} {fates : List TurnFate}
    {failures : List (Option Status)} (h : j.Explained call opening closing fates failures) :
    j.gate.Tells j.shape j.call fates ((opening ++ closing).filterMap Change.seen?) := by
  have inside {w : World} {ctx : Context} (admitted : (j.gate.enter j.shape j.call w).1 = .ok ctx)
      {fates : List TurnFate} (invoked : fates ≠ []) : j.gate.Tells j.shape j.call fates
        ((j.gate.enterChanges j.shape j.call w ++ [Change.noted (.invoked ctx)] ++
          logChanges (some (j.span ctx)) (fates.findSome? TurnFate.event?).toList).filterMap
            Change.seen?) := by
    obtain ⟨admission, hseen, hannounced⟩ := j.gate.onlyLogs_enterChanges j.shape j.call w
    rw [List.filterMap_append, List.filterMap_append, hseen, Change.seen_logChanges, List.append_assoc]
    exact .inside invoked hannounced (Gate.originates_attempt (a := .entering j.shape) admitted)
  cases h with
  | arrived => exact .outside (List.forall_mem_nil _)
  | @refused w =>
    obtain ⟨admission, hseen, hannounced⟩ := j.gate.onlyLogs_enterChanges j.shape j.call w
    rw [List.append_nil, hseen]
    exact .outside hannounced
  | running admitted invoked goesOn =>
    -- A handler that goes on has had nothing logged about it.
    have htells := inside admitted invoked
    rw [TurnFate.findSome?_event?_of_goesOn goesOn] at htells
    exact htells
  | @settled w ctx last? result before fate admitted goesOn _ =>
    have htells := inside admitted (List.append_ne_nil_of_right_ne_nil before (List.cons_ne_nil fate []))
    rwa [List.findSome?_append, TurnFate.findSome?_event?_of_goesOn goesOn, List.findSome?_singleton,
      Option.none_or] at htells

theorem not_notice_ledger (j : Job α σ) (call : Passage α σ) (s : Scene α) :
    ∀ o ∈ (j.ledger call s).changes.filterMap Change.seen?, o.isStreamNotice = false := by
  rw [filterMap_ledger (fun _ => rfl) (fun _ _ => rfl) (fun _ => rfl), List.filterMap_append]
  refine List.forall_mem_append.mpr ⟨?_, ?_⟩
  · change ∀ o ∈ (j.entryChanges call s).filterMap Change.seen?, o.isStreamNotice = false
    cases call with
    | running | settled => exact List.forall_mem_nil _
    | arrived =>
      rw [entryChanges, List.filterMap_append]
      refine List.forall_mem_append.mpr ⟨?_, ?_⟩
      · exact (j.gate.onlyLogs_enterChanges j.shape j.call s.world).forall_seen
          fun e => Occurrence.isStreamNotice_of_span e _
      · cases (j.gate.enter j.shape j.call s.world).1 with
        | error status => exact List.forall_mem_nil _
        | ok ctx => exact List.forall_mem_singleton.mpr rfl
  · change ∀ o ∈ (j.closeChanges (j.work call s).1 (j.work call s).2).filterMap Change.seen?,
      o.isStreamNotice = false
    cases (j.work call s).1 with
    | refused | past => exact List.forall_mem_nil _
    | worked span progress =>
      rw [closeChanges, Change.seen_logChanges]
      exact Occurrence.not_notice_ofLog span _

end Job

namespace Undertaking

variable {g : Gate} {u : Undertaking}

theorem ExplainedBy.tells {reports : List TurnReport} (h : u.ExplainedBy g reports) :
    g.Tells u.shape u.call (reports.flatMap TurnReport.fates)
      ((reports.flatMap fun report => report.opening ++ report.closing).filterMap Change.seen?) := by
  have explained {α σ : Type} {j : Job α σ} {call : Passage α σ} (h : j.ExplainedBy call reports) :
      j.gate.Tells j.shape j.call (reports.flatMap TurnReport.fates)
        ((reports.flatMap fun report => report.opening ++ report.closing).filterMap Change.seen?) := by
    rw [h.inOrder]
    exact h.explained.tells
  cases u with
  | direct shape call handler x => exact explained h
  | served shape call handler x =>
    obtain ⟨passage, -, h⟩ := h
    exact explained h

/-- The call is made on its own account, and nobody watches its stream. -/
def isDirect : Undertaking → Bool
  | direct .. => true
  | served .. => false

theorem isDirect_step (u : Undertaking) (move : Move) (w : World) :
    (u.step g move w).1.isDirect = u.isDirect := by
  cases u <;> rfl

theorem not_notice_ledger (h : u.isDirect = true) (move : Move) (w : World) :
    ∀ o ∈ (u.ledger g move w).changes.filterMap Change.seen?, o.isStreamNotice = false := by
  cases u with
  | served => cases h
  | direct shape call handler x =>
    cases move with
    | turn order => exact Job.not_notice_ledger ⟨g, shape, call, handler⟩ _ _
    | take | close | drop | fire => exact List.forall_mem_nil _

end Undertaking

namespace Traffic

variable {g : Gate} {n : Nat} {w : World} {incidents : List Incident} {u : Undertaking}

/-- What is seen of one call in a run. -/
def callSeen (g : Gate) (n : Nat) (w : World) (incidents : List Incident) : List Occurrence :=
  (callLedger g n w incidents).changes.filterMap Change.seen?

theorem tells_callSeen (hu : ((start w).run g incidents).calls[n]? = some u) :
    g.Tells u.shape u.call ((callReports g n w incidents).flatMap TurnReport.fates)
      ((callSeen g n w incidents).filter fun o => !o.isStreamNotice) := by
  have htells := (explainedBy_callReports hu).tells
  have hseen : (callSeen g n w incidents).filter (fun o => !o.isStreamNotice) =
      (((callReports g n w incidents).flatMap fun report =>
        report.opening ++ report.closing).filterMap Change.seen?).filter
          fun o => !o.isStreamNotice := by
    rw [callSeen, List.filter_filterMap, List.filter_filterMap]
    exact filterMap_callLedger g n w incidents rfl rfl (fun _ => rfl) fun j call s _ =>
      j.filterMap_ledger (fun _ => rfl) (fun _ _ => rfl) (fun _ => rfl) call s
  have hall : (((callReports g n w incidents).flatMap fun report =>
      report.opening ++ report.closing).filterMap Change.seen?).filter (fun o => !o.isStreamNotice) = _ :=
    List.filter_eq_self.mpr fun o ho => by rw [htells.not_notice o ho]; rfl
  rw [hseen, hall]
  exact htells

/-- About the stream of a call that is not served nothing is logged. -/
theorem not_notice_callSeen (hu : ((start w).run g incidents).calls[n]? = some u)
    (h : u.isDirect = true) : ∀ o ∈ callSeen g n w incidents, o.isStreamNotice = false := by
  let I (u : Undertaking) (l : Ledger) : Prop :=
    u.isDirect = true → ∀ o ∈ l.changes.filterMap Change.seen?, o.isStreamNotice = false
  have moved {u l} (move : Move) (w : World) (hI : I u l) :
      I (u.step g move w).1 (l ++ u.ledger g move w) := by
    intro h
    rw [Undertaking.isDirect_step] at h
    rw [Ledger.changes_append, List.filterMap_append]
    exact List.forall_mem_append.mpr ⟨hI h, Undertaking.not_notice_ledger h move w⟩
  exact run_keeps_call (I := I) (fun _ _ _ => List.forall_mem_nil _) moved w incidents hu h

end Traffic

/-! ## Ids that are drawn -/

/-- The id, if it was drawn. -/
def CorrelationId.generated? : CorrelationId → Option Uuid
  | generated id => some id
  | given _ => none

theorem CorrelationId.Originates.generated? {own : Uuid} {traces : List (Option String)}
    {id : CorrelationId} (h : Originates (.generated own) traces id) :
    id.generated? = none ∨ id.generated? = some own := by
  cases h with
  | kept => exact Or.inr rfl
  | latest => exact Or.inl rfl

/-- An id that was not drawn is what is left of the call's own trace. -/
theorem Gate.generated_or_core {g : Gate} {a : Approach} {call : Call} {own : Uuid} {id : CorrelationId}
    (h : CorrelationId.Originates (.generated own) (g.traces a call) id) :
    id = .generated own ∨ ∃ trace, call.trace = some trace ∧ IsCore id.text trace := by
  cases h with
  | kept => exact Or.inl rfl
  | @latest before after trace core htraces hcore =>
    have hmem : some trace ∈ g.traces a call := htraces ▸ List.mem_append_right _ List.mem_cons_self
    unfold traces at hmem
    split at hmem
    · cases hmem
    · exact Or.inr ⟨trace, (List.mem_singleton.mp hmem).symm, hcore⟩

/-- The id in the context with which a handler was invoked, if it was drawn. -/
def Occurrence.generated? : Occurrence → Option Uuid
  | invoked ctx => ctx.correlation.generated?
  | _ => none

def Change.generated? (c : Change) : Option Uuid := c.seen?.bind Occurrence.generated?

/-- Of the ids that are drawn while a world is changed, each goes to one handler at most, and in the
order in which they are drawn. -/
def World.Dispenses (w : World) (changes : List Change) : Prop :=
  (changes.filterMap Change.generated?).Sublist
    ((List.range' w.drawn (changes.filterMap Change.draw?).length).map w.source)

namespace World.Dispenses

variable {w : World} {changes more : List Change}

theorem of_none (h : changes.filterMap Change.generated? = []) : w.Dispenses changes := by
  unfold Dispenses
  rw [h]
  exact List.nil_sublist _

theorem append (h : w.Dispenses changes) (h' : (w.replay changes).Dispenses more) :
    w.Dispenses (changes ++ more) := by
  obtain ⟨hsource, hdrawn⟩ := w.draws_replay changes
  unfold Dispenses at h' ⊢
  rw [hsource, hdrawn] at h'
  rw [List.filterMap_append, List.filterMap_append, List.length_append, ← List.range'_append_1,
    List.map_append]
  exact List.Sublist.append h h'

theorem append_none (h : w.Dispenses changes) (h' : more.filterMap Change.generated? = []) :
    w.Dispenses (changes ++ more) :=
  h.append (.of_none h')

end World.Dispenses

theorem Gate.draws_enterChanges (g : Gate) (shape : Shape) (call : Call) (w : World) :
    (g.enterChanges shape call w).filterMap Change.draw? = [.drawn] := by
  unfold enterChanges
  split
  · rfl
  · exact g.draws_screenChanges _ call w

namespace Job

variable (j : Job α σ)

theorem dispenses_entryChanges (call : Passage α σ) (s : Scene α) :
    s.world.Dispenses (j.entryChanges call s) := by
  cases call with
  | running | settled => exact .of_none rfl
  | arrived =>
    have hdraws := j.gate.draws_enterChanges j.shape j.call s.world
    have hnone : (j.gate.enterChanges j.shape j.call s.world).filterMap Change.generated? = [] :=
      (j.gate.onlyLogs_enterChanges j.shape j.call s.world).filterMap_eq_nil fun _ => rfl
    unfold World.Dispenses
    rw [entryChanges, List.filterMap_append, List.filterMap_append, hdraws, hnone]
    cases hentered : (j.gate.enter j.shape j.call s.world).1 with
    | error status => exact List.nil_sublist _
    | ok ctx =>
      have hid : Change.generated? (.noted (.invoked ctx)) = none ∨
          Change.generated? (.noted (.invoked ctx)) = some s.world.nextId :=
        (Gate.originates_attempt (a := .entering j.shape) hentered).generated?
      rcases hid with hid | hid
      · rw [invocation, List.filterMap_cons_none hid]
        exact List.nil_sublist _
      · rw [invocation, List.filterMap_cons_some hid]
        exact List.Sublist.refl _

theorem dispenses_ledger (call : Passage α σ) (s : Scene α) :
    s.world.Dispenses (j.ledger call s).changes := by
  have hdeeds : (j.deeds call s).changes.filterMap Change.generated? = [] :=
    History.filterMap_changes (fun _ => rfl) (fun _ _ => rfl) (fun _ => rfl) _
  have hclose : (j.closeChanges (j.work call s).1 (j.work call s).2).filterMap Change.generated? = [] :=
    j.filterMap_closeChanges (fun _ => rfl) _ _
  rw [changes_ledger]
  exact ((j.dispenses_entryChanges call s).append_none hdeeds).append_none hclose

theorem generated_deliverChanges (s : Scene α) :
    (deliverChanges s).filterMap Change.generated? = [] := by
  unfold deliverChanges
  cases s.verdict <;> rfl

theorem dispenses_proceedLedger (call : Passage α σ) (s : Scene α) :
    s.world.Dispenses (j.proceedLedger call s).changes := by
  unfold proceedLedger
  rw [Ledger.changes_append]
  refine (j.dispenses_ledger call s).append_none ?_
  split
  · rw [Agent.changes_did]
    exact generated_deliverChanges _
  · rfl

theorem dispenses_serveLedger (order : TurnOrder) (v : Serving α σ) (s : Scene α) :
    s.world.Dispenses (j.serveLedger order v s).changes := by
  -- The world in which the call goes on is the one in which the stream has been given up.
  have abandoned (call : Passage α σ) (s : Scene α) :
      s.world.Dispenses (j.giveUpChanges ++ (j.proceedLedger call (j.giveUp s)).changes) :=
    (World.Dispenses.of_none rfl).append (j.dispenses_proceedLedger call (j.giveUp s))
  cases v with
  | watching call =>
    cases order with
    | streamFirst =>
      simp only [serveLedger]
      split
      · rw [Ledger.changes_append, Agent.changes_did]
        exact abandoned call s
      · exact j.dispenses_proceedLedger call s
    | handlerFirst =>
      simp only [serveLedger]
      split
      · rw [Ledger.changes_append, Ledger.changes_append, Agent.changes_did, List.append_assoc]
        refine (j.dispenses_ledger call s).append ?_
        rw [← world_step]
        exact abandoned _ _
      · exact j.dispenses_proceedLedger call s
  | abandoned call => exact j.dispenses_proceedLedger call s
  | delivering last status =>
    rw [serveLedger, Agent.changes_did]
    exact .of_none (generated_deliverChanges s)
  | finished last => exact .of_none rfl

end Job

theorem Undertaking.dispenses_ledger (g : Gate) (move : Move) (w : World) (u : Undertaking) :
    w.Dispenses (u.ledger g move w).changes := by
  cases u with
  | direct shape call handler x =>
    cases move with
    | turn order => exact Job.dispenses_ledger ⟨g, shape, call, handler⟩ _ _
    | take | close | drop | fire => exact .of_none rfl
  | served shape call handler x =>
    cases move with
    | turn order => exact Job.dispenses_serveLedger ⟨g, shape, call, handler⟩ order _ _
    | take | close | drop | fire => exact .of_none rfl

namespace Traffic

variable {g : Gate}

/-- What happens without a call invokes no handler, and what is logged about it has no span. -/
theorem onlyLogs_entries (t : Traffic) (i : Incident) (hi : ∀ n move, i ≠ .move n move) :
    OnlyLogs none (fun _ => True) (t.entries g i).changes := by
  cases i with
  | lookUp method service =>
    rw [entries, Agent.changes_did]
    exact (g.onlyLogs_consultChanges none method service t.world).mono fun _ _ => trivial
  | screen call =>
    rw [entries, Agent.changes_did]
    exact (g.onlyLogs_screenChanges none call t.world).mono fun _ _ => trivial
  | setProfile | fire | make | serve => exact .of_unseen rfl
  | move n move => exact absurd rfl (hi n move)

theorem dispenses_entries (t : Traffic) (i : Incident) : t.world.Dispenses (t.entries g i).changes := by
  by_cases hi : ∃ n move, i = .move n move
  · obtain ⟨n, move, rfl⟩ := hi
    simp only [entries]
    cases t.calls[n]? with
    | none => exact .of_none rfl
    | some u => exact u.dispenses_ledger g move t.world
  · refine .of_none ((t.onlyLogs_entries i fun n move h => hi ⟨n, move, h⟩).filterMap_eq_nil ?_)
    exact fun _ => rfl

theorem dispenses_run (t : Traffic) (incidents : List Incident) :
    t.world.Dispenses (t.ledger g incidents).changes := by
  induction incidents generalizing t with
  | nil => exact .of_none rfl
  | cons i incidents ih =>
    rw [ledger, Ledger.changes_append]
    refine (t.dispenses_entries i).append ?_
    rw [← world_step]
    exact ih (t.step g i)

/-- The ids that are drawn in a run are written differently. -/
def DrawsApart (g : Gate) (w : World) (incidents : List Incident) : Prop :=
  ∀ k k', w.drawn ≤ k → k < k' → k' < ((start w).run g incidents).world.drawn →
    (w.source k).text ≠ (w.source k').text

variable {w : World} {incidents : List Incident}

theorem nodup_generated (h : DrawsApart g w incidents) :
    ((((start w).ledger g incidents).changes.filterMap Change.generated?).map Uuid.text).Nodup := by
  have hdispenses : w.Dispenses ((start w).ledger g incidents).changes := dispenses_run _ _
  have hdrawn : ((start w).run g incidents).world.drawn = w.drawn +
      (((start w).ledger g incidents).changes.filterMap Change.draw?).length := by
    rw [world_run]
    exact (w.draws_replay _).2
  unfold DrawsApart at h
  rw [hdrawn] at h
  refine List.Nodup.sublist (hdispenses.map Uuid.text) ?_
  rw [List.map_map, List.Nodup, List.pairwise_map]
  refine List.Pairwise.imp_of_mem (fun {k k'} hk hk' hlt => ?_) (List.pairwise_lt_range' 1)
  exact h k k' (List.mem_range'_1.mp hk).1 hlt (List.mem_range'_1.mp hk').2

/-- What is shown neither of what has no span nor of anything that is not seen is shown of the calls. -/
theorem perm_callSeen (g : Gate) (w : World) (incidents : List Incident) {β : Type}
    {f : Occurrence → Option β} (hf : ∀ e, f (.logged ⟨e, none⟩) = none) :
    (((start w).ledger g incidents).changes.filterMap fun c => c.seen?.bind f).Perm
      ((List.range ((start w).run g incidents).calls.length).flatMap fun n =>
        (callSeen g n w incidents).filterMap f) := by
  simp only [callSeen, List.filterMap_filterMap]
  exact perm_shares (fun t i hi => (t.onlyLogs_entries i hi).filterMap_eq_nil hf) (start w) incidents

/-- No two calls have got the same id, if it was drawn. -/
theorem generated_ne (h : DrawsApart g w incidents) {m n : Nat} (hmn : m ≠ n)
    (hm : m < ((start w).run g incidents).calls.length)
    (hn : n < ((start w).run g incidents).calls.length) {id id' : Uuid}
    (hid : id ∈ (callSeen g m w incidents).filterMap Occurrence.generated?)
    (hid' : id' ∈ (callSeen g n w incidents).filterMap Occurrence.generated?) : id.text ≠ id'.text := by
  have hshares := perm_callSeen g w incidents (f := Occurrence.generated?) fun _ => rfl
  have hnodup := ((hshares.map Uuid.text).nodup_iff).mp (nodup_generated h)
  rw [List.map_flatMap, List.Nodup, List.pairwise_flatMap, List.pairwise_iff_getElem] at hnodup
  have apart {m n : Nat} (hlt : m < n) (hn : n < ((start w).run g incidents).calls.length)
      {id id' : Uuid} (hid : id ∈ (callSeen g m w incidents).filterMap Occurrence.generated?)
      (hid' : id' ∈ (callSeen g n w incidents).filterMap Occurrence.generated?) : id.text ≠ id'.text := by
    have hpair := hnodup.2 m n (by simpa using Nat.lt_trans hlt hn) (by simpa using hn) hlt
    rw [List.getElem_range, List.getElem_range] at hpair
    exact hpair _ (List.mem_map_of_mem hid) _ (List.mem_map_of_mem hid')
  rcases Nat.lt_or_gt_of_ne hmn with hlt | hgt
  · exact apart hlt hn hid hid'
  · exact (apart hgt hm hid' hid).symm

theorem originates_callSeen {n : Nat} {u : Undertaking}
    (hu : ((start w).run g incidents).calls[n]? = some u) {ctx : Context}
    (hctx : .invoked ctx ∈ callSeen g n w incidents) : ∃ own,
      CorrelationId.Originates (.generated own) (g.traces (.entering u.shape) u.call) ctx.correlation :=
  (tells_callSeen hu).originates (List.mem_filter.mpr ⟨hctx, rfl⟩)

theorem span_of_logged {n : Nat} {u : Undertaking}
    (hu : ((start w).run g incidents).calls[n]? = some u) {e : Event} {span : Span}
    (he : .logged ⟨e, some span⟩ ∈ callSeen g n w incidents) :
    g.Announces u.call e ∧ span = ⟨u.call.method, u.call.service, none⟩ ∨
      e.isAdmission = false ∧ ∃ ctx, .invoked ctx ∈ callSeen g n w incidents ∧
        span = u.call.markedWith ctx.correlation := by
  have hkept := congrArg Bool.not (Occurrence.isStreamNotice_of_span e span)
  rcases (tells_callSeen hu).span_eq (List.mem_filter.mpr ⟨he, hkept⟩) with h | ⟨he, ctx, hctx, hspan⟩
  · exact Or.inl h
  · exact Or.inr ⟨he, ctx, List.mem_of_mem_filter hctx, hspan⟩

/-- In all traffic, whatever has a span was logged on account of a call, and handlers are invoked on
account of calls only. What is logged about a call has the call's own method and service in its span,
without an id until the handler is invoked and then with the id in the context of the handler, however the
handler ends; only about the response stream of a served call something is logged without a span. If the
ids that are drawn in a run are written differently, two calls have the same id only where the trace that
came with one of them says so. -/
theorem span_correlation (g : Gate) (w : World) (incidents : List Incident) :
    let t := (start w).run g incidents
    let seen (n : Nat) := callSeen g n w incidents
    ((t.world.since w).filter Occurrence.isOfCall).Perm
      ((List.range t.calls.length).flatMap fun n => (seen n).filter Occurrence.isOfCall) ∧
    (∀ (n : Nat) (u : Undertaking), t.calls[n]? = some u →
      g.Tells u.shape u.call ((callReports g n w incidents).flatMap TurnReport.fates)
        ((seen n).filter fun o => !o.isStreamNotice) ∧
      (∀ e span, .logged ⟨e, some span⟩ ∈ seen n →
        g.Announces u.call e ∧ span = ⟨u.call.method, u.call.service, none⟩ ∨
          e.isAdmission = false ∧ ∃ ctx, .invoked ctx ∈ seen n ∧
            span = ⟨u.call.method, u.call.service, some ctx.correlation⟩) ∧
      (u.isDirect = true → ∀ o ∈ seen n, o.isStreamNotice = false)) ∧
    (DrawsApart g w incidents → ∀ (m n : Nat) (u u' : Undertaking) (ctx ctx' : Context), m ≠ n →
      t.calls[m]? = some u → t.calls[n]? = some u' → .invoked ctx ∈ seen m → .invoked ctx' ∈ seen n →
      ctx'.correlation.text = ctx.correlation.text → ∃ trace,
        (u.call.trace = some trace ∨ u'.call.trace = some trace) ∧ IsCore ctx.correlation.text trace) := by
  intro t seen
  refine ⟨?_, fun n u hu => ⟨tells_callSeen hu, fun e span => span_of_logged hu, not_notice_callSeen hu⟩,
    ?_⟩
  · have hworld : t.world = w.replay ((start w).ledger g incidents).changes :=
      world_run (start w) incidents
    have hcalls := perm_callSeen g w incidents (f := Option.guard Occurrence.isOfCall) fun _ => rfl
    simp only [List.filterMap_eq_filter] at hcalls
    rw [hworld, World.since, World.journal_replay, List.drop_left, List.filter_filterMap]
    simp only [Change.filter_isOfCall]
    exact hcalls
  · intro hapart m n u u' ctx ctx' hmn hu hu' hctx hctx' htext
    obtain ⟨own, horiginates⟩ := originates_callSeen hu hctx
    obtain ⟨own', horiginates'⟩ := originates_callSeen hu' hctx'
    rcases Gate.generated_or_core horiginates with hid | ⟨trace, htrace, hcore⟩
    · rcases Gate.generated_or_core horiginates' with hid' | ⟨trace, htrace, hcore⟩
      · have hgiven : own ∈ (seen m).filterMap Occurrence.generated? :=
          List.mem_filterMap.mpr ⟨_, hctx, congrArg CorrelationId.generated? hid⟩
        have hgiven' : own' ∈ (seen n).filterMap Occurrence.generated? :=
          List.mem_filterMap.mpr ⟨_, hctx', congrArg CorrelationId.generated? hid'⟩
        have hne := generated_ne hapart hmn (List.getElem?_eq_some_iff.mp hu).1
          (List.getElem?_eq_some_iff.mp hu').1 hgiven hgiven'
        rw [hid, hid'] at htext
        exact absurd htext.symm hne
      · exact ⟨trace, Or.inr htrace, htext ▸ hcore⟩
    · exact ⟨trace, Or.inl htrace, hcore⟩

/-- A handler panics while another call is under way, whose caller then drops the stream. -/
theorem span_correlation_interleaved :
    let g : Gate := ⟨.standard, Registry.empty.resolver, false⟩
    let w : World := .initial (fun _ => .powerless) .ofNat
    let paying : Call := ⟨"/shop.Orders/Pay", "shop.Orders", .empty, none, none, .own 0⟩
    let watching : Call := ⟨"/shop.Orders/Watch", "shop.Orders", .empty, none, none, .own 1⟩
    let incidents : List Incident :=
      [.make .unary paying (.sending ([] : List Nat) (.panicked .other)) none,
        .serve .duplex watching (.sending [1, 2] (.returned 3)) ⟨1, by decide, by decide⟩,
        .move 1 (.turn .handlerFirst), .move 0 (.turn .handlerFirst), .move 1 .drop,
        .move 1 (.turn .streamFirst)]
    let ctx (call : Call) (n : Nat) : Context := ⟨none, .generated (.ofNat n), none, call.token⟩
    let marked (call : Call) (n : Nat) (e : Event) : List Occurrence :=
      [.logged ⟨.undeclared call.method call.service, some ⟨call.method, call.service, none⟩⟩,
        .invoked (ctx call n),
        .logged ⟨e, some ⟨call.method, call.service, some (.generated (.ofNat n))⟩⟩]
    let panic : Event := .unexpectedFailure ⟨["handler panicked: non-string panic payload"]⟩
    callSeen g 0 w incidents = marked paying 1 panic ∧
      (callSeen g 1 w incidents).filter (fun o => !o.isStreamNotice) =
        marked watching 0 .invocationCancelled ∧
      (ctx watching 0).correlation.text ≠ (ctx paying 1).correlation.text := by
  intro g w paying watching incidents ctx marked panic
  have hpaying : callSeen g 0 w incidents = marked paying 1 panic := by decide +kernel
  have hwatching : (callSeen g 1 w incidents).filter (fun o => !o.isStreamNotice) =
      marked watching 0 .invocationCancelled := by decide +kernel
  refine ⟨hpaying, hwatching, ?_⟩
  have hapart : DrawsApart g w incidents := by
    have hdrawn : ((start w).run g incidents).world.drawn = 2 := by decide +kernel
    intro k k' _ hlt hk'
    rw [hdrawn] at hk'
    obtain ⟨rfl, rfl⟩ : k = 0 ∧ k' = 1 := by omega
    decide +kernel
  have hpaid : .invoked (ctx paying 1) ∈ callSeen g 0 w incidents := by
    rw [hpaying]
    decide
  have hwatched : .invoked (ctx watching 0) ∈ callSeen g 1 w incidents := by decide +kernel
  intro htext
  obtain ⟨-, -, hother⟩ := span_correlation g w incidents
  obtain ⟨trace, hgiven | hgiven, -⟩ :=
    hother hapart 0 1 _ _ _ _ (by decide) rfl rfl hpaid hwatched htext
  · cases hgiven
  · cases hgiven

end Traffic

end CallGate
