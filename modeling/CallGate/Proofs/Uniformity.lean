import CallGate.Proofs.Cancellation
import CallGate.Proofs.Independence

/-!
# Calls of different shapes

A gate treats all calls that it screens in the same way, whatever their shape: what it looks up, asks,
sets and logs, and with which status a call fails, depends on the call and on how its handler fares.
Main statements: `dealt_step` says what a turn adds to what the gate has done about a call,
`dealings_direct` that after any run this is what `Gate.dealings` says, which knows no shape, and
`shape_uniform` that two shapes differ only in what a cancelled call comes to and in which calls are let
in unscreened.
-/

namespace CallGate

variable {α σ α' σ' : Type}

/-! ## How a handler fares -/

/-- What comes of a turn of a handler, apart from what the handler returns. -/
inductive TurnFate where
  | goesOn
  | dropped
  | returned
  | failed (error : Failure)
  | panicked (payload : PanicPayload)
deriving DecidableEq

namespace TurnFate

def isLast : TurnFate → Bool
  | goesOn => false
  | _ => true

def isCancelled : TurnFate → Bool
  | dropped | failed .cancelled => true
  | _ => false

/-- What is logged about it. -/
def event? : TurnFate → Option Event
  | goesOn | returned => none
  | dropped | failed .cancelled => some .invocationCancelled
  | failed e => some e.event
  | panicked payload => some (Failure.unexpected payload.chain).event

/-- The status with which the call fails, if it is not cancelled. -/
def status? : TurnFate → Option Status
  | goesOn | dropped | returned => none
  | failed e => some e.presentation.toStatus
  | panicked payload => some (Failure.unexpected payload.chain).presentation.toStatus

theorem eq_goesOn {fate : TurnFate} (h : fate.isLast = false) : fate = .goesOn := by
  cases fate with
  | goesOn => rfl
  | dropped | returned | failed | panicked => cases h

end TurnFate

/-- The status, if a call has failed. -/
def CallResult.failure? : CallResult α → Option Status
  | .error status => some status
  | .ok _ => none

namespace TurnEnd

def fate (t : TurnEnd α) : TurnFate :=
  match t.ending with
  | none => if t.fired then .dropped else .goesOn
  | some (.returned _) => .returned
  | some (.failed e) => .failed e
  | some (.panicked payload) => .panicked payload

theorem isLast_fate (t : TurnEnd α) : t.fate.isLast = t.isLast := by
  rcases t with ⟨_ | value | e | payload, _ | _⟩ <;> rfl

theorem isCancelled_fate (t : TurnEnd α) : t.fate.isCancelled = t.isCancelled := by
  rcases t with ⟨_ | value | (_ | _ | _ | _) | payload, _ | _⟩ <;> rfl

theorem event?_fate (t : TurnEnd α) : t.fate.event? = closingEvent? t.ending t.fired := by
  rcases t with ⟨_ | value | (_ | _ | _ | _) | payload, _ | _⟩ <;> rfl

theorem failure?_result (shape : Shape) {t : TurnEnd α} (hl : t.isLast = true)
    (hn : t.isCancelled = false) : (shape.result t.ending).failure? = t.fate.status? := by
  rcases t with ⟨_ | value | (_ | _ | _ | _) | payload, fired⟩
  · rw [isLast] at hl
    rw [isCancelled] at hn
    rw [show fired = false from hn] at hl
    cases hl
  · cases shape <;> rfl
  · rfl
  · rfl
  · rfl
  · cases hn
  · rfl

end TurnEnd

/-- Nothing is logged about a handler that goes on. -/
theorem TurnFate.findSome?_event?_of_goesOn {fates : List TurnFate}
    (h : ∀ fate ∈ fates, fate.isLast = false) : fates.findSome? event? = none := by
  rw [List.findSome?_eq_none_iff]
  intro fate hfate
  rw [eq_goesOn (h fate hfate)]
  rfl

theorem TurnFate.findSome?_event? {before : List (TurnEnd α)}
    (h : ∀ t ∈ before, t.isLast = false) (ends : List (TurnEnd α)) :
    ((before ++ ends).map TurnEnd.fate).findSome? event? =
      (ends.map TurnEnd.fate).findSome? event? := by
  have hnone : (before.map TurnEnd.fate).findSome? event? = none := by
    refine findSome?_event?_of_goesOn fun fate hf => ?_
    obtain ⟨t, ht, rfl⟩ := List.mem_map.mp hf
    exact t.isLast_fate.trans (h t ht)
  rw [List.map_append, List.findSome?_append, hnone, Option.none_or]

/-! ## Ids that were drawn -/

theorem uuidCount_pos : 0 < uuidCount := by decide

/-- All ids that were drawn are taken for the same. -/
def CorrelationId.blurred : CorrelationId → CorrelationId
  | generated _ => .generated ⟨⟨0, uuidCount_pos⟩⟩
  | given text => .given text

def Context.blurred (ctx : Context) : Context :=
  { ctx with correlation := ctx.correlation.blurred }

def Span.blurred (span : Span) : Span :=
  { span with correlation := span.correlation.map CorrelationId.blurred }

def Occurrence.blurred : Occurrence → Occurrence
  | logged entry => .logged { entry with span := entry.span.map Span.blurred }
  | invoked ctx => .invoked ctx.blurred
  | o => o

def Change.blurred : Change → Change
  | noted observation => .noted observation.blurred
  | c => c

theorem Context.AlikeBut.blurred {own own' : Uuid} {ctx ctx' : Context}
    (h : ctx.AlikeBut own own' ctx') : ctx'.blurred = ctx.blurred := by
  obtain ⟨locale, correlation, principal, token⟩ := ctx
  obtain ⟨locale', correlation', principal', token'⟩ := ctx'
  obtain ⟨rfl, rfl, rfl, rfl | ⟨rfl, rfl⟩⟩ := h <;> rfl

theorem map_blurred_logChanges (span : Span) (events : List Event) :
    (logChanges (some span) events).map Change.blurred = logChanges (some span.blurred) events := by
  rw [logChanges, List.map_map]
  rfl

/-! ## What a gate does about a call -/

namespace Gate

variable {g : Gate} {call : Call} {w w' : World}

/-- The span of a call that was let in with the context. -/
def admittedSpan (call : Call) (ctx : Context) : Span :=
  { callSpan call with correlation := some ctx.correlation }

/-- What a gate changes on account of a call that it screens, when its handler fares as told. -/
def dealings (g : Gate) (call : Call) (w : World) (fates : List TurnFate) : List Change :=
  g.screenChanges (some (callSpan call)) call w ++
    match (g.screen (some (callSpan call)) call w).1 with
    | .error _ => []
    | .ok ctx =>
      .noted (.invoked ctx) ::
        logChanges (some (admittedSpan call ctx)) (fates.findSome? TurnFate.event?).toList

theorem recordChanges_enrich (span : Option Span) (s : Settings) (own own' : Uuid) :
    recordChanges span ((Context.new call own').enrich s call.metadata call.trace) =
      recordChanges span ((Context.new call own).enrich s call.metadata call.trace) := by
  have hprincipal (id : Uuid) : (Context.new call id).principal = call.principal := rfl
  unfold recordChanges Enrichment.update? Context.enrich
  simp only [withTrace_principal, hprincipal]
  cases call.principal with
  | none => rfl
  | some p => cases s.culture call.metadata <;> rfl

theorem screenChanges_congr (h : w.DecidesAlike w') (span : Option Span) :
    g.screenChanges span call w' = g.screenChanges span call w := by
  unfold screenChanges
  dsimp only
  rw [recordChanges_enrich span g.settings w.nextId w'.nextId, consultChanges_congr h.memo,
    requirement_congr h, World.decisionChanges_congr h.answer]

theorem screen_concordant (g : Gate) (call : Call) (h : w.DecidesAlike w') (span : Option Span) :
    Concordant (fun ctx ctx' => ctx'.blurred = ctx.blurred) (g.screen span call w).1
      (g.screen span call w').1 := by
  have hjudges : g.JudgesAlike w w' := ⟨requirement_congr h, h.answer⟩
  obtain ⟨hconcordant, -⟩ := admission_congr hjudges (.screening span) call call rfl rfl rfl
    (R := fun ctx ctx' => ctx'.blurred = ctx.blurred)
    (Context.alikeBut_new call w.nextId w'.nextId).blurred
    (Context.alikeBut_enrich call g.settings w.nextId w'.nextId).blurred
  exact hconcordant

theorem blurred_admittedSpan {ctx ctx' : Context} (h : ctx'.blurred = ctx.blurred) :
    (admittedSpan call ctx').blurred = (admittedSpan call ctx).blurred := by
  have hcorrelation : ctx'.correlation.blurred = ctx.correlation.blurred :=
    congrArg Context.correlation h
  simp [admittedSpan, Span.blurred, hcorrelation]

theorem dealings_congr (h : w.DecidesAlike w') (fates : List TurnFate) :
    (g.dealings call w' fates).map Change.blurred =
      (g.dealings call w fates).map Change.blurred := by
  have hconcordant := screen_concordant g call h (some (callSpan call))
  unfold dealings
  rw [screenChanges_congr h, List.map_append, List.map_append]
  congr 1
  generalize (g.screen (some (callSpan call)) call w).1 = screened at hconcordant ⊢
  generalize (g.screen (some (callSpan call)) call w').1 = screened' at hconcordant ⊢
  cases hconcordant with
  | refused status => rfl
  | admitted hctx =>
    simp only [List.map_cons, map_blurred_logChanges, blurred_admittedSpan hctx]
    simp only [Change.blurred, Occurrence.blurred, hctx]

end Gate

namespace Job

variable (j : Job α σ)

/-- What the gate changes in a turn of a call. -/
def gateChanges (call : Passage α σ) (s : Scene α) : List Change :=
  j.entryChanges call s ++ j.closeChanges (j.work call s).1 (j.work call s).2

theorem madeBy_ledger (call : Passage α σ) (s : Scene α) :
    (j.ledger call s).madeBy .gate = j.gateChanges call s := by
  simp [ledger, gateChanges, Agent.madeBy_did]

/-- What the gate changes in the course of a call. -/
def gateChangesIn (course : Course α σ) : List Change :=
  course.flatMap fun turn => j.gateChanges turn.1 turn.2

theorem gateChangesIn_append (course : Course α σ) (call : Passage α σ) (s : Scene α) :
    j.gateChangesIn (course ++ [(call, s)]) = j.gateChangesIn course ++ j.gateChanges call s := by
  rw [gateChangesIn, List.flatMap_append, List.flatMap_singleton, gateChangesIn]

end Job

namespace Exchange

/-- Of a run, nothing but its turns shows who is inside. -/
theorem madeBy_ledger {τ : Type} {turn : TurnOrder → τ → Scene α → τ × Scene α}
    {inTurn : TurnOrder → τ → Scene α → Ledger} {agent : Agent} (h : agent ≠ .outside)
    (x : Exchange α τ) (moves : List Move) :
    (x.ledger turn inTurn moves).madeBy agent =
      x.gather turn (fun order call s => (inTurn order call s).madeBy agent) moves := by
  induction moves generalizing x with
  | nil => rfl
  | cons move moves ih =>
    rw [ledger, gather, Ledger.madeBy_append, ih]
    cases move with
    | turn | take | close | drop => rfl
    | fire token =>
      exact congrArg (· ++ _) ((Agent.madeBy_did .outside agent _).trans (if_neg h.symm))

end Exchange

namespace Job

theorem madeBy_directLedger (j : Job α σ) (x : Exchange α (Passage α σ)) (moves : List Move) :
    (x.ledger j.directTurn (fun _ => j.ledger) moves).madeBy .gate =
      j.gateChangesIn (j.directCourse x moves) := by
  have hone : (fun (_ : TurnOrder) call s => (j.ledger call s).madeBy .gate) = fun _ call s =>
      [(call, s)].flatMap fun turn => j.gateChanges turn.1 turn.2 := by
    funext order call s
    rw [List.flatMap_singleton, madeBy_ledger]
  rw [Exchange.madeBy_ledger (by decide), hone, Exchange.gather_flatMap]
  rfl

variable {j : Job α σ}

/-- What the gate has done about a call that was made in the world `w`, and how the turns of its
handler have ended. -/
inductive Dealt (j : Job α σ) (w : World) :
    Passage α σ → World → List Change → List (TurnEnd α) → Prop where
  | arrived {after : World} (decides : w.DecidesAlike after) : Dealt j w .arrived after [] []
  | refused {last? : Option σ} {result : CallResult α} {after : World} {status : Status}
      (refused : (j.gate.screen (some (Gate.callSpan j.call)) j.call w).1 = .error status) :
      Dealt j w (.settled last? result) after
        (j.gate.screenChanges (some (Gate.callSpan j.call)) j.call w) []
  | running {ctx ctx' : Context} {state : σ} {after : World} {ends : List (TurnEnd α)}
      (admitted : (j.gate.screen (some (Gate.callSpan j.call)) j.call w).1 = .ok ctx)
      (alike : ctx'.blurred = ctx.blurred) (goesOn : ∀ t ∈ ends, t.isLast = false) :
      Dealt j w (.running (j.span ctx') state) after
        (j.gate.screenChanges (some (Gate.callSpan j.call)) j.call w ++ [.noted (.invoked ctx')]) ends
  | settled {ctx ctx' : Context} {last? : Option σ} {result : CallResult α} {after : World}
      {before : List (TurnEnd α)} {t : TurnEnd α}
      (admitted : (j.gate.screen (some (Gate.callSpan j.call)) j.call w).1 = .ok ctx)
      (alike : ctx'.blurred = ctx.blurred) (goesOn : ∀ t ∈ before, t.isLast = false) :
      Dealt j w (.settled last? result) after
        (j.gate.screenChanges (some (Gate.callSpan j.call)) j.call w ++ [.noted (.invoked ctx')] ++
          logChanges (some (j.span ctx')) t.fate.event?.toList)
        (before ++ [t])

/-- The second half of a turn adds to what the gate has done what is logged about the end of the
handler's turn. -/
theorem dealt_close {w after : World} {ctx ctx' : Context} {ends : List (TurnEnd α)}
    (admitted : (j.gate.screen (some (Gate.callSpan j.call)) j.call w).1 = .ok ctx)
    (alike : ctx'.blurred = ctx.blurred) (goesOn : ∀ t ∈ ends, t.isLast = false)
    (progress : Progress α σ) (s : Scene α) :
    j.Dealt w (j.close (.worked (j.span ctx') progress) s).1 after
      (j.gate.screenChanges (some (Gate.callSpan j.call)) j.call w ++ [.noted (.invoked ctx')] ++
        j.closeChanges (.worked (j.span ctx') progress) s)
      (ends ++ [⟨progress.ending?, s.world.isFired j.call.token⟩]) := by
  rw [close_worked_fst, closeChanges]
  cases progress with
  | ended last ending =>
    rw [Progress.ending?,
      ← (⟨some ending, s.world.isFired j.call.token⟩ : TurnEnd α).event?_fate]
    exact .settled admitted alike goesOn
  | waiting state =>
    dsimp only [Progress.ending?]
    rw [← (⟨none, s.world.isFired j.call.token⟩ : TurnEnd α).event?_fate]
    cases hf : s.world.isFired j.call.token with
    | true => exact .settled admitted alike goesOn
    | false =>
      have hnothing : logChanges (some (j.span ctx'))
          (⟨none, false⟩ : TurnEnd α).fate.event?.toList = [] := rfl
      rw [hnothing, List.append_nil]
      refine .running admitted alike fun t ht => ?_
      rcases List.mem_append.mp ht with ht | ht
      · exact goesOn t ht
      · cases List.mem_singleton.mp ht
        rfl

/-- A turn adds what the gate does in it to what the gate has done about the call. -/
theorem dealt_step (hj : ¬ j.Infrastructure) {w : World} {call : Passage α σ} {s : Scene α}
    {done : List Change} {ends : List (TurnEnd α)} (hD : j.Dealt w call s.world done ends) :
    j.Dealt w (j.step call s).1 (j.step call s).2.world (done ++ j.gateChanges call s)
      (ends ++ (j.turnEnd? call s).toList) := by
  rw [step_eq]
  cases hD with
  | arrived hd =>
    -- Nothing has happened on which the screening depends since the call was made, so the gate does
    -- now what it would have done in `w`, perhaps with another id.
    have hb : ¬ j.gate.bypasses j.shape j.call = true := fun h => hj (Gate.bypasses_iff.mp h)
    have hchanges : j.gate.enterChanges j.shape j.call s.world =
        j.gate.screenChanges (some (Gate.callSpan j.call)) j.call w := by
      rw [Gate.enterChanges, if_neg hb, Gate.screenChanges_congr hd]
    have henter : (j.gate.enter j.shape j.call s.world).1 =
        (j.gate.screen (some (Gate.callSpan j.call)) j.call s.world).1 :=
      congrArg Prod.fst (if_neg hb)
    have hconcordant := Gate.screen_concordant j.gate j.call hd (some (Gate.callSpan j.call))
    rw [← henter] at hconcordant
    simp only [gateChanges, entryChanges, turnEnd?, work, hchanges, List.nil_append]
    generalize hscreened : (j.gate.screen (some (Gate.callSpan j.call)) j.call w).1 = screened
      at hconcordant
    generalize (j.gate.enter j.shape j.call s.world).1 = entered at hconcordant ⊢
    cases hconcordant with
    | refused status =>
      simp only [invocation, closeChanges, List.append_nil]
      exact .refused hscreened
    | admitted hctx => exact dealt_close hscreened hctx (List.forall_mem_nil _) _ _
  | running hadmitted halike hgoesOn => exact dealt_close hadmitted halike hgoesOn _ _
  | refused hrefused =>
    rw [show j.gateChanges _ s = [] from rfl, List.append_nil]
    exact .refused hrefused
  | settled hadmitted halike hgoesOn =>
    rw [show j.gateChanges _ s = [] from rfl, show (j.turnEnd? _ s).toList = [] from rfl,
      List.append_nil, List.append_nil]
    exact .settled hadmitted halike hgoesOn

theorem dealt_aside {w : World} {call : Passage α σ} {after after' : World} {done : List Change}
    {ends : List (TurnEnd α)} (ha : after.Aside after') (hD : j.Dealt w call after done ends) :
    j.Dealt w call after' done ends := by
  cases hD with
  | arrived hd => exact .arrived (hd.trans ha.decides)
  | running hadmitted halike hgoesOn => exact .running hadmitted halike hgoesOn
  | refused hrefused => exact .refused hrefused
  | settled hadmitted halike hgoesOn => exact .settled hadmitted halike hgoesOn

/-- What the gate has done about a call does not depend on the shape of the call. -/
theorem Dealt.eq_dealings {w after : World} {call : Passage α σ} {done : List Change}
    {ends : List (TurnEnd α)} (hD : j.Dealt w call after done ends) (hne : call ≠ .arrived) :
    done.map Change.blurred =
      (j.gate.dealings j.call w (ends.map TurnEnd.fate)).map Change.blurred := by
  have hinvoked {ctx ctx' : Context} (h : ctx'.blurred = ctx.blurred) :
      (Change.noted (.invoked ctx')).blurred = (Change.noted (.invoked ctx)).blurred := by
    simp only [Change.blurred, Occurrence.blurred, h]
  unfold Gate.dealings
  cases hD with
  | arrived => exact absurd rfl hne
  | refused hrefused => rw [hrefused, List.append_nil]
  | running hadmitted halike hgoesOn =>
    have hnone := TurnFate.findSome?_event? hgoesOn []
    rw [List.append_nil] at hnone
    rw [hadmitted, hnone]
    simp only [List.map_append, List.map_cons, hinvoked halike]
    rfl
  | settled hadmitted halike hgoesOn =>
    rename_i t
    -- Only the last turn has an end that may be logged.
    have hlast := TurnFate.findSome?_event? hgoesOn [t]
    have hone : ([t].map TurnEnd.fate).findSome? TurnFate.event? = t.fate.event? := by
      cases h : t.fate.event? <;> simp [h]
    have hspan : (j.span _).blurred = (Gate.admittedSpan j.call _).blurred :=
      Gate.blurred_admittedSpan halike
    rw [hadmitted, hlast, hone]
    simp only [List.map_append, List.map_cons, map_blurred_logChanges, hinvoked halike, hspan]
    simp

/-- What the gate has done about a call that is made directly is what it does about every call whose
handler fares like that. -/
theorem dealings_direct (hj : ¬ j.Infrastructure) (w : World)
    (outbox : Option (Channel (Delivery α))) {moves : List Move}
    (turned : ∃ order, .turn order ∈ moves) :
    let start : Exchange α (Passage α σ) := .ofCall w outbox
    ((start.ledger j.directTurn (fun _ => j.ledger) moves).madeBy .gate).map Change.blurred =
      (j.gate.dealings j.call w
        ((j.turnEnds (j.directCourse start moves)).map TurnEnd.fate)).map Change.blurred := by
  intro start
  have hD : j.Dealt w (start.run j.directTurn moves).call (start.run j.directTurn moves).scene.world
      (j.gateChangesIn (j.directCourse start moves)) (j.turnEnds (j.directCourse start moves)) := by
    refine j.direct_run
      (Q := fun call after course => j.Dealt w call after (j.gateChangesIn course) (j.turnEnds course))
      ?_ dealt_aside start (.arrived (.refl w)) moves
    intro call s course hD
    rw [turnEnds_append, gateChangesIn_append]
    exact dealt_step hj hD
  have hne : (start.run j.directTurn moves).call ≠ .arrived :=
    Exchange.run_turned (P := (· ≠ .arrived)) (fun _ => step_ne_arrived) turned start
  rw [madeBy_directLedger]
  exact hD.eq_dealings hne

/-! ## Two shapes -/

/-- How a call that may be made fails, if it is not cancelled, does not depend on its shape. -/
theorem Concluded.failure? {w after : World} {ends : List (TurnEnd α)}
    {result? : Option (CallResult α)} (hC : j.Concluded w after ends result?) (hg : j.Granted w)
    (hn : ∀ t ∈ ends, t.isCancelled = false) :
    result?.map CallResult.failure? =
      ((ends.map TurnEnd.fate).find? TurnFate.isLast).map TurnFate.status? := by
  have hlast : TurnFate.isLast ∘ (TurnEnd.fate : TurnEnd α → TurnFate) = TurnEnd.isLast :=
    funext TurnEnd.isLast_fate
  rw [hC.decided hg, List.find?_map, hlast]
  cases hf : ends.find? TurnEnd.isLast with
  | none => rfl
  | some t =>
    have hresult : (j.shape.outcome t.ending).failure? = t.fate.status? := by
      rw [← Shape.result_eq_outcome]
      exact TurnEnd.failure?_result j.shape (List.find?_some hf) (hn t (List.mem_of_find?_eq_some hf))
    exact congrArg some hresult

/-- The two calls are screened alike. -/
theorem granted_congr (j : Job α σ) (j' : Job α' σ') (hgate : j'.gate = j.gate) (hcall : j'.call = j.call)
    (hj : ¬ j.Infrastructure) (hj' : ¬ j'.Infrastructure) {w w' : World} (hd : w.DecidesAlike w') :
    j'.Granted w' ↔ j.Granted w := by
  unfold Granted
  rw [or_iff_right hj, or_iff_right hj']
  simp only [required, hgate, hcall, Gate.requirement_congr hd, hd.answer]

/-- Two calls with the same description come to a gate that requires the same of them in two worlds,
perhaps with different shapes, and with handlers whose turns end alike. If neither of the shapes makes
it an infrastructure call, the gate does the same about both in the same order: it looks up, asks, sets
profiles, hands over a context and logs, and only the ids that it draws may differ. Both calls fail
with the same status or neither does, except that a cancelled call without a stream fails and one with
a stream completes. Infrastructure calls are let in unscreened, and only calls with two streams can
be such. -/
theorem shape_uniform (g : Gate) (call : Call) (shape shape' : Shape) (handler : Handler α σ)
    (handler' : Handler α' σ') {w w' : World} (hd : w.DecidesAlike w')
    (outbox : Option (Channel (Delivery α))) (outbox' : Option (Channel (Delivery α')))
    (moves moves' : List Move) (turned : ∃ order, .turn order ∈ moves)
    (turned' : ∃ order, .turn order ∈ moves') :
    let j : Job α σ := ⟨g, shape, call, handler⟩
    let j' : Job α' σ' := ⟨g, shape', call, handler'⟩
    let start : Exchange α (Passage α σ) := .ofCall w outbox
    let start' : Exchange α' (Passage α' σ') := .ofCall w' outbox'
    let x := start.run j.directTurn moves
    let x' := start'.run j'.directTurn moves'
    let ledger := start.ledger j.directTurn (fun _ => j.ledger) moves
    let ledger' := start'.ledger j'.directTurn (fun _ => j'.ledger) moves'
    let ends := j.turnEnds (j.directCourse start moves)
    let ends' := j'.turnEnds (j'.directCourse start' moves')
    let onCancelled (shape : Shape) : Option Status :=
      match shape with
      | .unary => some { code := .cancelled, message := "Call cancelled." }
      | .serverStreaming | .duplex => none
    let bypassed (shape : Shape) : Prop :=
      shape = .duplex ∧ g.settings.isInfrastructure call.method = true
    (¬ bypassed shape → ¬ bypassed shape' → ends.map TurnEnd.fate = ends'.map TurnEnd.fate →
      x.scene.world = w.replay ledger.changes ∧ x'.scene.world = w'.replay ledger'.changes ∧
        (ledger.madeBy .gate).map Change.blurred = (ledger'.madeBy .gate).map Change.blurred ∧
        ((∀ t ∈ ends, t.isCancelled = false) →
          x.call.result?.map CallResult.failure? = x'.call.result?.map CallResult.failure?) ∧
        ∀ t ∈ ends, t.isCancelled = true →
          x.call.result?.map CallResult.failure? = some (onCancelled shape) ∧
            x'.call.result?.map CallResult.failure? = some (onCancelled shape')) ∧
    ∀ (shape : Shape) (w : World),
      (bypassed shape → g.enter shape call w =
        (.ok (.new call w.nextId), w.drawId.log (some (Gate.callSpan call)) .infrastructureCall)) ∧
      (¬ bypassed shape → g.enter shape call w = g.screen (some (Gate.callSpan call)) call w) := by
  intro j j' start start' x x' ledger ledger' ends ends' onCancelled bypassed
  have hcancelled {β : Type} (shape : Shape) :
      CallResult.failure? (shape.outcome none : CallResult β) = onCancelled shape := by
    cases shape <;> rfl
  constructor
  · intro hj hj' hfates
    have hne : x.call ≠ .arrived :=
      Exchange.run_turned (P := (· ≠ .arrived)) (fun _ => step_ne_arrived) turned start
    have hne' : x'.call ≠ .arrived :=
      Exchange.run_turned (P := (· ≠ .arrived)) (fun _ => step_ne_arrived) turned' start'
    have hC := concluded_of_pursued (j.pursued_direct w outbox moves) hne
    have hC' := concluded_of_pursued (j'.pursued_direct w' outbox' moves') hne'
    have hfate (t : TurnEnd α) (ht : t ∈ ends) : ∃ t' ∈ ends', t'.fate = t.fate :=
      List.mem_map.mp (hfates ▸ List.mem_map_of_mem ht)
    have hfate' (t : TurnEnd α') (ht : t ∈ ends') : ∃ t' ∈ ends, t'.fate = t.fate :=
      List.mem_map.mp (hfates ▸ List.mem_map_of_mem ht)
    refine ⟨Exchange.world_run (fun _ => j.world_step) start moves,
      Exchange.world_run (fun _ => j'.world_step) start' moves', ?_, ?_, ?_⟩
    · have hdealt := dealings_direct (j := j) hj w outbox turned
      have hdealt' := dealings_direct (j := j') hj' w' outbox' turned'
      refine hdealt.trans (Eq.trans ?_ hdealt'.symm)
      rw [Gate.dealings_congr hd]
      exact congrArg (fun fates => (g.dealings call w fates).map Change.blurred) hfates
    · intro hn
      have hn' : ∀ t ∈ ends', t.isCancelled = false := by
        intro t ht
        obtain ⟨t', ht', hf⟩ := hfate' t ht
        rw [← t.isCancelled_fate, ← hf, t'.isCancelled_fate]
        exact hn t' ht'
      by_cases hg : j.Granted w
      · have hg' : j'.Granted w' := (granted_congr j j' rfl rfl hj hj' hd).mpr hg
        refine (hC.failure? hg hn).trans (Eq.trans ?_ (hC'.failure? hg' hn').symm)
        exact congrArg (fun fates => (fates.find? TurnFate.isLast).map TurnFate.status?) hfates
      · have hg' : ¬ j'.Granted w' := mt (granted_congr j j' rfl rfl hj hj' hd).mp hg
        rw [(hC.refused hg).2, (hC'.refused hg').2]
        rfl
    · intro t ht hc
      obtain ⟨t', ht', hf⟩ := hfate t ht
      have hc' : t'.isCancelled = true := by
        rw [← t'.isCancelled_fate, hf, t.isCancelled_fate]
        exact hc
      rw [(hC.cancelled t ht hc).1, (hC'.cancelled t' ht' hc').1]
      exact ⟨congrArg some (hcancelled shape), congrArg some (hcancelled shape')⟩
  · intro shape w
    have hbypasses : bypassed shape ↔ g.bypasses shape call = true := Gate.bypasses_iff.symm
    constructor
    · intro hb
      exact if_pos (hbypasses.mp hb)
    · intro hb
      exact if_neg (mt hbypasses.mpr hb)

/-- A call with one response and one with two streams, of which the first element is sent before the
handler fails. -/
theorem shape_uniform_failing :
    let failing : Ending Nat := .failed (.unexpected ⟨["disk full"]⟩)
    let j := Job.plain [] .free none .unary (.sending [] failing)
    let j' := Job.plain [] .free none .duplex (.sending [1] failing)
    let failed : Status := { code := .internal, message := "An error occurs." }
    let x := (Exchange.ofCall World.blank none).run j.directTurn [.turn .handlerFirst]
    let x' := (Exchange.ofCall World.blank (some (.new ⟨8, by decide, by decide⟩))).run j'.directTurn
      [.fire (.shared "other"), .turn .handlerFirst]
    x.call.result?.map CallResult.failure? = some (some failed) ∧
      x'.call.result?.map CallResult.failure? = some (some failed) := by
  intro failing j j' failed x x'
  obtain ⟨hscreened, -⟩ := shape_uniform j.gate j.call .unary .duplex j.handler j'.handler
    (.refl World.blank) none (some (.new ⟨8, by decide, by decide⟩)) [.turn .handlerFirst]
    [.fire (.shared "other"), .turn .handlerFirst] ⟨.handlerFirst, by decide⟩
    ⟨.handlerFirst, by decide⟩
  obtain ⟨-, -, -, hfailed, -⟩ := hscreened (by decide +kernel) (by decide +kernel) (by decide +kernel)
  have hx : x.call.result?.map CallResult.failure? = some (some failed) := by decide +kernel
  exact ⟨hx, (hfailed (by decide +kernel)).symm.trans hx⟩

end Job

end CallGate
