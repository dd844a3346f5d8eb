import CallGate.Proofs.Culture
import CallGate.Proofs.Mediation
import CallGate.Proofs.Traffic

/-!
# Calls do not influence each other's admission

Calls share principals, tokens and remembered requirements, and all of them change while other calls
are made. Main statements: `remembersOnly_run` says that a gate never remembers anything but what its
resolver says, `admission_congr` on what the admission of a call depends, and `admission_independent`
that with principals who hold grants it does not depend on what has happened before, and that the
locale of a context is the one that its own call asks for.
-/

namespace CallGate

/-! ## How a call is admitted -/

/-- How a call comes to be admitted: it is screened and nothing more, or let in as one of a shape. -/
inductive Approach where
  | screening (span : Option Span)
  | entering (shape : Shape)

namespace Approach

/-- A call that is only screened is treated like one that cannot be an infrastructure call. -/
def shape : Approach → Shape
  | screening _ => .unary
  | entering shape => shape

/-- The call to which the events of the admission belong. -/
def span (call : Call) : Approach → Option Span
  | screening span => span
  | entering _ => some (Gate.callSpan call)

/-- What comes of a call, and the world afterwards. -/
def attempt (g : Gate) (call : Call) (w : World) : Approach → Except Status Context × World
  | screening span => g.screen span call w
  | entering shape => g.enter shape call w

variable {g : Gate} {call : Call} {w : World} {a : Approach}

theorem attempt_of_bypasses (h : g.bypasses a.shape call = true) :
    a.attempt g call w =
      (.ok (.new call w.nextId), w.drawId.log (some (Gate.callSpan call)) .infrastructureCall) := by
  cases a with
  | screening span => cases h
  | entering shape => exact if_pos h

theorem attempt_of_not_bypasses (h : g.bypasses a.shape call = false) :
    a.attempt g call w = g.screen (a.span call) call w := by
  cases a with
  | screening span => rfl
  | entering shape => exact if_neg (ne_true_of_eq_false h)

end Approach

/-! ## What an admission depends on -/

namespace Context

/-- The two contexts are alike, except that each may have an id that was drawn for it. -/
structure AlikeBut (own own' : Uuid) (ctx ctx' : Context) : Prop where
  locale : ctx'.locale = ctx.locale
  principal : ctx'.principal = ctx.principal
  token : ctx'.token = ctx.token
  correlation : ctx'.correlation = ctx.correlation ∨
    ctx.correlation = .generated own ∧ ctx'.correlation = .generated own'

theorem alikeBut_new (call : Call) (own own' : Uuid) :
    AlikeBut own own' (new call own) (new call own') := ⟨rfl, rfl, rfl, Or.inr ⟨rfl, rfl⟩⟩

theorem alikeBut_enrich (call : Call) (s : Settings) (own own' : Uuid) :
    AlikeBut own own' ((new call own).enrich s call.metadata call.trace).context
      ((new call own').enrich s call.metadata call.trace).context := by
  have hcorrelation : ((new call own').withTrace call.trace).correlation =
        ((new call own).withTrace call.trace).correlation ∨
      ((new call own).withTrace call.trace).correlation = .generated own ∧
        ((new call own').withTrace call.trace).correlation = .generated own' := by
    unfold withTrace
    cases call.trace.bind CorrelationId.ofTrace? with
    | none => exact Or.inr ⟨rfl, rfl⟩
    | some id => exact Or.inl rfl
  rw [context_enrich, context_enrich]
  exact ⟨rfl, rfl, rfl, hcorrelation⟩

/-- The locale of an enriched context is the one that the call asks for. -/
theorem locale_enrich_iff (call : Call) (s : Settings) (id : Uuid) (locale : Locale) :
    ((new call id).enrich s call.metadata call.trace).context.locale = some locale ↔
      call.principal.isSome = true ∧ s.culture call.metadata = .accepted locale := by
  rw [locale_enrich]
  simp only [new, Option.or_none]
  cases call.principal with
  | none => simp
  | some p => simpa using Culture.accepted?_eq_some_iff

end Context

/-- Two results of admissions: both calls are refused with the same status, or both are admitted with
related contexts. -/
inductive Concordant (R : Context → Context → Prop) :
    Except Status Context → Except Status Context → Prop where
  | refused (status : Status) : Concordant R (.error status) (.error status)
  | admitted {ctx ctx' : Context} (related : R ctx ctx') : Concordant R (.ok ctx) (.ok ctx')

namespace Gate

variable {g : Gate} {call : Call} {w w' : World}

theorem admitted_iff (a : Approach) :
    (∃ ctx, (a.attempt g call w).1 = .ok ctx) ↔ g.admits a.shape call w = true := by
  cases hb : g.bypasses a.shape call with
  | true => simp [Approach.attempt_of_bypasses hb, admits, hb]
  | false =>
    rw [Approach.attempt_of_not_bypasses hb, screen_fst]
    unfold World.decision admits
    dsimp only
    cases (g.requirement call.method call.service w).isFree with
    | true => simp [Decision.refusal?]
    | false =>
      cases call.principal with
      | none => simp [Decision.refusal?, hb]
      | some p =>
        dsimp only
        cases w.answer p (g.requirement call.method call.service w) <;>
          simp [Decision.refusal?, hb]

theorem attempt_inquiries (a : Approach) :
    (a.attempt g call w).2.inquiries = w.inquiries ++ g.questions a.shape call w := by
  cases a with
  | screening span => exact screen_inquiries span
  | entering shape => exact enter_inquiries

/-- The gate requires the same of every method in the two worlds, and principals answer alike. -/
structure JudgesAlike (g : Gate) (w w' : World) : Prop where
  requirement : ∀ method service, g.requirement method service w' = g.requirement method service w
  answer : ∀ p question, w'.answer p question = w.answer p question

/-- Of a call, what is decided about it and what is asked depends on the method, the service and the
principal only; the context depends on the rest of the call, and on no other call. -/
theorem admission_congr (h : g.JudgesAlike w w') (a : Approach) (call call' : Call)
    (hmethod : call'.method = call.method) (hservice : call'.service = call.service)
    (hprincipal : call'.principal = call.principal) {R : Context → Context → Prop}
    (hnew : R (.new call w.nextId) (.new call' w'.nextId))
    (hread : R ((Context.new call w.nextId).enrich g.settings call.metadata call.trace).context
      ((Context.new call' w'.nextId).enrich g.settings call'.metadata call'.trace).context) :
    Concordant R (a.attempt g call w).1 (a.attempt g call' w').1 ∧
      g.questions a.shape call' w' = g.questions a.shape call w := by
  have hpasses : g.bypasses a.shape call' = g.bypasses a.shape call := by
    unfold bypasses
    rw [hmethod]
  constructor
  · -- An infrastructure call is let in whatever is required, so only a screened one needs `h`.
    cases hb : g.bypasses a.shape call with
    | true =>
      rw [Approach.attempt_of_bypasses hb, Approach.attempt_of_bypasses (hpasses.trans hb)]
      exact .admitted hnew
    | false =>
      have hdecision : w'.decision call'.principal (g.requirement call'.method call'.service w') =
          w.decision call.principal (g.requirement call.method call.service w) := by
        rw [hmethod, hservice, hprincipal, h.requirement, World.decision_congr (h.answer · _)]
      rw [Approach.attempt_of_not_bypasses hb, Approach.attempt_of_not_bypasses (hpasses.trans hb),
        screen_fst, screen_fst, hdecision]
      cases (w.decision call.principal (g.requirement call.method call.service w)).refusal? with
      | none => exact .admitted hread
      | some status => exact .refused status
  · unfold questions
    simp only [hpasses, hmethod, hservice, hprincipal, h.requirement, h.answer]

end Gate

/-! ## What survives a call -/

namespace World

variable {w : World}

theorem judgement_apply (w : World) (c : Change) (p : PrincipalId) :
    ((w.apply c).principals p).judgement = (w.principals p).judgement := by
  rw [principals_apply]
  cases c with
  | noted | drawn | remembered | fired => rfl
  | asked | profileSet =>
    dsimp only
    split <;> rfl

/-- Nothing that happens changes how a principal judges. -/
theorem judgement_replay (w : World) (changes : List Change) (p : PrincipalId) :
    ((w.replay changes).principals p).judgement = (w.principals p).judgement := by
  induction changes generalizing w with
  | nil => rfl
  | cons c changes ih => exact (ih (w.apply c)).trans (judgement_apply w c p)

end World

/-- What a change adds to the remembered requirements. -/
def Change.lesson? : Change → Option ((String × String) × Requirement)
  | remembered method service r => some ((method, service), r)
  | _ => none

namespace Gate

variable {g : Gate}

/-- The lesson is what the resolver says. -/
def Teaches (g : Gate) (lesson : (String × String) × Requirement) : Prop :=
  lesson.2 = (g.resolver lesson.1.1 lesson.1.2).requirement

/-- What is remembered of a method is what the resolver says about it. -/
def RemembersOnly (g : Gate) (w : World) : Prop :=
  ∀ subject r, w.memo.get? subject = some r → g.Teaches (subject, r)

theorem RemembersOnly.requirement {w : World} (h : g.RemembersOnly w) (method service : String) :
    g.requirement method service w = (g.resolver method service).requirement := by
  unfold Gate.requirement
  split
  · cases hr : w.memo.get? (method, service) with
    | none => rfl
    | some r => exact h (method, service) r hr
  · rfl

theorem RemembersOnly.apply {w : World} (h : g.RemembersOnly w) {c : Change}
    (hc : ∀ lesson, c.lesson? = some lesson → g.Teaches lesson) : g.RemembersOnly (w.apply c) := by
  cases c with
  | noted | drawn | asked | profileSet => exact h
  | fired token =>
    have hmemo : (w.fire token).memo = w.memo := (World.DecidesAlike.fire w token).memo
    intro subject r hr
    refine h subject r ?_
    rw [← hmemo]
    exact hr
  | remembered method service required =>
    intro subject r hr
    have hinsert : (if (method, service) = subject then some required else w.memo.get? subject) =
        some r := (Table.get?_insert _ _ _ _).symm.trans hr
    split at hinsert
    · next he =>
      cases hinsert
      exact he ▸ hc _ rfl
    · exact h subject r hinsert

theorem RemembersOnly.replay {w : World} {changes : List Change} (h : g.RemembersOnly w)
    (hc : ∀ lesson ∈ changes.filterMap Change.lesson?, g.Teaches lesson) :
    g.RemembersOnly (w.replay changes) := by
  induction changes generalizing w with
  | nil => exact h
  | cons c changes ih =>
    refine ih (h.apply fun lesson hl => hc lesson ?_) fun lesson hl => hc lesson ?_
    · exact List.mem_filterMap.mpr ⟨c, List.mem_cons_self, hl⟩
    · obtain ⟨c', hmem, hl⟩ := List.mem_filterMap.mp hl
      exact List.mem_filterMap.mpr ⟨c', List.mem_cons_of_mem _ hmem, hl⟩

/-! ## What is learnt -/

theorem teaches_consultChanges (span : Option Span) (method service : String) (w : World) :
    ∀ lesson ∈ (g.consultChanges span method service w).filterMap Change.lesson?,
      g.Teaches lesson := by
  intro lesson hl
  rw [filterMap_consultChanges (fun _ => rfl) fun _ _ => rfl] at hl
  split at hl
  · obtain rfl := List.mem_singleton.mp hl
    rfl
  · cases hl

theorem lessons_screenChanges (span : Option Span) (call : Call) (w : World) :
    (g.screenChanges span call w).filterMap Change.lesson? =
      (g.consultChanges span call.method call.service w).filterMap Change.lesson? := by
  have hupdates (updates : List (PrincipalId × Locale)) :
      updates.filterMap (fun update => (Change.profileSet update.1 update.2).lesson?) = [] :=
    List.filterMap_eq_nil_iff.mpr fun _ _ => rfl
  rw [filterMap_screenChanges (fun _ => rfl) (fun _ => rfl) rfl, hupdates, List.nil_append]

theorem teaches_enterChanges (shape : Shape) (call : Call) (w : World) :
    ∀ lesson ∈ (g.enterChanges shape call w).filterMap Change.lesson?, g.Teaches lesson := by
  unfold enterChanges
  split
  · exact List.forall_mem_nil _
  · rw [lessons_screenChanges]
    exact teaches_consultChanges _ _ _ _

end Gate

/-- A handler teaches nothing. -/
theorem History.lessons_changes {α : Type} (h : History α) :
    h.changes.filterMap Change.lesson? = [] := by
  unfold changes
  rw [List.filterMap_filterMap, List.filterMap_eq_nil_iff]
  intro e _
  cases e <;> rfl

theorem Job.teaches_ledger {α σ : Type} (j : Job α σ) (call : Passage α σ) (s : Scene α) :
    ∀ lesson ∈ (j.ledger call s).changes.filterMap Change.lesson?, j.gate.Teaches lesson := by
  rw [changes_ledger, List.filterMap_append, List.filterMap_append, History.lessons_changes,
    j.filterMap_closeChanges fun _ => rfl, List.append_nil, List.append_nil,
    j.filterMap_entryChanges fun _ => rfl]
  cases call with
  | arrived => exact Gate.teaches_enterChanges j.shape j.call s.world
  | running | settled => exact List.forall_mem_nil _

namespace Traffic

variable {g : Gate}

theorem teaches_entries (t : Traffic) (i : Incident) :
    ∀ lesson ∈ (t.entries g i).changes.filterMap Change.lesson?, g.Teaches lesson := by
  cases i with
  | lookUp method service =>
    rw [entries, Agent.changes_did]
    exact Gate.teaches_consultChanges none method service t.world
  | screen call =>
    rw [entries, Agent.changes_did, Gate.lessons_screenChanges]
    exact Gate.teaches_consultChanges none call.method call.service t.world
  | setProfile | fire | make | serve => exact List.forall_mem_nil _
  | move n move =>
    simp only [entries]
    cases t.calls[n]? with
    | none => exact List.forall_mem_nil _
    | some u =>
      intro lesson hl
      rw [u.filterMap_changes rfl rfl (fun _ => rfl)] at hl
      obtain ⟨α, σ, j, call, s, rfl, hturn⟩ := Undertaking.mem_collect hl
      exact j.teaches_ledger call s lesson hturn

/-- Whatever happens, a gate remembers nothing but what its resolver says. -/
theorem remembersOnly_run {t : Traffic} (ht : g.RemembersOnly t.world) (incidents : List Incident) :
    g.RemembersOnly (t.run g incidents).world := by
  induction incidents generalizing t with
  | nil => exact ht
  | cons i incidents ih =>
    refine ih ?_
    rw [world_step]
    exact ht.replay (teaches_entries t i)

end Traffic

/-! ## Two histories -/

/-- The world before any call, with principals who hold grants. -/
def World.ofGrants (grants : PrincipalId → Grants) (source : Nat → Uuid) : World :=
  .initial (fun p => .fresh (grants p).judgement) source

namespace Gate

/-- After any history the gate requires what its resolver says, and a principal may do what it was
granted. -/
theorem judges_after (g : Gate) (grants : PrincipalId → Grants) (source : Nat → Uuid)
    (past : List Incident) :
    let w := ((Traffic.start (.ofGrants grants source)).run g past).world
    (∀ method service, g.requirement method service w = (g.resolver method service).requirement) ∧
      ∀ p question, w.answer p question = (grants p).covers question := by
  intro w
  constructor
  · -- At first nothing is remembered, and nothing else than what the resolver says comes to it.
    have hstart : g.RemembersOnly (World.ofGrants grants source) := fun _ _ h => nomatch h
    exact (Traffic.remembersOnly_run (t := .start _) hstart past).requirement
  · intro p question
    have hjudgement : (w.principals p).judgement = (grants p).judgement := by
      unfold w
      rw [Traffic.world_run]
      exact World.judgement_replay _ _ p
    unfold World.answer Principal.answer
    rw [hjudgement]
    rfl

theorem judgesAlike_after (g : Gate) (grants : PrincipalId → Grants) (source source' : Nat → Uuid)
    (past past' : List Incident) :
    g.JudgesAlike ((Traffic.start (.ofGrants grants source)).run g past).world
      ((Traffic.start (.ofGrants grants source')).run g past').world := by
  obtain ⟨hrequirement, hanswer⟩ := g.judges_after grants source past
  obtain ⟨hrequirement', hanswer'⟩ := g.judges_after grants source' past'
  constructor
  · intro method service
    rw [hrequirement, hrequirement']
  · intro p question
    rw [hanswer, hanswer']

/-- A call that is admitted to a gate after two different histories is refused with the same status
both times, or is let in with the same locale and the same correlation id, unless both ids are drawn
for the call; and principals are asked the same questions and answer the same. What is decided and
asked does not depend on the metadata, the trace context and the token either: a screened call is let
in just if its method is open to everybody or its principal was granted what the method requires. A
context has the locale that its own call asks for, or none. -/
theorem admission_independent (g : Gate) (grants : PrincipalId → Grants)
    (source source' : Nat → Uuid) (past past' : List Incident) (a : Approach) (call : Call) :
    let w := ((Traffic.start (.ofGrants grants source)).run g past).world
    let w' := ((Traffic.start (.ofGrants grants source')).run g past').world
    let now := a.attempt g call w
    let again := a.attempt g call w'
    (Concordant (Context.AlikeBut w.nextId w'.nextId) now.1 again.1 ∧
      ∃ asked, now.2.inquiries = w.inquiries ++ asked ∧
        again.2.inquiries = w'.inquiries ++ asked) ∧
    (∀ metadata trace token,
      let other := a.attempt g { call with metadata, trace, token } w'
      Concordant (fun _ _ => True) now.1 other.1 ∧
        ∃ asked, now.2.inquiries = w.inquiries ++ asked ∧
          other.2.inquiries = w'.inquiries ++ asked) ∧
    ((∃ ctx, now.1 = .ok ctx) ↔
      let required := (g.resolver call.method call.service).requirement
      g.bypasses a.shape call = true ∨ required.isFree = true ∨
        ∃ p, call.principal = some p ∧ (grants p).covers required = true) ∧
    ∀ ctx, now.1 = .ok ctx → ∀ locale, ctx.locale = some locale ↔
      g.bypasses a.shape call = false ∧ call.principal.isSome = true ∧
        g.settings.culture call.metadata = .accepted locale := by
  intro w w' now again
  have hjudges : g.JudgesAlike w w' := g.judgesAlike_after grants source source' past past'
  refine ⟨?_, ?_, ?_, ?_⟩
  · obtain ⟨hresult, hasked⟩ := admission_congr hjudges a call call rfl rfl rfl
      (Context.alikeBut_new call w.nextId w'.nextId)
      (Context.alikeBut_enrich call g.settings w.nextId w'.nextId)
    exact ⟨hresult, _, attempt_inquiries a, hasked ▸ attempt_inquiries a⟩
  · intro metadata trace token other
    obtain ⟨hresult, hasked⟩ := admission_congr hjudges a call { call with metadata, trace, token } rfl
      rfl rfl (R := fun _ _ => True) trivial trivial
    exact ⟨hresult, _, attempt_inquiries a, hasked ▸ attempt_inquiries a⟩
  · obtain ⟨hrequirement, hanswer⟩ := g.judges_after grants source past
    rw [admitted_iff, admits_iff, hrequirement]
    simp only [w, hanswer]
  · intro ctx hctx locale
    cases hb : g.bypasses a.shape call with
    | true =>
      have hnew : now.1 = .ok (.new call w.nextId) :=
        congrArg Prod.fst (Approach.attempt_of_bypasses hb)
      obtain rfl : Context.new call w.nextId = ctx := Except.ok.inj (hnew.symm.trans hctx)
      simp [Context.new]
    | false =>
      have hscreen : (g.screen (a.span call) call w).1 = .ok ctx :=
        (congrArg Prod.fst (Approach.attempt_of_not_bypasses hb)).symm.trans hctx
      rw [screen_fst] at hscreen
      split at hscreen
      · rw [← Except.ok.inj hscreen, Context.locale_enrich_iff]
        simp
      · cases hscreen

/-- The profile of a principal remembers that it once asked for Dutch, but its next call does not. -/
theorem admission_independent_of_profile :
    let g : Gate := ⟨.standard, fun _ _ => ⟨.of "order" ["read"], []⟩, false⟩
    let grants : PrincipalId → Grants := fun _ => .ofList [("order", ["read"])]
    let call : Call := ⟨"/shop.Orders/Watch", "shop.Orders", .empty, some "ann", none, .own 0⟩
    let inDutch := { call with metadata := .ofList [("culture", [0x6E, 0x6C])] }
    let w := ((Traffic.start (.ofGrants grants World.blank.source)).run g [.screen inDutch]).world
    w.profile "ann" = some ⟨"nl", none, none⟩ ∧
      ∃ ctx, ((Approach.entering .unary).attempt g call w).1 = .ok ctx ∧ ctx.locale = none := by
  intro g grants call inDutch w
  have hadmits : g.admits .unary call w = true := by decide +kernel
  have habsent : g.settings.culture call.metadata = .absent := by decide +kernel
  obtain ⟨ctx, hctx, -⟩ := enter_of_admits hadmits
  obtain ⟨-, -, -, hlocale⟩ := g.admission_independent grants World.blank.source World.blank.source
    [.screen inDutch] [] (.entering .unary) call
  refine ⟨by decide +kernel, ctx, hctx, Option.eq_none_iff_forall_ne_some.mpr fun l hl => ?_⟩
  have hasked := ((hlocale ctx hctx l).mp hl).2.2
  rw [habsent] at hasked
  cases hasked

end Gate

end CallGate
