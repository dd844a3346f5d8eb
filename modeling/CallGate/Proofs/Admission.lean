import CallGate.Proofs.Journal

/-!
# Who is let in

Whether a gate lets a call in depends on the world only through the remembered requirements and the
answers of principals. Main statements: `enter_of_admits` and `enter_of_not_admits` say what comes
out, and `enter_inquiries` that nobody is asked but the principal of the call, and only about what
the method requires.
-/

namespace CallGate

/-- The two worlds remember the same requirements, and principals answer alike in them. -/
structure World.DecidesAlike (w w' : World) : Prop where
  memo : w'.memo = w.memo
  answer : ∀ p question, w'.answer p question = w.answer p question

namespace World.DecidesAlike

variable {w w' w'' : World}

theorem refl (w : World) : w.DecidesAlike w := ⟨rfl, fun _ _ => rfl⟩

theorem trans (h : w.DecidesAlike w') (h' : w'.DecidesAlike w'') : w.DecidesAlike w'' :=
  ⟨h'.memo.trans h.memo, fun p question => (h'.answer p question).trans (h.answer p question)⟩

theorem note (w : World) (o : Occurrence) : w.DecidesAlike (w.note o) := ⟨rfl, fun _ _ => rfl⟩

theorem log (w : World) (span : Option Span) (e : Event) : w.DecidesAlike (w.log span e) :=
  note w _

theorem logAll (w : World) (span : Option Span) (events : List Event) :
    w.DecidesAlike (w.logAll span events) := by
  induction events generalizing w with
  | nil => exact refl w
  | cons e events ih => exact (log w span e).trans (ih (w.log span e))

theorem drawId (w : World) : w.DecidesAlike w.drawId := ⟨rfl, fun _ _ => rfl⟩

theorem fire (w : World) (t : TokenId) : w.DecidesAlike (w.fire t) := by
  unfold World.fire
  split
  · exact refl w
  · exact ⟨rfl, fun _ _ => rfl⟩

/-- A profile has no say in what its principal answers. -/
theorem setProfile (w : World) (p : PrincipalId) (locale : Locale) :
    w.DecidesAlike (w.setProfile p locale) := by
  refine ⟨rfl, fun q question => ?_⟩
  by_cases h : q = p
  · subst h
    simp [World.answer, World.setProfile, World.setPrincipal, Principal.answer]
  · simp [World.answer, World.setProfile, World.setPrincipal, h]

theorem record (span : Option Span) (e : Enrichment) (w : World) :
    w.DecidesAlike (Gate.record span e w) := by
  unfold Gate.record
  have h := logAll w span e.events
  split
  · exact h.trans (setProfile _ _ _)
  · exact h

end World.DecidesAlike

namespace Gate

variable (g : Gate) (shape : Shape) (call : Call) (w : World)

/-- The call is an infrastructure call, which nobody decides about. -/
def bypasses : Bool := shape.carriesInfrastructure && g.settings.isInfrastructure call.method

/-- The call may be made: it is an infrastructure call, or its method is open to everybody, or it
has a principal who answers that it may be made. -/
def admits : Bool :=
  let required := g.requirement call.method call.service w
  g.bypasses shape call || required.isFree ||
    match call.principal with
    | none => false
    | some p => w.answer p required

/-- What is asked about the call: the requirement of its method, of its principal, unless the answer
does not matter. -/
def questions : List Inquiry :=
  let required := g.requirement call.method call.service w
  if g.bypasses shape call || required.isFree then []
  else
    match call.principal with
    | none => []
    | some p => [⟨p, required, w.answer p required⟩]

end Gate

/-- The status of a call that is refused: whether there is a principal makes the difference. -/
def Call.refusal (call : Call) : Status :=
  match call.principal with
  | none => Envelope.noPrincipal.toStatus
  | some _ => Envelope.denied.toStatus

namespace Gate

variable {g : Gate} {shape : Shape} {call : Call} {w w' : World}

theorem requirement_congr (h : w.DecidesAlike w') (method service : String) :
    g.requirement method service w' = g.requirement method service w := by
  unfold requirement
  rw [h.memo]

theorem admits_congr (h : w.DecidesAlike w') :
    g.admits shape call w' = g.admits shape call w := by
  unfold admits
  simp only [requirement_congr h, h.answer]

theorem questions_congr (h : w.DecidesAlike w') :
    g.questions shape call w' = g.questions shape call w := by
  unfold questions
  simp only [requirement_congr h, h.answer]

/-- Looking a requirement up changes no answer, and asks no principal. -/
theorem answer_consult (span : Option Span) (method service : String) (w : World) (p : PrincipalId)
    (question : Requirement) :
    (g.consult span method service w).answer p question = w.answer p question := by
  have h : (g.askResolver span method service w).answer p question = w.answer p question :=
    ((World.DecidesAlike.note w _).trans (.logAll _ span _)).answer p question
  unfold consult
  split
  · split
    · rfl
    · exact h
  · exact h

theorem filterMap_record {β : Type} {f : Occurrence → Option β}
    (hf : ∀ entry, f (.logged entry) = none) (span : Option Span) (e : Enrichment) (w : World) :
    (record span e w).journal.filterMap f = w.journal.filterMap f := by
  unfold record
  split <;> simp [hf]

theorem filterMap_consult {β : Type} {f : Occurrence → Option β}
    (hf : ∀ entry, f (.logged entry) = none) (hf' : ∀ m s, f (.resolved m s) = none)
    (span : Option Span) (method service : String) (w : World) :
    (g.consult span method service w).journal.filterMap f = w.journal.filterMap f := by
  unfold consult askResolver
  split
  · split
    · rfl
    · simp [hf, hf']
  · simp [hf, hf']

end Gate

namespace World

theorem decision_congr {w w' : World} {r : Requirement} (h : ∀ p, w'.answer p r = w.answer p r)
    (principal : Option PrincipalId) : w'.decision principal r = w.decision principal r := by
  unfold decision
  simp only [h]

theorem inquiries_afterDecision (w : World) (span : Option Span) (principal : Option PrincipalId)
    (r : Requirement) :
    (w.afterDecision span principal r).inquiries = w.inquiries ++
      if r.isFree then []
      else
        match principal with
        | none => []
        | some p => [⟨p, r, w.answer p r⟩] := by
  unfold afterDecision
  split
  · rw [List.append_nil]
  · cases principal with
    | none => simp
    | some p =>
      dsimp only
      split
      · rw [inquiries_ask]
      · rw [inquiries_log, inquiries_ask]

theorem invocations_afterDecision (w : World) (span : Option Span) (principal : Option PrincipalId)
    (r : Requirement) : (w.afterDecision span principal r).invocations = w.invocations := by
  unfold afterDecision
  split
  · rfl
  · cases principal with
    | none => simp
    | some p =>
      dsimp only
      split <;> simp

end World

/-! ## Screening and entering -/

namespace Gate

variable {g : Gate} {shape : Shape} {call : Call} {w w' : World}

/-- The world in which the principal of a screened call is asked. -/
def screeningWorld (g : Gate) (span : Option Span) (call : Call) (w : World) : World :=
  let enriched := (Context.new call w.nextId).enrich g.settings call.metadata call.trace
  g.consult span call.method call.service (record span enriched w.drawId)

theorem requirement_record (span : Option Span) (e : Enrichment) (method service : String) :
    g.requirement method service (record span e w.drawId) = g.requirement method service w :=
  requirement_congr ((World.DecidesAlike.drawId w).trans (.record span e _)) method service

theorem answer_screeningWorld (span : Option Span) (p : PrincipalId) (question : Requirement) :
    (g.screeningWorld span call w).answer p question = w.answer p question := by
  unfold screeningWorld
  rw [answer_consult]
  exact ((World.DecidesAlike.drawId w).trans (.record span _ _)).answer p question

theorem filterMap_screeningWorld {β : Type} {f : Occurrence → Option β}
    (hf : ∀ entry, f (.logged entry) = none) (hf' : ∀ m s, f (.resolved m s) = none)
    (span : Option Span) :
    (g.screeningWorld span call w).journal.filterMap f = w.journal.filterMap f := by
  unfold screeningWorld
  rw [filterMap_consult hf hf', filterMap_record hf, World.journal_drawId]

/-- Screening in one line: the decision is made in the world of the screening. -/
theorem screen_eq (span : Option Span) :
    g.screen span call w =
      let required := g.requirement call.method call.service w
      let asking := g.screeningWorld span call w
      (match (asking.decision call.principal required).refusal? with
        | none => .ok ((Context.new call w.nextId).enrich g.settings call.metadata call.trace).context
        | some status => .error status,
        asking.afterDecision span call.principal required) := by
  unfold screen
  simp only [requirement_record]
  unfold screeningWorld
  split <;> simp_all

/-- What screening a call comes to. -/
theorem screen_fst (span : Option Span) :
    (g.screen span call w).1 =
      match (w.decision call.principal (g.requirement call.method call.service w)).refusal? with
      | none => .ok ((Context.new call w.nextId).enrich g.settings call.metadata call.trace).context
      | some status => .error status := by
  -- The decision is made in a later world, in which the principal still answers as in `w`.
  have hdecision : (g.screeningWorld span call w).decision call.principal
      (g.requirement call.method call.service w) =
      w.decision call.principal (g.requirement call.method call.service w) :=
    World.decision_congr (fun p => answer_screeningWorld span p _) call.principal
  rw [screen_eq]
  cases hr : (w.decision call.principal (g.requirement call.method call.service w)).refusal? with
  | none => simp only [hdecision, hr]
  | some status => simp only [hdecision, hr]

theorem screen_inquiries (span : Option Span) :
    (g.screen span call w).2.inquiries = w.inquiries ++ g.questions .unary call w := by
  have hs : (g.screeningWorld span call w).inquiries = w.inquiries :=
    filterMap_screeningWorld (fun _ => rfl) (fun _ _ => rfl) span
  rw [screen_eq, World.inquiries_afterDecision, hs]
  simp only [answer_screeningWorld]
  rfl

@[simp] theorem withTrace_principal (ctx : Context) (trace : Option String) :
    (ctx.withTrace trace).principal = ctx.principal := rfl

theorem enrich_principal (ctx : Context) (s : Settings) (m : Metadata) (trace : Option String) :
    (ctx.enrich s m trace).context.principal = ctx.principal := by
  unfold Context.enrich
  dsimp only
  split <;> rfl

theorem enrich_token (ctx : Context) (s : Settings) (m : Metadata) (trace : Option String) :
    (ctx.enrich s m trace).context.token = ctx.token := by
  unfold Context.enrich
  dsimp only
  split <;> rfl

/-- A call that may be made gets a context with its own principal and token. -/
theorem enter_of_admits (h : g.admits shape call w = true) :
    ∃ ctx, (g.enter shape call w).1 = .ok ctx ∧ ctx.principal = call.principal ∧
      ctx.token = call.token := by
  unfold enter
  split
  · exact ⟨_, rfl, rfl, rfl⟩
  · rename_i hb
    have hd : (w.decision call.principal
        (g.requirement call.method call.service w)).refusal? = none := by
      simp only [admits, bypasses, hb, Bool.false_or, Bool.or_eq_true] at h
      unfold World.decision
      rcases h with h | h
      · simp [h, Decision.refusal?]
      · cases hp : call.principal with
        | none => simp [hp] at h
        | some p =>
          simp only [hp] at h
          simp [h, Decision.refusal?]
    rw [screen_fst, hd]
    exact ⟨_, rfl, enrich_principal _ _ _ _, enrich_token _ _ _ _⟩

/-- A call that may not be made is refused. -/
theorem enter_of_not_admits (h : g.admits shape call w = false) :
    (g.enter shape call w).1 = .error call.refusal := by
  simp only [admits, Bool.or_eq_false_iff] at h
  obtain ⟨⟨hb, hr⟩, hp⟩ := h
  have hd : (w.decision call.principal
      (g.requirement call.method call.service w)).refusal? = some call.refusal := by
    unfold World.decision Call.refusal
    cases hc : call.principal with
    | none => simp [hr, Decision.refusal?]
    | some p =>
      simp only [hc] at hp
      simp [hr, hp, Decision.refusal?]
  have henter : g.enter shape call w = g.screen (some (callSpan call)) call w :=
    if_neg (ne_true_of_eq_false hb)
  rw [henter, screen_fst, hd]

/-- A gate asks what is to be asked about a call, and nothing else. -/
theorem enter_inquiries :
    (g.enter shape call w).2.inquiries = w.inquiries ++ g.questions shape call w := by
  unfold enter
  cases hb : g.bypasses shape call with
  | true =>
    rw [questions, hb]
    rw [bypasses] at hb
    simp only [hb, if_true, Bool.true_or, World.inquiries_log, List.append_nil]
    rfl
  | false =>
    have hquestions : g.questions shape call w = g.questions .unary call w := by
      unfold questions
      rw [hb]
      rfl
    rw [bypasses] at hb
    simp only [hb, Bool.false_eq_true, if_false]
    rw [hquestions, screen_inquiries]

/-- Letting a call in invokes no handler. -/
theorem enter_invocations : (g.enter shape call w).2.invocations = w.invocations := by
  have hs : (g.screeningWorld (some (callSpan call)) call w).invocations = w.invocations :=
    filterMap_screeningWorld (fun _ => rfl) (fun _ _ => rfl) _
  unfold enter
  split
  · rw [World.invocations_log]
    rfl
  · rw [screen_eq, World.invocations_afterDecision, hs]

end Gate

end CallGate
