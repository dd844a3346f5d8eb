import CallGate.Gate

/-!
# Reading the journal of a world

Two things in the journal show who was let through: the questions that principals were asked, and the
contexts with which handlers were invoked. The journal only grows, and each change of a world says
what it adds.
-/

namespace CallGate

/-- A question that a principal was asked about a requirement, with its answer. -/
structure Inquiry where
  principal : PrincipalId
  question : Requirement
  answer : Bool
deriving DecidableEq

namespace Occurrence

/-- The question, if a principal was asked. -/
def inquiry? : Occurrence → Option Inquiry
  | asked principal question answer => some ⟨principal, question, answer⟩
  | _ => none

/-- The context, if a handler was invoked. -/
def invocation? : Occurrence → Option Context
  | invoked context => some context
  | _ => none

end Occurrence

namespace World

/-- The questions that principals were asked, the first one first. -/
def inquiries (w : World) : List Inquiry := w.journal.filterMap Occurrence.inquiry?

/-- The contexts with which handlers were invoked, the first one first. -/
def invocations (w : World) : List Context := w.journal.filterMap Occurrence.invocation?

@[simp] theorem journal_note (w : World) (o : Occurrence) :
    (w.note o).journal = w.journal ++ [o] := rfl

@[simp] theorem journal_log (w : World) (span : Option Span) (e : Event) :
    (w.log span e).journal = w.journal ++ [.logged ⟨e, span⟩] := rfl

@[simp] theorem journal_logAll (w : World) (span : Option Span) (events : List Event) :
    (w.logAll span events).journal = w.journal ++ events.map fun e => .logged ⟨e, span⟩ := by
  induction events generalizing w with
  | nil => simp [logAll]
  | cons e events ih =>
    rw [logAll, List.foldl_cons, ← logAll, ih]
    simp

@[simp] theorem journal_drawId (w : World) : w.drawId.journal = w.journal := rfl

@[simp] theorem journal_setProfile (w : World) (p : PrincipalId) (locale : Locale) :
    (w.setProfile p locale).journal = w.journal := rfl

@[simp] theorem journal_ask (w : World) (p : PrincipalId) (question : Requirement) :
    (w.ask p question).journal = w.journal ++ [.asked p question (w.answer p question)] := rfl

@[simp] theorem journal_fire (w : World) (t : TokenId) : (w.fire t).journal = w.journal := by
  unfold fire
  split <;> rfl

@[simp] theorem inquiries_note_invoked (w : World) (ctx : Context) :
    (w.note (.invoked ctx)).inquiries = w.inquiries :=
  List.filterMap_append.trans (List.append_nil _)

@[simp] theorem invocations_note_invoked (w : World) (ctx : Context) :
    (w.note (.invoked ctx)).invocations = w.invocations ++ [ctx] :=
  List.filterMap_append

/-- Logging adds neither a question nor an invocation. -/
theorem filterMap_log {β : Type} {f : Occurrence → Option β} (hf : ∀ entry, f (.logged entry) = none)
    (w : World) (span : Option Span) (e : Event) :
    (w.log span e).journal.filterMap f = w.journal.filterMap f := by
  simp [hf]

@[simp] theorem inquiries_log (w : World) (span : Option Span) (e : Event) :
    (w.log span e).inquiries = w.inquiries := filterMap_log (fun _ => rfl) w span e

@[simp] theorem invocations_log (w : World) (span : Option Span) (e : Event) :
    (w.log span e).invocations = w.invocations := filterMap_log (fun _ => rfl) w span e

@[simp] theorem inquiries_ask (w : World) (p : PrincipalId) (question : Requirement) :
    (w.ask p question).inquiries = w.inquiries ++ [⟨p, question, w.answer p question⟩] := by
  simp [inquiries, Occurrence.inquiry?]

@[simp] theorem invocations_ask (w : World) (p : PrincipalId) (question : Requirement) :
    (w.ask p question).invocations = w.invocations := by
  simp [invocations, Occurrence.invocation?]

@[simp] theorem inquiries_setProfile (w : World) (p : PrincipalId) (locale : Locale) :
    (w.setProfile p locale).inquiries = w.inquiries := rfl

@[simp] theorem invocations_setProfile (w : World) (p : PrincipalId) (locale : Locale) :
    (w.setProfile p locale).invocations = w.invocations := rfl

@[simp] theorem inquiries_fire (w : World) (t : TokenId) : (w.fire t).inquiries = w.inquiries := by
  rw [inquiries, journal_fire, inquiries]

@[simp] theorem invocations_fire (w : World) (t : TokenId) :
    (w.fire t).invocations = w.invocations := by
  rw [invocations, journal_fire, invocations]

/-! ## What has been added -/

theorem prefix_journal_afterDecision (w : World) (span : Option Span)
    (principal : Option PrincipalId) (r : Requirement) :
    w.journal <+: (w.afterDecision span principal r).journal := by
  unfold afterDecision
  split
  · exact List.prefix_refl _
  · cases principal with
    | none => exact List.prefix_append _ _
    | some p =>
      dsimp only
      split
      · exact List.prefix_append _ _
      · rw [journal_log, journal_ask]
        exact (List.prefix_append _ _).trans (List.prefix_append _ _)

/-- What the journal of a later world shows is what that of an earlier one shows, and then what has
been added since. -/
theorem filterMap_journal_eq {β : Type} {before w : World} (h : before.journal <+: w.journal)
    (f : Occurrence → Option β) :
    w.journal.filterMap f = before.journal.filterMap f ++ (w.since before).filterMap f := by
  obtain ⟨more, hmore⟩ := h
  rw [since, ← hmore, List.drop_left, List.filterMap_append]

end World

namespace Gate

theorem prefix_journal_record (span : Option Span) (e : Enrichment) (w : World) :
    w.journal <+: (record span e w).journal := by
  have h : w.journal <+: (w.logAll span e.events).journal := by
    rw [World.journal_logAll]
    exact List.prefix_append _ _
  unfold record
  split <;> exact h

theorem prefix_journal_consult (g : Gate) (span : Option Span) (method service : String) (w : World) :
    w.journal <+: (g.consult span method service w).journal := by
  have h : w.journal <+: (g.askResolver span method service w).journal := by
    rw [askResolver, World.journal_logAll, World.journal_note]
    exact (List.prefix_append _ _).trans (List.prefix_append _ _)
  unfold consult
  split
  · split
    · exact List.prefix_refl _
    · exact h
  · exact h

theorem prefix_journal_screen (g : Gate) (span : Option Span) (call : Call) (w : World) :
    w.journal <+: (g.screen span call w).2.journal := by
  unfold screen
  dsimp only
  split <;>
    exact ((prefix_journal_record span _ w.drawId).trans (g.prefix_journal_consult span _ _ _)).trans
      (World.prefix_journal_afterDecision _ span _ _)

theorem prefix_journal_enter (g : Gate) (shape : Shape) (call : Call) (w : World) :
    w.journal <+: (g.enter shape call w).2.journal := by
  unfold enter
  split
  · exact List.prefix_append _ _
  · exact g.prefix_journal_screen _ call w

end Gate

end CallGate
