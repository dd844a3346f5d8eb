import CallGate.Proofs.Passage

/-!
# What a call logs

Most of what a gate logs is for developers only: events that tell of no failure are quiet. Main
statements: `Gate.logs_enter` says that a gate lets a call in or refuses it quietly, but for what its
resolver logs, `Turn.logs_run` that a handler logs nothing, and `Job.logs_close` that the end of a
call is quiet unless its handler has failed.
-/

namespace CallGate

variable {α σ : Type}

namespace Event

/-- The event is logged when a failure is presented to the caller. -/
def isPresentation : Event → Bool
  | statusPassed .. | complaintRaised _ | unexpectedFailure _ | callerCancelled => true
  | _ => false

/-- The event is of interest to developers only, and no failure has been presented. -/
structure Quiet (e : Event) : Prop where
  level : e.level = .debug
  unfailed : ∀ f : Failure, e ≠ f.event

theorem quiet_of_not_isPresentation {e : Event} (h : e.isPresentation = false) : e.Quiet := by
  constructor
  · cases e <;> first | rfl | cases h
  · rintro f rfl
    cases f <;> cases h

end Event

theorem Registry.quiet_resolver (r : Registry) (method service : String) :
    ∀ e ∈ (r.resolver method service).events, e.Quiet := by
  unfold Registry.resolver
  intro e he
  split at he
  · cases he
  · cases List.mem_singleton.mp he
    exact Event.quiet_of_not_isPresentation rfl

namespace World

/-- The journal of the later world goes on where that of the earlier one ends, and each event that
has been logged since is as `P` says. -/
def Logs (w : World) (P : Event → Prop) (after : World) : Prop :=
  ∃ added, after.journal = w.journal ++ added ∧ ∀ entry, .logged entry ∈ added → P entry.event

namespace Logs

variable {w w' w'' : World} {P Q : Event → Prop}

theorem of_journal_eq (h : w'.journal = w.journal) : w.Logs P w' :=
  ⟨[], by rw [h, List.append_nil], fun _ he => nomatch he⟩

theorem refl (w : World) : w.Logs P w := of_journal_eq rfl

theorem trans (h : w.Logs P w') (h' : w'.Logs P w'') : w.Logs P w'' := by
  obtain ⟨added, hadded, hP⟩ := h
  obtain ⟨more, hmore, hP'⟩ := h'
  refine ⟨added ++ more, by rw [hmore, hadded, List.append_assoc], fun entry he => ?_⟩
  rcases List.mem_append.mp he with he | he
  · exact hP entry he
  · exact hP' entry he

theorem mono (h : w.Logs P w') (hPQ : ∀ e, P e → Q e) : w.Logs Q w' := by
  obtain ⟨added, hadded, hP⟩ := h
  exact ⟨added, hadded, fun entry he => hPQ _ (hP entry he)⟩

theorem note (w : World) {o : Occurrence} (ho : o.entry? = none) : w.Logs P (w.note o) := by
  refine ⟨[o], rfl, fun entry he => ?_⟩
  cases List.mem_singleton.mp he
  cases ho

theorem log (w : World) (span : Option Span) {e : Event} (he : P e) : w.Logs P (w.log span e) := by
  refine ⟨[.logged ⟨e, span⟩], rfl, fun entry hentry => ?_⟩
  cases List.mem_singleton.mp hentry
  exact he

theorem logAll (w : World) (span : Option Span) {events : List Event} (h : ∀ e ∈ events, P e) :
    w.Logs P (w.logAll span events) := by
  refine ⟨_, journal_logAll w span events, fun entry hentry => ?_⟩
  obtain ⟨e, he, ho⟩ := List.mem_map.mp hentry
  cases ho
  exact h e he

theorem ask (w : World) (p : PrincipalId) (question : Requirement) : w.Logs P (w.ask p question) :=
  ⟨_, journal_ask w p question, fun _ he => nomatch List.mem_singleton.mp he⟩

theorem fire (w : World) (t : TokenId) : w.Logs P (w.fire t) := of_journal_eq (w.journal_fire t)

/-- What has been logged is as `P` says. -/
theorem entriesSince (h : w.Logs P w') : ∀ entry ∈ w'.entriesSince w, P entry.event := by
  obtain ⟨added, hadded, hP⟩ := h
  intro entry he
  rw [World.entriesSince, since, hadded, List.drop_left] at he
  obtain ⟨o, ho, hentry⟩ := List.mem_filterMap.mp he
  cases o with
  | logged entry' =>
    cases hentry
    exact hP entry ho
  | _ => cases hentry

end Logs

/-- Between two worlds tokens have been fired and something quiet has been logged, if anything has
happened at all, and the gate decides in the second as in the first. -/
structure Aside (w after : World) : Prop where
  decides : w.DecidesAlike after
  logged : ∃ entries : List LogEntry, after.journal = w.journal ++ entries.map .logged ∧
    ∀ entry ∈ entries, entry.event.Quiet

namespace Aside

variable {w w' w'' : World}

theorem of_journal_eq (hd : w.DecidesAlike w') (h : w'.journal = w.journal) : w.Aside w' :=
  ⟨hd, [], by rw [h, List.map_nil, List.append_nil], fun _ he => nomatch he⟩

theorem log (w : World) (span : Option Span) {e : Event} (he : e.Quiet) : w.Aside (w.log span e) :=
  ⟨.log w span e, [⟨e, span⟩], rfl, fun _ hentry => List.mem_singleton.mp hentry ▸ he⟩

theorem fire (w : World) (t : TokenId) : w.Aside (w.fire t) :=
  of_journal_eq (.fire w t) (w.journal_fire t)

theorem trans (h : w.Aside w') (h' : w'.Aside w'') : w.Aside w'' := by
  obtain ⟨hd, entries, hjournal, hquiet⟩ := h
  obtain ⟨hd', more, hjournal', hquiet'⟩ := h'
  refine ⟨hd.trans hd', entries ++ more, ?_, fun entry he => ?_⟩
  · rw [hjournal', hjournal, List.map_append, List.append_assoc]
  · rcases List.mem_append.mp he with he | he
    · exact hquiet entry he
    · exact hquiet' entry he

/-- The two journals differ only in what has been logged. -/
theorem filterMap_journal {β : Type} {f : Occurrence → Option β}
    (hf : ∀ entry, f (.logged entry) = none) (h : w.Aside w') :
    w'.journal.filterMap f = w.journal.filterMap f := by
  obtain ⟨-, entries, hjournal, -⟩ := h
  have hnone : (entries.map Occurrence.logged).filterMap f = [] := by
    rw [List.filterMap_map, List.filterMap_eq_nil_iff]
    exact fun entry _ => hf entry
  rw [hjournal, List.filterMap_append, hnone, List.append_nil]

theorem logs {P : Event → Prop} (h : w.Aside w') (hP : ∀ e : Event, e.Quiet → P e) : w.Logs P w' := by
  obtain ⟨-, entries, hjournal, hquiet⟩ := h
  refine ⟨_, hjournal, fun entry he => ?_⟩
  obtain ⟨entry', hentry, ho⟩ := List.mem_map.mp he
  cases ho
  exact hP _ (hquiet entry hentry)

end Aside

theorem logs_afterDecision (w : World) (span : Option Span) (principal : Option PrincipalId)
    (r : Requirement) : w.Logs Event.Quiet (w.afterDecision span principal r) := by
  unfold afterDecision
  split
  · exact .refl w
  · cases principal with
    | none => exact .log w span (Event.quiet_of_not_isPresentation rfl)
    | some p =>
      dsimp only
      split
      · exact .ask w p r
      · exact (Logs.ask w p r).trans (.log _ span (Event.quiet_of_not_isPresentation rfl))

end World

/-! ## What a gate logs -/

theorem Context.quiet_enrich (ctx : Context) (s : Settings) (m : Metadata) (trace : Option String) :
    ∀ e ∈ (ctx.enrich s m trace).events, e.Quiet := by
  unfold Context.enrich
  intro e he
  dsimp only at he
  split at he <;> simp only [List.mem_singleton, List.not_mem_nil] at he
  rw [he]
  exact Event.quiet_of_not_isPresentation rfl

namespace Gate

variable (g : Gate) {P : Event → Prop}

/-- The event is quiet, or the resolver logs it about the method of the call. -/
def Says (call : Call) (e : Event) : Prop :=
  e.Quiet ∨ e ∈ (g.resolver call.method call.service).events

theorem logs_record (span : Option Span) {e : Enrichment} (h : ∀ event ∈ e.events, P event)
    (w : World) : w.Logs P (record span e w) := by
  have hlog := World.Logs.logAll w span h
  unfold record
  split
  · exact hlog.trans (.of_journal_eq rfl)
  · exact hlog

theorem logs_consult (span : Option Span) {method service : String}
    (h : ∀ e ∈ (g.resolver method service).events, P e) (w : World) :
    w.Logs P (g.consult span method service w) := by
  have hask : w.Logs P (g.askResolver span method service w) :=
    (World.Logs.note w rfl).trans (.logAll _ span h)
  unfold consult
  split
  · split
    · exact .refl w
    · exact hask.trans (.of_journal_eq rfl)
  · exact hask

theorem logs_screen (span : Option Span) (call : Call) (w : World) :
    w.Logs (g.Says call) (g.screen span call w).2 := by
  rw [screen_eq]
  refine World.Logs.trans ?_ ((World.logs_afterDecision _ span _ _).mono fun e he => Or.inl he)
  unfold screeningWorld
  refine World.Logs.trans ?_ (g.logs_consult span (fun e he => Or.inr he) _)
  have hdraw : w.Logs (g.Says call) w.drawId := .of_journal_eq rfl
  exact hdraw.trans (logs_record span (fun e he => Or.inl (Context.quiet_enrich _ _ _ _ e he)) _)

theorem logs_enter (shape : Shape) (call : Call) (w : World) :
    w.Logs (g.Says call) (g.enter shape call w).2 := by
  unfold enter
  split
  · have hdraw : w.Logs (g.Says call) w.drawId := .of_journal_eq rfl
    exact hdraw.trans (.log _ _ (Or.inl (Event.quiet_of_not_isPresentation rfl)))
  · exact g.logs_screen _ call w

end Gate

/-! ## What a turn logs -/

/-- A turn of a handler logs nothing. -/
theorem Turn.logs_run {P : Event → Prop} (t : Turn α σ) (s : Scene α) :
    s.world.Logs P (t.run s).2.world := by
  refine t.run_keeps (P := fun s' _ => s.world.Logs P s'.world) ?_ (h := []) (.refl _)
  intro s₁ e s₂ h hd hP
  refine hP.trans ?_
  cases hd with
  | ask p question => exact .ask _ p question
  | setProfile | offer | wait | finish => exact .of_journal_eq rfl
  | fire token => exact .fire _ token

/-- The failure of which the caller is told, if there is one. That its call was cancelled is none. -/
def Ending.failure? : Ending α → Option Failure
  | .returned _ => none
  | .failed .cancelled => none
  | .failed e => some e
  | .panicked payload => some (.unexpected payload.chain)

namespace Job

variable (j : Job α σ)

theorem logs_work (call : Passage α σ) (s : Scene α) :
    s.world.Logs (j.gate.Says j.call) (j.work call s).2.world := by
  cases call with
  | arrived =>
    have henter := j.gate.logs_enter j.shape j.call s.world
    simp only [work]
    cases (j.gate.enter j.shape j.call s.world).1 with
    | error status => exact henter
    | ok ctx =>
      exact (henter.trans (.note _ rfl)).trans ((j.handler.first ctx).logs_run _)
  | running span state => exact (j.handler.turn state).logs_run s
  | settled last result => exact .refl _

/-- The end of a call is quiet unless its handler has failed. -/
theorem logs_close (span : Span) (progress : Progress α σ) (s : Scene α) :
    s.world.Logs
      (fun e => e.Quiet ∨ ∃ f, progress.ending?.bind Ending.failure? = some f ∧ e = f.event)
      (j.close (.worked span progress) s).2.world := by
  have cancelled {P : Event → Prop} (last : σ) :
      s.world.Logs (fun e => e.Quiet ∨ P e) (j.endCancelled span last s).2.world :=
    .log _ _ (Or.inl (Event.quiet_of_not_isPresentation rfl))
  have failed {P : Event → Prop} (last : σ) (f : Failure) (hf : P f.event) :
      s.world.Logs (fun e => e.Quiet ∨ P e) (endFailed span last f s : Passage α σ × Scene α).2.world :=
    .log _ _ (Or.inr hf)
  cases progress with
  | waiting state =>
    simp only [close]
    split
    · exact cancelled state
    · exact .refl _
  | ended last ending =>
    cases ending with
    | returned value => exact .refl _
    | failed e =>
      cases e with
      | cancelled => exact cancelled last
      | handedOn | complaint | unexpected => exact failed last _ ⟨_, rfl, rfl⟩
    | panicked payload => exact failed last (.unexpected payload.chain) ⟨_, rfl, rfl⟩

end Job

end CallGate
