import CallGate.Proofs.Memo
import CallGate.Proofs.Report

/-!
# What is left out for infrastructure calls

An infrastructure call is let in without being screened. On account of it a gate draws an id, invokes
the handler and logs, and does nothing else; with what the handler makes of the call it deals as it
does with any other. Main statements: `handsOff_ledger` says whose doing each change in a move of an
infrastructure call is, `frame_step` what a move leaves as it is, and `infrastructure_frame` what
follows for an infrastructure call among any others.
-/

namespace CallGate

variable {α σ : Type}

/-! ## Changes that a bypassed gate makes -/

namespace Change

/-- The change is made to a principal. -/
def isPersonal : Change → Bool
  | asked _ | profileSet .. => true
  | _ => false

/-- The change says nothing about principals, requirements or resolvers. -/
def isPlain : Change → Bool
  | drawn | fired _ | noted (.logged _) | noted (.invoked _) => true
  | _ => false

theorem not_isPersonal_of_isPlain {c : Change} (h : c.isPlain = true) : ¬ c.isPersonal = true := by
  cases c with
  | asked | profileSet => cases h
  | noted | drawn | fired | remembered => exact Bool.false_ne_true

/-- What the change adds to the journal. -/
def occurrence? : Change → Option Occurrence
  | noted o => some o
  | asked i => some (.asked i.principal i.question i.answer)
  | _ => none

end Change

/-- Nothing is changed about principals but by the handler, and nothing about what is required. -/
def Ledger.HandsOff (l : Ledger) : Prop :=
  ∀ entry ∈ l, entry.2.isPlain = true ∨ entry.1 = .handler ∧ entry.2.isPersonal = true

namespace World

theorem journal_replay (w : World) (changes : List Change) :
    (w.replay changes).journal = w.journal ++ changes.filterMap Change.occurrence? := by
  induction changes generalizing w with
  | nil => exact (List.append_nil _).symm
  | cons c changes ih =>
    have hone : (w.apply c).journal = w.journal ++ c.occurrence?.toList := by
      cases c with
      | noted | asked => rfl
      | drawn | profileSet | remembered => exact (List.append_nil _).symm
      | fired t => exact (w.journal_fire t).trans (List.append_nil _).symm
    rw [replay_cons, ih, hone, List.append_assoc]
    cases h : c.occurrence? <;> simp [h]

/-- Principals are as the changes made to them leave them. -/
theorem principals_replay {w w' : World} (hw : w'.principals = w.principals) (changes : List Change) :
    (w'.replay changes).principals = (w.replay (changes.filter Change.isPersonal)).principals := by
  induction changes generalizing w w' with
  | nil => exact hw
  | cons c changes ih =>
    by_cases hc : c.isPersonal = true
    · rw [List.filter_cons_of_pos hc, replay_cons, replay_cons]
      refine ih (funext fun p => ?_)
      rw [principals_apply, principals_apply, hw]
    · rw [List.filter_cons_of_neg hc, replay_cons]
      refine ih ?_
      rw [← hw]
      funext p
      rw [principals_apply]
      cases c with
      | asked | profileSet => exact absurd rfl hc
      | noted | drawn | fired | remembered => rfl

theorem memo_replay (w : World) {changes : List Change}
    (h : ∀ method service r, Change.remembered method service r ∉ changes) :
    (w.replay changes).memo = w.memo := by
  induction changes generalizing w with
  | nil => rfl
  | cons c changes ih =>
    have hone : (w.apply c).memo = w.memo := by
      cases c with
      | noted | drawn | asked | profileSet => rfl
      | fired t => rw [apply, fire_eq]
      | remembered method service r => exact absurd List.mem_cons_self (h method service r)
    rw [replay_cons, ih _ fun method service r hm => h method service r (List.mem_cons_of_mem c hm),
      hone]

end World

/-- An infrastructure call gets a context into which nothing has been read. -/
theorem Gate.enter_infrastructure {g : Gate} {shape : Shape} {call : Call}
    (h : shape = .duplex ∧ g.settings.isInfrastructure call.method = true) (w : World) :
    g.enter shape call w = (.ok (.new call w.nextId),
      w.drawId.log (some (Gate.callSpan call)) .infrastructureCall) ∧
    g.enterChanges shape call w =
      .drawn :: logChanges (some (Gate.callSpan call)) [.infrastructureCall] :=
  ⟨if_pos (bypasses_iff.mpr h), if_pos (bypasses_iff.mpr h)⟩

namespace Job

variable {j : Job α σ}

theorem isPlain_logChanges (span : Option Span) (events : List Event) :
    ∀ c ∈ logChanges span events, c.isPlain = true := by
  intro c hc
  obtain ⟨e, -, rfl⟩ := List.mem_map.mp hc
  rfl

theorem isPlain_entryChanges (hj : j.Infrastructure) (call : Passage α σ) (s : Scene α) :
    ∀ c ∈ j.entryChanges call s, c.isPlain = true := by
  cases call with
  | running | settled => exact fun _ hc => nomatch hc
  | arrived =>
    obtain ⟨henter, hchanges⟩ := Gate.enter_infrastructure hj s.world
    rw [entryChanges, henter, hchanges]
    intro c hc
    rcases List.mem_append.mp hc with hc | hc
    · rcases List.mem_cons.mp hc with rfl | hc
      · rfl
      · exact isPlain_logChanges _ _ c hc
    · cases List.mem_singleton.mp hc
      rfl

theorem isPlain_closeChanges (stage : Stage α σ) (s : Scene α) :
    ∀ c ∈ j.closeChanges stage s, c.isPlain = true := by
  cases stage with
  | refused | past => exact fun _ hc => nomatch hc
  | worked => exact isPlain_logChanges _ _

theorem handsOff_turn (hj : j.Infrastructure) (call : Passage α σ) (s : Scene α) :
    Ledger.HandsOff (j.ledger call s) := by
  intro entry hentry
  unfold ledger at hentry
  rcases List.mem_append.mp hentry with hentry | hclose
  · rcases List.mem_append.mp hentry with henter | hdeed
    · obtain ⟨c, hc, rfl⟩ := List.mem_map.mp henter
      exact Or.inl (isPlain_entryChanges hj call s c hc)
    · obtain ⟨c, hc, rfl⟩ := List.mem_map.mp hdeed
      obtain ⟨e, -, he⟩ := List.mem_filterMap.mp hc
      cases e <;> cases he
      · exact Or.inr ⟨rfl, rfl⟩
      · exact Or.inr ⟨rfl, rfl⟩
      · exact Or.inl rfl
  · obtain ⟨c, hc, rfl⟩ := List.mem_map.mp hclose
    exact Or.inl (isPlain_closeChanges _ _ c hc)

end Job

namespace Undertaking

/-- The call is an infrastructure call with two streams. -/
def Infrastructure (g : Gate) (u : Undertaking) : Prop :=
  u.shape = .duplex ∧ g.settings.isInfrastructure u.call.method = true

theorem infrastructure_step {g : Gate} {u : Undertaking} {move : Move} {w : World} :
    (u.step g move w).1.Infrastructure g ↔ u.Infrastructure g := by
  unfold Infrastructure
  rw [shape_step, call_step]

/-- All that is listed about the turns of a call is listed about turns of one job. -/
theorem forall_mem_collect {β : Type} {P : β → Prop}
    {inTurn : ∀ {α σ : Type}, Job α σ → Passage α σ → Scene α → List β} {g : Gate} {u : Undertaking}
    (h : ∀ {α σ : Type} (j : Job α σ) (call : Passage α σ) (s : Scene α), j.gate = g →
      j.shape = u.shape → j.call = u.call → ∀ b ∈ inTurn j call s, P b) (move : Move) (w : World) :
    ∀ b ∈ u.collect inTurn g move w, P b := by
  intro b hb
  cases u with
  | direct shape call handler x =>
    cases move with
    | turn order => exact h ⟨g, shape, call, handler⟩ _ _ rfl rfl rfl b hb
    | take | close | drop | fire => cases hb
  | served shape call handler x =>
    cases move with
    | turn order =>
      obtain ⟨turn, -, hb⟩ := List.mem_flatMap.mp hb
      exact h ⟨g, shape, call, handler⟩ _ _ rfl rfl rfl b hb
    | take | close | drop | fire => cases hb

/-- What a move of an infrastructure call changes about principals is the handler's doing, and nothing
is changed about requirements. -/
theorem handsOff_ledger {g : Gate} {u : Undertaking} (hu : u.Infrastructure g) (move : Move)
    (w : World) : Ledger.HandsOff (u.ledger g move w) := by
  -- Plain changes are left out, so that what is left is a list about the turns of the call.
  let f (entry : Agent × Change) : Option (Agent × Change) :=
    if entry.2.isPlain then none else some entry
  have hcollect : (u.ledger g move w).filterMap f =
      u.collect (fun j call s => (j.ledger call s).filterMap f) g move w :=
    filterMap_ledger rfl rfl (fun _ _ => rfl) g move w u
  have hlisted :
      Ledger.HandsOff (u.collect (fun j call s => (j.ledger call s).filterMap f) g move w) := by
    refine forall_mem_collect ?_ move w
    intro α σ j call s hgate hshape hcall entry hentry
    obtain ⟨entry', hentry', hf⟩ := List.mem_filterMap.mp hentry
    have hj : j.Infrastructure := by
      rw [Job.Infrastructure, hgate, hshape, hcall]
      exact hu
    have hhands := Job.handsOff_turn hj call s entry' hentry'
    simp only [f] at hf
    split at hf
    · cases hf
    · cases hf
      exact hhands
  intro entry hentry
  by_cases hplain : entry.2.isPlain = true
  · exact Or.inl hplain
  · refine hlisted entry (hcollect ▸ List.mem_filterMap.mpr ⟨entry, hentry, ?_⟩)
    simp [f, hplain]

end Undertaking

/-! ## What a bypassed gate leaves as it is -/

section Frame

variable {changes : List Change}

/-- Only the changes made to principals show in what no plain change shows in. -/
theorem filterMap_filter_isPersonal {β : Type} {f : Change → Option β}
    (hf : ∀ c : Change, c.isPlain = true → f c = none)
    (h : ∀ c ∈ changes, c.isPlain = true ∨ c.isPersonal = true) :
    changes.filterMap f = (changes.filter Change.isPersonal).filterMap f := by
  induction changes with
  | nil => rfl
  | cons c changes ih =>
    have hrest := ih fun c hc => h c (List.mem_cons_of_mem _ hc)
    rcases h c List.mem_cons_self with hplain | hpersonal
    · rw [List.filterMap_cons_none (hf c hplain),
        List.filter_cons_of_neg (Change.not_isPersonal_of_isPlain hplain)]
      exact hrest
    · rw [List.filter_cons_of_pos hpersonal, List.filterMap_cons, List.filterMap_cons, hrest]

theorem World.filterMap_journal_replay {β : Type} {f : Occurrence → Option β}
    (hf : ∀ c : Change, c.isPlain = true → c.occurrence?.bind f = none) (w : World)
    (h : ∀ c ∈ changes, c.isPlain = true ∨ c.isPersonal = true) :
    (w.replay changes).journal.filterMap f = w.journal.filterMap f ++
      (changes.filter Change.isPersonal).filterMap fun c => c.occurrence?.bind f := by
  rw [World.journal_replay, List.filterMap_append, List.filterMap_filterMap,
    filterMap_filter_isPersonal hf h]

/-- The changes to principals in a ledger are those of handlers, if nobody else makes any. -/
theorem Ledger.HandsOff.filter_isPersonal {l : Ledger} (h : l.HandsOff) :
    l.changes.filter Change.isPersonal = (l.madeBy .handler).filter Change.isPersonal := by
  induction l with
  | nil => rfl
  | cons entry l ih =>
    have hrest := ih fun entry he => h entry (List.mem_cons_of_mem _ he)
    obtain ⟨agent, c⟩ := entry
    have hchanges : changes ((agent, c) :: l) = c :: changes l := rfl
    have hmadeBy : madeBy ((agent, c) :: l) .handler =
        (if agent = .handler then [c] else []) ++ madeBy l .handler := by
      rw [madeBy, List.filterMap_cons]
      by_cases ha : agent = .handler
      · rw [if_pos ha, if_pos ha]
        rfl
      · rw [if_neg ha, if_neg ha]
        rfl
    rw [hchanges, hmadeBy]
    rcases h _ List.mem_cons_self with hplain | ⟨rfl, hpersonal⟩
    · have hnot := Change.not_isPersonal_of_isPlain hplain
      rw [List.filter_cons_of_neg hnot, List.filter_append, hrest]
      by_cases ha : agent = .handler
      · rw [if_pos ha, List.filter_cons_of_neg hnot]
        rfl
      · rw [if_neg ha]
        rfl
    · rw [List.filter_cons_of_pos hpersonal, if_pos rfl, List.singleton_append,
        List.filter_cons_of_pos hpersonal, hrest]

end Frame

namespace Undertaking

/-- A move of an infrastructure call leaves what is remembered and the resolver alone, and principals
are asked and changed just as its handler does it. -/
theorem frame_step {g : Gate} {u : Undertaking} (hu : u.Infrastructure g) (move : Move) (w : World) :
    let after := (u.step g move w).2
    let own := w.replay ((u.ledger g move w).madeBy .handler)
    after.memo = w.memo ∧ after.resolutions = w.resolutions ∧ after.principals = own.principals ∧
      after.inquiries = own.inquiries := by
  have hhands := handsOff_ledger hu move w
  have hworld := u.world_step g move w
  generalize u.ledger g move w = ledger at hhands hworld
  have hchanges : ∀ c ∈ ledger.changes, c.isPlain = true ∨ c.isPersonal = true := by
    intro c hc
    obtain ⟨entry, hentry, rfl⟩ := List.mem_map.mp hc
    exact (hhands entry hentry).imp_right And.right
  have hown : ∀ c ∈ ledger.madeBy .handler, c.isPlain = true ∨ c.isPersonal = true := by
    intro c hc
    exact (hhands _ (Ledger.mem_madeBy_iff.mp hc)).imp_right And.right
  have hsame := hhands.filter_isPersonal
  have hjournal {β : Type} {f : Occurrence → Option β}
      (hf : ∀ c : Change, c.isPlain = true → c.occurrence?.bind f = none) :
      (w.replay ledger.changes).journal.filterMap f =
        (w.replay (ledger.madeBy .handler)).journal.filterMap f := by
    rw [World.filterMap_journal_replay hf w hchanges, World.filterMap_journal_replay hf w hown, hsame]
  intro after own
  rw [show after = w.replay ledger.changes from hworld]
  refine ⟨w.memo_replay fun method service r hm => ?_, ?_, ?_, hjournal ?_⟩
  · rcases hchanges _ hm with h | h <;> cases h
  · rw [World.resolutions, World.filterMap_journal_replay (f := Occurrence.resolution?) ?_ w hchanges]
    · have hnone : ((ledger.changes.filter Change.isPersonal).filterMap
          fun c => c.occurrence?.bind Occurrence.resolution?) = [] := by
        rw [List.filterMap_eq_nil_iff]
        intro c hc
        have hpersonal := (List.mem_filter.mp hc).2
        cases c with
        | asked | profileSet => rfl
        | noted | drawn | fired | remembered => cases hpersonal
      rw [hnone, List.append_nil]
      rfl
    · intro c hc
      cases c with
      | noted o =>
        cases o with
        | resolved => cases hc
        | logged | asked | invoked => rfl
      | drawn | asked | profileSet | fired | remembered => rfl
  · rw [World.principals_replay rfl, hsame, ← World.principals_replay rfl]
  · intro c hc
    cases c with
    | noted o =>
      cases o with
      | asked => cases hc
      | logged | resolved | invoked => rfl
    | asked => cases hc
    | drawn | profileSet | fired | remembered => rfl

end Undertaking

/-! ## Infrastructure calls in traffic -/

/-- The context with which a handler is invoked. -/
def Change.context? : Change → Option Context
  | noted (.invoked ctx) => some ctx
  | _ => none

/-- What shows nothing that a handler can change shows nothing of what a handler has changed. -/
theorem History.filterMap_changes {β : Type} {f : Change → Option β}
    (hasked : ∀ inquiry, f (.asked inquiry) = none)
    (hset : ∀ p locale, f (.profileSet p locale) = none) (hfired : ∀ token, f (.fired token) = none)
    (h : History α) : h.changes.filterMap f = [] := by
  rw [List.filterMap_eq_nil_iff]
  intro c hc
  obtain ⟨e, -, he⟩ := List.mem_filterMap.mp hc
  cases e with
  | asked inquiry => cases he; exact hasked inquiry
  | profileSet p locale => cases he; exact hset p locale
  | fired token => cases he; exact hfired token
  | _ => cases he

/-- Of what is shown neither about principals nor about tokens, a handler shows nothing. -/
theorem Job.filterMap_ledger {β : Type} {f : Change → Option β}
    (hasked : ∀ inquiry, f (.asked inquiry) = none)
    (hset : ∀ p locale, f (.profileSet p locale) = none) (hfired : ∀ token, f (.fired token) = none)
    (j : Job α σ) (call : Passage α σ) (s : Scene α) :
    (j.ledger call s).changes.filterMap f =
      ((j.report call s).opening ++ (j.report call s).closing).filterMap f := by
  rw [changes_ledger, List.filterMap_append, List.filterMap_append,
    History.filterMap_changes hasked hset hfired, List.append_nil, List.filterMap_append]
  rfl

/-- Only a gate that lets a call in invokes its handler. -/
theorem Job.context?_ledger (j : Job α σ) (call : Passage α σ) (s : Scene α) :
    (j.ledger call s).changes.filterMap Change.context? =
      (j.report call s).opening.filterMap Change.context? := by
  have hclose : (j.report call s).closing.filterMap Change.context? = [] :=
    j.filterMap_closeChanges (fun _ => rfl) _ _
  rw [filterMap_ledger (fun _ => rfl) (fun _ _ => rfl) (fun _ => rfl), List.filterMap_append, hclose,
    List.append_nil]

namespace Undertaking

theorem collect_flatMap {β γ : Type}
    {inTurn : ∀ {α σ : Type}, Job α σ → Passage α σ → Scene α → List β} (f : β → List γ) (g : Gate)
    (move : Move) (w : World) (u : Undertaking) :
    u.collect (fun j call s => (inTurn j call s).flatMap f) g move w =
      (u.collect inTurn g move w).flatMap f := by
  cases u with
  | direct shape call handler x => cases move <;> rfl
  | served shape call handler x =>
    cases move with
    | turn order => exact List.flatMap_assoc.symm
    | take | close | drop | fire => rfl

theorem collect_congr {β : Type}
    {inTurn inTurn' : ∀ {α σ : Type}, Job α σ → Passage α σ → Scene α → List β} {g : Gate}
    (h : ∀ {α σ : Type} (j : Job α σ) (call : Passage α σ) (s : Scene α), j.gate = g →
      inTurn j call s = inTurn' j call s) (move : Move) (w : World) (u : Undertaking) :
    u.collect inTurn g move w = u.collect inTurn' g move w := by
  cases u with
  | direct shape call handler x =>
    cases move with
    | turn order => exact h ⟨g, shape, call, handler⟩ _ _ rfl
    | take | close | drop | fire => rfl
  | served shape call handler x =>
    cases move with
    | turn order =>
      have hturn := funext fun turn : Passage _ _ × Scene _ =>
        h ⟨g, shape, call, handler⟩ turn.1 turn.2 rfl
      exact congrArg (List.flatMap · _) hturn
    | take | close | drop | fire => rfl

end Undertaking

namespace Traffic

variable (g : Gate) (n : Nat) (w : World) (incidents : List Incident)

/-- What one call changes in a run. -/
def callLedger : Ledger := share (fun move w u => u.ledger g move w) g n (start w) incidents

/-- What shows of each turn only in one part of its report shows of a call only in that part of its
reports. -/
theorem filterMap_callLedger {β : Type} {f : Change → Option β} {part : TurnReport → List Change}
    (hgone : f (.noted (.logged ⟨.streamGone, none⟩)) = none)
    (hlost : f (.noted (.logged ⟨.statusLost, none⟩)) = none)
    (hfire : ∀ token, f (.fired token) = none)
    (h : ∀ {α σ : Type} (j : Job α σ) (call : Passage α σ) (s : Scene α), j.gate = g →
      (j.ledger call s).changes.filterMap f = (part (j.report call s)).filterMap f) :
    (callLedger g n w incidents).changes.filterMap f =
      ((callReports g n w incidents).flatMap part).filterMap f := by
  have hmove (move : Move) (w : World) (u : Undertaking) : (u.ledger g move w).changes.filterMap f =
      (u.reports g move w).flatMap fun r => (part r).filterMap f := by
    rw [Undertaking.filterMap_changes hgone hlost hfire, Undertaking.reports, ← Undertaking.collect_flatMap]
    refine Undertaking.collect_congr (fun j call s hj => ?_) move w u
    rw [h j call s hj, List.flatMap_singleton]
  have hledger := share_comp (fun move w u => u.ledger g move w) (g := g)
    (f := fun l => (Ledger.changes l).filterMap f) rfl
    (fun l l' => by rw [Ledger.changes_append, List.filterMap_append]) n (start w) incidents
  have hreports := share_comp (fun move w u => u.reports g move w) (g := g)
    (f := fun l => l.flatMap fun r => (part r).filterMap f) rfl
    (fun l l' => List.flatMap_append) n (start w) incidents
  simp only [hmove] at hledger
  rw [List.filterMap_flatMap]
  exact hledger.symm.trans hreports

theorem context?_callLedger :
    (callLedger g n w incidents).changes.filterMap Change.context? =
      ((callReports g n w incidents).flatMap TurnReport.opening).filterMap Change.context? :=
  filterMap_callLedger g n w incidents rfl rfl (fun _ => rfl)
    fun j call s _ => j.context?_ledger call s

variable {g n w incidents} {u : Undertaking}

theorem handsOff_callLedger (hu : ((start w).run g incidents).calls[n]? = some u)
    (hi : u.Infrastructure g) : (callLedger g n w incidents).HandsOff := by
  let I (u : Undertaking) (l : Ledger) : Prop := u.Infrastructure g → l.HandsOff
  have moved {u l} (move : Move) (w : World) (hI : I u l) :
      I (u.step g move w).1 (l ++ u.ledger g move w) := by
    intro hi entry hentry
    have hi := Undertaking.infrastructure_step.mp hi
    rcases List.mem_append.mp hentry with hentry | hentry
    · exact hI hi entry hentry
    · exact Undertaking.handsOff_ledger hi move w entry hentry
  exact run_keeps_call (I := I) (fun _ _ _ _ h => nomatch h) moved w incidents hu hi

/-- Of an infrastructure call among any others. No move of it changes what is remembered or asks the
resolver, and principals are asked and changed by its handler alone. As soon as it has had a turn, its
handler has been invoked, once, with a context that has no locale, an id that was drawn, and the
principal and the token of the call, whatever else came with the call. How it fails and what is logged
about that depends on how its handler fares, and on that in the same way as for every other call with
two streams. -/
theorem infrastructure_frame (g : Gate) (w : World) (incidents : List Incident) {n : Nat}
    {u : Undertaking} (hu : ((start w).run g incidents).calls[n]? = some u)
    (hi : u.Infrastructure g) :
    let ledger := callLedger g n w incidents
    let reports := callReports g n w incidents
    let fates := reports.flatMap TurnReport.fates
    (∀ (move : Move) (w : World),
      let after := (u.step g move w).2
      let own := w.replay ((u.ledger g move w).madeBy .handler)
      after.memo = w.memo ∧ after.resolutions = w.resolutions ∧ after.principals = own.principals ∧
        after.inquiries = own.inquiries) ∧
    ledger.HandsOff ∧
    (reports = [] ∨ fates ≠ [] ∧ ∃ id,
      let ctx : Context := ⟨none, .generated id, u.call.principal, u.call.token⟩
      ledger.changes.filterMap Change.context? = [ctx] ∧
        reports.flatMap TurnReport.opening =
          [.drawn, .noted (.logged ⟨.infrastructureCall, some (Gate.callSpan u.call)⟩),
            .noted (.invoked ctx)] ∧
        reports.flatMap TurnReport.closing = logChanges (some (Gate.admittedSpan u.call ctx))
          (fates.findSome? TurnFate.event?).toList ∧
        reports.flatMap TurnReport.failures =
          ((fates.find? TurnFate.isLast).map Shape.duplex.failure?).toList) ∧
    ∀ (g' : Gate) (w' : World) (incidents' : List Incident) (n' : Nat) (u' : Undertaking),
      ((start w').run g' incidents').calls[n']? = some u' → u'.shape = .duplex →
      let reports' := callReports g' n' w' incidents'
      reports'.flatMap TurnReport.fates = fates → fates ≠ [] →
      reports'.flatMap TurnReport.failures = reports.flatMap TurnReport.failures ∧
        ∃ events span span', reports.flatMap TurnReport.closing = logChanges (some span) events ∧
          reports'.flatMap TurnReport.closing = logChanges (some span') events := by
  intro ledger reports fates
  have henter := Gate.enter_infrastructure hi
  have hexplained := (explainedBy_callReports hu).of_fates
  refine ⟨fun move w => Undertaking.frame_step hi move w, handsOff_callLedger hu hi, ?_, ?_⟩
  · rcases hexplained with ⟨-, hnone | ⟨w', status, hrefused⟩⟩ |
      ⟨hne, w', ctx, hctx, hopening, hclosing, hfailures⟩
    · exact Or.inl hnone
    · rw [(henter w').1] at hrefused
      cases hrefused
    · rw [(henter w').1] at hctx
      obtain rfl : Context.new u.call w'.nextId = ctx := Except.ok.inj hctx
      rw [(henter w').2] at hopening
      rw [hi.1] at hfailures
      refine Or.inr ⟨hne, w'.nextId, ?_, hopening, hclosing, hfailures⟩
      rw [context?_callLedger, hopening]
      rfl
  · intro g' w' incidents' n' u' hu' hshape reports' hfates hne
    rcases hexplained with ⟨hnone, -⟩ | ⟨-, w₁, ctx, -, -, hclosing, hfailures⟩
    · exact absurd hnone hne
    · rcases (explainedBy_callReports hu').of_fates with ⟨hnone, -⟩ |
        ⟨-, w₂, ctx', -, -, hclosing', hfailures'⟩
      · exact absurd (hfates.symm.trans hnone) hne
      · change reports'.flatMap TurnReport.failures = _ at hfailures'
        change reports'.flatMap TurnReport.closing = _ at hclosing'
        rw [hfates, hshape, ← hi.1] at hfailures'
        rw [hfates] at hclosing'
        exact ⟨hfailures'.trans hfailures.symm, _, _, _, hclosing, hclosing'⟩

/-- A handler that fails, behind a gate that asks for a permission but not of infrastructure calls, and
behind one that asks for nothing. -/
theorem infrastructure_frame_failing :
    let handler : Handler Nat (List Nat) := .sending [1] (.failed (.unexpected ⟨["disk full"]⟩))
    let j := Job.plain ["/shop"] (.of "order" ["read"]) (some "anna") .duplex handler
    let j' := Job.plain [] .free none .duplex handler
    let incidents (j : Job Nat (List Nat)) : List Incident :=
      [.make j.shape j.call j.handler (some (.new ⟨8, by decide, by decide⟩)),
        .move 0 (.turn .handlerFirst)]
    let failures (j : Job Nat (List Nat)) : List (Option Status) :=
      (callReports j.gate 0 World.blank (incidents j)).flatMap TurnReport.failures
    (callLedger j.gate 0 World.blank (incidents j)).changes.filterMap Change.context? =
        [⟨none, .generated World.blank.nextId, some "anna", .own 0⟩] ∧
      failures j = [some { code := .internal, message := "An error occurs." }] ∧
        failures j' = failures j := by
  intro handler j j' incidents failures
  obtain ⟨-, -, -, hsame⟩ := infrastructure_frame j.gate World.blank (incidents j) (n := 0) rfl
    ⟨rfl, by decide +kernel⟩
  obtain ⟨hfailures, -⟩ := hsame j'.gate World.blank (incidents j') 0 _ rfl rfl (by decide +kernel)
    (by decide +kernel)
  exact ⟨by decide +kernel, by decide +kernel, hfailures⟩

end Traffic

end CallGate
