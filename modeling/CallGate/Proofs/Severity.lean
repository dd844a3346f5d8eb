import Mathlib.Data.List.Perm.Basic
import CallGate.Proofs.Bypass
import CallGate.Proofs.Wording

/-!
# How serious it is what a gate logs

Nearly all that a gate logs is for developers only. What is more serious is an alarm, and there are two
of them: a handler has run into an error, or it has complained. Main statements: `alarms_ledger` says
that a turn raises an alarm only as its call ends, `perm_shares` that a run does what its calls do, in
some order, and `log_severity` which alarms are raised in all traffic, and what they tell.
-/

namespace CallGate

variable {α σ : Type}

/-! ## Alarms -/

/-- The event is not for developers only. -/
def Event.isAlarm (e : Event) : Bool := e.level != .debug

def LogEntry.isAlarm (entry : LogEntry) : Bool := entry.event.isAlarm

/-- The resolver logs for developers only. -/
def Resolver.IsQuiet (r : Resolver) : Prop :=
  ∀ method service, ∀ e ∈ (r method service).events, e.level = .debug

theorem Registry.isQuiet_resolver (r : Registry) : r.resolver.IsQuiet :=
  fun method service e he => (r.quiet_resolver method service e he).level

namespace Change

/-- What the change adds to the log. -/
def entry? (c : Change) : Option LogEntry := c.occurrence?.bind Occurrence.entry?

/-- The alarm that is raised by the change. -/
def alarm? (c : Change) : Option LogEntry := c.entry?.filter LogEntry.isAlarm

theorem filterMap_alarm? (changes : List Change) :
    changes.filterMap alarm? = (changes.filterMap entry?).filter LogEntry.isAlarm :=
  List.filter_filterMap.symm

theorem alarm?_logged {entry : LogEntry} (h : entry.event.level = .debug) :
    alarm? (.noted (.logged entry)) = none := by
  simp [alarm?, entry?, occurrence?, Occurrence.entry?, LogEntry.isAlarm, Event.isAlarm, h]

theorem alarms_logChanges (span : Option Span) (events : List Event) :
    (logChanges span events).filterMap alarm? = (events.filter Event.isAlarm).map (⟨·, span⟩) := by
  have hentries : (logChanges span events).filterMap entry? = events.map (⟨·, span⟩) := by
    rw [logChanges, List.filterMap_map]
    exact congrFun List.filterMap_eq_map events
  rw [filterMap_alarm?, hentries, List.filter_map]
  rfl

end Change

namespace World

theorem entriesSince_replay (w : World) (changes : List Change) :
    (w.replay changes).entriesSince w = changes.filterMap Change.entry? := by
  rw [entriesSince, since, journal_replay, List.drop_left, List.filterMap_filterMap]
  rfl

/-- Changes that log only what is for developers raise no alarm. -/
theorem Logs.alarms_eq_nil {w : World} {changes : List Change} {P : Event → Prop}
    (h : w.Logs P (w.replay changes)) (hP : ∀ e, P e → e.level = .debug) :
    changes.filterMap Change.alarm? = [] := by
  have hlogged := h.entriesSince
  rw [entriesSince_replay] at hlogged
  rw [Change.filterMap_alarm?, List.filter_eq_nil_iff]
  intro entry hentry
  simp [LogEntry.isAlarm, Event.isAlarm, hP _ (hlogged entry hentry)]

end World

/-! ## The alarms of a turn -/

namespace Gate

variable {g : Gate}

theorem level_of_says (hq : g.resolver.IsQuiet) {call : Call} {e : Event} (h : g.Says call e) :
    e.level = .debug :=
  h.elim Event.Quiet.level (hq _ _ e)

theorem alarms_enterChanges (hq : g.resolver.IsQuiet) (shape : Shape) (call : Call) (w : World) :
    (g.enterChanges shape call w).filterMap Change.alarm? = [] := by
  have hlogs := g.logs_enter shape call w
  rw [world_enter] at hlogs
  exact hlogs.alarms_eq_nil fun _ => level_of_says hq

end Gate

namespace Job

/-- Neither letting the call in nor the handler itself raises an alarm, only the end of the call. -/
theorem alarms_ledger {j : Job α σ} (hq : j.gate.resolver.IsQuiet) (call : Passage α σ) (s : Scene α) :
    (j.ledger call s).changes.filterMap Change.alarm? =
      (j.report call s).closing.filterMap Change.alarm? := by
  have hopening : (j.report call s).opening.filterMap Change.alarm? = [] := by
    change (j.entryChanges call s).filterMap Change.alarm? = []
    rw [filterMap_entryChanges j fun _ => rfl]
    cases call with
    | arrived => exact Gate.alarms_enterChanges hq j.shape j.call s.world
    | running | settled => rfl
  rw [filterMap_ledger (fun _ => rfl) (fun _ _ => rfl) (fun _ => rfl), List.filterMap_append, hopening,
    List.nil_append]

/-- All that has been told of the end of a call is what is logged about the last turn of its handler. -/
theorem Explained.closing_eq {j : Job α σ} {call : Passage α σ} {opening closing : List Change}
    {fates : List TurnFate} {failures : List (Option Status)}
    (h : j.Explained call opening closing fates failures) :
    (∀ fate ∈ fates, fate = .goesOn) ∧ closing = [] ∨
      ∃ before fate ctx, fates = before ++ [fate] ∧ (∀ fate ∈ before, fate = .goesOn) ∧
        closing = logChanges (some (j.span ctx)) fate.event?.toList := by
  have goesOn {fates : List TurnFate} (h : ∀ fate ∈ fates, fate.isLast = false) :
      ∀ fate ∈ fates, fate = .goesOn := fun fate hfate => TurnFate.eq_goesOn (h fate hfate)
  cases h with
  | arrived | refused => exact Or.inl ⟨List.forall_mem_nil _, rfl⟩
  | running _ _ hgo => exact Or.inl ⟨goesOn hgo, rfl⟩
  | settled _ hgo _ => exact Or.inr ⟨_, _, _, rfl, goesOn hgo, rfl⟩

end Job

/-! ## The alarms of a call -/

/-- The alarm that is raised when a handler fares like that in its last turn. -/
def TurnFate.alarm? (fate : TurnFate) : Option Event := fate.event?.filter Event.isAlarm

/-- What is logged about a call that was let in is marked with the method and with the id of the call. -/
def Call.markedWith (call : Call) (id : CorrelationId) : Span := ⟨call.method, call.service, some id⟩

/-- The alarms of a call whose handler has fared like that: none, or the one of its last turn. -/
def Call.Raises (call : Call) (fates : List TurnFate) (alarms : List LogEntry) : Prop :=
  (∀ fate ∈ fates, fate.alarm? = none) ∧ alarms = [] ∨
    ∃ fate ∈ fates, ∃ id, (∀ fate' ∈ fates, fate' = fate ∨ fate'.alarm? = none) ∧
      alarms = fate.alarm?.toList.map fun e => ⟨e, some (call.markedWith id)⟩

namespace Call.Raises

variable {call : Call} {fates : List TurnFate} {alarms : List LogEntry}

theorem eq_singleton (h : call.Raises fates alarms) {fate : TurnFate} {e : Event} (hfate : fate ∈ fates)
    (he : fate.alarm? = some e) : ∃ id, alarms = [⟨e, some (call.markedWith id)⟩] := by
  rcases h with ⟨hquiet, -⟩ | ⟨last, -, id, hlast, rfl⟩
  · rw [hquiet fate hfate] at he
    cases he
  · rcases hlast fate hfate with rfl | hquiet
    · exact ⟨id, by rw [he]; rfl⟩
    · rw [hquiet] at he
      cases he

theorem eq_nil (h : call.Raises fates alarms) (hquiet : ∀ fate ∈ fates, fate.alarm? = none) :
    alarms = [] := by
  rcases h with ⟨-, hnothing⟩ | ⟨last, hmem, id, -, rfl⟩
  · exact hnothing
  · rw [hquiet last hmem]
    rfl

end Call.Raises

theorem Job.Explained.raises {j : Job α σ} {call : Passage α σ} {opening closing : List Change}
    {fates : List TurnFate} {failures : List (Option Status)}
    (h : j.Explained call opening closing fates failures) :
    j.call.Raises fates (closing.filterMap Change.alarm?) := by
  rcases h.closing_eq with ⟨hgo, rfl⟩ | ⟨before, fate, ctx, rfl, hgo, rfl⟩
  · exact Or.inl ⟨fun fate hfate => hgo fate hfate ▸ rfl, rfl⟩
  · refine Or.inr ⟨fate, List.mem_concat_self, ctx.correlation, fun fate' hfate' => ?_, ?_⟩
    · rcases List.mem_append.mp hfate' with hbefore | hlast
      · exact Or.inr (hgo fate' hbefore ▸ rfl)
      · exact Or.inl (List.mem_singleton.mp hlast)
    · rw [Change.alarms_logChanges, ← Option.toList_filter]
      rfl

theorem Undertaking.ExplainedBy.raises {g : Gate} {u : Undertaking} {reports : List TurnReport}
    (h : u.ExplainedBy g reports) :
    u.call.Raises (reports.flatMap TurnReport.fates)
      ((reports.flatMap TurnReport.closing).filterMap Change.alarm?) := by
  cases u with
  | direct shape call handler x => exact (Job.ExplainedBy.explained h).raises
  | served shape call handler x =>
    obtain ⟨passage, -, hE⟩ := h
    exact hE.explained.raises

namespace Traffic

variable {g : Gate}

/-- What is logged on account of one call in a run. -/
def callLog (g : Gate) (n : Nat) (w : World) (incidents : List Incident) : List LogEntry :=
  (callLedger g n w incidents).changes.filterMap Change.entry?

/-- A call raises the alarms that tell how its handler has fared. -/
theorem raises_callLog (hq : g.resolver.IsQuiet) {n : Nat} {w : World} {incidents : List Incident}
    {u : Undertaking} (hu : ((start w).run g incidents).calls[n]? = some u) :
    u.call.Raises ((callReports g n w incidents).flatMap TurnReport.fates)
      ((callLog g n w incidents).filter LogEntry.isAlarm) := by
  have halarms : (callLog g n w incidents).filter LogEntry.isAlarm =
      ((callReports g n w incidents).flatMap TurnReport.closing).filterMap Change.alarm? := by
    rw [callLog, ← Change.filterMap_alarm?]
    refine filterMap_callLedger g n w incidents (Change.alarm?_logged rfl) (Change.alarm?_logged rfl)
      (fun _ => rfl) fun j call s hj => ?_
    exact Job.alarms_ledger (hj ▸ hq) call s
  rw [halarms]
  exact (explainedBy_callReports hu).raises

/-! ## The alarms of a run -/

/-- Only one number in a range is a given one. -/
theorem flatMap_range_ite {β : Type} (m : Nat) (l : List β) (N : Nat) :
    ((List.range N).flatMap fun n => if m = n then l else []) = if m < N then l else [] := by
  induction N with
  | zero => rfl
  | succ N ih =>
    rw [List.range_succ, List.flatMap_append, ih, List.flatMap_singleton]
    rcases Nat.lt_trichotomy m N with h | h | h
    · rw [if_pos h, if_neg (Nat.ne_of_lt h), if_pos (Nat.lt_succ_of_lt h), List.append_nil]
    · rw [if_neg (h ▸ Nat.lt_irrefl m), if_pos h, if_pos (h ▸ Nat.lt_succ_self m), List.nil_append]
    · rw [if_neg (Nat.lt_asymm h), if_neg (Nat.ne_of_gt h), if_neg (Nat.not_lt.mpr h), List.append_nil]

theorem length_calls_run (t : Traffic) (incidents : List Incident) :
    t.calls.length ≤ (t.run g incidents).calls.length := by
  induction incidents generalizing t with
  | nil => exact Nat.le_refl _
  | cons i incidents ih =>
    refine Nat.le_trans ?_ (ih (t.step g i))
    rw [← Nat.not_lt]
    intro h
    have hnone := t.calls_step_none (g := g) i (List.getElem?_eq_none (Nat.le_refl _))
    exact absurd h (Nat.not_lt.mpr (List.getElem?_eq_none_iff.mp hnone))

section Shares

variable {β : Type} {f : Change → Option β}

/-- What does not show what is done without a call shows of an incident what it shows of the call that
moves, if there is one. -/
theorem filterMap_entries (h : ∀ (t : Traffic) (i : Incident), (∀ n move, i ≠ .move n move) →
      (t.entries g i).changes.filterMap f = []) (t : Traffic) (i : Incident) {N : Nat}
    (hN : t.calls.length ≤ N) :
    (t.entries g i).changes.filterMap f = (List.range N).flatMap fun n =>
      (Ledger.changes (t.listed (fun move w u => u.ledger g move w) n i)).filterMap f := by
  let inMove (move : Move) (w : World) (u : Undertaking) : Ledger := u.ledger g move w
  let shown (l : Ledger) : List β := l.changes.filterMap f
  by_cases hi : ∃ m move, i = .move m move
  · obtain ⟨m, move, rfl⟩ := hi
    have hlisted (n : Nat) : shown (t.listed inMove n (.move m move)) =
        if m = n then shown (t.entries g (.move m move)) else [] := by
      by_cases hn : m = n
      · subst hn
        rw [if_pos rfl, listed, if_pos rfl]
        rfl
      · rw [if_neg hn, listed, if_neg hn]
        rfl
    change shown _ = (List.range N).flatMap fun n => shown (t.listed inMove n (.move m move))
    simp only [hlisted, flatMap_range_ite]
    cases hu : t.calls[m]? with
    | none =>
      have hnothing : t.entries g (.move m move) = [] := by simp only [entries, hu]
      rw [hnothing]
      exact (ite_self []).symm
    | some u =>
      have hm : m < t.calls.length := (List.getElem?_eq_some_iff.mp hu).1
      exact (if_pos (Nat.lt_of_lt_of_le hm hN)).symm
  · have hi' (n : Nat) (move : Move) : i ≠ .move n move := fun he => hi ⟨n, move, he⟩
    have hlisted (n : Nat) : t.listed inMove n i = [] := by
      cases i with
      | move n move => exact absurd rfl (hi' n move)
      | _ => rfl
    rw [h t i hi']
    change [] = (List.range N).flatMap fun n => shown (t.listed inMove n i)
    simp only [hlisted]
    exact (List.flatMap_eq_nil_iff.mpr fun _ _ => rfl).symm

/-- What does not show what is done without a call shows of a run what it shows of its calls, if the
order is left open. -/
theorem perm_shares (h : ∀ (t : Traffic) (i : Incident), (∀ n move, i ≠ .move n move) →
      (t.entries g i).changes.filterMap f = []) (t : Traffic) (incidents : List Incident) :
    ((t.ledger g incidents).changes.filterMap f).Perm
      ((List.range (t.run g incidents).calls.length).flatMap fun n =>
        (Ledger.changes (share (fun move w u => u.ledger g move w) g n t incidents)).filterMap f) := by
  induction incidents generalizing t with
  | nil => exact .of_eq (List.flatMap_eq_nil_iff.mpr fun _ _ => rfl).symm
  | cons i incidents ih =>
    have hone := filterMap_entries h t i (t.length_calls_run (g := g) (i :: incidents))
    simp only [ledger, share, Ledger.changes_append, List.filterMap_append]
    refine List.Perm.trans ?_ (List.flatMap_append_perm _ _ _)
    exact (List.Perm.of_eq hone).append (ih (t.step g i))

end Shares

theorem alarms_entries (hq : g.resolver.IsQuiet) (t : Traffic) (i : Incident)
    (hi : ∀ n move, i ≠ .move n move) : (t.entries g i).changes.filterMap Change.alarm? = [] := by
  cases i with
  | lookUp method service =>
    have hlogs := g.logs_consult none (hq method service) t.world
    rw [Gate.world_consult] at hlogs
    rw [entries, Agent.changes_did]
    exact hlogs.alarms_eq_nil fun _ => id
  | screen call =>
    have hlogs := g.logs_screen none call t.world
    rw [Gate.world_screen] at hlogs
    rw [entries, Agent.changes_did]
    exact hlogs.alarms_eq_nil fun _ => Gate.level_of_says hq
  | setProfile | fire | make | serve => rfl
  | move n move => exact absurd rfl (hi n move)

/-- In all traffic, behind a gate whose resolver does not raise alarms, alarms are raised by the calls
alone. A call whose handler has run into an error raises one error, with the texts of all layers; a call
whose handler has panicked raises one too, with the text of the panic, if it has one; a call whose
handler has complained raises one warning, with the number of messages; and every other call, in
whatever way it was refused, cancelled or failed, raises none. How complaints are worded shows nowhere
in the world. -/
theorem log_severity (g : Gate) (hq : g.resolver.IsQuiet) (w : World) (incidents : List Incident) :
    let t := (start w).run g incidents
    let alarms (n : Nat) := (callLog g n w incidents).filter LogEntry.isAlarm
    ((t.world.entriesSince w).filter LogEntry.isAlarm).Perm
      ((List.range t.calls.length).flatMap alarms) ∧
    (∀ (n : Nat) (u : Undertaking), t.calls[n]? = some u →
      let fates := (callReports g n w incidents).flatMap TurnReport.fates
      let raisesOne (e : Event) := ∃ id, alarms n = [⟨e, some (u.call.markedWith id)⟩]
      let failed (layers : List String) := raisesOne (.unexpectedFailure ⟨layers⟩) ∧
        (Event.unexpectedFailure ⟨layers⟩).level = .error ∧
        (Event.unexpectedFailure ⟨layers⟩).text =
          "Unexpected handler failure: " ++ ": ".intercalate layers
      let complained (count : Nat) := raisesOne (.complaintRaised count) ∧
        (Event.complaintRaised count).level = .warn
      (∀ chain, .failed (.unexpected chain) ∈ fates → failed chain.layers) ∧
      (∀ message, .panicked (.text message) ∈ fates → failed ["handler panicked: " ++ message]) ∧
      (.panicked .other ∈ fates → failed ["handler panicked: non-string panic payload"]) ∧
      (∀ c, .failed (.complaint c) ∈ fates → complained c.messages.length) ∧
      ((∀ chain, .failed (.unexpected chain) ∉ fates) → (∀ payload, .panicked payload ∉ fates) →
        (∀ c, .failed (.complaint c) ∉ fates) → alarms n = [])) ∧
    ∀ incidents', List.Forall₂ Incident.Reworded incidents incidents' →
      ((start w).run g incidents').world = t.world := by
  intro t alarms
  refine ⟨?_, fun n u hu => ?_, fun incidents' hi => world_reworded ⟨rfl, .nil⟩ hi⟩
  · have hworld : t.world = w.replay ((start w).ledger g incidents).changes :=
      world_run (start w) incidents
    have hcalls := perm_shares (alarms_entries hq) (start w) incidents
    rw [hworld, World.entriesSince_replay, ← Change.filterMap_alarm?]
    refine hcalls.trans (.of_eq ?_)
    simp only [Change.filterMap_alarm?]
    rfl
  · intro fates raisesOne failed complained
    have hraises : u.call.Raises fates (alarms n) := raises_callLog hq hu
    refine ⟨fun chain hchain => ⟨hraises.eq_singleton hchain rfl, rfl, rfl⟩,
      fun message hmessage => ⟨hraises.eq_singleton hmessage rfl, rfl, rfl⟩,
      fun hother => ⟨hraises.eq_singleton hother rfl, rfl, rfl⟩,
      fun c hc => ⟨hraises.eq_singleton hc rfl, rfl⟩,
      fun hchain hpayload hc => hraises.eq_nil fun fate hfate => ?_⟩
    cases fate with
    | goesOn | dropped | returned => rfl
    | panicked payload => exact absurd hfate (hpayload payload)
    | failed error =>
      cases error with
      | handedOn | cancelled => rfl
      | complaint c => exact absurd hfate (hc c)
      | unexpected chain => exact absurd hfate (hchain chain)

/-- A complaint of two messages, worded in two ways, and beside it another handler's error and the panic
of a third one. -/
theorem log_severity_two_messages :
    let g : Gate := ⟨.standard, Registry.empty.resolver, false⟩
    let call : Call := ⟨"/shop.Orders/Watch", "shop.Orders", .empty, none, none, .own 0⟩
    let ending (e : Ending Nat) : Incident := .make .unary call (.sending [] e) none
    let incidents (c : Complaint) : List Incident :=
      [ending (.failed (.complaint c)), ending (.failed (.unexpected ⟨["no reply", "disk full"]⟩)),
        ending (.panicked (.text "index out of range")), .move 2 (.turn .handlerFirst),
        .move 1 (.turn .handlerFirst), .move 0 (.turn .handlerFirst)]
    let c : Complaint := ⟨["out of stock", "cart is empty"]⟩
    let c' : Complaint := ⟨["no such user", "wrong password"]⟩
    let raisesOne (n : Nat) (e : Event) := ∃ id,
      (callLog g n World.blank (incidents c)).filter LogEntry.isAlarm = [⟨e, some (call.markedWith id)⟩]
    let failed (layers : List String) : Event := .unexpectedFailure ⟨layers⟩
    raisesOne 0 (.complaintRaised 2) ∧ raisesOne 1 (failed ["no reply", "disk full"]) ∧
      (failed ["no reply", "disk full"]).text = "Unexpected handler failure: no reply: disk full" ∧
      raisesOne 2 (failed ["handler panicked: index out of range"]) ∧
      (failed ["handler panicked: index out of range"]).text =
        "Unexpected handler failure: handler panicked: index out of range" ∧
      ((start World.blank).run g (incidents c')).world =
        ((start World.blank).run g (incidents c)).world := by
  intro g call ending incidents c c' raisesOne failed
  obtain ⟨-, hcalls, hworld⟩ :=
    log_severity g Registry.empty.isQuiet_resolver World.blank (incidents c)
  obtain ⟨-, -, -, hcomplaint, -⟩ := hcalls 0 _ rfl
  obtain ⟨hchain, -⟩ := hcalls 1 _ rfl
  obtain ⟨-, hpanic, -⟩ := hcalls 2 _ rfl
  obtain ⟨hraised, -, htext⟩ := hchain ⟨["no reply", "disk full"]⟩ (by decide +kernel)
  obtain ⟨hpanicked, -, hpanictext⟩ := hpanic "index out of range" (by decide +kernel)
  refine ⟨(hcomplaint c (by decide +kernel)).1, hraised, htext, hpanicked, hpanictext,
    hworld (incidents c') ?_⟩
  have hcount : c'.messages.length = c.messages.length := rfl
  have hreworded : (ending (.failed (.complaint c))).Reworded (ending (.failed (.complaint c'))) :=
    .make .unary call none (Handler.reworded_sending (.complaint hcount) [])
  exact .cons hreworded (.cons (.same _) (.cons (.same _) (.cons (.same _) (.cons (.same _)
    (.cons (.same _) .nil)))))

end Traffic

end CallGate
