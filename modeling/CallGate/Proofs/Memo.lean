import CallGate.Proofs.Delivery

/-!
# What a gate remembers

A gate that remembers requirements asks its resolver once about each method, and keeps to the first
answer. Main statements: `Demand.perform_congr` says that what a gate answers depends on what it
remembers only through the requirement of the method in question, `recalls_performAll` what it
remembers after any demands, and `memo_transparent` that a gate which remembers answers like one that
does not and whose resolver keeps to its first answers.
-/

namespace CallGate

/-! ## Demands on a gate -/

/-- What may be demanded of a gate. -/
inductive Demand where
  /-- To say what a method requires. -/
  | lookUp (method service : String)
  /-- To screen a call. -/
  | screen (call : Call)
  /-- To let a call of the given shape in. -/
  | enter (shape : Shape) (call : Call)

/-- What comes of a demand. -/
inductive Answer where
  /-- The requirement of a method. -/
  | requirement (required : Requirement)
  /-- The context of a call that is admitted, or the status of one that is refused. -/
  | admission (result : Except Status Context)

/-- Demands that are made one after the other, each with the resolver of the gate at that time. -/
abbrev Agenda := List (Resolver × Demand)

namespace Demand

/-- The method about which a gate has to find something out, with its service. Infrastructure calls
are let in whatever their method requires. -/
def subject? (settings : Settings) : Demand → Option (String × String)
  | lookUp method service => some (method, service)
  | screen call => some (call.method, call.service)
  | enter shape call =>
    if shape.carriesInfrastructure && settings.isInfrastructure call.method then none
    else some (call.method, call.service)

/-- Meets the demand. -/
def perform (g : Gate) (w : World) : Demand → Answer × World
  | lookUp method service =>
    (.requirement (g.requirement method service w), g.consult none method service w)
  | screen call => (.admission (g.screen none call w).1, (g.screen none call w).2)
  | enter shape call => (.admission (g.enter shape call w).1, (g.enter shape call w).2)

end Demand

namespace Agenda

/-- Meets all demands, with gates of the given settings that remember or do not. -/
def performAll (settings : Settings) (remembers : Bool) : Agenda → World → List Answer × World
  | [], w => ([], w)
  | (resolver, demand) :: rest, w =>
    let now := demand.perform ⟨settings, resolver, remembers⟩ w
    let later := performAll settings remembers rest now.2
    (now.1 :: later.1, later.2)

/-- The methods that are looked up, each with what the resolver says about it at that time. -/
def lookUps (settings : Settings) (agenda : Agenda) : List ((String × String) × Requirement) :=
  agenda.filterMap fun step =>
    (step.2.subject? settings).map fun subject =>
      (subject, (step.1 subject.1 subject.2).requirement)

/-- The methods that are looked up. -/
def subjects (settings : Settings) (agenda : Agenda) : List (String × String) :=
  agenda.filterMap fun step => step.2.subject? settings

/-- The resolver that keeps to the first answer about each method that was looked up, and agrees with
the present one on the others. -/
def keeping (settings : Settings) (agenda : Agenda) (present : Resolver) : Resolver :=
  fun method service =>
    { present method service with
      requirement := (lookupEntry (method, service) (agenda.lookUps settings)).getD
        (present method service).requirement }

end Agenda

/-! ## The world apart from what is remembered -/

/-- The method, if the resolver was asked about one. -/
def Occurrence.resolution? : Occurrence → Option (String × String)
  | resolved method service => some (method, service)
  | _ => none

namespace World

variable (w : World)

/-- The methods about which the resolver was asked, the first one first. -/
def resolutions : List (String × String) := w.journal.filterMap Occurrence.resolution?

/-- The world without what is remembered, what the resolver was asked, and what was logged. -/
def unremembered : World :=
  { w with
    memo := .empty
    journal := w.journal.filter fun o => o.entry?.isNone && !o.isResolution }

@[simp] theorem unremembered_log (span : Option Span) (e : Event) :
    (w.log span e).unremembered = w.unremembered := by
  simp [unremembered, log, note, Occurrence.entry?]

@[simp] theorem unremembered_logAll (span : Option Span) (events : List Event) :
    (w.logAll span events).unremembered = w.unremembered := by
  induction events generalizing w with
  | nil => rfl
  | cons e events ih => exact (ih (w.log span e)).trans (unremembered_log w span e)

@[simp] theorem unremembered_note_resolved (method service : String) :
    (w.note (.resolved method service)).unremembered = w.unremembered := by
  simp [unremembered, note, Occurrence.isResolution]

@[simp] theorem unremembered_drawId : w.drawId.unremembered = w.unremembered.drawId := rfl

@[simp] theorem unremembered_setProfile (p : PrincipalId) (locale : Locale) :
    (w.setProfile p locale).unremembered = w.unremembered.setProfile p locale := rfl

@[simp] theorem unremembered_ask (p : PrincipalId) (question : Requirement) :
    (w.ask p question).unremembered = w.unremembered.ask p question := by
  simp only [unremembered, ask, note, List.filter_append]
  rfl

theorem answer_unremembered (p : PrincipalId) (question : Requirement) :
    w.unremembered.answer p question = w.answer p question := rfl

theorem nextId_unremembered : w.unremembered.nextId = w.nextId := rfl

theorem inquiries_unremembered : w.unremembered.inquiries = w.inquiries := by
  unfold inquiries unremembered
  rw [List.filterMap_filter]
  congr 1
  funext o
  cases o <;> rfl

end World

namespace Gate

variable {g g' : Gate} {shape : Shape} {call : Call} {w w' : World}

theorem unremembered_consult (span : Option Span) (method service : String) (w : World) :
    (g.consult span method service w).unremembered = w.unremembered := by
  have hask : (g.askResolver span method service w).unremembered = w.unremembered := by
    unfold askResolver
    rw [World.unremembered_logAll, World.unremembered_note_resolved]
  unfold consult
  split
  · split
    · rfl
    · exact hask
  · exact hask

theorem unremembered_record (span : Option Span) (e : Enrichment)
    (h : w.unremembered = w'.unremembered) :
    (record span e w).unremembered = (record span e w').unremembered := by
  unfold record
  cases e.context.principal with
  | none => simpa using h
  | some p => cases e.profile <;> simp [h]

theorem unremembered_afterDecision (span : Option Span) (principal : Option PrincipalId)
    (r : Requirement) (h : w.unremembered = w'.unremembered) :
    (w.afterDecision span principal r).unremembered =
      (w'.afterDecision span principal r).unremembered := by
  have hanswer (p : PrincipalId) : w.answer p r = w'.answer p r := by
    rw [← w.answer_unremembered, h, w'.answer_unremembered]
  unfold World.afterDecision
  split
  · exact h
  · cases principal with
    | none => simpa using h
    | some p =>
      dsimp only
      rw [hanswer]
      split <;> simp [h]

/-- What comes of screening a call depends on what is remembered only through what is required. -/
theorem screen_congr (span : Option Span) (hsettings : g'.settings = g.settings)
    (h : w.unremembered = w'.unremembered)
    (hr : g'.requirement call.method call.service w' = g.requirement call.method call.service w) :
    (g.screen span call w).1 = (g'.screen span call w').1 ∧
      (g.screen span call w).2.unremembered = (g'.screen span call w').2.unremembered := by
  have hid : w'.nextId = w.nextId := by
    rw [← w'.nextId_unremembered, ← h, w.nextId_unremembered]
  have hasking : (g.screeningWorld span call w).unremembered =
      (g'.screeningWorld span call w').unremembered := by
    unfold screeningWorld
    rw [unremembered_consult, unremembered_consult, hid, hsettings]
    exact unremembered_record span _ (by simp [h])
  have hanswer (p : PrincipalId) (question : Requirement) :
      (g.screeningWorld span call w).answer p question =
        (g'.screeningWorld span call w').answer p question := by
    rw [← World.answer_unremembered, hasking, World.answer_unremembered]
  rw [screen_eq, screen_eq]
  simp only [hr, hid, hsettings]
  constructor
  · simp only [World.decision, hanswer]
  · exact unremembered_afterDecision span call.principal _ hasking

theorem enter_congr (shape : Shape) (hsettings : g'.settings = g.settings) (h : w.unremembered = w'.unremembered)
    (hr : ¬ (shape.carriesInfrastructure && g.settings.isInfrastructure call.method) = true →
      g'.requirement call.method call.service w' = g.requirement call.method call.service w) :
    (g.enter shape call w).1 = (g'.enter shape call w').1 ∧
      (g.enter shape call w).2.unremembered = (g'.enter shape call w').2.unremembered := by
  unfold enter
  rw [hsettings]
  split
  · have hid : w'.nextId = w.nextId := by
      rw [← w'.nextId_unremembered, ← h, w.nextId_unremembered]
    exact ⟨by rw [hid], by simp [h]⟩
  · rename_i hb
    exact screen_congr _ hsettings h (hr hb)

end Gate

namespace Demand

variable {g g' : Gate} {w w' : World}

/-- What comes of a demand depends on what is remembered only through what is required of the method
in question. -/
theorem perform_congr (demand : Demand) (hsettings : g'.settings = g.settings)
    (h : w.unremembered = w'.unremembered)
    (hr : ∀ method service, demand.subject? g.settings = some (method, service) →
      g'.requirement method service w' = g.requirement method service w) :
    (demand.perform g w).1 = (demand.perform g' w').1 ∧
      (demand.perform g w).2.unremembered = (demand.perform g' w').2.unremembered := by
  cases demand with
  | lookUp method service =>
    simp only [perform, hr method service rfl, true_and]
    rw [Gate.unremembered_consult, Gate.unremembered_consult, h]
  | screen call =>
    obtain ⟨hanswer, hworld⟩ := Gate.screen_congr none hsettings h (hr call.method call.service rfl)
    exact ⟨congrArg Answer.admission hanswer, hworld⟩
  | enter shape call =>
    obtain ⟨hanswer, hworld⟩ := Gate.enter_congr shape hsettings h fun hb =>
      hr call.method call.service (if_neg hb)
    exact ⟨congrArg Answer.admission hanswer, hworld⟩

theorem prefix_journal_perform (demand : Demand) (g : Gate) (w : World) :
    w.journal <+: (demand.perform g w).2.journal := by
  cases demand with
  | lookUp method service => exact g.prefix_journal_consult none method service w
  | screen call => exact g.prefix_journal_screen none call w
  | enter shape call => exact g.prefix_journal_enter shape call w

end Demand

/-! ## What is remembered -/

theorem lookupEntry_append {κ β : Type} [DecidableEq κ] (k : κ) (entries more : List (κ × β)) :
    lookupEntry k (entries ++ more) = (lookupEntry k entries).or (lookupEntry k more) := by
  induction entries with
  | nil => rfl
  | cons entry entries ih =>
    by_cases h : entry.1 = k <;> simp [lookupEntry, h, ih]

theorem isSome_lookupEntry_iff {κ β : Type} [DecidableEq κ] (k : κ) (entries : List (κ × β)) :
    (lookupEntry k entries).isSome = true ↔ k ∈ entries.map Prod.fst := by
  induction entries with
  | nil => simp [lookupEntry]
  | cons entry entries ih =>
    by_cases h : entry.1 = k
    · simp [lookupEntry, h]
    · have h' : ¬ k = entry.1 := fun e => h e.symm
      simp [lookupEntry, h, h', ih]

/-- Of a method that was looked up before, there is nothing to find out; about any other the resolver
is asked, and its answer is remembered. -/
structure Gate.Learns (g : Gate) (subject : Option (String × String)) (w after : World) : Prop where
  known : ∀ s, subject = some s → (w.memo.get? s).isSome = true →
    after.memo = w.memo ∧ after.resolutions = w.resolutions
  new : ∀ s, subject = some s → w.memo.get? s = none →
    after.memo = w.memo.insert s (g.resolver s.1 s.2).requirement ∧
      after.resolutions = w.resolutions ++ [s]
  nothing : subject = none → after.memo = w.memo ∧ after.resolutions = w.resolutions

namespace Gate

variable {g : Gate}

theorem learns_of_eq {subject : Option (String × String)} {w after w' after' : World}
    (h : g.Learns subject w after) (hm : w'.memo = w.memo) (hr : w'.resolutions = w.resolutions)
    (hm' : after'.memo = after.memo) (hr' : after'.resolutions = after.resolutions) :
    g.Learns subject w' after' := by
  obtain ⟨hknown, hnew, hnothing⟩ := h
  constructor
  · intro s hs hsome
    rw [hm', hr', hm, hr]
    exact hknown s hs (hm ▸ hsome)
  · intro s hs hnone
    rw [hm', hr', hm, hr]
    exact hnew s hs (hm ▸ hnone)
  · intro hs
    rw [hm', hr', hm, hr]
    exact hnothing hs

theorem resolutions_askResolver (span : Option Span) (method service : String) (w : World) :
    (g.askResolver span method service w).resolutions = w.resolutions ++ [(method, service)] := by
  have hevents : ((g.resolver method service).events.map fun e =>
      Occurrence.logged ⟨e, span⟩).filterMap Occurrence.resolution? = [] := by
    rw [List.filterMap_eq_nil_iff]
    intro o ho
    obtain ⟨e, -, rfl⟩ := List.mem_map.mp ho
    rfl
  rw [askResolver, World.resolutions, World.journal_logAll, World.journal_note,
    List.filterMap_append, List.filterMap_append, hevents, List.append_nil]
  rfl

theorem learns_consult (hg : g.remembers = true) (span : Option Span) (method service : String)
    (w : World) : g.Learns (some (method, service)) w (g.consult span method service w) := by
  unfold consult
  rw [if_pos hg]
  constructor
  · rintro s ⟨⟩ hsome
    obtain ⟨r, hr⟩ := Option.isSome_iff_exists.mp hsome
    simp only [hr, and_self]
  · rintro s ⟨⟩ hnone
    simp only [hnone, true_and]
    exact resolutions_askResolver span method service w
  · intro hnothing
    cases hnothing

theorem resolutions_afterDecision (w : World) (span : Option Span) (principal : Option PrincipalId)
    (r : Requirement) : (w.afterDecision span principal r).resolutions = w.resolutions := by
  unfold World.afterDecision World.resolutions
  split
  · rfl
  · cases principal with
    | none => simp [Occurrence.resolution?]
    | some p =>
      dsimp only
      split <;> simp [Occurrence.resolution?]

theorem memo_afterDecision (w : World) (span : Option Span) (principal : Option PrincipalId)
    (r : Requirement) : (w.afterDecision span principal r).memo = w.memo := by
  unfold World.afterDecision
  split
  · rfl
  · cases principal with
    | none => rfl
    | some p =>
      dsimp only
      split <;> rfl

theorem learns_screen (hg : g.remembers = true) (span : Option Span) (call : Call) (w : World) :
    g.Learns (some (call.method, call.service)) w (g.screen span call w).2 := by
  have hrecord (e : Enrichment) : (record span e w.drawId).memo = w.memo ∧
      (record span e w.drawId).resolutions = w.resolutions :=
    ⟨((World.DecidesAlike.drawId w).trans (.record span e _)).memo,
      filterMap_record (fun _ => rfl) span e w.drawId⟩
  rw [screen_eq]
  refine learns_of_eq (learns_consult hg span call.method call.service _) ?_ ?_
    (memo_afterDecision _ span _ _) (resolutions_afterDecision _ span _ _)
  · exact (hrecord _).1.symm
  · exact (hrecord _).2.symm

end Gate

theorem Demand.learns_perform {g : Gate} (hg : g.remembers = true) (demand : Demand) (w : World) :
    g.Learns (demand.subject? g.settings) w (demand.perform g w).2 := by
  cases demand with
  | lookUp method service => exact Gate.learns_consult hg none method service w
  | screen call => exact Gate.learns_screen hg none call w
  | enter shape call =>
    simp only [subject?, perform, Gate.enter]
    split
    · -- An infrastructure call draws an id and is logged, and that is all.
      have hr : ((w.drawId.log (some (Gate.callSpan call)) .infrastructureCall)).resolutions =
          w.resolutions := by
        simp [World.resolutions, Occurrence.resolution?]
      exact ⟨(fun _ h => nomatch h), (fun _ h => nomatch h), fun _ => ⟨rfl, hr⟩⟩
    · exact Gate.learns_screen hg _ call w

/-- The world remembers the first answer about each method that was looked up since `start`, when
nothing was remembered, and the resolver was asked about each of them once. -/
structure Recalls (settings : Settings) (past : Agenda) (start w : World) : Prop where
  get? : ∀ subject, w.memo.get? subject = lookupEntry subject (past.lookUps settings)
  keys : w.memo.keys = (past.subjects settings).eraseDups
  resolutions : w.resolutions = start.resolutions ++ w.memo.keys
  journal : start.journal <+: w.journal

namespace Agenda

variable {settings : Settings}

theorem subjects_eq (agenda : Agenda) :
    agenda.subjects settings = (agenda.lookUps settings).map Prod.fst := by
  unfold subjects lookUps
  rw [List.map_filterMap]
  congr 1
  funext step
  cases step.2.subject? settings <;> rfl

theorem lookUps_append (agenda more : Agenda) :
    lookUps settings (agenda ++ more) = agenda.lookUps settings ++ more.lookUps settings :=
  List.filterMap_append

theorem subjects_append (agenda more : Agenda) :
    subjects settings (agenda ++ more) = agenda.subjects settings ++ more.subjects settings :=
  List.filterMap_append

end Agenda

theorem eraseDups_append_of_mem {β : Type} [BEq β] [LawfulBEq β] {xs : List β} {x : β} (h : x ∈ xs) :
    (xs ++ [x]).eraseDups = xs.eraseDups := by
  simp [List.eraseDups_append, List.removeAll, h]

theorem eraseDups_append_of_not_mem {β : Type} [BEq β] [LawfulBEq β] {xs : List β} {x : β}
    (h : x ∉ xs) : (xs ++ [x]).eraseDups = xs.eraseDups ++ [x] := by
  simp [List.eraseDups_append, List.removeAll, h, List.eraseDups_cons]

section Recalls

variable {settings : Settings} {past : Agenda} {start w after : World} {step : Resolver × Demand}

theorem Recalls.isSome_get?_iff (h : Recalls settings past start w) (subject : String × String) :
    (w.memo.get? subject).isSome = true ↔ subject ∈ past.subjects settings := by
  rw [h.get?, isSome_lookupEntry_iff, Agenda.subjects_eq]

/-- A demand that looks nothing up leaves everything as it was. -/
theorem recalls_of_nothing (h : Recalls settings past start w)
    (hs : step.2.subject? settings = none) (hmemo : after.memo = w.memo)
    (hres : after.resolutions = w.resolutions) (hjournal : start.journal <+: after.journal) :
    Recalls settings (past ++ [step]) start after := by
  have hl : Agenda.lookUps settings [step] = [] := by simp [Agenda.lookUps, hs]
  have hp : Agenda.subjects settings [step] = [] := by simp [Agenda.subjects, hs]
  constructor
  · intro subject
    rw [hmemo, h.get?, Agenda.lookUps_append, hl, List.append_nil]
  · rw [hmemo, h.keys, Agenda.subjects_append, hp, List.append_nil]
  · rw [hres, hmemo, h.resolutions]
  · exact hjournal

/-- A method that is looked up again is not entered again. -/
theorem recalls_of_known (h : Recalls settings past start w) {s : String × String}
    (hs : step.2.subject? settings = some s) (hold : (w.memo.get? s).isSome = true)
    (hmemo : after.memo = w.memo) (hres : after.resolutions = w.resolutions)
    (hjournal : start.journal <+: after.journal) :
    Recalls settings (past ++ [step]) start after := by
  have hl : Agenda.lookUps settings [step] = [(s, (step.1 s.1 s.2).requirement)] := by
    simp [Agenda.lookUps, hs]
  have hp : Agenda.subjects settings [step] = [s] := by simp [Agenda.subjects, hs]
  constructor
  · intro subject
    rw [hmemo, Agenda.lookUps_append, hl, lookupEntry_append, ← h.get?]
    by_cases he : s = subject
    · -- The first answer about the method takes precedence over the present one.
      obtain ⟨r, hr⟩ := Option.isSome_iff_exists.mp hold
      rw [← he, hr]
      rfl
    · simp [lookupEntry, he]
  · rw [hmemo, h.keys, Agenda.subjects_append, hp,
      eraseDups_append_of_mem ((h.isSome_get?_iff s).mp hold)]
  · rw [hres, hmemo, h.resolutions]
  · exact hjournal

/-- A method that is looked up for the first time is entered with the present answer. -/
theorem recalls_of_new (h : Recalls settings past start w) {s : String × String}
    (hs : step.2.subject? settings = some s) (hold : w.memo.get? s = none)
    (hmemo : after.memo = w.memo.insert s (step.1 s.1 s.2).requirement)
    (hres : after.resolutions = w.resolutions ++ [s]) (hjournal : start.journal <+: after.journal) :
    Recalls settings (past ++ [step]) start after := by
  have hl : Agenda.lookUps settings [step] = [(s, (step.1 s.1 s.2).requirement)] := by
    simp [Agenda.lookUps, hs]
  have hp : Agenda.subjects settings [step] = [s] := by simp [Agenda.subjects, hs]
  have hnew : s ∉ past.subjects settings := by
    rw [← h.isSome_get?_iff, hold]
    exact Bool.false_ne_true
  have hkeys : after.memo.keys = w.memo.keys ++ [s] := by
    have hnkeys : s ∉ w.memo.keys := by
      rw [h.keys, List.mem_eraseDups]
      exact hnew
    rw [hmemo, Table.keys_insert, if_neg hnkeys]
  constructor
  · intro subject
    rw [hmemo, Table.get?_insert, Agenda.lookUps_append, hl, lookupEntry_append, ← h.get?]
    by_cases he : s = subject
    · rw [← he, hold]
      simp [lookupEntry]
    · simp [lookupEntry, he]
  · rw [hkeys, h.keys, Agenda.subjects_append, hp, eraseDups_append_of_not_mem hnew]
  · rw [hres, hkeys, h.resolutions, List.append_assoc]
  · exact hjournal

theorem recalls_perform (resolver : Resolver) (demand : Demand) (h : Recalls settings past start w) :
    Recalls settings (past ++ [(resolver, demand)]) start
      (demand.perform ⟨settings, resolver, true⟩ w).2 := by
  obtain ⟨hknown, hnew, hnothing⟩ :=
    demand.learns_perform (g := ⟨settings, resolver, true⟩) rfl w
  have hjournal := h.journal.trans (demand.prefix_journal_perform ⟨settings, resolver, true⟩ w)
  cases hs : demand.subject? settings with
  | none =>
    obtain ⟨hmemo, hres⟩ := hnothing hs
    exact recalls_of_nothing h hs hmemo hres hjournal
  | some s =>
    cases hold : w.memo.get? s with
    | some r =>
      have hsome : (w.memo.get? s).isSome = true := by rw [hold]; rfl
      obtain ⟨hmemo, hres⟩ := hknown s hs hsome
      exact recalls_of_known h hs hsome hmemo hres hjournal
    | none =>
      obtain ⟨hmemo, hres⟩ := hnew s hs hold
      exact recalls_of_new h hs hold hmemo hres hjournal

end Recalls

theorem recalls_performAll {settings : Settings} {start : World} (agenda : Agenda) {past : Agenda}
    {w : World} (h : Recalls settings past start w) :
    Recalls settings (past ++ agenda) start (agenda.performAll settings true w).2 := by
  induction agenda generalizing past w with
  | nil => rwa [List.append_nil]
  | cons step agenda ih =>
    rw [List.append_cons]
    exact ih (recalls_perform step.1 step.2 h)

theorem recalls_nothing {settings : Settings} {w : World} (hw : w.memo = .empty) :
    Recalls settings [] w w where
  get? subject := by rw [hw]; rfl
  keys := by rw [hw]; rfl
  resolutions := by rw [hw, Table.keys_empty, List.append_nil]
  journal := List.prefix_refl _

/-! ## First answers -/

namespace Agenda

variable {settings : Settings} {agenda : Agenda} {resolver : Resolver}

/-- The first answer about a method is the one that counts. -/
theorem keeping_of_first {before after : Agenda} {first : Resolver × Demand} {method service : String}
    (hs : first.2.subject? settings = some (method, service))
    (hnew : (method, service) ∉ before.subjects settings) :
    (keeping settings (before ++ first :: after) resolver method service).requirement =
      (first.1 method service).requirement := by
  have hbefore : lookupEntry (method, service) (before.lookUps settings) = none := by
    rw [← Option.not_isSome_iff_eq_none, isSome_lookupEntry_iff, ← subjects_eq]
    exact hnew
  have hfirst : lookUps settings (first :: after) =
      ((method, service), (first.1 method service).requirement) :: after.lookUps settings := by
    simp [lookUps, hs]
  simp [keeping, lookUps_append, lookupEntry_append, hbefore, hfirst, lookupEntry]

theorem keeping_of_not_mem {method service : String}
    (h : (method, service) ∉ agenda.subjects settings) :
    (agenda.keeping settings resolver method service).requirement =
      (resolver method service).requirement := by
  have hnone : lookupEntry (method, service) (agenda.lookUps settings) = none := by
    rw [← Option.not_isSome_iff_eq_none, isSome_lookupEntry_iff, ← subjects_eq]
    exact h
  rw [keeping, hnone, Option.getD_none]

/-- Of a resolver that never changes, every answer is the first one. -/
theorem keeping_same (h : ∀ step ∈ agenda, step.1 = resolver) :
    agenda.keeping settings resolver = resolver := by
  have hlook (subject : String × String) (r : Requirement)
      (hr : lookupEntry subject (agenda.lookUps settings) = some r) :
      r = (resolver subject.1 subject.2).requirement := by
    induction agenda with
    | nil => cases hr
    | cons step agenda ih =>
      have hstep := h step List.mem_cons_self
      have hrest := ih fun later hlater => h later (List.mem_cons_of_mem _ hlater)
      cases hs : step.2.subject? settings with
      | none =>
        rw [lookUps, List.filterMap_cons_none (by rw [hs]; rfl)] at hr
        exact hrest hr
      | some s =>
        rw [lookUps, List.filterMap_cons_some (by rw [hs]; rfl), lookupEntry] at hr
        split at hr
        · next he =>
          cases hr
          rw [hstep, ← he]
        · exact hrest hr
  funext method service
  unfold keeping
  cases hl : lookupEntry (method, service) (agenda.lookUps settings) with
  | none => rfl
  | some r => rw [Option.getD_some, hlook _ r hl]

end Agenda

namespace Recalls

variable {settings : Settings} {past : Agenda} {start w w' : World}

theorem requirement (h : Recalls settings past start w) (resolver : Resolver)
    (method service : String) :
    (⟨settings, resolver, true⟩ : Gate).requirement method service w =
      (past.keeping settings resolver method service).requirement := by
  simp only [Gate.requirement, if_true, h.get?, Agenda.keeping]

/-- A gate that remembers meets a demand like one that does not and whose resolver keeps to its first
answers. -/
theorem perform (h : Recalls settings past start w) (resolver : Resolver)
    (hw : w.unremembered = w'.unremembered) (demand : Demand) :
    let now := demand.perform ⟨settings, resolver, true⟩ w
    let plain := demand.perform ⟨settings, past.keeping settings resolver, false⟩ w'
    now.1 = plain.1 ∧ now.2.unremembered = plain.2.unremembered :=
  demand.perform_congr rfl hw fun method service _ => (h.requirement resolver method service).symm

theorem performAll {resolver : Resolver} {agenda : Agenda} (h : Recalls settings past start w)
    (hpast : ∀ step ∈ past, step.1 = resolver) (hall : ∀ step ∈ agenda, step.1 = resolver)
    (hw : w.unremembered = w'.unremembered) :
    let remembered := agenda.performAll settings true w
    let plain := agenda.performAll settings false w'
    remembered.1 = plain.1 ∧ remembered.2.unremembered = plain.2.unremembered := by
  induction agenda generalizing past w w' with
  | nil => exact ⟨rfl, hw⟩
  | cons step agenda ih =>
    obtain ⟨resolver', demand⟩ := step
    obtain rfl : resolver' = resolver := hall _ List.mem_cons_self
    -- So far the resolver has been the same, so keeping to its first answers changes nothing.
    have hnow := h.perform resolver' hw demand
    rw [Agenda.keeping_same hpast] at hnow
    have hpast' : ∀ step ∈ past ++ [(resolver', demand)], step.1 = resolver' := by
      intro step hstep
      rcases List.mem_append.mp hstep with hstep | hstep
      · exact hpast step hstep
      · rw [List.mem_singleton.mp hstep]
    have hlater := ih (recalls_perform resolver' demand h) hpast'
      (fun step hstep => hall step (List.mem_cons_of_mem _ hstep)) hnow.2
    exact ⟨List.cons_eq_cons.mpr ⟨hnow.1, hlater.1⟩, hlater.2⟩

/-- The resolver was asked as often as there are methods that were looked up. -/
theorem resolutionsSince (h : Recalls settings past start w) :
    w.resolutionsSince start = (past.subjects settings).eraseDups.length := by
  have hadded := (World.filterMap_journal_eq h.journal Occurrence.resolution?).symm.trans h.resolutions
  have hp : Occurrence.isResolution = fun o => (Occurrence.resolution? o).isSome := by
    funext o
    cases o <;> rfl
  rw [World.resolutionsSince, hp, ← List.length_filterMap_eq_countP,
    List.append_cancel_left hadded, h.keys]

end Recalls

theorem World.inquiries_principals_of_unremembered {w w' : World}
    (h : w.unremembered = w'.unremembered) :
    w.inquiries = w'.inquiries ∧ w.principals = w'.principals := by
  constructor
  · rw [← w.inquiries_unremembered, h, w'.inquiries_unremembered]
  · change w.unremembered.principals = w'.unremembered.principals
    rw [h]

/-- Whatever is demanded of a gate that remembers requirements and remembers none at first: while its
resolver stays the same, it answers, asks principals and sets profiles as it would without
remembering. The resolver is asked as often, and as many requirements are remembered, as different
methods were looked up. When the resolver changes, what it said when a method was looked up first
holds for that method, and what it says now for the others: every further demand is met as by a gate
that does not remember and whose resolver answers so. -/
theorem memo_transparent (settings : Settings) {w : World} (hw : w.memo = .empty) (agenda : Agenda) :
    let remembered := agenda.performAll settings true w
    let plain := agenda.performAll settings false w
    let pairs := agenda.subjects settings
    (∀ resolver, (∀ step ∈ agenda, step.1 = resolver) →
      remembered.1 = plain.1 ∧ remembered.2.inquiries = plain.2.inquiries ∧
        remembered.2.principals = plain.2.principals) ∧
    remembered.2.resolutionsSince w = pairs.eraseDups.length ∧
    remembered.2.memo.size = pairs.eraseDups.length ∧
    ∀ resolver,
      let gate : Gate := ⟨settings, resolver, true⟩
      (∀ (before after : Agenda) first method service, agenda = before ++ first :: after →
        first.2.subject? settings = some (method, service) →
        (method, service) ∉ before.subjects settings →
        gate.requirement method service remembered.2 = (first.1 method service).requirement) ∧
      (∀ method service, (method, service) ∉ pairs →
        gate.requirement method service remembered.2 = (resolver method service).requirement) ∧
      ∀ demand : Demand,
        let now := demand.perform gate remembered.2
        let kept := demand.perform ⟨settings, agenda.keeping settings resolver, false⟩ remembered.2
        now.1 = kept.1 ∧ now.2.inquiries = kept.2.inquiries ∧
          now.2.principals = kept.2.principals := by
  intro remembered plain pairs
  have h : Recalls settings agenda w remembered.2 := recalls_performAll agenda (recalls_nothing hw)
  refine ⟨?_, h.resolutionsSince, ?_, ?_⟩
  · intro resolver hall
    obtain ⟨hanswers, hworld⟩ :=
      (recalls_nothing hw).performAll (fun _ hstep => nomatch hstep) hall rfl
    exact ⟨hanswers, World.inquiries_principals_of_unremembered hworld⟩
  · rw [Table.size_eq_length_keys, h.keys]
  · intro resolver gate
    refine ⟨?_, ?_, ?_⟩
    · rintro before after first method service rfl hs hnew
      exact (h.requirement resolver method service).trans (Agenda.keeping_of_first hs hnew)
    · intro method service hnew
      exact (h.requirement resolver method service).trans (Agenda.keeping_of_not_mem hnew)
    · intro demand now kept
      obtain ⟨hanswer, hworld⟩ := h.perform resolver rfl demand
      exact ⟨hanswer, World.inquiries_principals_of_unremembered hworld⟩

/-- A method that was looked up before anything was declared stays open to everybody, and the one
that was not is protected. The infrastructure call in between is not looked up. -/
theorem memo_transparent_redeclared :
    let undeclared : Resolver := fun _ _ => ⟨.free, []⟩
    let declared : Resolver := fun _ _ => ⟨.of "order" ["read"], []⟩
    let reflection : Call := ⟨Settings.reflectionPath, "shop.Orders", .empty, none, none, .own 0⟩
    let agenda : Agenda := [(undeclared, .lookUp "/shop.Orders/Watch" "shop.Orders"),
      (declared, .enter .duplex reflection), (declared, .lookUp "/shop.Orders/Watch" "shop.Orders")]
    let w := (agenda.performAll .standard true World.blank).2
    let gate : Gate := ⟨.standard, declared, true⟩
    World.blank.memo = .empty ∧ w.resolutionsSince World.blank = 1 ∧
      gate.requirement "/shop.Orders/Watch" "shop.Orders" w = .free ∧
      gate.requirement "/shop.Orders/Cancel" "shop.Orders" w = .of "order" ["read"] := by
  intro undeclared declared reflection agenda w gate
  obtain ⟨-, hcount, -, hchanged⟩ := memo_transparent .standard (w := World.blank) rfl agenda
  obtain ⟨hfirst, hpresent, -⟩ := hchanged declared
  refine ⟨rfl, hcount.trans (by decide +kernel), ?_, ?_⟩
  · exact hfirst [] _ _ "/shop.Orders/Watch" "shop.Orders" rfl rfl (by decide)
  · exact hpresent "/shop.Orders/Cancel" "shop.Orders" (by decide +kernel)

end CallGate
