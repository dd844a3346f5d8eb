import CallGate.Proofs.Independence

/-!
# Which locale a profile holds

The profile of a principal is set by whoever may set profiles, and by a gate when a call comes before
it. Main statements: `notice_eq_some_iff` says which call sets which profile, `profile_run` that a run
changes profiles by its updates and by nothing else, and `profile_latest` that a profile always holds
the locale of the latest update, and a context that of the update which its own call has made.
-/

namespace CallGate

/-- What a profile is set to: whose, and to which locale. -/
abbrev ProfileUpdate := PrincipalId × Locale

/-- The locale of the latest update of a principal's profile. -/
def latest (p : PrincipalId) (updates : List ProfileUpdate) : Option Locale :=
  (updates.filterMap fun update => if update.1 = p then some update.2 else none).getLast?

theorem latest_append (p : PrincipalId) (updates more : List ProfileUpdate) :
    latest p (updates ++ more) = (latest p more).or (latest p updates) := by
  unfold latest
  rw [List.filterMap_append, List.getLast?_append]

theorem latest_singleton (p q : PrincipalId) (locale : Locale) :
    latest p [(q, locale)] = if q = p then some locale else none := by
  by_cases h : q = p <;> simp [latest, h]

/-! ## Updates -/

/-- The update that a change is. -/
def Change.update? : Change → Option ProfileUpdate
  | profileSet p locale => some (p, locale)
  | _ => none

/-- The update that a happening in a call is. -/
def Happening.update? {α : Type} : Happening α → Option ProfileUpdate
  | profileSet p locale => some (p, locale)
  | _ => none

/-- The update that a call makes by coming before a gate: the profile of its principal is set to the
locale that it asks for. -/
def Gate.notice (g : Gate) (a : Approach) (call : Call) : Option ProfileUpdate :=
  if g.bypasses a.shape call then none
  else
    match call.principal, (g.settings.culture call.metadata).accepted? with
    | some p, some locale => some (p, locale)
    | _, _ => none

namespace Job

variable {α σ : Type} (j : Job α σ)

/-- The updates in a turn of a call: that of the gate comes first. -/
def updates (call : Passage α σ) (s : Scene α) : List ProfileUpdate :=
  (match call with
    | .arrived => (j.gate.notice (.entering j.shape) j.call).toList
    | _ => []) ++ (j.deeds call s).filterMap Happening.update?

end Job

namespace Traffic

variable (g : Gate)

/-- The updates in an incident. -/
def updatesIn (t : Traffic) : Incident → List ProfileUpdate
  | .screen call => (g.notice (.screening none) call).toList
  | .setProfile p locale => [(p, locale)]
  | .move n move =>
    match t.calls[n]? with
    | none => []
    | some u => u.collect (fun j => j.updates) g move t.world
  | _ => []

/-- The updates in a run, the first one first. -/
def updates : Traffic → List Incident → List ProfileUpdate
  | _, [] => []
  | t, i :: incidents => t.updatesIn g i ++ updates (t.step g i) incidents

end Traffic

/-! ## What changes a profile -/

namespace World

theorem profile_apply (w : World) (c : Change) (p : PrincipalId) :
    (w.apply c).profile p = (latest p c.update?.toList).or (w.profile p) := by
  unfold profile
  rw [principals_apply]
  cases c with
  | noted | drawn | remembered | fired => rfl
  | asked inquiry =>
    dsimp only
    split <;> rfl
  | profileSet q locale =>
    rw [Change.update?, Option.toList_some, latest_singleton]
    by_cases h : p = q
    · simp [h]
    · have h' : ¬ q = p := fun e => h e.symm
      simp [h, h']

/-- A profile holds the locale of its latest update, and the one from before if there was none. -/
theorem profile_replay (w : World) (changes : List Change) (p : PrincipalId) :
    (w.replay changes).profile p =
      (latest p (changes.filterMap Change.update?)).or (w.profile p) := by
  induction changes generalizing w with
  | nil => rfl
  | cons c changes ih =>
    have hcons : (c :: changes).filterMap Change.update? =
        c.update?.toList ++ changes.filterMap Change.update? := by
      cases h : c.update? <;> simp [h]
    -- The later updates come first: only if there is none does the first change count.
    rw [replay_cons, ih, profile_apply, hcons, latest_append, Option.or_assoc]

end World

namespace Gate

variable {g : Gate}

/-- A call updates the profile of its own principal and no other, to the locale that it asks for. -/
theorem notice_eq_some_iff {a : Approach} {call : Call} {p : PrincipalId} {locale : Locale} :
    g.notice a call = some (p, locale) ↔ g.bypasses a.shape call = false ∧
      call.principal = some p ∧ g.settings.AsksFor call.metadata locale := by
  rw [← Settings.culture_eq_accepted_iff, ← Culture.accepted?_eq_some_iff]
  unfold notice
  cases g.bypasses a.shape call with
  | true => simp
  | false =>
    cases call.principal with
    | none => simp
    | some q => cases (g.settings.culture call.metadata).accepted? <;> simp

theorem update?_enrich (call : Call) (s : Settings) (id : Uuid) :
    ((Context.new call id).enrich s call.metadata call.trace).update? =
      match call.principal, (s.culture call.metadata).accepted? with
      | some p, some locale => some (p, locale)
      | _, _ => none := by
  have hprincipal : (Context.new call id).principal = call.principal := rfl
  unfold Enrichment.update?
  rw [enrich_principal, Context.profile_enrich, hprincipal]
  cases call.principal with
  | none => rfl
  | some p => cases (s.culture call.metadata).accepted? <;> rfl

theorem updates_consultChanges (span : Option Span) (method service : String) (w : World) :
    (g.consultChanges span method service w).filterMap Change.update? = [] := by
  rw [filterMap_consultChanges (fun _ => rfl) fun _ _ => rfl]
  exact ite_self []

theorem updates_screenChanges (span : Option Span) (call : Call) (w : World) :
    (g.screenChanges span call w).filterMap Change.update? =
      (g.notice (.screening span) call).toList := by
  rw [filterMap_screenChanges (fun _ => rfl) (fun _ => rfl) rfl, update?_enrich,
    updates_consultChanges, List.append_nil]
  exact List.filterMap_some

theorem updates_enterChanges (shape : Shape) (call : Call) (w : World) :
    (g.enterChanges shape call w).filterMap Change.update? =
      (g.notice (.entering shape) call).toList := by
  unfold enterChanges
  split
  · next hb =>
    rw [notice, Approach.shape, if_pos hb]
    rfl
  · next hb =>
    rw [updates_screenChanges]
    unfold notice
    rw [Approach.shape, Approach.shape, if_neg hb]
    rfl

end Gate

theorem Job.updates_ledger {α σ : Type} (j : Job α σ) (call : Passage α σ) (s : Scene α) :
    (j.ledger call s).changes.filterMap Change.update? = j.updates call s := by
  have hdeeds (h : History α) :
      h.changes.filterMap Change.update? = h.filterMap Happening.update? := by
    unfold History.changes
    rw [List.filterMap_filterMap]
    congr 1
    funext e
    cases e <;> rfl
  rw [changes_ledger, List.filterMap_append, List.filterMap_append, hdeeds,
    j.filterMap_closeChanges fun _ => rfl, List.append_nil, j.filterMap_entryChanges fun _ => rfl]
  cases call with
  | arrived => rw [Gate.updates_enterChanges, updates]
  | running | settled => rfl

namespace Traffic

variable {g : Gate}

theorem updates_entries (t : Traffic) (i : Incident) :
    (t.entries g i).changes.filterMap Change.update? = t.updatesIn g i := by
  cases i with
  | lookUp method service =>
    rw [entries, Agent.changes_did]
    exact Gate.updates_consultChanges none method service t.world
  | screen call =>
    rw [entries, Agent.changes_did]
    exact Gate.updates_screenChanges none call t.world
  | setProfile | fire | make | serve => rfl
  | move n move =>
    simp only [entries, updatesIn]
    cases t.calls[n]? with
    | none => rfl
    | some u =>
      dsimp only
      rw [u.filterMap_changes rfl rfl fun _ => rfl]
      simp only [Job.updates_ledger]

theorem updates_ledger (t : Traffic) (incidents : List Incident) :
    (t.ledger g incidents).changes.filterMap Change.update? = t.updates g incidents := by
  induction incidents generalizing t with
  | nil => rfl
  | cons i incidents ih =>
    rw [ledger, Ledger.changes_append, List.filterMap_append, updates_entries, ih, updates]

/-- A run changes profiles by its updates, and by nothing else. -/
theorem profile_run (t : Traffic) (incidents : List Incident) (p : PrincipalId) :
    (t.run g incidents).world.profile p =
      (latest p (t.updates g incidents)).or (t.world.profile p) := by
  rw [world_run, World.profile_replay, updates_ledger]

end Traffic

/-! ## The latest update -/

namespace Gate

variable {g : Gate}

theorem profile_attempt (a : Approach) (call : Call) (w : World) (p : PrincipalId) :
    (a.attempt g call w).2.profile p = (latest p (g.notice a call).toList).or (w.profile p) := by
  cases a with
  | screening span =>
    rw [Approach.attempt, world_screen, World.profile_replay, updates_screenChanges]
  | entering shape =>
    rw [Approach.attempt, world_enter, World.profile_replay, updates_enterChanges]

/-- The locale of a context is the one to which its call has set the profile of its principal. -/
theorem locale_admitted {a : Approach} {call : Call} {w : World} {ctx : Context}
    (h : (a.attempt g call w).1 = .ok ctx) : ctx.locale = (g.notice a call).map Prod.snd := by
  cases hb : g.bypasses a.shape call with
  | true =>
    rw [Approach.attempt_of_bypasses hb] at h
    rw [← Except.ok.inj h, notice, if_pos hb]
    rfl
  | false =>
    rw [Approach.attempt_of_not_bypasses hb, screen_fst] at h
    split at h
    · rw [← Except.ok.inj h, Context.locale_enrich, notice, if_neg (ne_true_of_eq_false hb)]
      simp only [Context.new, Option.or_none]
      cases call.principal with
      | none => rfl
      | some p => cases (g.settings.culture call.metadata).accepted? <;> rfl
    · cases h

/-- Whatever happens at a gate, the profile of a principal holds the locale of its latest update, or
none if there was none: it was set by somebody, or by the gate when a call in the name of the principal
came before it that asks for the locale and is no infrastructure call. So it does, whatever becomes of
the call, and does nothing else to any profile. The context of the call has the same locale, and none
if the call has set no profile. -/
theorem profile_latest (g : Gate) (judgement : PrincipalId → Judgement) (source : Nat → Uuid)
    (incidents : List Incident) :
    let start := Traffic.start (.initial (fun p => .fresh (judgement p)) source)
    (∀ p, (start.run g incidents).world.profile p = latest p (start.updates g incidents)) ∧
      ∀ (a : Approach) (call : Call),
        (∀ p locale, g.notice a call = some (p, locale) ↔
          g.bypasses a.shape call = false ∧ call.principal = some p ∧
            g.settings.AsksFor call.metadata locale) ∧
        ∀ w : World,
          let after := a.attempt g call w
          (∀ p, after.2.profile p = (latest p (g.notice a call).toList).or (w.profile p)) ∧
            ∀ ctx, after.1 = .ok ctx → ctx.locale = (g.notice a call).map Prod.snd := by
  intro start
  constructor
  · intro p
    rw [Traffic.profile_run]
    exact Option.or_none
  · intro a call
    refine ⟨fun p locale => notice_eq_some_iff, fun w => ⟨profile_attempt a call w, ?_⟩⟩
    exact fun ctx hctx => locale_admitted hctx

/-- A call that is refused has set a profile; one whose first value is no text has not, although its
second value is; and the context of an admitted one has no locale, although the profile has. -/
theorem profile_latest_refused :
    let g : Gate := ⟨.standard, fun method _ =>
      ⟨if method = "/shop.Orders/List" then .free else .of "order" ["read"], []⟩, false⟩
    let call (method : String) (values : List Bytes) : Call :=
      ⟨method, "shop.Orders", .ofList (values.map ("culture", ·)), some "ann", none, .own 0⟩
    let incidents : List Incident := [.screen (call "/shop.Orders/Watch" [[0x6E, 0x6C]]),
      .screen (call "/shop.Orders/Watch" [[0xFF], [0x66, 0x72]])]
    let w := ((Traffic.start World.blank).run g incidents).world
    w.profile "ann" = some ⟨"nl", none, none⟩ ∧ w.profile "bob" = none ∧
      ∃ ctx, ((Approach.entering .unary).attempt g (call "/shop.Orders/List" []) w).1 = .ok ctx ∧
        ctx.locale = none := by
  intro g call incidents w
  obtain ⟨hprofile, hattempt⟩ := g.profile_latest (fun _ _ _ => false) World.blank.source incidents
  refine ⟨(hprofile "ann").trans (by decide +kernel), (hprofile "bob").trans (by decide +kernel), ?_⟩
  have hadmits : g.admits .unary (call "/shop.Orders/List" []) w = true := by decide +kernel
  obtain ⟨ctx, hctx, -⟩ := enter_of_admits hadmits
  obtain ⟨-, hlocale⟩ := (hattempt (.entering .unary) (call "/shop.Orders/List" [])).2 w
  refine ⟨ctx, hctx, (hlocale ctx hctx).trans ?_⟩
  decide +kernel

end Gate

end CallGate
