import CallGate.Proofs.Uniformity

/-!
# What handlers perform

A handler that waits until each element is taken before it does anything else is held up where its
stream has no room, and then goes on as if there had been room at once. What it does when it is never
held up is its performance. Main statements: `Turn.performs_run` says that a turn leaves to be done what
is left of a performance which knows no stream, and `Performs.congr` that a handler performs the same in
worlds that it cannot tell apart.
-/

namespace CallGate

variable {α σ : Type}

/-! ## Handlers that wait for room -/

namespace Turn

/-- Where an element finds no room, the handler does nothing but wait for its next turn, and then
offers the same element again and goes on in the same way. -/
def AwaitsRoom (handler : Handler α σ) : Turn α σ → Prop
  | wait _ | finish .. => True
  | ask _ _ next => ∀ answer, (next answer).AwaitsRoom handler
  | readProfile _ next => ∀ locale, (next locale).AwaitsRoom handler
  | setProfile _ _ next | fire _ next => next.AwaitsRoom handler
  | readToken _ next | readStream next => ∀ answer, (next answer).AwaitsRoom handler
  | offer value next =>
    (∃ state, next .full = .wait state ∧ handler.turn state = .offer value next) ∧
      (next .sent).AwaitsRoom handler

/-- The turn does not depend on whether the token has been fired. -/
def Ignores (token : TokenId) : Turn α σ → Prop
  | wait _ | finish .. => True
  | ask _ _ next => ∀ answer, (next answer).Ignores token
  | readProfile _ next => ∀ locale, (next locale).Ignores token
  | setProfile _ _ next | fire _ next => next.Ignores token
  | readToken other next => other ≠ token ∧ ∀ answer, (next answer).Ignores token
  | readStream next => ∀ answer, (next answer).Ignores token
  | offer _ next => ∀ verdict, (next verdict).Ignores token

end Turn

/-- The handler waits until each element is taken before it does anything else. -/
structure Handler.AwaitsRoom (handler : Handler α σ) : Prop where
  first : ∀ ctx, (handler.first ctx).AwaitsRoom handler
  turn : ∀ state, (handler.turn state).AwaitsRoom handler

/-- The handler never looks whether the token has been fired. -/
structure Handler.Ignores (handler : Handler α σ) (token : TokenId) : Prop where
  first : ∀ ctx, (handler.first ctx).Ignores token
  turn : ∀ state, (handler.turn state).Ignores token

/-! ## Performances -/

/-- What a handler does from a turn on, in the given world, if everything it sends is taken at once and
nobody else changes the world: it sends the elements and ends. -/
inductive Performs (handler : Handler α σ) : Turn α σ → World → List α → Ending α → Prop where
  | wait {state w sent ending} (h : Performs handler (handler.turn state) w sent ending) :
      Performs handler (.wait state) w sent ending
  | finish (state : σ) (w : World) (ending : Ending α) :
      Performs handler (.finish state ending) w [] ending
  | ask {p question next w sent ending}
      (h : Performs handler (next (w.answer p question)) (w.ask p question) sent ending) :
      Performs handler (.ask p question next) w sent ending
  | readProfile {p next w sent ending} (h : Performs handler (next (w.profile p)) w sent ending) :
      Performs handler (.readProfile p next) w sent ending
  | setProfile {p locale next w sent ending}
      (h : Performs handler next (w.setProfile p locale) sent ending) :
      Performs handler (.setProfile p locale next) w sent ending
  | readToken {t next w sent ending} (h : Performs handler (next (w.isFired t)) w sent ending) :
      Performs handler (.readToken t next) w sent ending
  | fire {t next w sent ending} (h : Performs handler next (w.fire t) sent ending) :
      Performs handler (.fire t next) w sent ending
  | offer {value next w sent ending} (h : Performs handler (next .sent) w sent ending) :
      Performs handler (.offer value next) w (value :: sent) ending
  | readStream {next w sent ending} (h : Performs handler (next false) w sent ending) :
      Performs handler (.readStream next) w sent ending

/-- A handler has only one performance. -/
theorem Performs.unique {handler : Handler α σ} {t : Turn α σ} {w : World} {sent sent' : List α}
    {ending ending' : Ending α} (h : Performs handler t w sent ending)
    (h' : Performs handler t w sent' ending') : sent' = sent ∧ ending' = ending := by
  induction h generalizing sent' with
  | finish => cases h'; exact ⟨rfl, rfl⟩
  | offer _ ih =>
    cases h' with
    | offer hrest =>
      obtain ⟨rfl, rfl⟩ := ih hrest
      exact ⟨rfl, rfl⟩
  | wait _ ih | ask _ ih | readProfile _ ih | setProfile _ ih | readToken _ ih | fire _ ih
  | readStream _ ih => cases h'; exact ih (by assumption)

namespace Turn

variable {handler : Handler α σ}

/-- What is left of a performance after a turn: if the handler waits, what it does from its next turn
on, and nothing if it has ended. -/
def Leaves (handler : Handler α σ) : Progress α σ → World → List α → Ending α → Prop
  | .waiting state, w, sent, ending => Performs handler (handler.turn state) w sent ending
  | .ended _ ending', _, sent, ending => sent = [] ∧ ending = ending'

/-- As long as its stream is there, a turn sends the beginning of what the handler performs, and leaves
the rest. -/
theorem performs_run (t : Turn α σ) (ht : t.AwaitsRoom handler) {s : Scene α}
    (hs : s.streamGone = false) (sent : List α) (ending : Ending α) :
    Performs handler t s.world sent ending ↔
      ∃ rest, sent = (t.happenings s).taken ++ rest ∧
        Leaves handler (t.run s).1 (t.run s).2.world rest ending := by
  induction t generalizing s sent with
  | wait state =>
    constructor
    · rintro (h | _)
      exact ⟨sent, rfl, h⟩
    · rintro ⟨rest, rfl, h⟩
      exact .wait h
  | finish state ending' =>
    constructor
    · rintro (_ | _)
      exact ⟨[], rfl, rfl, rfl⟩
    · rintro ⟨rest, rfl, rfl, rfl⟩
      exact .finish state s.world ending
  | ask p question next ih =>
    have hask : Performs handler (.ask p question next) s.world sent ending ↔
        Performs handler (next (s.world.answer p question)) (s.world.ask p question) sent ending :=
      ⟨fun h => by cases h; assumption, .ask⟩
    exact hask.trans (ih _ (ht _) (s := s.onWorld fun w => w.ask p question) hs sent)
  | readProfile p next ih =>
    have hread : Performs handler (.readProfile p next) s.world sent ending ↔
        Performs handler (next (s.world.profile p)) s.world sent ending :=
      ⟨fun h => by cases h; assumption, .readProfile⟩
    exact hread.trans (ih _ (ht _) hs sent)
  | setProfile p locale next ih =>
    have hset : Performs handler (.setProfile p locale next) s.world sent ending ↔
        Performs handler next (s.world.setProfile p locale) sent ending :=
      ⟨fun h => by cases h; assumption, .setProfile⟩
    exact hset.trans (ih ht (s := s.onWorld fun w => w.setProfile p locale) hs sent)
  | readToken t next ih =>
    have hread : Performs handler (.readToken t next) s.world sent ending ↔
        Performs handler (next (s.world.isFired t)) s.world sent ending :=
      ⟨fun h => by cases h; assumption, .readToken⟩
    exact hread.trans (ih _ (ht _) hs sent)
  | fire t next ih =>
    have hfire : Performs handler (.fire t next) s.world sent ending ↔
        Performs handler next (s.world.fire t) sent ending :=
      ⟨fun h => by cases h; assumption, .fire⟩
    exact hfire.trans (ih ht (s := s.onWorld fun w => w.fire t) hs sent)
  | readStream next ih =>
    have hread : Performs handler (.readStream next) s.world sent ending ↔
        Performs handler (next false) s.world sent ending :=
      ⟨fun h => by cases h; assumption, .readStream⟩
    rw [run, happenings, hs]
    exact hread.trans (ih _ (ht _) hs sent)
  | offer value next ih =>
    obtain ⟨⟨state, hfull, hagain⟩, hsent⟩ := ht
    rw [run, happenings]
    cases hv : s.verdict with
    | refused =>
      rw [Scene.verdict_eq_refused_iff, hs] at hv
      cases hv
    | full =>
      -- The turn ends here, and the next one begins with the same offer.
      rw [hfull, run, happenings]
      show _ ↔ ∃ rest, sent = [] ++ rest ∧ Performs handler (handler.turn state) s.world rest ending
      rw [hagain]
      constructor
      · intro h
        exact ⟨sent, rfl, h⟩
      · rintro ⟨rest, rfl, h⟩
        exact h
    | sent =>
      have hs' : (s.offer (.element value)).streamGone = false :=
        (s.streamGone_offer _).trans hs
      constructor
      · rintro (_ | _ | _ | _ | _ | _ | _ | h)
        obtain ⟨rest, rfl, hrest⟩ := (ih _ hsent hs' _).mp h
        exact ⟨rest, rfl, hrest⟩
      · rintro ⟨rest, rfl, hrest⟩
        exact .offer ((ih _ hsent hs' _).mpr ⟨rest, rfl, hrest⟩)

end Turn

/-! ## Worlds that a handler cannot tell apart -/

/-- The two worlds differ at most in what was observed and in which of the tokens `apart` have been
fired. -/
structure World.AlikeBut (apart : TokenId → Prop) (w w' : World) : Prop where
  principals : w'.principals = w.principals
  memo : w'.memo = w.memo
  source : w'.source = w.source
  drawn : w'.drawn = w.drawn
  fired : ∀ t, ¬ apart t → w'.isFired t = w.isFired t

namespace World.AlikeBut

variable {apart : TokenId → Prop} {w w' w'' : World}

theorem refl (w : World) : w.AlikeBut apart w := ⟨rfl, rfl, rfl, rfl, fun _ _ => rfl⟩

theorem symm (h : w.AlikeBut apart w') : w'.AlikeBut apart w :=
  ⟨h.principals.symm, h.memo.symm, h.source.symm, h.drawn.symm, fun t ht => (h.fired t ht).symm⟩

theorem trans (h : w.AlikeBut apart w') (h' : w'.AlikeBut apart w'') : w.AlikeBut apart w'' :=
  ⟨h'.principals.trans h.principals, h'.memo.trans h.memo, h'.source.trans h.source,
    h'.drawn.trans h.drawn, fun t ht => (h'.fired t ht).trans (h.fired t ht)⟩

theorem fire {t : TokenId} (w : World) (ht : apart t) : w.AlikeBut apart (w.fire t) := by
  have hfired : ∀ t', ¬ apart t' → (w.fire t).isFired t' = w.isFired t' := by
    intro t' ht'
    have hne : t' ≠ t := fun h => ht' (h ▸ ht)
    rw [World.isFired_fire]
    simp [hne]
  rw [World.fire_eq] at hfired ⊢
  exact ⟨rfl, rfl, rfl, rfl, hfired⟩

theorem decides (h : w.AlikeBut apart w') : w.DecidesAlike w' := by
  refine ⟨h.memo, fun p question => ?_⟩
  rw [World.answer, h.principals, World.answer]

/-- The same change keeps two worlds alike. -/
theorem apply (h : w.AlikeBut apart w') (c : Change) : (w.apply c).AlikeBut apart (w'.apply c) := by
  have hprincipals : (w'.apply c).principals = (w.apply c).principals := by
    funext p
    rw [World.principals_apply, World.principals_apply, h.principals]
  cases c with
  | noted | asked | profileSet => exact ⟨hprincipals, h.memo, h.source, h.drawn, h.fired⟩
  | drawn => exact ⟨hprincipals, h.memo, h.source, congrArg (· + 1) h.drawn, h.fired⟩
  | remembered method service r =>
    exact ⟨hprincipals, congrArg (Table.insert · _ _) h.memo, h.source, h.drawn, h.fired⟩
  | fired t =>
    have hfired : ∀ t', ¬ apart t' → (w'.fire t).isFired t' = (w.fire t).isFired t' := by
      intro t' ht'
      rw [World.isFired_fire, World.isFired_fire, h.fired t' ht']
    rw [World.apply, World.apply] at hprincipals ⊢
    rw [w.fire_eq, w'.fire_eq] at hfired hprincipals ⊢
    exact ⟨hprincipals, h.memo, h.source, h.drawn, hfired⟩

theorem replay (h : w.AlikeBut apart w') (changes : List Change) :
    (w.replay changes).AlikeBut apart (w'.replay changes) := by
  induction changes generalizing w w' with
  | nil => exact h
  | cons c changes ih => exact ih (h.apply c)

end World.AlikeBut

/-- A handler does the same in worlds that it cannot tell apart. -/
theorem Performs.congr {handler : Handler α σ} {apart : TokenId → Prop}
    (hignores : ∀ token, apart token → handler.Ignores token) {t : Turn α σ} {w w' : World}
    {sent : List α} {ending : Ending α} (h : Performs handler t w sent ending)
    (ht : ∀ token, apart token → t.Ignores token) (hw : w.AlikeBut apart w') :
    Performs handler t w' sent ending := by
  induction h generalizing w' with
  | wait _ ih => exact .wait (ih (fun token hapart => (hignores token hapart).turn _) hw)
  | finish state w ending => exact .finish state w' ending
  | @ask p question next w sent ending _ ih =>
    refine .ask ?_
    rw [hw.decides.answer]
    refine ih (fun token hapart => ht token hapart _) ?_
    have hasked := hw.apply (.asked ⟨p, question, w.answer p question⟩)
    have hanswer : w'.ask p question = w'.apply (.asked ⟨p, question, w.answer p question⟩) := by
      rw [World.ask, hw.decides.answer]
      rfl
    rw [hanswer]
    exact hasked
  | @readProfile p next w sent ending _ ih =>
    refine .readProfile ?_
    have hprofile : w'.profile p = w.profile p := by
      rw [World.profile, hw.principals, World.profile]
    rw [hprofile]
    exact ih (fun token hapart => ht token hapart _) hw
  | setProfile _ ih => exact .setProfile (ih ht (hw.apply (.profileSet _ _)))
  | @readToken t next w sent ending _ ih =>
    refine .readToken ?_
    have hunmoved : ¬ apart t := fun hapart => (ht t hapart).1 rfl
    rw [hw.fired t hunmoved]
    exact ih (fun token hapart => (ht token hapart).2 _) hw
  | fire _ ih => exact .fire (ih ht (hw.apply (.fired _)))
  | offer _ ih => exact .offer (ih (fun token hapart => ht token hapart _) hw)
  | readStream _ ih => exact .readStream (ih (fun token hapart => ht token hapart _) hw)

/-- A gate does the same about a call in two worlds that differ only in what decides nothing. -/
theorem Gate.enter_alikeBut {apart : TokenId → Prop} {w w' : World} (h : w.AlikeBut apart w')
    (g : Gate) (shape : Shape) (call : Call) :
    (g.enter shape call w').1 = (g.enter shape call w).1 ∧
      (g.enter shape call w).2.AlikeBut apart (g.enter shape call w').2 := by
  have hid : w'.nextId = w.nextId := by
    rw [World.nextId, h.source, h.drawn, World.nextId]
  constructor
  · have hjudges : g.JudgesAlike w w' := ⟨requirement_congr h.decides, h.decides.answer⟩
    obtain ⟨hconcordant, -⟩ := admission_congr hjudges (.entering shape) call call rfl rfl rfl
      (R := Eq) (hid ▸ rfl) (hid ▸ rfl)
    generalize hentered : (Approach.entering shape).attempt g call w = entered at hconcordant
    generalize hentered' : (Approach.entering shape).attempt g call w' = entered' at hconcordant
    have heq : entered'.1 = entered.1 := by
      rcases entered with ⟨status | ctx, _⟩ <;> rcases entered' with ⟨status' | ctx', _⟩ <;>
        cases hconcordant <;> simp_all
    rw [← hentered, ← hentered'] at heq
    exact heq
  · have hchanges : g.enterChanges shape call w' = g.enterChanges shape call w := by
      unfold enterChanges
      rw [screenChanges_congr h.decides]
    rw [world_enter, world_enter, hchanges]
    exact h.replay _

end CallGate
