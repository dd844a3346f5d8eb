import CallGate.Proofs.Performance

/-!
# Calls that are read to the end

As long as its caller keeps the stream and its token is not fired, a call does nothing but what its
handler performs. Main statements: `follows_step` says so of a turn, and `follows_direct` and
`follows_served` of a run, whatever the moves around the call are.
-/

namespace CallGate

variable {α σ τ : Type}

/-! ## A call follows its performance -/

namespace Job

variable (j : Job α σ)

/-- What the handler of a call does that is made in the world `w` and let in. -/
def Performance (w : World) (sent : List α) (ending : Ending α) : Prop :=
  ∃ ctx, (j.gate.enter j.shape j.call w).1 = .ok ctx ∧
    Performs j.handler (j.handler.first ctx)
      ((j.gate.enter j.shape j.call w).2.note (.invoked ctx)) sent ending

/-- The handler of a call that was made in the world `w` has done a part of what it performs. -/
inductive Follows (w : World) (apart : TokenId → Prop) : Passage α σ → World → History α → Prop where
  | arrived {after : World} (alike : w.AlikeBut apart after) : Follows w apart .arrived after []
  | running {span : Span} {state : σ} {after : World} {h : History α} (unended : h.ending? = none)
      (rest : ∀ sent ending, j.Performance w sent ending ↔
        ∃ rest, sent = h.taken ++ rest ∧ Performs j.handler (j.handler.turn state) after rest ending) :
      Follows w apart (.running span state) after h
  | settled {last? : Option σ} {result : CallResult α} {after : World} {h : History α}
      {ending : Ending α} (ended : h.ending? = some ending)
      (rest : ∀ sent ending', j.Performance w sent ending' ↔ sent = h.taken ∧ ending' = ending) :
      Follows w apart (.settled last? result) after h

variable {j}

theorem ending?_outcome (call : Passage α σ) : call.outcome.ending? = none := by
  cases call <;> rfl

/-- The second half of a turn fires no token. -/
theorem isFired_close (stage : Stage α σ) (s : Scene α) (t : TokenId) :
    (j.close stage s).2.world.isFired t = s.world.isFired t := by
  cases stage with
  | refused | past => rfl
  | worked span progress =>
    rcases progress with state | ⟨last, _ | (_ | _ | _ | _) | _⟩
    · simp only [close]
      split <;> rfl
    all_goals rfl

theorem follows_close {w : World} {apart : TokenId → Prop} {h : History α} {progress : Progress α σ}
    {s : Scene α} (span : Span) (he : h.ending? = progress.ending?)
    (hrest : ∀ sent ending, j.Performance w sent ending ↔
      ∃ rest, sent = h.taken ++ rest ∧ Turn.Leaves j.handler progress s.world rest ending)
    (hf : h.ending? = none → s.world.isFired j.call.token = false) :
    let after := j.close (.worked span progress) s
    j.Follows w apart after.1 after.2.world (h ++ after.1.outcome) := by
  cases progress with
  | waiting state =>
    have hclose : j.close (.worked span (.waiting state)) s = (.running span state, s) := by
      simp [close, hf he]
    rw [hclose]
    show j.Follows w apart (.running span state) s.world (h ++ [])
    rw [List.append_nil]
    exact .running he hrest
  | ended last ending =>
    intro after
    have hafter : after.1 = .settled (some last) (j.shape.result (some ending)) :=
      j.close_worked_fst span (.ended last ending) s
    rw [hafter]
    have hended : (h ++ [Happening.settled (j.shape.result (some ending))]).ending? = some ending := by
      rw [History.ending?_append, he]
      rfl
    refine .settled hended ?_
    intro sent ending'
    rw [hrest, History.taken_append]
    constructor
    · rintro ⟨rest, rfl, rfl, rfl⟩
      exact ⟨rfl, rfl⟩
    · rintro ⟨rfl, rfl⟩
      exact ⟨[], rfl, rfl, rfl⟩

section Follows

variable {w : World} {apart : TokenId → Prop}

/-- When a call that may be made has its first turn, all that it performs is still to be done. -/
theorem work_arrived (hignores : ∀ token, apart token → j.handler.Ignores token) (hg : j.Granted w)
    {s : Scene α} (halike : w.AlikeBut apart s.world) :
    ∃ ctx s', s'.streamGone = s.streamGone ∧
      j.work .arrived s = (.worked (j.span ctx) ((j.handler.first ctx).run s').1,
        ((j.handler.first ctx).run s').2) ∧
      j.deeds .arrived s = .invoked ctx :: (j.handler.first ctx).happenings s' ∧
      ∀ sent ending, j.Performance w sent ending ↔
        Performs j.handler (j.handler.first ctx) s'.world sent ending := by
  obtain ⟨hsame, hworld⟩ := Gate.enter_alikeBut halike j.gate j.shape j.call
  obtain ⟨ctx, hctx, -⟩ := Gate.enter_of_admits (granted_iff.mp hg)
  have hctx' : (j.gate.enter j.shape j.call s.world).1 = .ok ctx := hsame.trans hctx
  have hnoted := hworld.apply (.noted (.invoked ctx))
  have hfirst (token : TokenId) (ha : apart token) : (j.handler.first ctx).Ignores token :=
    (hignores token ha).first ctx
  refine ⟨ctx, { s with world := (j.gate.enter j.shape j.call s.world).2.note (.invoked ctx) }, rfl,
    ?_, ?_, ?_⟩
  · simp only [work, hctx']
  · simp only [deeds, hctx']
  · intro sent ending
    constructor
    · rintro ⟨ctx', hok, hP⟩
      rw [hctx] at hok
      cases hok
      exact hP.congr hignores hfirst hnoted
    · intro hP
      exact ⟨ctx, hctx, hP.congr hignores hfirst hnoted.symm⟩

/-- A turn goes on with the performance, unless the call is cancelled at its end. -/
theorem follows_step (hroom : j.handler.AwaitsRoom)
    (hignores : ∀ token, apart token → j.handler.Ignores token) (hg : j.Granted w)
    {call : Passage α σ} {s : Scene α} {h : History α} (hs : s.streamGone = false)
    (hF : j.Follows w apart call s.world h)
    (hf : (h ++ j.happenings call s).ending? = none →
      (j.step call s).2.world.isFired j.call.token = false) :
    j.Follows w apart (j.step call s).1 (j.step call s).2.world (h ++ j.happenings call s) := by
  have unfired (hd : j.happenings call s = j.deeds call s ++ (j.step call s).1.outcome)
      (hnone : (h ++ j.deeds call s).ending? = none) :
      (j.work call s).2.world.isFired j.call.token = false := by
    rw [step_eq, isFired_close] at hf
    apply hf
    rw [hd, ← List.append_assoc, History.ending?_append, hnone, ending?_outcome]
    rfl
  cases hF with
  | arrived alike =>
    obtain ⟨ctx, s', hs', hwork, hdeeds, hperformance⟩ := work_arrived hignores hg alike
    have hhappens : j.happenings .arrived s =
        j.deeds .arrived s ++ (j.step .arrived s).1.outcome := rfl
    have hunfired := unfired hhappens
    rw [List.nil_append, hhappens, step_eq, hwork, hdeeds]
    rw [hwork, hdeeds, List.nil_append] at hunfired
    refine follows_close _ ((j.handler.first ctx).ending?_happenings s') ?_ hunfired
    intro sent ending
    rw [hperformance]
    exact (j.handler.first ctx).performs_run (hroom.first ctx) (hs'.trans hs) sent ending
  | @running span state after h unended rest =>
    have hhappens : j.happenings (.running span state) s =
        (j.handler.turn state).happenings s ++ (j.step (.running span state) s).1.outcome := rfl
    have hunfired := unfired hhappens
    rw [hhappens, ← List.append_assoc, step_eq]
    refine follows_close span ?_ ?_ hunfired
    · rw [History.ending?_append, unended]
      exact (j.handler.turn state).ending?_happenings s
    · intro sent ending
      rw [rest, History.taken_append]
      have hturn (rest : List α) := (j.handler.turn state).performs_run (hroom.turn state) hs rest ending
      constructor
      · rintro ⟨rest, rfl, hP⟩
        obtain ⟨more, rfl, hleft⟩ := (hturn rest).mp hP
        exact ⟨more, (List.append_assoc _ _ _).symm, hleft⟩
      · rintro ⟨more, rfl, hleft⟩
        exact ⟨_, List.append_assoc _ _ _, (hturn _).mpr ⟨more, rfl, hleft⟩⟩
  | settled ended rest =>
    rw [happenings, List.append_nil]
    exact .settled ended rest

/-- A token that the handler ignores makes no difference to what it performs. -/
theorem follows_fire (hignores : ∀ token, apart token → j.handler.Ignores token) {token : TokenId}
    (ha : apart token) {call : Passage α σ} {after : World} {h : History α}
    (hF : j.Follows w apart call after h) : j.Follows w apart call (after.fire token) h := by
  have halike := World.AlikeBut.fire after ha
  cases hF with
  | arrived alike => exact .arrived (alike.trans halike)
  | @running span state _ _ unended rest =>
    refine .running unended ?_
    intro sent ending
    have hturn (token : TokenId) (ha : apart token) : (j.handler.turn state).Ignores token :=
      (hignores token ha).turn state
    rw [rest]
    constructor
    · rintro ⟨rest, rfl, hP⟩
      exact ⟨rest, rfl, hP.congr hignores hturn halike⟩
    · rintro ⟨rest, rfl, hP⟩
      exact ⟨rest, rfl, hP.congr hignores hturn halike.symm⟩
  | settled ended rest => exact .settled ended rest

end Follows

end Job

/-! ## Attended runs -/

/-- The caller keeps the stream, the token of a call that may be made is not fired before its handler
has ended, and the handler ignores the other tokens that are fired from outside. -/
structure Job.Attended (j : Job α σ) (turn : TurnOrder → τ → Scene α → τ × Scene α)
    (inTurn : TurnOrder → τ → Scene α → History α) (start : Exchange α τ) (moves : List Move) :
    Prop where
  close : .close ∉ moves
  drop : .drop ∉ moves
  fire : ∀ token, .fire token ∈ moves → token = j.call.token ∨ j.handler.Ignores token
  unfired : j.Granted start.scene.world → ∀ before, before <+: moves →
    (start.history turn inTurn before).ending? = none →
      (start.run turn before).scene.world.isFired j.call.token = false

namespace Exchange

variable {turn : TurnOrder → τ → Scene α → τ × Scene α}
  {inTurn : TurnOrder → τ → Scene α → History α}

/-- What every move of a run keeps is kept by the run, where a condition may be taken for granted that
holds at each moment of it. -/
theorem run_keeps_while {I C : Exchange α τ → History α → Prop} {moves : List Move}
    (step : ∀ {x h move}, move ∈ moves → I x h →
      C (x.step turn move) (h ++ x.happenings inTurn move) →
        I (x.step turn move) (h ++ x.happenings inTurn move))
    {x : Exchange α τ} {h : History α}
    (hC : ∀ before, before <+: moves → C (x.run turn before) (h ++ x.history turn inTurn before))
    (hI : I x h) : I (x.run turn moves) (h ++ x.history turn inTurn moves) := by
  induction moves generalizing x h with
  | nil => rwa [history, List.append_nil]
  | cons move moves ih =>
    have hfirst : C (x.step turn move) (h ++ x.happenings inTurn move) := by
      have hone := hC [move] (List.prefix_append [move] moves)
      rwa [history, history, List.append_nil] at hone
    rw [history, ← List.append_assoc]
    refine ih (fun hm => step (List.mem_cons_of_mem _ hm)) ?_ (step List.mem_cons_self hI hfirst)
    intro before hbefore
    have hlonger := hC (move :: before) (List.cons_prefix_cons.mpr ⟨rfl, hbefore⟩)
    rwa [history, ← List.append_assoc] at hlonger

end Exchange

namespace Job

variable {j : Job α σ} {w : World}

/-- The tokens that may be fired from outside without the handler knowing. -/
def Apart (j : Job α σ) (token : TokenId) : Prop := token ≠ j.call.token ∧ j.handler.Ignores token

/-- A call whose stream is open goes on in one way, whatever its turn looks at first. -/
theorem serve_of_open (order : TurnOrder) {v : Serving α σ} {call : Passage α σ}
    (hv : v.call? = some call) {s : Scene α} (hs : s.streamGone = false) :
    ∃ goOn, (∀ call : Passage α σ, (goOn call).call? = some call) ∧
      j.serve order v s = proceed goOn (j.step call s) ∧
      j.servedHappenings order v s = j.happenings call s := by
  have hsingle : [(call, s)].flatMap (fun turn => j.happenings turn.1 turn.2) = j.happenings call s :=
    List.flatMap_singleton _ _
  cases v with
  | delivering | finished => cases hv
  | abandoned => cases hv; exact ⟨.abandoned, fun _ => rfl, rfl, hsingle⟩
  | watching =>
    cases hv
    refine ⟨.watching, fun _ => rfl, ?_, ?_⟩
    · cases order with
      | streamFirst => simp [serve, hs]
      | handlerFirst => simp [serve_handlerFirst, j.step_streamGone, hs]
    · rw [← hsingle, servedHappenings]
      cases order with
      | streamFirst => simp [callTurns, hs]
      | handlerFirst => simp [callTurns, j.step_streamGone, hs]

theorem deliver_world_of_open (last : Option σ) (status : Status) {s : Scene α}
    (hs : s.streamGone = false) : (deliver last status s).2.world = s.world := by
  unfold deliver
  cases hv : s.verdict with
  | sent | full => rfl
  | refused =>
    rw [Scene.verdict_eq_refused_iff, hs] at hv
    cases hv

/-- The handler of a served call, or of one that is over, has done a part of what it performs. -/
def ServedFollows (j : Job α σ) (w : World) (v : Serving α σ) (after : World) (h : History α) : Prop :=
  ∃ call, (v.call? = some call ∧ call.result? = none ∨ v.call? = none ∧ call.result? ≠ none) ∧
    j.Accounts call h ∧ j.Follows w j.Apart call after h

theorem servedFollows_proceed {goOn : Passage α σ → Serving α σ}
    (hgo : ∀ call, (goOn call).call? = some call) {call : Passage α σ} {s : Scene α} {h : History α}
    (hs : s.streamGone = false) (hA : j.Accounts call h) (hF : j.Follows w j.Apart call s.world h) :
    j.ServedFollows w (proceed goOn (call, s)).1 (proceed goOn (call, s)).2.world h := by
  cases hr : call.result? with
  | none =>
    rw [proceed_of_result?_eq_none goOn hr]
    exact ⟨call, Or.inl ⟨hgo call, hr⟩, hA, hF⟩
  | some result =>
    have hne : call.result? ≠ none := hr ▸ Option.some_ne_none result
    obtain ⟨last, rfl⟩ := Passage.eq_settled hr
    cases result with
    | ok reply => exact ⟨_, Or.inr ⟨rfl, hne⟩, hA, hF⟩
    | error status =>
      refine ⟨_, Or.inr ⟨deliver_call? last status s, hne⟩, hA, ?_⟩
      rw [proceed, deliver_world_of_open last status hs]
      exact hF

theorem proceed_world_of_open (goOn : Passage α σ → Serving α σ) {after : Passage α σ × Scene α}
    (hs : after.2.streamGone = false) : (proceed goOn after).2.world = after.2.world := by
  rcases after with ⟨_ | _ | ⟨last, status | reply⟩, s⟩
  · rfl
  · rfl
  · exact deliver_world_of_open last status hs
  · rfl

theorem servedFollows_serve (hroom : j.handler.AwaitsRoom) (hg : j.Granted w) (order : TurnOrder)
    {v : Serving α σ} {s : Scene α} {h : History α} (hs : s.streamGone = false)
    (hF : j.ServedFollows w v s.world h)
    (hf : (h ++ j.servedHappenings order v s).ending? = none →
      (j.serve order v s).2.world.isFired j.call.token = false) :
    j.ServedFollows w (j.serve order v s).1 (j.serve order v s).2.world
      (h ++ j.servedHappenings order v s) := by
  obtain ⟨call, ⟨hv, -⟩ | ⟨hv, hr⟩, hA, hF⟩ := hF
  · obtain ⟨goOn, hgo, hserve, hhappens⟩ := serve_of_open (j := j) order hv hs
    have hs' : (j.step call s).2.streamGone = false := (j.step_streamGone call s).trans hs
    rw [hserve, hhappens, proceed_world_of_open goOn hs'] at hf
    rw [hserve, hhappens]
    exact servedFollows_proceed hgo hs' (accounts_step hA s)
      (follows_step hroom (fun _ ha => ha.2) hg hs hF hf)
  · rw [servedHappenings_eq_nil order hv, List.append_nil]
    cases v with
    | watching | abandoned => cases hv
    | delivering last status =>
      refine ⟨call, Or.inr ⟨deliver_call? last status s, hr⟩, hA, ?_⟩
      rw [serve, deliver_world_of_open last status hs]
      exact hF
    | finished last => exact ⟨call, Or.inr ⟨rfl, hr⟩, hA, hF⟩

section Attended

variable {turn : TurnOrder → τ → Scene α → τ × Scene α}
  {inTurn : TurnOrder → τ → Scene α → History α}

/-- What every turn on an open stream keeps, and firing a token that the handler ignores, is kept by an
attended run. -/
theorem attended_run {Q : τ → World → History α → Prop}
    (streamGone : ∀ order call s, (turn order call s).2.streamGone = s.streamGone)
    (inside : ∀ {order call s h}, s.streamGone = false → Q call s.world h →
      ((h ++ inTurn order call s).ending? = none →
        (turn order call s).2.world.isFired j.call.token = false) →
      Q (turn order call s).1 (turn order call s).2.world (h ++ inTurn order call s))
    (ended : ∀ {call after h token}, h.ending? ≠ none → Q call after h → Q call (after.fire token) h)
    (apart : ∀ {call after h token}, j.Apart token → Q call after h → Q call (after.fire token) h)
    {start : Exchange α τ} (hg : j.Granted start.scene.world) (hs : start.scene.streamGone = false)
    (hQ : Q start.call start.scene.world []) {moves : List Move}
    (ha : j.Attended turn inTurn start moves) :
    let x := start.run turn moves
    Q x.call x.scene.world (start.history turn inTurn moves) := by
  refine (Exchange.run_keeps_while (h := [])
    (C := fun x h => h.ending? = none → x.scene.world.isFired j.call.token = false)
    (I := fun x h => x.scene.streamGone = false ∧ Q x.call x.scene.world h) ?_
    (ha.unfired hg) ⟨hs, hQ⟩).2
  rintro x h move hm ⟨hs, hQ⟩ hf
  cases move with
  | turn order => exact ⟨(streamGone order x.call x.scene).trans hs, inside hs hQ hf⟩
  | take =>
    have hsame : h ++ x.happenings inTurn .take = h := List.append_nil h
    rw [Exchange.step_take, hsame]
    refine ⟨?_, hQ⟩
    rcases x with ⟨call, ⟨after, _ | channel⟩, received⟩
    · exact hs
    · exact hs
  | close => exact absurd hm ha.close
  | drop => exact absurd hm ha.drop
  | fire token =>
    have hsame : h ++ x.happenings inTurn (.fire token) = h := List.append_nil h
    rw [hsame] at hf ⊢
    refine ⟨hs, ?_⟩
    by_cases he : h.ending? = none
    · -- The handler has not ended, so this is not the token of the call.
      have hne : token ≠ j.call.token := by
        rintro rfl
        have hfired := World.isFired_fire x.scene.world j.call.token j.call.token
        rw [beq_self_eq_true, Bool.or_true] at hfired
        exact Bool.false_ne_true ((hf he).symm.trans hfired)
      exact apart ⟨hne, (ha.fire token hm).resolve_left hne⟩ hQ
    · exact ended he hQ

end Attended

/-- What has been fired makes no difference once the handler has ended. -/
theorem follows_ended {call : Passage α σ} {after after' : World} {h : History α}
    (he : h.ending? ≠ none) (hF : j.Follows w j.Apart call after h) :
    j.Follows w j.Apart call after' h := by
  cases hF with
  | arrived => exact absurd rfl he
  | running unended rest => exact absurd unended he
  | settled ended rest => exact .settled ended rest

/-- After an attended run the handler of a call that may be made has done a part of what it performs. -/
theorem follows_direct (hroom : j.handler.AwaitsRoom) (hg : j.Granted w) {capacity : Capacity}
    {moves : List Move}
    (ha : j.Attended j.directTurn (fun _ => j.happenings) (.ofCall w (some (.new capacity))) moves) :
    let start : Exchange α (Passage α σ) := .ofCall w (some (.new capacity))
    let x := start.run j.directTurn moves
    j.Follows w j.Apart x.call x.scene.world (j.directHistory start moves) := by
  refine attended_run (Q := fun call after h => j.Follows w j.Apart call after h)
    (fun _ => j.step_streamGone) ?_ ?_ ?_ hg rfl (.arrived (.refl w)) ha
  · intro order call s h hs hF hf
    exact follows_step hroom (fun _ ha => ha.2) hg hs hF hf
  · intro call after h token he hF
    exact follows_ended he hF
  · intro call after h token ha hF
    exact follows_fire (fun _ ha => ha.2) ha hF

theorem follows_served (hroom : j.handler.AwaitsRoom) (hg : j.Granted w) {capacity : Capacity}
    {moves : List Move}
    (ha : j.Attended j.serve j.servedHappenings (.ofService w capacity) moves) :
    let start : Exchange α (Serving α σ) := .ofService w capacity
    let x := start.run j.serve moves
    j.ServedFollows w x.call x.scene.world (j.servedHistory start moves) := by
  refine attended_run (Q := fun v after h => j.ServedFollows w v after h) serve_streamGone ?_ ?_ ?_
    hg rfl ⟨.arrived, Or.inl ⟨rfl, rfl⟩, rfl, .arrived (.refl w)⟩ ha
  · intro order v s h hs hF hf
    exact servedFollows_serve hroom hg order hs hF hf
  · rintro v after h token he ⟨call, hv, hA, hF⟩
    exact ⟨call, hv, hA, follows_ended he hF⟩
  · rintro v after h token ha ⟨call, hv, hA, hF⟩
    exact ⟨call, hv, hA, follows_fire (fun _ ha => ha.2) ha hF⟩

end Job

end CallGate
