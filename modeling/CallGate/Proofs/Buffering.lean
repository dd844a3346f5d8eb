import CallGate.Proofs.Attendance

/-!
# How much a stream holds

A handler is held up at other places when its stream holds more or less, and when its caller reads
sooner or later; what it sends is the same. Main statements: `canBeOver_of_performs` says that a call
whose stream is read can always come to its end, and `buffer_unobservable` that all callers who read to
the end get the same, which is what the call sends when it is made directly.
-/

namespace CallGate

variable {α σ τ : Type}

namespace Job

variable {j : Job α σ} {w : World}

/-! ## All that a call sends -/

/-- Everything that a call sends that is made in the world `w`: what its handler performs, and then the
status if that fails the call. -/
inductive Yields (j : Job α σ) (w : World) : List (Delivery α) → Prop where
  | refused (refused : ¬ j.Granted w) : Yields j w [.failure j.call.refusal]
  | performed {sent : List α} {ending : Ending α} (performed : j.Performance w sent ending) :
      Yields j w (sent.map .element ++ (ending.status?.map .failure).toList)

theorem granted_of_performance {sent : List α} {ending : Ending α}
    (h : j.Performance w sent ending) : j.Granted w := by
  obtain ⟨ctx, hctx, -⟩ := h
  rw [granted_iff, ← Bool.not_eq_false]
  intro hrefused
  rw [Gate.enter_of_not_admits hrefused] at hctx
  cases hctx

/-- All that a call sends is determined by the world in which it is made. -/
theorem Yields.unique {all all' : List (Delivery α)} (h : j.Yields w all) (h' : j.Yields w all') :
    all' = all := by
  cases h with
  | refused hg =>
    cases h' with
    | refused => rfl
    | performed hP => exact absurd (granted_of_performance hP) hg
  | performed hP =>
    cases h' with
    | refused hg => exact absurd (granted_of_performance hP) hg
    | performed hP' =>
      obtain ⟨ctx, hctx, hperforms⟩ := hP
      obtain ⟨ctx', hctx', hperforms'⟩ := hP'
      obtain rfl : ctx = ctx' := Except.ok.inj (hctx.symm.trans hctx')
      obtain ⟨rfl, rfl⟩ := hperforms.unique hperforms'
      rfl

theorem failure?_of_ended (hs : j.shape ≠ .unary) {call : Passage α σ} {h : History α}
    (hA : j.Accounts call h) (hr : h.result? ≠ none) {ending : Ending α}
    (he : h.ending? = some ending) : h.failure? = ending.status? := by
  rcases failure?_of_accounts hs hA hr with ⟨hctx, -⟩ | ⟨-, hf⟩
  · -- A handler that was never invoked has not ended.
    cases call with
    | arrived => rw [show h = [] from hA] at he; cases he
    | running =>
      obtain ⟨⟨ctx, hctx'⟩, -⟩ := hA
      rw [hctx] at hctx'
      cases hctx'
    | settled last result =>
      obtain ⟨-, ⟨rfl, -⟩ | ⟨⟨ctx, hctx'⟩, -⟩⟩ := hA
      · cases he
      · rw [hctx] at hctx'
        cases hctx'
  · rw [hf, he]
    rfl

/-- What has happened in a call so far is a beginning of all that it sends, and all of it if the call
has its result. -/
def Tells (j : Job α σ) (w : World) (h : History α) : Prop :=
  (∀ all, j.Yields w all → h.deliveries <+: all) ∧ (h.result? ≠ none → j.Yields w h.deliveries)

theorem tells_of_follows (hs : j.shape ≠ .unary) (hg : j.Granted w) {call : Passage α σ}
    {after : World} {h : History α} {apart : TokenId → Prop} (hA : j.Accounts call h)
    (hF : j.Follows w apart call after h) : j.Tells w h := by
  cases hF with
  | arrived => exact ⟨fun all _ => List.nil_prefix, fun hr => absurd rfl hr⟩
  | running unended rest =>
    have hr : h.result? = none := hA.2.2
    have hd : h.deliveries = h.taken.map .element := by
      rw [History.deliveries, History.failure?, hr]
      exact List.append_nil _
    refine ⟨?_, fun hne => absurd hr hne⟩
    rintro all (hrefused | hP)
    · exact absurd hg hrefused
    · obtain ⟨more, rfl, -⟩ := (rest _ _).mp hP
      rw [hd, List.map_append, List.append_assoc]
      exact List.prefix_append _ _
  | settled ended rest =>
    have hr : h.result? ≠ none := by
      rw [← hA.result?]
      exact Option.some_ne_none _
    rw [Tells, History.deliveries, failure?_of_ended hs hA hr ended]
    refine ⟨?_, fun _ => .performed ((rest _ _).mpr ⟨rfl, rfl⟩)⟩
    rintro all (hrefused | hP)
    · exact absurd hg hrefused
    · obtain ⟨rfl, rfl⟩ := (rest _ _).mp hP
      exact List.prefix_refl _

theorem tells_of_screened (hg : ¬ j.Granted w) {call : Passage α σ} {after : World} {h : History α}
    (hS : j.Screened w call after h) : j.Tells w h := by
  by_cases hcall : call = .arrived
  · subst hcall
    obtain ⟨rfl, -⟩ := hS
    exact ⟨fun all _ => List.nil_prefix, fun hr => absurd rfl hr⟩
  · obtain ⟨-, rfl⟩ := (mediated_of_screened hS hcall).refused hg
    refine ⟨?_, fun _ => .refused hg⟩
    rintro all (- | hP)
    · exact List.prefix_refl _
    · exact absurd (granted_of_performance hP) hg

theorem tells_direct (hs : j.shape ≠ .unary) (hroom : j.handler.AwaitsRoom) {capacity : Capacity}
    {moves : List Move}
    (ha : j.Attended j.directTurn (fun _ => j.happenings) (.ofCall w (some (.new capacity))) moves) :
    j.Tells w (j.directHistory (.ofCall w (some (.new capacity))) moves) := by
  by_cases hg : j.Granted w
  · exact tells_of_follows hs hg (j.accounts_direct w _ moves) (follows_direct hroom hg ha)
  · exact tells_of_screened hg (j.screened_direct w _ moves)

theorem tells_served (hs : j.shape ≠ .unary) (hroom : j.handler.AwaitsRoom) {capacity : Capacity}
    {moves : List Move}
    (ha : j.Attended j.serve j.servedHappenings (.ofService w capacity) moves) :
    j.Tells w (j.servedHistory (.ofService w capacity) moves) := by
  by_cases hg : j.Granted w
  · obtain ⟨call, -, hA, hF⟩ := follows_served hroom hg ha
    exact tells_of_follows hs hg hA hF
  · obtain ⟨call, -, hS⟩ := j.screened_served w capacity moves
    exact tells_of_screened hg hS

end Job

/-! ## Going on to the end -/

theorem Exchange.world_takes (turn : TurnOrder → τ → Scene α → τ × Scene α) (n : Nat)
    (x : Exchange α τ) : (x.run turn (List.replicate n .take)).scene.world = x.scene.world := by
  induction n generalizing x with
  | zero => rfl
  | succ n ih =>
    have hrest := ih (x.step turn .take)
    rw [Exchange.step_take] at hrest
    rw [List.replicate_succ, Exchange.run, List.foldl_cons, Exchange.step_take]
    exact hrest

/-- What finds no room leaves everything as it is. -/
theorem Scene.offer_of_ne_sent (s : Scene α) {d : Delivery α} (hv : s.verdict ≠ .sent) :
    s.offer d = s := by
  rcases s with ⟨w, _ | c⟩
  · rfl
  · have hc : c.verdict ≠ .sent := hv
    simp [offer, Channel.offer, hc]

/-- The move leaves it to the call what becomes of it. -/
def Move.Patient (move : Move) : Prop := move = .take ∨ ∃ order, move = .turn order

namespace Job

variable {j : Job α σ} {w : World}

/-- The call is over, or its token is fired. -/
def Over (j : Job α σ) (x : Exchange α (Serving α σ)) : Prop :=
  x.call.call? = none ∨ x.scene.world.isFired j.call.token = true

/-- Turns and taking can bring the call to where it is over. -/
def CanBeOver (j : Job α σ) (x : Exchange α (Serving α σ)) : Prop :=
  ∃ more, (∀ move ∈ more, move.Patient) ∧ j.Over (x.run j.serve more)

theorem CanBeOver.of_run {x : Exchange α (Serving α σ)} (moves : List Move)
    (hpatient : ∀ move ∈ moves, move.Patient) (h : j.CanBeOver (x.run j.serve moves)) :
    j.CanBeOver x := by
  obtain ⟨more, honly, hover⟩ := h
  refine ⟨moves ++ more, fun move hm => ?_, Exchange.run_append j.serve x moves more ▸ hover⟩
  rcases List.mem_append.mp hm with hm | hm
  · exact hpatient move hm
  · exact honly move hm

theorem CanBeOver.of_turn {x : Exchange α (Serving α σ)}
    (h : j.CanBeOver (x.step j.serve (.turn .handlerFirst))) : j.CanBeOver x := by
  refine CanBeOver.of_run [.turn .handlerFirst] ?_ h
  intro move hm
  rw [List.mem_singleton.mp hm]
  exact Or.inr ⟨.handlerFirst, rfl⟩

section Turn

variable {x : Exchange α (Serving α σ)} {call : Passage α σ} {span : Span} {s : Scene α}

/-- The turn in which the handler waits ends with the call running, or with its token fired. -/
theorem turn_waiting {state : σ} (hv : x.call.call? = some call) (hs : x.scene.streamGone = false)
    (hwork : j.work call x.scene = (.worked span (.waiting state), s))
    (hgo : ∀ y : Exchange α (Serving α σ), y.call.call? = some (.running span state) →
      y.scene = s → j.CanBeOver y) : j.CanBeOver x := by
  obtain ⟨goOn, hgoOn, hserve, -⟩ := serve_of_open (j := j) .handlerFirst hv hs
  have hs' : (j.step call x.scene).2.streamGone = false := (j.step_streamGone call _).trans hs
  refine .of_turn ?_
  cases hf : s.world.isFired j.call.token with
  | true =>
    refine ⟨[], (fun _ hm => nomatch hm), Or.inr ?_⟩
    show (j.serve .handlerFirst x.call x.scene).2.world.isFired j.call.token = true
    rw [hserve, proceed_world_of_open goOn hs', step_eq, isFired_close, hwork]
    exact hf
  | false =>
    have hstep : j.step call x.scene = (.running span state, s) := by
      rw [step_eq, hwork]
      simp [close, hf]
    rw [hstep] at hserve
    refine hgo _ ?_ ?_
    · show (j.serve .handlerFirst x.call x.scene).1.call? = some (.running span state)
      rw [hserve]
      exact hgoOn _
    · show (j.serve .handlerFirst x.call x.scene).2 = s
      rw [hserve]
      rfl

theorem turn_ended {last : σ} {ending : Ending α} (hv : x.call.call? = some call)
    (hs : x.scene.streamGone = false)
    (hwork : j.work call x.scene = (.worked span (.ended last ending), s)) : j.CanBeOver x := by
  obtain ⟨goOn, hgoOn, hserve, -⟩ := serve_of_open (j := j) .handlerFirst hv hs
  refine .of_turn ⟨[], (fun _ hm => nomatch hm), Or.inl ?_⟩
  show (j.serve .handlerFirst x.call x.scene).1.call? = none
  have hcall : (j.step call x.scene).1 = .settled (some last) (j.shape.result (some ending)) := by
    rw [step_eq, hwork]
    exact j.close_worked_fst span (.ended last ending) s
  rw [hserve]
  generalize j.step call x.scene = after at hcall
  obtain ⟨_, s''⟩ := after
  dsimp only at hcall
  subst hcall
  cases j.shape.result (some ending) with
  | ok reply => rfl
  | error status => exact deliver_call? _ status s''

/-- A handler that still has something to perform can be brought to its end: emptied again and again,
no stream is too small for it. -/
theorem canBeOver_of_performs (hroom : j.handler.AwaitsRoom) {t : Turn α σ} {sent : List α}
    {ending : Ending α} (h : Performs j.handler t w sent ending) (ht : t.AwaitsRoom j.handler)
    (hv : x.call.call? = some call) (hs : x.scene.streamGone = false)
    (hwork : j.work call x.scene = (.worked span (t.run s).1, (t.run s).2)) (hw : s.world = w)
    (hs' : s.streamGone = false) : j.CanBeOver x := by
  induction h generalizing x call span s with
  | @wait state w sent ending _ ih =>
    refine turn_waiting hv hs hwork ?_
    intro y hy hscene
    exact ih (hroom.turn state) hy (hscene ▸ hs') rfl (hscene ▸ hw) (hscene ▸ hs')
  | finish state w ending => exact turn_ended hv hs hwork
  | @ask p question next w sent ending _ ih =>
    subst hw
    exact ih (ht _) hv hs (s := s.onWorld fun w => w.ask p question) hwork rfl hs'
  | readProfile _ ih =>
    subst hw
    exact ih (ht _) hv hs hwork rfl hs'
  | @setProfile p locale next w sent ending _ ih =>
    subst hw
    exact ih ht hv hs (s := s.onWorld fun w => w.setProfile p locale) hwork rfl hs'
  | readToken _ ih =>
    subst hw
    exact ih (ht _) hv hs hwork rfl hs'
  | @fire t next w sent ending _ ih =>
    subst hw
    exact ih ht hv hs (s := s.onWorld fun w => w.fire t) hwork rfl hs'
  | readStream _ ih =>
    rw [Turn.run, hs'] at hwork
    exact ih (ht _) hv hs hwork hw hs'
  | @offer value next w sent ending _ ih =>
    obtain ⟨⟨state, hfull, hagain⟩, hsent⟩ := ht
    have sends {x : Exchange α (Serving α σ)} {call : Passage α σ} {span : Span} {s : Scene α}
        (hv : x.call.call? = some call) (hs : x.scene.streamGone = false)
        (hwork : j.work call x.scene =
          (.worked span ((Turn.offer value next).run s).1, ((Turn.offer value next).run s).2))
        (hw : s.world = w) (hs' : s.streamGone = false) (hverdict : s.verdict = .sent) :
        j.CanBeOver x := by
      rw [Turn.run, hverdict] at hwork
      exact ih hsent hv hs hwork hw ((s.streamGone_offer _).trans hs')
    cases hverdict : s.verdict with
    | sent => exact sends hv hs hwork hw hs' hverdict
    | refused =>
      rw [Scene.verdict_eq_refused_iff, hs'] at hverdict
      cases hverdict
    | full =>
      -- The handler waits, the caller takes all that is held, and then there is room.
      rw [Turn.run, hverdict, hfull, Turn.run] at hwork
      have hunsent : s.verdict ≠ .sent := fun h => by rw [hverdict] at h; cases h
      rw [s.offer_of_ne_sent hunsent] at hwork
      refine turn_waiting hv hs hwork ?_
      intro y hy hscene
      obtain ⟨hbeside, hheld, hgone⟩ := y.run_takes j.serve
      have hworld := y.world_takes j.serve y.scene.held.length
      refine .of_run (List.replicate y.scene.held.length .take) ?_ ?_
      · intro move hm
        exact Or.inl (List.eq_of_mem_replicate hm)
      · generalize y.run j.serve (List.replicate y.scene.held.length .take) = z at *
        have hz : z.scene.streamGone = false := hgone.trans (hscene ▸ hs')
        have hwork' : j.work (.running span state) z.scene =
            (.worked span ((Turn.offer value next).run z.scene).1,
              ((Turn.offer value next).run z.scene).2) := by
          rw [work, hagain]
        have hw' : z.scene.world = w := by
          rw [hworld, hscene, hw]
        exact sends (hbeside.call ▸ hy) hz hwork' hw' hz (Scene.verdict_eq_sent hheld hz)

end Turn

theorem ending?_of_accounts {call : Passage α σ} {h : History α} (hA : j.Accounts call h)
    (hr : call.result? = none) : h.ending? = none := by
  cases call with
  | arrived => rw [show h = [] from hA]; rfl
  | running => exact hA.2.1
  | settled => cases hr

/-- The handler of a call that is not over has not ended. -/
theorem Served.ending?_eq_none {received : List (Delivery α)} {v : Serving α σ} {s : Scene α}
    {h : History α} (hS : j.Served received v s h) (hv : v.call? ≠ none) : h.ending? = none := by
  cases hS with
  | making _ hr hA => exact ending?_of_accounts hA hr
  | delivering | finished => exact absurd rfl hv

section Reads

variable {capacity : Capacity} {moves : List Move}

theorem canBeOver_served (hroom : j.handler.AwaitsRoom)
    (ha : j.Attended j.serve j.servedHappenings (.ofService w capacity) moves) {sent : List α}
    {ending : Ending α} (hP : j.Performance w sent ending) :
    j.CanBeOver ((Exchange.ofService w capacity).run j.serve moves) := by
  have hg := granted_of_performance hP
  have hs := j.served_streamGone w capacity ha.close ha.drop
  obtain ⟨call, ⟨hv, hr⟩ | ⟨hv, -⟩, -, hF⟩ := follows_served hroom hg ha
  · generalize (Exchange.ofService w capacity).run j.serve moves = x at *
    generalize j.servedHistory (.ofService w capacity) moves = h at *
    generalize hworld : x.scene.world = after at *
    cases hF with
    | arrived alike =>
      subst hworld
      obtain ⟨ctx, s', hs', hwork, -, hperformance⟩ := work_arrived (fun _ ha => ha.2) hg alike
      exact canBeOver_of_performs hroom ((hperformance _ _).mp hP) (hroom.first ctx) hv hs hwork rfl
        (hs'.trans hs)
    | @running span state _ _ unended rest =>
      obtain ⟨more, -, hmore⟩ := (rest _ _).mp hP
      exact canBeOver_of_performs hroom hmore (hroom.turn state) hv hs rfl hworld hs
    | settled => cases hr
  · exact ⟨[], (fun _ hm => nomatch hm), Or.inl hv⟩

theorem exists_ended_of_over (hclose : .close ∉ moves) (hdrop : .drop ∉ moves) :
    let start : Exchange α (Serving α σ) := .ofService w capacity
    (start.run j.serve moves).call.call? = none →
      ∃ more, (∀ move ∈ more, move.Patient) ∧ (start.run j.serve (moves ++ more)).next = .ended := by
  intro start hv
  have hs := j.served_streamGone w capacity hclose hdrop
  obtain ⟨more, honly, hend, -⟩ := exists_takes_turn_ended (j.served_run w capacity moves) hs hv
  refine ⟨more, fun move hm => ?_, ?_⟩
  · rcases honly move hm with rfl | rfl
    · exact Or.inl rfl
    · exact Or.inr ⟨_, rfl⟩
  · rw [Exchange.run_append]
    exact hend

theorem not_mem_append_of_patient {more : List Move} (honly : ∀ move ∈ more, move.Patient) {move : Move}
    (hm : move ∉ moves) (himpatient : ¬ move.Patient) : move ∉ moves ++ more := by
  intro h
  rcases List.mem_append.mp h with h | h
  · exact hm h
  · exact himpatient (honly move h)

/-- The end of the stream of an attended call can be reached by turns and by taking, unless the handler
fires the token of its own call and then waits. -/
theorem exists_more (hroom : j.handler.AwaitsRoom)
    (ha : j.Attended j.serve j.servedHappenings (.ofService w capacity) moves)
    {all : List (Delivery α)} (hY : j.Yields w all) :
    let start : Exchange α (Serving α σ) := .ofService w capacity
    ∃ more, (∀ move ∈ more, move.Patient) ∧
      (j.Attended j.serve j.servedHappenings start (moves ++ more) →
        (start.run j.serve (moves ++ more)).next = .ended) := by
  intro start
  have hclose : ¬ Move.Patient .close := by rintro (h | ⟨order, h⟩) <;> cases h
  have hdrop : ¬ Move.Patient .drop := by rintro (h | ⟨order, h⟩) <;> cases h
  have finish {more : List Move} (honly : ∀ move ∈ more, move.Patient)
      (hv : (start.run j.serve (moves ++ more)).call.call? = none) :
      ∃ more, (∀ move ∈ more, move.Patient) ∧
        (j.Attended j.serve j.servedHappenings start (moves ++ more) →
          (start.run j.serve (moves ++ more)).next = .ended) := by
    obtain ⟨rest, honly', hend⟩ := exists_ended_of_over
      (not_mem_append_of_patient honly ha.close hclose)
      (not_mem_append_of_patient honly ha.drop hdrop) hv
    refine ⟨more ++ rest, fun move hm => ?_, fun _ => ?_⟩
    · rcases List.mem_append.mp hm with hm | hm
      · exact honly move hm
      · exact honly' move hm
    · rwa [← List.append_assoc]
  cases hY with
  | refused hg =>
    have honly : ∀ move ∈ [Move.turn .handlerFirst], move.Patient := by
      intro move hm
      rw [List.mem_singleton.mp hm]
      exact Or.inr ⟨_, rfl⟩
    refine finish honly ((j.served_run w capacity _).call?_eq_none ?_)
    have hturned : ∃ order, .turn order ∈ moves ++ [Move.turn .handlerFirst] :=
      ⟨.handlerFirst, List.mem_append_right _ List.mem_cons_self⟩
    rw [((j.mediated_served w capacity hturned).refused hg).2]
    exact Option.some_ne_none _
  | performed hP =>
    obtain ⟨more, honly, hover⟩ := canBeOver_served hroom ha hP
    rw [← Exchange.run_append] at hover
    by_cases hv : (start.run j.serve (moves ++ more)).call.call? = none
    · exact finish honly hv
    · refine ⟨more, honly, fun ha' => ?_⟩
      have hunended := (j.served_run w capacity (moves ++ more)).ending?_eq_none hv
      have hunfired := ha'.unfired (granted_of_performance hP) _ (List.prefix_refl _) hunended
      exact absurd (hunfired.symm.trans (hover.resolve_left hv)) Bool.false_ne_true

/-- What the caller of a served call reads is `all`: at every moment a beginning of it, and all of it at
the end of the stream. The end can be reached by turns and by taking, as long as the run stays an
attended one. -/
structure Reads (j : Job α σ) (w : World) (capacity : Capacity) (moves : List Move)
    (all : List (Delivery α)) : Prop where
  received : ((Exchange.ofService w capacity).run j.serve moves).received <+: all
  ended : ((Exchange.ofService w capacity).run j.serve moves).next = .ended →
    ((Exchange.ofService w capacity).run j.serve moves).received = all
  more : ∃ more, (∀ move ∈ more, move.Patient) ∧
    (j.Attended j.serve j.servedHappenings (.ofService w capacity) (moves ++ more) →
      ((Exchange.ofService w capacity).run j.serve (moves ++ more)).next = .ended)

theorem reads_of_yields (hs : j.shape ≠ .unary) (hroom : j.handler.AwaitsRoom)
    (ha : j.Attended j.serve j.servedHappenings (.ofService w capacity) moves)
    {all : List (Delivery α)} (hY : j.Yields w all) : j.Reads w capacity moves all := by
  have hS := j.served_run w capacity moves
  have hopen := j.served_streamGone w capacity ha.close ha.drop
  obtain ⟨hbegin, hall⟩ := tells_served hs hroom ha
  obtain ⟨-, -, hprefix⟩ := hS.carried_prefix
  have hreceived := ((List.prefix_append _ _).trans hprefix).trans (hbegin all hY)
  refine ⟨hreceived, fun hn => ?_, exists_more hroom ha hY⟩
  obtain ⟨hr, hrec⟩ := received_of_ended hS hopen hn
  rw [hrec]
  exact hY.unique (hall (Option.isSome_iff_ne_none.mp hr))

end Reads

/-- How much a stream holds makes no difference to what is read from it: all callers of a call who keep
the stream read the same, for any two capacities and in whatever order they take and the call has its
turns, provided that the handler waits until each element is taken and its token is not fired before it
has ended. What is read is what the call puts on its stream when it is made directly, and then the
status if that fails. -/
theorem buffer_unobservable (j : Job α σ) (hs : j.shape ≠ .unary) (hroom : j.handler.AwaitsRoom)
    (w : World) (capacity : Capacity) (moves : List Move)
    (ha : j.Attended j.serve j.servedHappenings (.ofService w capacity) moves) :
    (∀ capacity' moves',
      j.Attended j.serve j.servedHappenings (.ofService w capacity') moves' →
      let y := (Exchange.ofService w capacity').run j.serve moves'
      y.next = .ended → j.Reads w capacity moves y.received) ∧
    ∀ capacity' moves',
      let start : Exchange α (Passage α σ) := .ofCall w (some (.new capacity'))
      j.Attended j.directTurn (fun _ => j.happenings) start moves' →
      let y := start.run j.directTurn moves'
      ∀ result, y.call.result? = some result →
        j.Reads w capacity moves
          (y.received ++ y.scene.held ++ (result.failure?.map .failure).toList) := by
  constructor
  · intro capacity' moves' ha' y hn
    obtain ⟨hr, hrec⟩ := received_of_ended (j.served_run w capacity' moves')
      (j.served_streamGone w capacity' ha'.close ha'.drop) hn
    obtain ⟨-, hyields⟩ := tells_served hs hroom ha'
    rw [hrec]
    exact reads_of_yields hs hroom ha (hyields (Option.isSome_iff_ne_none.mp hr))
  · intro capacity' moves' start ha' y result hresult
    have hA := j.accounts_direct w (some (.new capacity')) moves'
    have hr := hA.result?.symm.trans hresult
    have hopen : y.scene.streamGone = false :=
      Exchange.streamGone_run (fun _ => j.step_streamGone) ha'.close ha'.drop start rfl
    have hput := (j.carried_direct w (some (.new capacity')) moves').2 hopen
    have hdeliveries : (j.directHistory start moves').deliveries =
        y.received ++ y.scene.held ++ (result.failure?.map .failure).toList := by
      rw [hput, History.deliveries, History.failure?, hr]
      cases result <;> rfl
    obtain ⟨-, hyields⟩ := tells_direct hs hroom ha'
    rw [← hdeliveries]
    exact reads_of_yields hs hroom ha (hyields (hr ▸ Option.some_ne_none result))

/-! ## An example -/

/-- Who only gives turns and takes attends to a call whose token stays unfired. -/
theorem attended_of_patient {j : Job α σ} {turn : TurnOrder → τ → Scene α → τ × Scene α}
    {inTurn : TurnOrder → τ → Scene α → History α} {start : Exchange α τ} {moves : List Move}
    (hpatient : ∀ move ∈ moves, move.Patient)
    (hunfired : ∀ n ≤ moves.length,
      (start.run turn (moves.take n)).scene.world.isFired j.call.token = false) :
    j.Attended turn inTurn start moves := by
  have absent {move : Move} (himpatient : ¬ move.Patient) : move ∉ moves :=
    fun hm => himpatient (hpatient move hm)
  refine ⟨absent ?_, absent ?_, fun token hm => absurd hm (absent ?_), ?_⟩
  · rintro (h | ⟨order, h⟩) <;> cases h
  · rintro (h | ⟨order, h⟩) <;> cases h
  · rintro (h | ⟨order, h⟩) <;> cases h
  · intro _ before hbefore _
    rw [List.prefix_iff_eq_take.mp hbefore]
    exact hunfired _ hbefore.length_le

theorem awaitsRoom_sending (elements : List α) (ending : Ending α) :
    (Handler.sending elements ending).AwaitsRoom := by
  have hturn (rest : List α) : (Turn.sending ending rest).AwaitsRoom (.sending elements ending) := by
    induction rest with
    | nil => trivial
    | cons x rest ih => exact ⟨⟨x :: rest, rfl, rfl⟩, ih⟩
  exact ⟨fun _ => hturn elements, hturn⟩

/-- Two elements and a failure, over a stream that holds one, over a stream that holds eight, and
directly. -/
theorem buffer_unobservable_one_and_eight :
    let j := Job.plain [] .free none .serverStreaming (.sending [1, 2] (.failed (.unexpected ⟨[]⟩)))
    let one : Capacity := ⟨1, by decide, by decide⟩
    let eight : Capacity := ⟨8, by decide, by decide⟩
    let reading : List Move := [.turn .handlerFirst, .take, .turn .streamFirst, .take,
      .turn .handlerFirst]
    let afterwards : List Move := [.turn .streamFirst, .take, .take, .take]
    let failed : Status := { code := .internal, message := "An error occurs." }
    let all := [.element 1, .element 2, .failure failed]
    j.handler.AwaitsRoom ∧
      ((Exchange.ofService World.blank eight).run j.serve afterwards).next = .ended ∧
      j.Reads World.blank one reading all ∧ j.Reads World.blank eight afterwards all := by
  intro j one eight reading afterwards failed all
  have hroom : j.handler.AwaitsRoom := awaitsRoom_sending [1, 2] _
  have hone : j.Attended j.serve j.servedHappenings (.ofService World.blank one) reading :=
    attended_of_patient (by simp [reading, Move.Patient]) (by decide +kernel)
  have height : j.Attended j.serve j.servedHappenings (.ofService World.blank eight) afterwards :=
    attended_of_patient (by simp [afterwards, Move.Patient]) (by decide +kernel)
  have hdirect : j.Attended j.directTurn (fun _ => j.happenings)
      (.ofCall World.blank (some (.new eight))) [.turn .handlerFirst] :=
    attended_of_patient (by simp [Move.Patient]) (by decide +kernel)
  obtain ⟨hserved, -⟩ :=
    j.buffer_unobservable (by decide) hroom World.blank one reading hone
  obtain ⟨-, hput⟩ :=
    j.buffer_unobservable (by decide) hroom World.blank eight afterwards height
  have hend : ((Exchange.ofService World.blank eight).run j.serve afterwards).next = .ended := by
    decide +kernel
  have hreceived : ((Exchange.ofService World.blank eight).run j.serve afterwards).received = all := by
    decide +kernel
  let made := (Exchange.ofCall World.blank (some (.new eight))).run j.directTurn [.turn .handlerFirst]
  have hresult : made.call.result? = some (.error failed) := rfl
  have hheld : made.received ++ made.scene.held = [.element 1, .element 2] := by
    decide +kernel
  have hone' := hserved eight afterwards height hend
  have height' := hput eight _ hdirect _ hresult
  rw [hreceived] at hone'
  rw [hheld] at height'
  exact ⟨hroom, hend, hone', height'⟩

end Job

end CallGate
