import CallGate.Proofs.Cancellation
import CallGate.Proofs.Ledger

/-!
# Cleaning up

A handler may wait for the token of its call, in order to clean up when the call is cancelled. It sees
the token before its call ends, but has no more than that one turn. Main statements: `cleansUp_step`
says what one turn does to a call whose handler waits for its token, and `cleanup_finished_iff` that a
cleanup is finished, and its outcome is what the call comes to, just if it ends in the turn in which
the handler sees the token. A cleanup that has to wait is cut short there.
-/

namespace CallGate

variable {α σ : Type}

/-- In the given state the handler waits for a token; when it sees that the token has been fired, it
goes on as `cleanup` says. -/
def Handler.Awaits (handler : Handler α σ) (token : TokenId) (state : σ) (cleanup : Turn α σ) : Prop :=
  handler.turn state = .readToken token fun fired => if fired then cleanup else .wait state

namespace Handler.Awaits

variable {handler : Handler α σ} {token : TokenId} {state : σ} {cleanup : Turn α σ}

theorem run (h : handler.Awaits token state cleanup) (s : Scene α) :
    (handler.turn state).run s =
      if s.world.isFired token then cleanup.run s else (.waiting state, s) := by
  rw [show handler.turn state = _ from h, Turn.run]
  split <;> rfl

theorem happenings (h : handler.Awaits token state cleanup) (s : Scene α) :
    (handler.turn state).happenings s =
      if s.world.isFired token then cleanup.happenings s else [.waited] := by
  rw [show handler.turn state = _ from h, Turn.happenings]
  split <;> rfl

end Handler.Awaits

/-- The turn leaves the handler waiting. -/
def Turn.Suspends (t : Turn α σ) (s : Scene α) : Prop := (t.run s).1.ending? = none

theorem World.isFired_fire_of_isFired {w : World} {t : TokenId} (h : w.isFired t = true)
    (t' : TokenId) : (w.fire t').isFired t = true := by
  rw [isFired_fire, h, Bool.true_or]

/-- A token stays fired, whatever a handler does. -/
theorem Turn.isFired_run (t : Turn α σ) {s : Scene α} {token : TokenId}
    (hf : s.world.isFired token = true) : (t.run s).2.world.isFired token = true := by
  refine t.run_keeps (P := fun s' _ => s'.world.isFired token = true) ?_ (h := []) hf
  intro s₁ e s₂ h hd hf
  cases hd with
  | fire token' => exact World.isFired_fire_of_isFired hf token'
  | _ => exact hf

namespace Job

variable {j : Job α σ} {span : Span} {state : σ} {cleanup : Turn α σ}

/-! ## One turn -/

/-- As long as its token is not fired, a handler that waits for it goes on waiting. -/
theorem step_unfired (hawait : j.handler.Awaits j.call.token state cleanup) {s : Scene α}
    (hf : ¬ s.world.isFired j.call.token = true) (span : Span) :
    j.step (.running span state) s = (.running span state, s) ∧
      j.happenings (.running span state) s = [.waited] := by
  have hstep : j.step (.running span state) s = (.running span state, s) := by
    rw [step_eq]
    simp only [work, hawait.run, if_neg hf, close]
  refine ⟨hstep, ?_⟩
  rw [happenings, hstep, deeds, hawait.happenings, if_neg hf]
  rfl

/-- In the turn in which the handler sees that its token is fired, it cleans up, and the call comes to
its result. -/
theorem step_fired (hawait : j.handler.Awaits j.call.token state cleanup) {s : Scene α}
    (hf : s.world.isFired j.call.token = true) (span : Span) :
    let result := j.shape.result (cleanup.run s).1.ending?
    (∃ last, (j.step (.running span state) s).1 = .settled last result) ∧
      j.happenings (.running span state) s = cleanup.happenings s ++ [.settled result] := by
  intro result
  have hstep : ∃ last, (j.step (.running span state) s).1 = .settled last result := by
    have hf' := cleanup.isFired_run hf
    rw [step_eq]
    simp only [work, hawait.run, if_pos hf]
    rw [close_worked_fst]
    unfold result
    generalize (cleanup.run s).1 = progress
    cases progress with
    | waiting last => exact ⟨some last, if_pos hf'⟩
    | ended last ending => exact ⟨some last, rfl⟩
  refine ⟨hstep, ?_⟩
  obtain ⟨last, hlast⟩ := hstep
  rw [happenings, hlast, deeds, hawait.happenings, if_pos hf]
  rfl

/-! ## Whole runs -/

/-- What has happened in a call since its handler began to wait for the token. -/
inductive CleansUp (j : Job α σ) (span : Span) (state : σ) (cleanup : Turn α σ) :
    Passage α σ → History α → Prop where
  | waits (n : Nat) : CleansUp j span state cleanup (.running span state) (.replicate n .waited)
  | settles (n : Nat) {s : Scene α} (fired : s.world.isFired j.call.token = true) (last : Option σ) :
      CleansUp j span state cleanup (.settled last (j.shape.result (cleanup.run s).1.ending?))
        (.replicate n .waited ++ cleanup.happenings s ++
          [.settled (j.shape.result (cleanup.run s).1.ending?)])

theorem cleansUp_step (hawait : j.handler.Awaits j.call.token state cleanup) {call : Passage α σ}
    {h : History α} (hC : j.CleansUp span state cleanup call h) (s : Scene α) :
    j.CleansUp span state cleanup (j.step call s).1 (h ++ j.happenings call s) := by
  cases hC with
  | waits n =>
    by_cases hf : s.world.isFired j.call.token = true
    · obtain ⟨⟨last, hstep⟩, hhappens⟩ := step_fired hawait hf span
      rw [hstep, hhappens, ← List.append_assoc]
      exact .settles n hf last
    · obtain ⟨hstep, hhappens⟩ := step_unfired hawait hf span
      rw [hstep, hhappens, ← List.replicate_succ']
      exact .waits (n + 1)
  | settles n hf last =>
    rw [happenings, List.append_nil]
    exact .settles n hf last

theorem cleansUp_course (hawait : j.handler.Awaits j.call.token state cleanup) {call : Passage α σ}
    {s : Scene α} {course : Course α σ}
    (hC : j.CleansUp span state cleanup call (j.historyOf course)) :
    j.CleansUp span state cleanup (j.step call s).1 (j.historyOf (course ++ [(call, s)])) := by
  rw [historyOf_append]
  exact cleansUp_step hawait hC s

theorem cleansUp_direct (hawait : j.handler.Awaits j.call.token state cleanup)
    {x : Exchange α (Passage α σ)} (hx : x.call = .running span state) (moves : List Move) :
    ∃ call, j.CleansUp span state cleanup call (j.directHistory x moves) := by
  rw [directHistory_eq]
  exact ⟨_, j.direct_run
    (Q := fun call _ course => j.CleansUp span state cleanup call (j.historyOf course))
    (cleansUp_course hawait) (fun _ hC => hC) x (hx ▸ .waits 0) moves⟩

theorem cleansUp_served (hawait : j.handler.Awaits j.call.token state cleanup)
    {x : Exchange α (Serving α σ)} (hx : x.call.call? = some (.running span state))
    (moves : List Move) :
    ∃ call, j.CleansUp span state cleanup call (j.servedHistory x moves) := by
  rw [servedHistory_eq]
  obtain ⟨call, -, hC⟩ := served_satisfies
    (Q := fun call _ course => j.CleansUp span state cleanup call (j.historyOf course))
    (cleansUp_course hawait) (fun _ hC => hC) x ⟨_, Or.inl hx, .waits 0⟩ moves
  exact ⟨call, hC⟩

/-- Once the token is fired, the next turn of a call whose handler waits for it is decisive. -/
theorem result?_happenings_fired (hawait : j.handler.Awaits j.call.token state cleanup) {s : Scene α}
    (hf : s.world.isFired j.call.token = true) :
    (j.happenings (.running span state) s).result? ≠ none := by
  rw [(step_fired hawait hf span).2, History.result?_append, (cleanup.happenings_quiet s).2]
  exact Option.some_ne_none _

/-- A turn of a served call begins with a turn of the call itself. -/
theorem callTurns_eq_cons (order : TurnOrder) {v : Serving α σ} {call : Passage α σ}
    (hv : v.call? = some call) (s : Scene α) :
    ∃ s' rest, j.callTurns order v s = (call, s') :: rest ∧ (s' = s ∨ s' = j.giveUp s) := by
  cases v with
  | delivering | finished => cases hv
  | abandoned => cases hv; exact ⟨s, [], rfl, Or.inl rfl⟩
  | watching =>
    cases hv
    cases order with
    | streamFirst =>
      refine ⟨_, [], rfl, ?_⟩
      split
      · exact Or.inr rfl
      · exact Or.inl rfl
    | handlerFirst =>
      simp only [callTurns]
      split
      · exact ⟨s, _, rfl, Or.inl rfl⟩
      · exact ⟨s, [], rfl, Or.inl rfl⟩

theorem result?_servedHappenings_fired (hawait : j.handler.Awaits j.call.token state cleanup)
    (order : TurnOrder) {v : Serving α σ} (hv : v.call? = some (.running span state)) {s : Scene α}
    (hf : s.world.isFired j.call.token = true) : (j.servedHappenings order v s).result? ≠ none := by
  obtain ⟨s', rest, hturns, hs'⟩ := callTurns_eq_cons (j := j) order hv s
  have hf' : s'.world.isFired j.call.token = true := by
    rcases hs' with rfl | rfl
    · exact hf
    · exact World.isFired_fire_of_isFired (w := s.world.log none .streamGone) hf _
  rw [servedHappenings, hturns, List.flatMap_cons, History.result?_append, Ne, Option.or_eq_none_iff]
  exact fun h => result?_happenings_fired hawait hf' h.1

/-! ## What becomes of a cleanup -/

/-- In a call whose handler waited for the token, the token was fired and found so in the scene `s`. The
handler then did what its cleanup does in one turn, and the call came to its result: the outcome of the
way in which the cleanup ended in that turn, or else that of a handler that is dropped. -/
structure CleanedUp (j : Job α σ) (cleanup : Turn α σ) (s : Scene α) (h : History α)
    (result : CallResult α) : Prop where
  fired : s.world.isFired j.call.token = true
  history : ∃ n, h = List.replicate n .waited ++ cleanup.happenings s ++ [.settled result]
  finished : (∃ ending, h.ending? = some ending ∧ result = j.shape.outcome (some ending)) ↔
    ¬ cleanup.Suspends s
  cutShort : cleanup.Suspends s → h.ending? = none ∧ result = j.shape.outcome none

theorem views_replicate_waited (n : Nat) :
    History.ending? (.replicate n .waited : History α) = none ∧
      History.result? (.replicate n .waited : History α) = none := by
  induction n with
  | zero => exact ⟨rfl, rfl⟩
  | succ n ih => exact ih

theorem cleanedUp_of_cleansUp {call : Passage α σ} {h : History α}
    (hC : j.CleansUp span state cleanup call h) {result : CallResult α}
    (hr : h.result? = some result) : ∃ s, j.CleanedUp cleanup s h result := by
  cases hC with
  | waits n =>
    rw [(views_replicate_waited n).2] at hr
    cases hr
  | @settles n s hf last =>
    rw [History.result?_append, History.result?_append, (views_replicate_waited n).2,
      (cleanup.happenings_quiet s).2] at hr
    obtain rfl : j.shape.result (cleanup.run s).1.ending? = result := Option.some.inj hr
    have hending : History.ending? (.replicate n .waited ++ cleanup.happenings s ++
        [.settled (j.shape.result (cleanup.run s).1.ending?)]) = (cleanup.run s).1.ending? := by
      rw [History.ending?_append, History.ending?_append, (views_replicate_waited n).1,
        cleanup.ending?_happenings]
      exact Option.or_none
    have hresult {ending? : Option (Ending α)} (he : (cleanup.run s).1.ending? = ending?) :
        j.shape.result (cleanup.run s).1.ending? = j.shape.outcome ending? := by
      rw [Shape.result_eq_outcome, he]
    refine ⟨s, hf, ⟨n, rfl⟩, ⟨?_, fun hs => ?_⟩, fun hs => ?_⟩
    · rintro ⟨ending, he, -⟩ hs
      rw [hending, hs] at he
      cases he
    · obtain ⟨ending, he⟩ := Option.ne_none_iff_exists'.mp hs
      exact ⟨ending, hending.trans he, hresult he⟩
    · exact ⟨hending.trans hs, hresult hs⟩

/-- Whatever happens around a call whose handler waits for the token: if the call comes to a result,
the token was fired, and the handler did what its cleanup does in one turn. If the cleanup ended in that
turn, the call comes to the outcome of that ending; if it had to wait, the handler is dropped there, the
rest of the cleanup is never done, and the call is cancelled. Once the token is fired, the
next turn is that turn. -/
theorem cleanup_finished_iff (j : Job α σ) {state : σ} {cleanup : Turn α σ}
    (hawait : j.handler.Awaits j.call.token state cleanup) (span : Span) (moves : List Move) :
    (∀ x : Exchange α (Passage α σ), x.call = .running span state →
      (∀ result, (j.directHistory x moves).result? = some result →
        ∃ s, j.CleanedUp cleanup s (j.directHistory x moves) result) ∧
      ∀ order, x.scene.world.isFired j.call.token = true →
        (j.directHistory x (.turn order :: moves)).result? ≠ none) ∧
    ∀ x : Exchange α (Serving α σ), x.call.call? = some (.running span state) →
      (∀ result, (j.servedHistory x moves).result? = some result →
        ∃ s, j.CleanedUp cleanup s (j.servedHistory x moves) result) ∧
      ∀ order, x.scene.world.isFired j.call.token = true →
        (j.servedHistory x (.turn order :: moves)).result? ≠ none := by
  -- What comes first in a history decides about its result.
  have first {h rest : History α} (hr : h.result? ≠ none) : (h ++ rest).result? ≠ none := by
    rw [History.result?_append, Ne, Option.or_eq_none_iff]
    exact fun hnone => hr hnone.1
  constructor
  · intro x hx
    obtain ⟨call, hC⟩ := cleansUp_direct hawait hx moves
    refine ⟨fun result hr => cleanedUp_of_cleansUp hC hr, fun order hf => first ?_⟩
    rw [Exchange.happenings, hx]
    exact result?_happenings_fired hawait hf
  · intro x hx
    obtain ⟨call, hC⟩ := cleansUp_served hawait hx moves
    exact ⟨fun result hr => cleanedUp_of_cleansUp hC hr,
      fun order hf => first (result?_servedHappenings_fired hawait order hx hf)⟩

/-! ## An example -/

/-- Sends a last element and ends. -/
def farewell : Turn Nat Bool := .offer 1 fun _ => .finish true (.returned 2)

/-- The handler that waits for its token and then says farewell, at once or after a pause. -/
def parting (pauses : Bool) : Handler Nat Bool where
  setup _ := .ready false
  turn
    | false => .readToken (.own 0) fun fired =>
      if fired then if pauses then .wait true else farewell else .wait false
    | true => farewell

/-- Without a pause the farewell is sent, and the handler ends by itself. -/
theorem cleanup_finished_at_once :
    let j := Job.plain [] .free none .serverStreaming (parting false)
    let x := (Exchange.ofService World.blank ⟨8, by decide, by decide⟩).run j.serve
      [.turn .streamFirst, .fire (.own 0)]
    let h := j.servedHistory x [.turn .streamFirst]
    j.handler.Awaits j.call.token false farewell ∧
      ∃ s, j.CleanedUp farewell s h (.ok .completed) ∧ ¬ farewell.Suspends s ∧ h.taken = [1] := by
  intro j x h
  have hawait : j.handler.Awaits j.call.token false farewell := rfl
  let span : Span := ⟨j.call.method, j.call.service, some (.generated ⟨⟨0, by decide⟩⟩)⟩
  have hx : x.call.call? = some (.running span false) := rfl
  obtain ⟨-, hserved⟩ := j.cleanup_finished_iff hawait span [.turn .streamFirst]
  obtain ⟨hcleaned, -⟩ := hserved x hx
  obtain ⟨-, hnext⟩ := j.cleanup_finished_iff hawait span []
  obtain ⟨-, hturn⟩ := hnext x hx
  obtain ⟨result, hr⟩ := Option.ne_none_iff_exists'.mp (hturn .streamFirst (by decide +kernel))
  obtain rfl : .ok .completed = result := Option.some.inj hr
  obtain ⟨s, hs⟩ := hcleaned (.ok .completed) hr
  exact ⟨hawait, s, hs, (fun h => nomatch h), by decide +kernel⟩

/-- With a pause the stream ends without the farewell, which would have been the next thing to do, and
the handler never ends by itself. -/
theorem cleanup_cut_short_by_pause :
    let j := Job.plain [] .free none .serverStreaming (parting true)
    let start : Exchange Nat (Serving Nat Bool) := .ofService World.blank ⟨8, by decide, by decide⟩
    let moves : List Move :=
      [.turn .streamFirst, .fire (.own 0), .turn .streamFirst, .take, .turn .streamFirst]
    let x := start.run j.serve moves
    j.handler.Awaits j.call.token false (.wait true) ∧ x.call.last? = some true ∧
      j.handler.turn true = farewell ∧ (j.servedHistory start moves).ending? = none ∧
      x.received = [] ∧ x.next = .ended :=
  ⟨rfl, rfl, rfl, rfl, rfl, rfl⟩

end Job

end CallGate
