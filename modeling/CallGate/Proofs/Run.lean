import CallGate.Exchange
import CallGate.Proofs.Log

/-!
# Runs of moves

A run mixes the turns of a call with what happens around it: the caller reads the stream, closes or
drops it, and tokens are fired. What happens around a call does not touch the call. Main statements:
`gather_keeps` reduces what holds after every run to a turn and to a move around the call, and
`callTurns_keep` reduces a turn of a served call to turns of the call itself; `run_keeps` and
`serve_keeps` are the two for histories. From them, `direct_run` and `served_satisfies` reduce what
holds of a call, its world and its turns after every run to a turn of the call.
-/

namespace CallGate

variable {α σ τ : Type}

namespace Exchange

/-- What is listed about a move: only turns are listed. -/
def listed {β : Type} (inTurn : TurnOrder → τ → Scene α → List β) (x : Exchange α τ) : Move → List β
  | .turn order => inTurn order x.call x.scene
  | _ => []

/-- What is listed about the turns of a run, one turn after the other. -/
def gather {β : Type} (turn : TurnOrder → τ → Scene α → τ × Scene α)
    (inTurn : TurnOrder → τ → Scene α → List β) : Exchange α τ → List Move → List β
  | _, [] => []
  | x, move :: moves => x.listed inTurn move ++ gather turn inTurn (x.step turn move) moves

/-- What happens in a call during a move. -/
def happenings (inTurn : TurnOrder → τ → Scene α → History α) (x : Exchange α τ) : Move → History α
  | .turn order => inTurn order x.call x.scene
  | _ => []

/-- What happens in a call during moves, one after the other. -/
def history (turn : TurnOrder → τ → Scene α → τ × Scene α)
    (inTurn : TurnOrder → τ → Scene α → History α) : Exchange α τ → List Move → History α
  | _, [] => []
  | x, move :: moves => x.happenings inTurn move ++ history turn inTurn (x.step turn move) moves

/-- What a move around a call leaves as it is. Of the stream it can only take away. -/
structure Beside (x y : Exchange α τ) : Prop where
  call : y.call = x.call
  journal : y.scene.world.journal = x.scene.world.journal
  decides : x.scene.world.DecidesAlike y.scene.world
  carried : y.received ++ y.scene.held <+: x.received ++ x.scene.held
  carried_eq : y.scene.streamGone = false → y.received ++ y.scene.held = x.received ++ x.scene.held
  streamGone : y.scene.streamGone = false → x.scene.streamGone = false
  sinks : y.scene.sinks = x.scene.sinks

theorem Beside.aside {x y : Exchange α τ} (hb : x.Beside y) : x.scene.world.Aside y.scene.world :=
  .of_journal_eq hb.decides hb.journal

theorem beside_of_carried {x y : Exchange α τ} (call : y.call = x.call)
    (world : y.scene.world = x.scene.world)
    (carried : y.received ++ y.scene.held = x.received ++ x.scene.held)
    (streamGone : y.scene.streamGone = false → x.scene.streamGone = false)
    (sinks : y.scene.sinks = x.scene.sinks) : x.Beside y := by
  refine ⟨call, congrArg _ world, world ▸ .refl _, ⟨[], ?_⟩, fun _ => carried, streamGone, sinks⟩
  rw [List.append_nil, carried]

/-- What taking does, whatever the stream holds. -/
theorem step_take (turn : TurnOrder → τ → Scene α → τ × Scene α) (x : Exchange α τ) :
    x.step turn .take =
      { x with
        scene := { x.scene with outbox := x.scene.outbox.map Channel.receive }
        received := x.received ++
          (x.scene.outbox.bind fun channel => channel.held.head?).toList } := by
  rcases x with ⟨call, ⟨w, _ | ⟨capacity, _ | ⟨d, held⟩, stream, sinks⟩⟩, received⟩
  · simp [step, next]
  · have hn : (⟨capacity, [], stream, sinks⟩ : Channel (Delivery α)).next = .ended ∨
        (⟨capacity, [], stream, sinks⟩ : Channel (Delivery α)).next = .pending := by
      simp only [Channel.next]
      split
      · exact Or.inl rfl
      · exact Or.inr rfl
    rcases hn with hn | hn <;> simp [step, next, hn, Channel.receive]
  · rfl

/-- A move of the caller, or of whoever fires tokens, happens beside the call. -/
theorem beside_step (turn : TurnOrder → τ → Scene α → τ × Scene α) (x : Exchange α τ) {move : Move}
    (hm : ∀ order, move ≠ .turn order) : x.Beside (x.step turn move) := by
  rcases x with ⟨call, ⟨w, outbox⟩, received⟩
  cases move with
  | turn order => exact absurd rfl (hm order)
  | fire token =>
    exact ⟨rfl, World.journal_fire w token, .fire w token, List.prefix_refl _, fun _ => rfl, id, rfl⟩
  | take =>
    rw [step_take]
    rcases outbox with _ | ⟨capacity, _ | ⟨d, held⟩, stream, sinks⟩
    · exact beside_of_carried rfl rfl (congrArg (· ++ []) (List.append_nil received)) id rfl
    · exact beside_of_carried rfl rfl (congrArg (· ++ []) (List.append_nil received)) id rfl
    · exact beside_of_carried rfl rfl (List.append_assoc received [d] held) id rfl
  | close =>
    rcases outbox with _ | ⟨capacity, held, stream, sinks⟩
    · exact beside_of_carried rfl rfl rfl id rfl
    · cases stream with
      | attached => exact beside_of_carried rfl rfl rfl (fun _ => rfl) rfl
      | closed | dropped => exact beside_of_carried rfl rfl rfl id rfl
  | drop =>
    rcases outbox with _ | ⟨capacity, held, stream, sinks⟩
    · exact beside_of_carried rfl rfl rfl id rfl
    · refine ⟨rfl, rfl, .refl w, ?_, (fun h => nomatch h), (fun h => nomatch h), rfl⟩
      exact (List.append_nil received).symm ▸ List.prefix_append received held

section Gather

variable {β : Type} {turn : TurnOrder → τ → Scene α → τ × Scene α}
  {inTurn : TurnOrder → τ → Scene α → List β}

/-- What every turn and every move beside the call keeps is kept by a run. -/
theorem gather_keeps {I : Exchange α τ → List β → Prop}
    (inside : ∀ {x l} order, I x l →
      I (x.step turn (.turn order)) (l ++ inTurn order x.call x.scene))
    (beside : ∀ {x y l}, x.Beside y → I x l → I y l) (moves : List Move) {x : Exchange α τ}
    {l : List β} (hI : I x l) : I (x.run turn moves) (l ++ x.gather turn inTurn moves) := by
  induction moves generalizing x l with
  | nil => rwa [gather, List.append_nil]
  | cons move moves ih =>
    rw [gather, ← List.append_assoc]
    refine ih ?_
    by_cases hm : ∃ order, move = .turn order
    · obtain ⟨order, rfl⟩ := hm
      exact inside order hI
    · have hn : x.listed inTurn move = [] := by
        cases move with
        | turn order => exact absurd ⟨order, rfl⟩ hm
        | _ => rfl
      rw [hn, List.append_nil]
      exact beside (beside_step turn x fun order ho => hm ⟨order, ho⟩) hI

/-- Whether each turn is looked at more closely at once or after the run makes no difference. -/
theorem gather_flatMap {γ : Type} (f : β → List γ) (x : Exchange α τ) (moves : List Move) :
    x.gather turn (fun order call s => (inTurn order call s).flatMap f) moves =
      (x.gather turn inTurn moves).flatMap f := by
  induction moves generalizing x with
  | nil => rfl
  | cons move moves ih =>
    rw [gather, gather, List.flatMap_append, ih]
    cases move <;> rfl

end Gather

variable {turn : TurnOrder → τ → Scene α → τ × Scene α}
  {inTurn : TurnOrder → τ → Scene α → History α}

theorem history_eq_gather (x : Exchange α τ) (moves : List Move) :
    x.history turn inTurn moves = x.gather turn inTurn moves := by
  induction moves generalizing x with
  | nil => rfl
  | cons move moves ih =>
    rw [history, gather, ih]
    cases move <;> rfl

theorem run_keeps {I : Exchange α τ → History α → Prop}
    (inside : ∀ {x h} order, I x h →
      I (x.step turn (.turn order)) (h ++ inTurn order x.call x.scene))
    (beside : ∀ {x y h}, x.Beside y → I x h → I y h) (moves : List Move) {x : Exchange α τ}
    {h : History α} (hI : I x h) : I (x.run turn moves) (h ++ x.history turn inTurn moves) := by
  rw [history_eq_gather]
  exact gather_keeps (I := I) inside beside moves hI

/-- What is so after every turn, and is kept by every move, is so after a run with a turn in it. -/
theorem run_turned {P : τ → Prop} (inside : ∀ order call s, P (turn order call s).1)
    {moves : List Move} (hm : ∃ order, Move.turn order ∈ moves) (x : Exchange α τ) :
    P (x.run turn moves).call := by
  -- From the first turn on, `P` holds at every moment.
  have keep (moves : List Move) : ∀ x : Exchange α τ, P x.call → P (x.run turn moves).call := by
    induction moves with
    | nil => exact fun _ h => h
    | cons move moves ih =>
      intro x hx
      refine ih _ ?_
      by_cases ho : ∃ order, move = .turn order
      · obtain ⟨order, rfl⟩ := ho
        exact inside order _ _
      · rw [(beside_step turn x fun order h => ho ⟨order, h⟩).call]
        exact hx
  induction moves generalizing x with
  | nil => obtain ⟨order, hm⟩ := hm; cases hm
  | cons move moves ih =>
    by_cases ho : ∃ order, move = .turn order
    · obtain ⟨order, rfl⟩ := ho
      exact keep moves _ (inside order _ _)
    · obtain ⟨order, hm⟩ := hm
      rcases List.mem_cons.mp hm with h | h
      · exact absurd ⟨order, h.symm⟩ ho
      · exact ih ⟨order, h⟩ _

/-- As long as the caller neither closes nor drops the stream, it is not gone. -/
theorem streamGone_run (inside : ∀ order call s, (turn order call s).2.streamGone = s.streamGone)
    {moves : List Move} (hclose : .close ∉ moves) (hdrop : .drop ∉ moves) (x : Exchange α τ)
    (hx : x.scene.streamGone = false) : (x.run turn moves).scene.streamGone = false := by
  induction moves generalizing x with
  | nil => exact hx
  | cons move moves ih =>
    rw [List.mem_cons, not_or] at hclose hdrop
    refine ih hclose.2 hdrop.2 _ ?_
    cases move with
    | turn order => exact (inside order _ _).trans hx
    | take =>
      simp only [step]
      split
      · rcases x with ⟨call, ⟨w, _ | channel⟩, received⟩
        · exact hx
        · exact hx
      · exact hx
    | close => exact absurd rfl hclose.1
    | drop => exact absurd rfl hdrop.1
    | fire token => exact hx

/-! ## Reading a stream to its end -/

theorem next_eq_ended_iff (x : Exchange α τ) :
    x.next = .ended ↔ x.scene.held = [] ∧ (x.scene.streamGone = true ∨ x.scene.sinks = 0) := by
  rcases x with ⟨call, ⟨w, _ | ⟨capacity, _ | ⟨d, held⟩, stream, sinks⟩⟩, received⟩
  · simp [next, Scene.held, Scene.streamGone]
  · simp only [next, Channel.next, Scene.held, Scene.streamGone, Scene.sinks]
    cases Channel.isClosed _ <;> simp
  · simp [next, Channel.next, Scene.held]

theorem run_append (turn : TurnOrder → τ → Scene α → τ × Scene α) (x : Exchange α τ)
    (moves more : List Move) : x.run turn (moves ++ more) = (x.run turn moves).run turn more :=
  List.foldl_append

/-- Taking as often as there is something held leaves nothing held. -/
theorem run_takes (turn : TurnOrder → τ → Scene α → τ × Scene α) (x : Exchange α τ) :
    let y := x.run turn (List.replicate x.scene.held.length .take)
    x.Beside y ∧ y.scene.held = [] ∧ y.scene.streamGone = x.scene.streamGone := by
  rcases x with ⟨call, ⟨w, _ | ⟨capacity, held, stream, sinks⟩⟩, received⟩
  · exact ⟨beside_of_carried rfl rfl rfl id rfl, rfl, rfl⟩
  · have hrun : run turn ⟨call, ⟨w, some ⟨capacity, held, stream, sinks⟩⟩, received⟩
        (List.replicate held.length .take) =
        ⟨call, ⟨w, some ⟨capacity, [], stream, sinks⟩⟩, received ++ held⟩ := by
      induction held generalizing received with
      | nil => rw [List.append_nil]; rfl
      | cons d held ih => exact (ih (received ++ [d])).trans (by rw [List.append_assoc]; rfl)
    dsimp only [Scene.held]
    rw [hrun]
    exact ⟨beside_of_carried rfl rfl (List.append_nil _) id rfl, rfl, rfl⟩

end Exchange

/-- The course of a call: how far it was at the beginning of each turn, and what was around it. -/
abbrev Course (α σ : Type) := List (Passage α σ × Scene α)

/-! ## Calls that are not served -/

namespace Job

variable (j : Job α σ)

/-- What happens in the given turns. -/
def historyOf (course : Course α σ) : History α :=
  course.flatMap fun turn => j.happenings turn.1 turn.2

/-- The course of a call that is made directly. -/
def directCourse (x : Exchange α (Passage α σ)) (moves : List Move) : Course α σ :=
  x.gather j.directTurn (fun _ call s => [(call, s)]) moves

/-- The history of a call that is made directly. -/
def directHistory (x : Exchange α (Passage α σ)) (moves : List Move) : History α :=
  x.history j.directTurn (fun _ => j.happenings) moves

theorem directHistory_eq (x : Exchange α (Passage α σ)) (moves : List Move) :
    j.directHistory x moves = j.historyOf (j.directCourse x moves) := by
  have hone : (fun (_ : TurnOrder) => j.happenings) = fun _ call s =>
      [(call, s)].flatMap fun turn => j.happenings turn.1 turn.2 := by
    funext order call s
    rw [List.flatMap_singleton]
  rw [directHistory, Exchange.history_eq_gather, hone, Exchange.gather_flatMap]
  rfl

theorem historyOf_append (course : Course α σ) (call : Passage α σ) (s : Scene α) :
    j.historyOf (course ++ [(call, s)]) = j.historyOf course ++ j.happenings call s := by
  rw [historyOf, List.flatMap_append, List.flatMap_singleton, historyOf]

/-- What every turn of a call and every event aside from it keep is kept while the call is made. -/
theorem direct_run {Q : Passage α σ → World → Course α σ → Prop}
    (inside : ∀ {call s course}, Q call s.world course →
      Q (j.step call s).1 (j.step call s).2.world (course ++ [(call, s)]))
    (aside : ∀ {call w w' course}, w.Aside w' → Q call w course → Q call w' course)
    (start : Exchange α (Passage α σ)) (hstart : Q start.call start.scene.world [])
    (moves : List Move) :
    let x := start.run j.directTurn moves
    Q x.call x.scene.world (j.directCourse start moves) := by
  refine Exchange.gather_keeps (I := fun x course => Q x.call x.scene.world course) (l := []) ?_ ?_
    moves hstart
  · intro x course order hQ
    exact inside hQ
  · intro x y course hb hQ
    rw [hb.call]
    exact aside hb.aside hQ

/-- The history of a call that is made directly explains where it is. -/
theorem accounts_direct (w : World) (outbox : Option (Channel (Delivery α))) (moves : List Move) :
    let start : Exchange α (Passage α σ) := .ofCall w outbox
    j.Accounts (start.run j.directTurn moves).call (j.directHistory start moves) := by
  refine Exchange.run_keeps (I := fun x h => j.Accounts x.call h) (h := []) ?_ ?_ moves rfl
  · intro x h order hA
    exact accounts_step hA x.scene
  · intro x y h hb hA
    rw [hb.call]
    exact hA

/-! ## Served calls -/

/-- The scene in which a call goes on whose stream was found to be gone. -/
def giveUp (s : Scene α) : Scene α := s.onWorld fun w => (w.log none .streamGone).fire j.call.token

/-- The turns that the call itself has in a turn of a served call. -/
def callTurns (order : TurnOrder) : Serving α σ → Scene α → Course α σ
  | .watching call, s =>
    match order with
    | .streamFirst => [(call, if s.streamGone then j.giveUp s else s)]
    | .handlerFirst =>
      let after := j.step call s
      if after.1.result?.isNone && after.2.streamGone then
        [(call, s), (after.1, j.giveUp after.2)]
      else
        [(call, s)]
  | .abandoned call, s => [(call, s)]
  | .delivering .., _ => []
  | .finished _, _ => []

/-- What happens in a turn of a served call. -/
def servedHappenings (order : TurnOrder) (v : Serving α σ) (s : Scene α) : History α :=
  (j.callTurns order v s).flatMap fun inner => j.happenings inner.1 inner.2

/-- The course of the call that a served call makes. -/
def servedCourse (x : Exchange α (Serving α σ)) (moves : List Move) : Course α σ :=
  x.gather j.serve j.callTurns moves

/-- The history of a served call. -/
def servedHistory (x : Exchange α (Serving α σ)) (moves : List Move) : History α :=
  x.history j.serve j.servedHappenings moves

theorem servedHistory_eq (x : Exchange α (Serving α σ)) (moves : List Move) :
    j.servedHistory x moves = j.historyOf (j.servedCourse x moves) := by
  rw [servedHistory, Exchange.history_eq_gather]
  exact Exchange.gather_flatMap _ x moves

end Job

/-- The call that is being made. -/
def Serving.call? : Serving α σ → Option (Passage α σ)
  | watching call | abandoned call => some call
  | delivering .. | finished _ => none

namespace Job

variable {j : Job α σ}

theorem proceed_of_result?_eq_none (goOn : Passage α σ → Serving α σ) {call : Passage α σ}
    (hc : call.result? = none) (s : Scene α) : proceed goOn (call, s) = (goOn call, s) := by
  cases call with
  | arrived | running => rfl
  | settled => cases hc

theorem servedHappenings_eq_nil (order : TurnOrder) {v : Serving α σ} (hv : v.call? = none)
    (s : Scene α) : j.servedHappenings order v s = [] := by
  cases v with
  | watching | abandoned => cases hv
  | delivering | finished => rfl

theorem serve_handlerFirst (call : Passage α σ) (s : Scene α) :
    j.serve .handlerFirst (.watching call) s =
      let after := j.step call s
      if after.1.result?.isNone && after.2.streamGone then j.abandon after.1 after.2
      else proceed .watching after := by
  simp only [serve]
  rcases j.step call s with ⟨after, s'⟩
  cases after with
  | settled => rfl
  | arrived | running => cases hg : s'.streamGone <;> simp [Passage.result?, hg, proceed]

/-- A turn of a served call ends with a turn of the call itself, after which it is decided how the
serving goes on. What every turn of a call and giving up its stream keep is kept until then. -/
theorem callTurns_keep {P : Passage α σ → Scene α → Course α σ → Prop}
    (inside : ∀ {call s course}, P call s course →
      P (j.step call s).1 (j.step call s).2 (course ++ [(call, s)]))
    (giveUp : ∀ {call s course}, P call s course → P call (j.giveUp s) course) (order : TurnOrder)
    {v : Serving α σ} {call : Passage α σ} (hv : v.call? = some call) {s : Scene α}
    {course : Course α σ} (hP : P call s course) :
    ∃ goOn last s', (∀ call : Passage α σ, (goOn call).call? = some call) ∧
      j.serve order v s = proceed goOn (j.step last s') ∧
      P (j.step last s').1 (j.step last s').2 (course ++ j.callTurns order v s) := by
  cases v with
  | delivering | finished => cases hv
  | abandoned call' =>
    obtain rfl : call' = call := Option.some.inj hv
    exact ⟨.abandoned, call', s, fun _ => rfl, rfl, inside hP⟩
  | watching call' =>
    obtain rfl : call' = call := Option.some.inj hv
    cases order with
    | streamFirst =>
      by_cases hg : s.streamGone = true
      · refine ⟨.abandoned, call', j.giveUp s, fun _ => rfl, ?_, ?_⟩
        · simp only [serve, hg, if_true]
          rfl
        · simp only [callTurns, hg, if_true]
          exact inside (giveUp hP)
      · refine ⟨.watching, call', s, fun _ => rfl, ?_, ?_⟩
        · simp [serve, hg]
        · simp only [callTurns, hg]
          exact inside hP
    | handlerFirst =>
      rw [serve_handlerFirst]
      by_cases hg : ((j.step call' s).1.result?.isNone && (j.step call' s).2.streamGone) = true
      · refine ⟨.abandoned, (j.step call' s).1, j.giveUp (j.step call' s).2, fun _ => rfl, ?_, ?_⟩
        · rw [if_pos hg]
          rfl
        · simp only [callTurns, if_pos hg]
          rw [List.append_cons]
          exact inside (giveUp (inside hP))
      · refine ⟨.watching, call', s, fun _ => rfl, if_neg hg, ?_⟩
        simp only [callTurns, if_neg hg]
        exact inside hP

theorem serve_keeps {P : Passage α σ → Scene α → History α → Prop}
    (inside : ∀ {call s h}, P call s h →
      P (j.step call s).1 (j.step call s).2 (h ++ j.happenings call s))
    (giveUp : ∀ {call s h}, P call s h → P call (j.giveUp s) h) (order : TurnOrder)
    {v : Serving α σ} {call : Passage α σ} (hv : v.call? = some call) {s : Scene α} {h : History α}
    (hP : P call s h) :
    ∃ goOn last s', (∀ call : Passage α σ, (goOn call).call? = some call) ∧
      j.serve order v s = proceed goOn (j.step last s') ∧
      P (j.step last s').1 (j.step last s').2 (h ++ j.servedHappenings order v s) := by
  have hstart : P call s (h ++ j.historyOf []) := (List.append_nil h).symm ▸ hP
  refine callTurns_keep (P := fun call s course => P call s (h ++ j.historyOf course)) ?_ giveUp order
    hv hstart
  intro call s course hP
  rw [historyOf_append, ← List.append_assoc]
  exact inside hP

/-! ## Runs of served calls -/

theorem deliver_call? (last : Option σ) (status : Status) (s : Scene α) :
    (deliver last status s).1.call? = none := by
  unfold deliver
  cases s.verdict <;> rfl

/-- `Q` holds of the call that a served call makes, or has made, with its world and its course. -/
def Satisfies (Q : Passage α σ → World → Course α σ → Prop) (v : Serving α σ) (w : World)
    (course : Course α σ) : Prop :=
  ∃ call, (v.call? = some call ∨ v.call? = none ∧ call.result? ≠ none) ∧ Q call w course

section Satisfies

variable {Q : Passage α σ → World → Course α σ → Prop}

theorem satisfies_deliver
    (aside : ∀ {call w w' course}, w.Aside w' → Q call w course → Q call w' course)
    {call : Passage α σ} {s : Scene α} {course : Course α σ} (hQ : Q call s.world course)
    (hr : call.result? ≠ none) (last : Option σ) (status : Status) :
    Satisfies Q (deliver last status s).1 (deliver last status s).2.world course := by
  refine ⟨call, Or.inr ⟨deliver_call? last status s, hr⟩, ?_⟩
  unfold deliver
  cases s.verdict with
  | sent | full => exact hQ
  | refused => exact aside (.log _ _ (Event.quiet_of_not_isPresentation rfl)) hQ

theorem satisfies_proceed
    (aside : ∀ {call w w' course}, w.Aside w' → Q call w course → Q call w' course)
    {goOn : Passage α σ → Serving α σ} (hgo : ∀ call, (goOn call).call? = some call)
    {call : Passage α σ} {s : Scene α} {course : Course α σ} (hQ : Q call s.world course) :
    Satisfies Q (proceed goOn (call, s)).1 (proceed goOn (call, s)).2.world course := by
  cases hr : call.result? with
  | none =>
    rw [proceed_of_result?_eq_none goOn hr]
    exact ⟨call, Or.inl (hgo call), hQ⟩
  | some result =>
    have hne : call.result? ≠ none := hr ▸ Option.some_ne_none result
    obtain ⟨last, rfl⟩ := Passage.eq_settled hr
    cases result with
    | error status => exact satisfies_deliver (Q := Q) aside hQ hne last status
    | ok reply => exact ⟨_, Or.inr ⟨rfl, hne⟩, hQ⟩

theorem satisfies_serve
    (inside : ∀ {call s course}, Q call s.world course →
      Q (j.step call s).1 (j.step call s).2.world (course ++ [(call, s)]))
    (aside : ∀ {call w w' course}, w.Aside w' → Q call w course → Q call w' course)
    (order : TurnOrder) {v : Serving α σ} {s : Scene α} {course : Course α σ}
    (hQ : Satisfies Q v s.world course) :
    Satisfies Q (j.serve order v s).1 (j.serve order v s).2.world
      (course ++ j.callTurns order v s) := by
  obtain ⟨call, hv | ⟨hv, hr⟩, hQ⟩ := hQ
  · have giveUp {call s course} (hQ : Q call s.world course) : Q call (j.giveUp s).world course :=
      aside ((World.Aside.log _ _ (Event.quiet_of_not_isPresentation rfl)).trans (.fire _ _)) hQ
    obtain ⟨goOn, last, s', hgo, hserve, hQ'⟩ :=
      callTurns_keep (P := fun call s course => Q call s.world course) inside giveUp order hv hQ
    rw [hserve]
    exact satisfies_proceed (Q := Q) aside hgo hQ'
  · cases v with
    | watching | abandoned => cases hv
    | delivering last status =>
      exact (List.append_nil course).symm ▸ satisfies_deliver (Q := Q) aside hQ hr last status
    | finished last => exact (List.append_nil course).symm ▸ ⟨call, Or.inr ⟨hv, hr⟩, hQ⟩

/-- What every turn of a call and every event aside from it keep is kept while the call is served. -/
theorem served_satisfies
    (inside : ∀ {call s course}, Q call s.world course →
      Q (j.step call s).1 (j.step call s).2.world (course ++ [(call, s)]))
    (aside : ∀ {call w w' course}, w.Aside w' → Q call w course → Q call w' course)
    (start : Exchange α (Serving α σ)) (hstart : Satisfies Q start.call start.scene.world [])
    (moves : List Move) :
    let x := start.run j.serve moves
    Satisfies Q x.call x.scene.world (j.servedCourse start moves) := by
  refine Exchange.gather_keeps (I := fun x course => Satisfies Q x.call x.scene.world course) (l := [])
    ?_ ?_ moves hstart
  · intro x course order hQ
    exact satisfies_serve (Q := Q) inside aside order hQ
  · rintro x y course hb ⟨call, hv, hQ⟩
    rw [hb.call]
    exact ⟨call, hv, aside hb.aside hQ⟩

end Satisfies

end Job

end CallGate
