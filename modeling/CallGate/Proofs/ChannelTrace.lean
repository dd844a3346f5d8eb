import Mathlib.Data.List.Induction
import CallGate.Proofs.Capacity
import CallGate.Rehearsal.ChannelTrial

/-!
# What a channel shows of itself

All that can be learned of a channel are the answers to the steps at its ends. What has been sent and
received, whether the stream is still there and which sinks are left can be read off the steps so far
and their answers. Main statements: `Flow.step` and `Sinks.step` say that a step keeps the elements and
the sinks as the steps and answers show them, `shows_after` that they are so after every run of steps,
and `channel_law` what follows for the answer to a further step.
-/

namespace CallGate

/-! ## What a channel answers -/

namespace Channel

variable {α : Type} {c : Channel α}

theorem verdict_eq_refused_iff : c.verdict = .refused ↔ c.isClosed = true := by
  unfold verdict
  cases c.isClosed <;> cases c.isFull <;> simp

theorem verdict_eq_sent_iff :
    c.verdict = .sent ↔ c.isClosed = false ∧ c.held.length < c.capacity.size := by
  have hfull : c.isFull = false ↔ c.held.length < c.capacity.size := by simp [isFull]
  rw [← hfull]
  unfold verdict
  cases c.isClosed <;> cases c.isFull <;> simp

theorem verdict_eq_full_iff :
    c.verdict = .full ↔ c.isClosed = false ∧ c.capacity.size ≤ c.held.length := by
  have hfull : c.isFull = true ↔ c.capacity.size ≤ c.held.length := by simp [isFull]
  rw [← hfull]
  unfold verdict
  cases c.isClosed <;> cases c.isFull <;> simp

theorem next_eq_item_iff {x : α} : c.next = .item x ↔ c.held.head? = some x := by
  unfold next
  cases c.held with
  | nil =>
    dsimp only
    split <;> simp
  | cons y rest => simp

theorem next_eq_ended_iff : c.next = .ended ↔ c.held = [] ∧ (c.isClosed = true ∨ c.sinks = 0) := by
  unfold next
  cases c.held with
  | nil => cases c.isClosed <;> simp
  | cons y rest => simp

theorem next_eq_pending_iff :
    c.next = .pending ↔ c.held = [] ∧ ¬ (c.isClosed = true ∨ c.sinks = 0) := by
  unfold next
  cases c.held with
  | nil => cases c.isClosed <;> simp
  | cons y rest => simp

/-- A stream is closed or dropped just if it is not attached. -/
theorem isClosed_iff : c.isClosed = true ↔ c.stream ≠ .attached := bne_iff_ne

end Channel

namespace Rehearsal

variable {α : Type}

/-! ## Reading steps and answers -/

namespace ChannelStep

/-- A further sink is made. -/
def makesSink : ChannelStep α → Bool
  | addSink => true
  | _ => false

end ChannelStep

/-- The stream has been closed or dropped. -/
def StreamGone (steps : List (ChannelStep α)) : Prop := .close ∈ steps ∨ .drop ∈ steps

/-- The number of sinks that there have been. The first is there from the start. -/
def sinksMade (steps : List (ChannelStep α)) : Nat := steps.countP ChannelStep.makesSink + 1

/-- A sink has been dropped, after it was made. -/
def SinkDropped (steps : List (ChannelStep α)) (k : Nat) : Prop :=
  ∃ before after, steps = before ++ .dropSink k :: after ∧ k < sinksMade before

/-- Every sink that has been made has been dropped. -/
def NoSinkLeft (steps : List (ChannelStep α)) : Prop := ∀ k < sinksMade steps, SinkDropped steps k

/-- Steps with their answers, the first one first. -/
abbrev ChannelTrace (α : Type) := List (ChannelStep α × ChannelAnswer α)

namespace ChannelTrace

/-- The elements that have been sent. -/
def sent (h : ChannelTrace α) : List α :=
  h.filterMap fun
    | (.send x, .offered .sent) => some x
    | _ => none

/-- The elements that have been received. -/
def received (h : ChannelTrace α) : List α :=
  h.filterMap fun
    | (_, .received (.item x)) => some x
    | _ => none

/-- The elements that have been sent but not received, if the stream yields them in order. -/
def buffered (h : ChannelTrace α) : List α := h.sent.drop h.received.length

theorem sent_append (h h' : ChannelTrace α) : sent (h ++ h') = h.sent ++ sent h' :=
  List.filterMap_append

theorem received_append (h h' : ChannelTrace α) : received (h ++ h') = h.received ++ received h' :=
  List.filterMap_append

end ChannelTrace

theorem sinksMade_concat (steps : List (ChannelStep α)) (step : ChannelStep α) :
    sinksMade (steps ++ [step]) = sinksMade steps + if step.makesSink then 1 else 0 := by
  unfold sinksMade
  rw [List.countP_append, List.countP_singleton]
  omega

theorem sinkDropped_concat_iff {steps : List (ChannelStep α)} {step : ChannelStep α} {k : Nat} :
    SinkDropped (steps ++ [step]) k ↔
      SinkDropped steps k ∨ step = .dropSink k ∧ k < sinksMade steps := by
  constructor
  · rintro ⟨before, after, heq, hk⟩
    rcases List.eq_nil_or_concat after with rfl | ⟨after, last, rfl⟩
    · obtain ⟨rfl, hstep⟩ := List.append_inj' heq rfl
      exact Or.inr ⟨List.singleton_inj.mp hstep, hk⟩
    · rw [List.concat_eq_append, ← List.cons_append, ← List.append_assoc] at heq
      obtain ⟨rfl, -⟩ := List.append_inj' heq rfl
      exact Or.inl ⟨before, after, rfl, hk⟩
  · rintro (⟨before, after, rfl, hk⟩ | ⟨rfl, hk⟩)
    · exact ⟨before, after ++ [step], by simp, hk⟩
    · exact ⟨steps, [], rfl, hk⟩

theorem SinkDropped.lt_sinksMade {steps : List (ChannelStep α)} {k : Nat} (h : SinkDropped steps k) :
    k < sinksMade steps := by
  obtain ⟨before, after, rfl, hk⟩ := h
  refine Nat.lt_of_lt_of_le hk ?_
  unfold sinksMade
  rw [List.countP_append]
  omega

namespace ChannelTrial

/-! ## What the answers show -/

/-- The elements of a channel are where the steps and their answers show them. What is lost has been
sent but was still held when the stream was dropped. -/
structure Flow (capacity : Capacity) (steps : List (ChannelStep α)) (h : ChannelTrace α)
    (c : Channel α) : Prop where
  size : c.capacity = capacity
  carried : ∃ lost, h.sent = h.received ++ (c.held ++ lost) ∧ (c.held ++ lost).length ≤ capacity.size ∧
    (.drop ∉ steps → lost = [])
  gone : c.isClosed = true ↔ StreamGone steps
  dropped : .drop ∈ steps → c.stream = .dropped ∧ c.held = []

namespace Flow

variable {capacity : Capacity} {steps : List (ChannelStep α)} {h : ChannelTrace α} {c c' : Channel α}

theorem new (capacity : Capacity) : Flow capacity ([] : List (ChannelStep α)) [] (.new capacity) where
  size := rfl
  carried := ⟨[], rfl, Nat.zero_le _, fun _ => rfl⟩
  gone := by simp [Channel.isClosed_iff, Channel.new, StreamGone]
  dropped := fun hd => nomatch hd

/-- A step that ends no stream and moves no element leaves all in its place. -/
theorem kept (hF : Flow capacity steps h c) {step : ChannelStep α} {answer : ChannelAnswer α}
    (hstep : step ≠ .close ∧ step ≠ .drop)
    (hentry : ChannelTrace.sent [(step, answer)] = [] ∧ ChannelTrace.received [(step, answer)] = [])
    (hsize : c'.capacity = c.capacity) (hheld : c'.held = c.held) (hstream : c'.stream = c.stream) :
    Flow capacity (steps ++ [step]) (h ++ [(step, answer)]) c' := by
  have hdrop : .drop ∈ steps ++ [step] ↔ .drop ∈ steps := by
    simp [hstep.2.symm]
  have hclose : .close ∈ steps ++ [step] ↔ .close ∈ steps := by
    simp [hstep.1.symm]
  obtain ⟨lost, hsent, hlength, hlost⟩ := hF.carried
  refine ⟨hsize.trans hF.size, ⟨lost, ?_, ?_, ?_⟩, ?_, ?_⟩
  · rw [ChannelTrace.sent_append, ChannelTrace.received_append, hentry.1, hentry.2, List.append_nil,
      List.append_nil, hheld, hsent]
  · rw [hheld]
    exact hlength
  · rw [hdrop]
    exact hlost
  · rw [StreamGone, hclose, hdrop, ← StreamGone, ← hF.gone, Channel.isClosed_iff, Channel.isClosed_iff,
      hstream]
  · rw [hdrop, hstream, hheld]
    exact hF.dropped

/-- An element is sent to the end of what is held. -/
theorem sent (hF : Flow capacity steps h c) (x : α) (hv : c.verdict = .sent) :
    Flow capacity (steps ++ [.send x]) (h ++ [(.send x, .offered .sent)]) (c.offer x) := by
  obtain ⟨hopen, hroom⟩ := Channel.verdict_eq_sent_iff.mp hv
  have hgone : ¬ StreamGone steps := by
    rw [← hF.gone, hopen]
    exact Bool.false_ne_true
  have hoffer : c.offer x = { c with held := c.held ++ [x] } := if_pos hv
  have hgone' : StreamGone (steps ++ [.send x]) ↔ StreamGone steps := by simp [StreamGone]
  obtain ⟨lost, hsent, -, hlost⟩ := hF.carried
  obtain rfl := hlost fun hd => hgone (Or.inr hd)
  rw [hoffer]
  refine ⟨hF.size, ⟨[], ?_, ?_, fun _ => rfl⟩, hF.gone.trans hgone'.symm, fun hd => ?_⟩
  · rw [ChannelTrace.sent_append, ChannelTrace.received_append, hsent]
    simp [ChannelTrace.sent, ChannelTrace.received]
  · rw [List.append_nil, List.length_append, ← hF.size]
    exact hroom
  · exact absurd (hgone'.mp (Or.inr hd)) hgone

/-- The element that has been held longest is received. -/
theorem received (hF : Flow capacity steps h c) {x : α} (hn : c.next = .item x) :
    Flow capacity (steps ++ [.receive]) (h ++ [(.receive, .received (.item x))]) c.receive := by
  have hhead := Channel.next_eq_item_iff.mp hn
  obtain ⟨rest, hheld⟩ := List.head?_eq_some_iff.mp hhead
  have hgone' : StreamGone (steps ++ [.receive]) ↔ StreamGone steps := by simp [StreamGone]
  have hdrop : .drop ∈ steps ++ [.receive] ↔ .drop ∈ steps := by simp
  have hreceive : c.receive = { c with held := rest } := by rw [Channel.receive, hheld]; rfl
  obtain ⟨lost, hsent, hlength, hlost⟩ := hF.carried
  rw [hheld] at hsent hlength
  rw [hreceive]
  refine ⟨hF.size, ⟨lost, ?_, ?_, fun hd => hlost (mt hdrop.mpr hd)⟩, hF.gone.trans hgone'.symm, fun hd => ?_⟩
  · rw [ChannelTrace.sent_append, ChannelTrace.received_append, hsent]
    simp [ChannelTrace.sent, ChannelTrace.received]
  · simp only [List.cons_append, List.length_cons] at hlength
    exact Nat.le_of_succ_le hlength
  · obtain ⟨-, hnothing⟩ := hF.dropped (hdrop.mp hd)
    rw [hheld] at hnothing
    cases hnothing

theorem closed (hF : Flow capacity steps h c) :
    Flow capacity (steps ++ [.close]) (h ++ [(.close, .done)]) c.close := by
  have hdrop : .drop ∈ steps ++ [.close] ↔ .drop ∈ steps := by simp
  have hheld : c.close.held = c.held := by unfold Channel.close; split <;> rfl
  have hsize : c.close.capacity = c.capacity := by unfold Channel.close; split <;> rfl
  have hclosed : c.close.isClosed = true := by
    unfold Channel.close
    split
    · rfl
    · next h => exact Channel.isClosed_iff.mpr h
  obtain ⟨lost, hsent, hlength, hlost⟩ := hF.carried
  refine ⟨hsize.trans hF.size, ⟨lost, ?_, ?_, fun hd => hlost (mt hdrop.mpr hd)⟩, ?_, fun hd => ?_⟩
  · rw [ChannelTrace.sent_append, ChannelTrace.received_append, hheld, hsent]
    simp [ChannelTrace.sent, ChannelTrace.received]
  · rw [hheld]
    exact hlength
  · simp [hclosed, StreamGone]
  · obtain ⟨hstream, hnothing⟩ := hF.dropped (hdrop.mp hd)
    have hkept : c.close = c := if_neg (by simp [hstream])
    rw [hkept]
    exact ⟨hstream, hnothing⟩

/-- What is held when the stream is dropped is lost. -/
theorem discarded (hF : Flow capacity steps h c) :
    Flow capacity (steps ++ [.drop]) (h ++ [(.drop, .done)]) c.drop := by
  obtain ⟨lost, hsent, hlength, -⟩ := hF.carried
  refine ⟨hF.size, ⟨c.held ++ lost, ?_, hlength, fun hd => absurd (by simp) hd⟩, ?_, fun _ => ⟨rfl, rfl⟩⟩
  · rw [ChannelTrace.sent_append, ChannelTrace.received_append, hsent]
    simp [ChannelTrace.sent, ChannelTrace.received, Channel.drop]
  · simp [StreamGone, Channel.isClosed_iff, Channel.drop]

theorem step {t : ChannelTrial α} (hF : Flow capacity steps h t.channel) (step : ChannelStep α) :
    Flow capacity (steps ++ [step]) (h ++ [(step, (t.perform step).1)]) (t.perform step).2.channel := by
  cases step with
  | send x =>
    cases hv : t.channel.verdict with
    | sent =>
      simp only [perform, hv]
      exact hF.sent x hv
    | full | refused =>
      simp only [perform, Channel.offer, hv]
      exact hF.kept ⟨nofun, nofun⟩ ⟨rfl, rfl⟩ rfl rfl rfl
  | isClosed | awaitClosed | addSink => exact hF.kept ⟨nofun, nofun⟩ ⟨rfl, rfl⟩ rfl rfl rfl
  | dropSink k =>
    simp only [perform]
    split <;> exact hF.kept ⟨nofun, nofun⟩ ⟨rfl, rfl⟩ rfl rfl rfl
  | receive =>
    cases hn : t.channel.next with
    | item x =>
      simp only [perform, hn]
      exact hF.received hn
    | pending | ended =>
      have hheld : t.channel.held = [] := by
        rw [← List.head?_eq_none_iff, Option.eq_none_iff_forall_ne_some]
        intro x hx
        rw [Channel.next_eq_item_iff.mpr hx] at hn
        cases hn
      simp only [perform, hn, Channel.receive, hheld]
      exact hF.kept ⟨nofun, nofun⟩ ⟨rfl, rfl⟩ rfl hheld.symm rfl
  | close => exact hF.closed
  | drop => exact hF.discarded

end Flow

/-- The sinks that are left are those that were made and have not been dropped. -/
structure Sinks (steps : List (ChannelStep α)) (t : ChannelTrial α) : Prop where
  made : t.present.length = sinksMade steps
  left : ∀ k, t.present[k]? = some true ↔ k < sinksMade steps ∧ ¬ SinkDropped steps k
  count : t.channel.sinks = t.present.count true

namespace Sinks

variable {steps : List (ChannelStep α)} {t t' : ChannelTrial α}

theorem new (capacity : Capacity) : Sinks ([] : List (ChannelStep α)) (.new capacity) := by
  have hnone (k : Nat) : ¬ SinkDropped ([] : List (ChannelStep α)) k := by
    rintro ⟨before, after, heq, -⟩
    simp at heq
  refine ⟨rfl, fun k => ?_, rfl⟩
  cases k <;> simp [ChannelTrial.new, sinksMade, hnone]

/-- A step that makes no sink, and drops none that was there, leaves the sinks as they are. -/
theorem kept (hS : Sinks steps t) {step : ChannelStep α} (hmakes : step.makesSink = false)
    (hdrops : ∀ k, step = .dropSink k → k < sinksMade steps → SinkDropped steps k)
    (hpresent : t'.present = t.present) (hsinks : t'.channel.sinks = t.channel.sinks) :
    Sinks (steps ++ [step]) t' := by
  have hmade : sinksMade (steps ++ [step]) = sinksMade steps := by simp [sinksMade_concat, hmakes]
  have hdropped (k : Nat) : SinkDropped (steps ++ [step]) k ↔ SinkDropped steps k := by
    rw [sinkDropped_concat_iff]
    exact ⟨fun h => h.elim id fun ⟨hstep, hk⟩ => hdrops k hstep hk, Or.inl⟩
  refine ⟨?_, fun k => ?_, ?_⟩
  · rw [hpresent, hmade, hS.made]
  · rw [hpresent, hmade, hdropped, hS.left]
  · rw [hsinks, hpresent, hS.count]

theorem added (hS : Sinks steps t) :
    Sinks (steps ++ [.addSink]) ⟨t.channel.addSink, t.present ++ [true]⟩ := by
  have hmade : sinksMade (steps ++ [.addSink]) = sinksMade steps + 1 := sinksMade_concat steps .addSink
  have hdropped (k : Nat) : SinkDropped (steps ++ [.addSink]) k ↔ SinkDropped steps k := by
    simp [sinkDropped_concat_iff]
  refine ⟨?_, fun k => ?_, ?_⟩
  · rw [hmade, List.length_append, hS.made]
    rfl
  · rw [hmade, hdropped]
    rcases Nat.lt_trichotomy k t.present.length with hk | rfl | hk
    · rw [List.getElem?_append_left hk, hS.left, ← hS.made]
      simp [hk, Nat.lt_succ_of_lt hk]
    · have hnot : ¬ SinkDropped steps t.present.length := fun h =>
        Nat.lt_irrefl _ (hS.made ▸ h.lt_sinksMade)
      rw [List.getElem?_concat_length, ← hS.made]
      exact ⟨fun _ => ⟨Nat.lt_succ_self _, hnot⟩, fun _ => rfl⟩
    · have hnone : (t.present ++ [true])[k]? = none :=
        List.getElem?_eq_none (by rw [List.length_append]; exact hk)
      rw [hnone, ← hS.made]
      simp [Nat.not_lt.mpr hk]
  · simp [Channel.addSink, hS.count]

theorem dropped (hS : Sinks steps t) {n : Nat} (hn : t.present[n]? = some true) :
    Sinks (steps ++ [.dropSink n]) ⟨t.channel.dropSink, t.present.set n false⟩ := by
  have hmade : sinksMade (steps ++ [.dropSink n]) = sinksMade steps := sinksMade_concat steps (.dropSink n)
  obtain ⟨hlt, hget⟩ := List.getElem?_eq_some_iff.mp hn
  refine ⟨?_, fun k => ?_, ?_⟩
  · rw [hmade, List.length_set, hS.made]
  · rw [hmade, sinkDropped_concat_iff]
    by_cases hk : n = k
    · subst hk
      have hnow : SinkDropped steps n ∨ (ChannelStep.dropSink n : ChannelStep α) = .dropSink n ∧
          n < sinksMade steps := Or.inr ⟨rfl, hS.made ▸ hlt⟩
      rw [List.getElem?_set_self hlt]
      exact iff_of_false nofun fun hleft => hleft.2 hnow
    · have hother : (ChannelStep.dropSink n : ChannelStep α) ≠ .dropSink k :=
        fun h => hk (ChannelStep.dropSink.inj h)
      simp [List.getElem?_set_ne hk, hS.left, hother]
  · rw [List.count_set hlt, hget]
    simp [Channel.dropSink, hS.count]

theorem step (hS : Sinks steps t) (step : ChannelStep α) : Sinks (steps ++ [step]) (t.perform step).2 := by
  cases step with
  | send x =>
    refine hS.kept rfl nofun rfl ?_
    simp only [perform, Channel.offer]
    split <;> rfl
  | isClosed | awaitClosed | receive | drop => exact hS.kept rfl nofun rfl rfl
  | close =>
    refine hS.kept rfl nofun rfl ?_
    simp only [perform, Channel.close]
    split <;> rfl
  | addSink => exact hS.added
  | dropSink n =>
    have hthere : t.present.getD n false = true ↔ t.present[n]? = some true := by
      rw [List.getD_eq_getElem?_getD]
      cases t.present[n]? <;> simp
    simp only [perform]
    split
    · next hn => exact hS.dropped (hthere.mp hn)
    · next hn =>
      refine hS.kept rfl (fun k hk hlt => ?_) rfl rfl
      obtain rfl := ChannelStep.dropSink.inj hk
      by_contra hnot
      exact hn (hthere.mpr ((hS.left n).mpr ⟨hlt, hnot⟩))

/-- The channel counts the sinks that are left. -/
theorem noSinkLeft_iff (hS : Sinks steps t) : NoSinkLeft steps ↔ t.channel.sinks = 0 := by
  rw [hS.count, List.count_eq_zero, List.mem_iff_getElem?]
  constructor
  · rintro hnone ⟨k, hk⟩
    obtain ⟨hlt, hnot⟩ := (hS.left k).mp hk
    exact hnot (hnone k hlt)
  · intro hnone k hlt
    by_contra hnot
    exact hnone ⟨k, (hS.left k).mpr ⟨hlt, hnot⟩⟩

end Sinks

/-! ## Runs of steps -/

/-- The trial after steps that are taken one after the other. -/
def after (t : ChannelTrial α) (steps : List (ChannelStep α)) : ChannelTrial α :=
  steps.foldl (fun t step => (t.perform step).2) t

/-- Steps that are taken one after the other, with their answers. -/
def trace (t : ChannelTrial α) (steps : List (ChannelStep α)) : ChannelTrace α :=
  steps.zip (t.performAll steps)

theorem performAll_append (t : ChannelTrial α) (steps more : List (ChannelStep α)) :
    t.performAll (steps ++ more) = t.performAll steps ++ (t.after steps).performAll more := by
  induction steps generalizing t with
  | nil => rfl
  | cons step steps ih => exact congrArg _ (ih (t.perform step).2)

theorem length_performAll (t : ChannelTrial α) (steps : List (ChannelStep α)) :
    (t.performAll steps).length = steps.length := by
  induction steps generalizing t with
  | nil => rfl
  | cons step steps ih => exact congrArg (· + 1) (ih (t.perform step).2)

theorem trace_concat (t : ChannelTrial α) (steps : List (ChannelStep α)) (step : ChannelStep α) :
    t.trace (steps ++ [step]) = t.trace steps ++ [(step, ((t.after steps).perform step).1)] := by
  rw [trace, performAll_append, List.zip_append (t.length_performAll steps).symm]
  rfl

theorem after_concat (t : ChannelTrial α) (steps : List (ChannelStep α)) (step : ChannelStep α) :
    t.after (steps ++ [step]) = ((t.after steps).perform step).2 :=
  List.foldl_append

/-- After every run of steps, the channel is as the steps and their answers show it. -/
theorem shows_after (capacity : Capacity) (steps : List (ChannelStep α)) :
    let t := (ChannelTrial.new capacity).after steps
    Flow capacity steps ((ChannelTrial.new capacity).trace steps) t.channel ∧ Sinks steps t := by
  induction steps using List.reverseRecOn with
  | nil => exact ⟨.new capacity, .new capacity⟩
  | append_singleton steps step ih =>
    obtain ⟨hF, hS⟩ := ih
    intro t
    rw [trace_concat, show t = _ from after_concat _ steps step]
    exact ⟨hF.step step, hS.step step⟩

/-- Of a channel of any size that there is, after any steps at its ends. What has been received is what
was sent first, in the same order, and no more is ever buffered than the size. A further element is
refused just if the stream is gone, and else it is sent just if there is room for it. A sink sees the
stream as closed just if it is gone. As long as the stream has not been dropped, it yields the elements
that are buffered, one by one, and it ends just if there are none and the stream has been closed or
every sink has been dropped. -/
theorem channel_law (size : Nat) (pos : 0 < size) (le : size ≤ 2305843009213693951)
    (steps : List (ChannelStep α)) (step : ChannelStep α) :
    ∃ capacity, Capacity.ofNat size = .ok capacity ∧
      let trial := ChannelTrial.new capacity
      let h := trial.trace steps
      h.received <+: h.sent ∧ h.buffered.length ≤ size ∧
      ∃ answer, trial.performAll (steps ++ [step]) = trial.performAll steps ++ [answer] ∧
        (∀ x, step = .send x →
          (answer = .offered .refused ↔ StreamGone steps) ∧
          (answer = .offered .sent ↔ ¬ StreamGone steps ∧ h.buffered.length < size) ∧
          (answer = .offered .full ↔ ¬ StreamGone steps ∧ h.buffered.length = size)) ∧
        (step = .isClosed ∨ step = .awaitClosed →
          (answer = .closed true ↔ StreamGone steps) ∧ (answer = .closed false ↔ ¬ StreamGone steps)) ∧
        (step = .receive → .drop ∉ steps →
          (∀ x, answer = .received (.item x) ↔ h.buffered.head? = some x) ∧
          (answer = .received .ended ↔ h.buffered = [] ∧ (.close ∈ steps ∨ NoSinkLeft steps)) ∧
          (answer = .received .pending ↔ h.buffered = [] ∧ .close ∉ steps ∧ ¬ NoSinkLeft steps)) := by
  obtain ⟨capacity, hok, rfl⟩ := Capacity.exists_ofNat pos le
  refine ⟨capacity, hok, ?_⟩
  intro trial h
  obtain ⟨hF, hS⟩ := shows_after capacity steps
  generalize ht : (ChannelTrial.new capacity).after steps = t at hF hS
  obtain ⟨lost, hsent, hlength, hlost⟩ := hF.carried
  have hbuffered : h.buffered = t.channel.held ++ lost := by
    rw [ChannelTrace.buffered, show h.sent = _ from hsent]
    exact List.drop_left
  have hopen : t.channel.isClosed = false ↔ ¬ StreamGone steps := by
    rw [← hF.gone, Bool.not_eq_true]
  have hall (hd : .drop ∉ steps) : h.buffered = t.channel.held := by
    rw [hbuffered, hlost hd, List.append_nil]
  have hsize := congrArg Capacity.size hF.size
  refine ⟨⟨t.channel.held ++ lost, hsent.symm⟩, hbuffered ▸ hlength, (t.perform step).1, ?_, ?_, ?_, ?_⟩
  · rw [performAll_append, show ChannelTrial.after trial steps = t from ht]
    rfl
  · rintro x rfl
    have hanswer {offer : Offer} :
        (t.perform (.send x)).1 = .offered offer ↔ t.channel.verdict = offer := by
      simp [perform]
    have hroom (hgone : ¬ StreamGone steps) : t.channel.held.length = h.buffered.length := by
      rw [hall fun hd => hgone (Or.inr hd)]
    rw [hanswer, hanswer, hanswer]
    refine ⟨Channel.verdict_eq_refused_iff.trans hF.gone, ?_, ?_⟩
    · rw [Channel.verdict_eq_sent_iff, hopen, hsize]
      exact and_congr_right fun hgone => by rw [hroom hgone]
    · rw [Channel.verdict_eq_full_iff, hopen, hsize]
      refine and_congr_right fun hgone => ?_
      rw [hroom hgone]
      exact ⟨fun hfull => Nat.le_antisymm (hbuffered ▸ hlength) hfull, fun hfull => Nat.le_of_eq hfull.symm⟩
  · intro hstep
    have hanswer : (t.perform step).1 = .closed t.channel.isClosed := by
      rcases hstep with rfl | rfl <;> rfl
    rw [hanswer, ← hopen, ← hF.gone]
    simp
  · rintro rfl hd
    have hanswer {receipt : Receipt α} :
        (t.perform .receive).1 = .received receipt ↔ t.channel.next = receipt := by
      simp [perform]
    have hgone : StreamGone steps ↔ .close ∈ steps := or_iff_left hd
    rw [hall hd, hanswer, hanswer, ← hgone, ← hF.gone, hS.noSinkLeft_iff, ← not_or]
    exact ⟨fun x => hanswer.trans Channel.next_eq_item_iff, Channel.next_eq_ended_iff,
      Channel.next_eq_pending_iff⟩

/-- A channel of two elements that is closed while it holds one. -/
theorem channel_law_closed :
    let trial : ChannelTrial Nat := .new ⟨2, by decide, by decide⟩
    let steps : List (ChannelStep Nat) :=
      [.addSink, .dropSink 0, .send 1, .send 2, .send 3, .receive, .close]
    trial.performAll steps = [.sink 1, .done, .offered .sent, .offered .sent, .offered .full,
        .received (.item 1), .done] ∧
      trial.performAll (steps ++ [.receive]) = trial.performAll steps ++ [.received (.item 2)] := by
  intro trial steps
  obtain ⟨capacity, hok, -, -, answer, hanswer, -, -, hreceive⟩ :=
    channel_law 2 (by decide) (by decide) steps .receive
  obtain rfl : (⟨2, by decide, by decide⟩ : Capacity) = capacity := Except.ok.inj hok
  obtain ⟨hitem, -⟩ := hreceive rfl (by decide)
  refine ⟨by decide +kernel, ?_⟩
  rw [hanswer, (hitem 2).mpr (by decide +kernel)]

end ChannelTrial

end Rehearsal

end CallGate
