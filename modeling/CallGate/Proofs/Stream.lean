import CallGate.Handler

/-!
# The stream of a scene

What a caller can learn from a scene is in the channel of the response stream: what it holds, whether
the stream is gone, and how many sinks are left. Each change of a scene has a lemma for each of the
three.
-/

namespace CallGate

namespace Scene

variable {α : Type}

/-- What the stream holds. Without a stream there is nothing. -/
def held (s : Scene α) : List (Delivery α) :=
  match s.outbox with
  | some channel => channel.held
  | none => []

/-- The number of sinks of the channel. -/
def sinks (s : Scene α) : Nat :=
  match s.outbox with
  | some channel => channel.sinks
  | none => 0

@[simp] theorem held_onWorld (s : Scene α) (f : World → World) : (s.onWorld f).held = s.held := rfl

@[simp] theorem sinks_onWorld (s : Scene α) (f : World → World) : (s.onWorld f).sinks = s.sinks := rfl

@[simp] theorem streamGone_onWorld (s : Scene α) (f : World → World) :
    (s.onWorld f).streamGone = s.streamGone := rfl

@[simp] theorem world_onWorld (s : Scene α) (f : World → World) : (s.onWorld f).world = f s.world := rfl

@[simp] theorem world_offer (s : Scene α) (d : Delivery α) : (s.offer d).world = s.world := rfl

@[simp] theorem world_dropSink (s : Scene α) : s.dropSink.world = s.world := rfl

@[simp] theorem held_dropSink (s : Scene α) : s.dropSink.held = s.held := by
  rcases s with ⟨w, _ | c⟩ <;> rfl

@[simp] theorem streamGone_dropSink (s : Scene α) : s.dropSink.streamGone = s.streamGone := by
  rcases s with ⟨w, _ | c⟩ <;> rfl

@[simp] theorem sinks_dropSink (s : Scene α) : s.dropSink.sinks = s.sinks - 1 := by
  rcases s with ⟨w, _ | c⟩ <;> rfl

/-- What is offered is held afterwards just if it was sent. -/
theorem held_offer (s : Scene α) (d : Delivery α) :
    (s.offer d).held = s.held ++ if s.verdict = .sent then [d] else [] := by
  rcases s with ⟨w, _ | c⟩
  · rfl
  · simp only [held, offer, verdict, Option.map_some, Channel.offer]
    by_cases hv : c.verdict = .sent <;> simp [hv]

@[simp] theorem streamGone_offer (s : Scene α) (d : Delivery α) :
    (s.offer d).streamGone = s.streamGone := by
  rcases s with ⟨w, _ | c⟩
  · rfl
  · simp only [streamGone, offer, Option.map_some, Channel.offer]
    split <;> rfl

@[simp] theorem sinks_offer (s : Scene α) (d : Delivery α) : (s.offer d).sinks = s.sinks := by
  rcases s with ⟨w, _ | c⟩
  · rfl
  · simp only [sinks, offer, Option.map_some, Channel.offer]
    split <;> rfl

/-- Nothing is sent once the stream is gone. -/
theorem verdict_eq_refused_iff (s : Scene α) : s.verdict = .refused ↔ s.streamGone = true := by
  rcases s with ⟨w, _ | c⟩
  · simp [verdict, streamGone]
  · simp only [verdict, streamGone, Channel.verdict]
    cases c.isClosed <;> cases c.isFull <;> simp

/-- An open stream that holds nothing has room. -/
theorem verdict_eq_sent {s : Scene α} (hheld : s.held = []) (hg : s.streamGone = false) :
    s.verdict = .sent := by
  rcases s with ⟨w, _ | c⟩
  · cases hg
  · have hcap := c.capacity.pos
    have hfull : c.isFull = false := by
      rw [Channel.isFull, show c.held = [] from hheld, List.length_nil]
      simp
      omega
    have hclosed : c.isClosed = false := hg
    show c.verdict = .sent
    simp [Channel.verdict, hclosed, hfull]

end Scene

end CallGate
