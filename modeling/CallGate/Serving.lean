import CallGate.Passage

/-!
# Served calls

A served call runs by itself while its caller reads the response stream. The stream is watched: when
the caller has closed or dropped it, the token of the call is fired and the handler goes on until it
ends or is cancelled. A call that fails puts its status at the end of the stream, and waits for room
there if it must. The stream ends with the call.

In a turn in which both the handler and the stream could be looked at first, the order is open; a
turn is told which one to take.
-/

namespace CallGate

/-- What a turn of a served call looks at first. -/
inductive TurnOrder where
  /-- The handler. -/
  | handlerFirst
  /-- The stream. -/
  | streamFirst
deriving DecidableEq, Repr

/-- How far a served call is. -/
inductive Serving (α σ : Type) where
  /-- The call is made, and its stream is watched. -/
  | watching (call : Passage α σ)
  /-- The stream was found to be gone, and the call is made to its end. -/
  | abandoned (call : Passage α σ)
  /-- The call has failed, and its status waits for room. -/
  | delivering (last : Option σ) (status : Status)
  /-- The call is over. -/
  | finished (last : Option σ)

namespace Job

variable {α σ : Type}

/-- Puts the status of a failed call at the end of the stream, if there is room. -/
def deliver (last : Option σ) (status : Status) (s : Scene α) : Serving α σ × Scene α :=
  match s.verdict with
  | .sent => (.finished last, (s.offer (.failure status)).dropSink)
  | .full => (.delivering last status, s)
  | .refused => (.finished last, (s.onWorld fun w => w.log none .statusLost).dropSink)

/-- Goes on with a call that may have come to its result. -/
def proceed (goOn : Passage α σ → Serving α σ) :
    Passage α σ × Scene α → Serving α σ × Scene α
  | (.settled last (.ok _), s) => (.finished last, s.dropSink)
  | (.settled last (.error status), s) => deliver last status s
  | (call, s) => (goOn call, s)

/-- Fires the token of a call whose stream is gone, and goes on with the call. -/
def abandon (j : Job α σ) (call : Passage α σ) (s : Scene α) : Serving α σ × Scene α :=
  let s := s.onWorld fun w => (w.log none .streamGone).fire j.call.token
  proceed .abandoned (j.step call s)

/-- What one turn does to a served call. -/
def serve (j : Job α σ) (order : TurnOrder) : Serving α σ → Scene α → Serving α σ × Scene α
  | .watching call, s =>
    match order with
    | .streamFirst =>
      if s.streamGone then j.abandon call s else proceed .watching (j.step call s)
    | .handlerFirst =>
      match j.step call s with
      | (.settled last result, s) => proceed .watching (.settled last result, s)
      | (call, s) => if s.streamGone then j.abandon call s else (.watching call, s)
  | .abandoned call, s => proceed .abandoned (j.step call s)
  | .delivering last status, s => deliver last status s
  | .finished last, s => (.finished last, s)

end Job

/-- The last known state of the handler. -/
def Serving.last? {α σ : Type} : Serving α σ → Option σ
  | watching call => call.last?
  | abandoned call => call.last?
  | delivering last _ => last
  | finished last => last

end CallGate
