import CallGate.Exchange

/-!
# Scripted callers

A caller in a rehearsal also follows a script. Between its steps a served call stands still; it has
turns only while the caller waits. A caller that wants the next element gives the call turns until
there is one or the stream has ended. How many turns it gives at most is a matter of the caller's
patience, which runs out only on a call that waits for ever.
-/

namespace CallGate.Rehearsal

/-- One step of a caller. -/
inductive CallerAction where
  /-- Takes the next element, and waits for it if there is none. -/
  | next
  /-- Takes elements until the stream ends. -/
  | drain
  /-- Closes the stream. -/
  | close
  /-- Drops the stream. -/
  | drop
  /-- Waits for one turn of the call. -/
  | settle
  /-- Fires the token of the call. -/
  | cancel
deriving DecidableEq

/-- What a caller has seen of a stream. -/
inductive Sight (α : Type) where
  /-- Something came over the stream. -/
  | delivery (value : Delivery α)
  /-- The stream had ended. -/
  | ended
deriving DecidableEq

/-- An exchange with what its caller has seen of the stream. -/
structure Watch (α τ : Type) where
  /-- The exchange. -/
  exchange : Exchange α τ
  /-- What was seen, the first one first. -/
  seen : List (Sight α)

namespace Watch

variable {α τ : Type} (turn : TurnOrder → τ → Scene α → τ × Scene α)

/-- The watch after a move in the exchange. -/
def move (m : Move) (w : Watch α τ) : Watch α τ := { w with exchange := w.exchange.step turn m }

/-- Looks at the stream. If there is something to see, it is seen. -/
def look (w : Watch α τ) : Option (Watch α τ) :=
  match w.exchange.next with
  | .item value => some { w.move turn .take with seen := w.seen ++ [.delivery value] }
  | .ended => some { w with seen := w.seen ++ [.ended] }
  | .pending => none

/-- Waits until there is something to see, with the given number of turns at most. -/
def await : (turns : Nat) → Watch α τ → Watch α τ
  | 0, w => (w.look turn).getD w
  | turns + 1, w => (w.look turn).getD (await turns (w.move turn (.turn .handlerFirst)))

/-- The end of the stream is the last thing that was seen. -/
def atEnd (w : Watch α τ) : Bool :=
  match w.seen.getLast? with
  | some .ended => true
  | _ => false

/-- Waits until the end of the stream is seen, with the given number of elements at most and the
given number of turns for each of them. -/
def drain (turns : Nat) : (elements : Nat) → Watch α τ → Watch α τ
  | 0, w => w
  | elements + 1, w =>
    let w := w.await turn turns
    if w.atEnd then w else drain turns elements w

/-- One step of a caller with the given patience, in a call that holds a token. -/
def perform (patience : Nat) (token : TokenId) (w : Watch α τ) : CallerAction → Watch α τ
  | .next => w.await turn patience
  | .drain => w.drain turn patience patience
  | .close => w.move turn .close
  | .drop => w.move turn .drop
  | .settle => w.move turn (.turn .handlerFirst)
  | .cancel => w.move turn (.fire token)

/-- The steps of a caller one after the other. -/
def performAll (patience : Nat) (token : TokenId) (w : Watch α τ) (actions : List CallerAction) :
    Watch α τ :=
  actions.foldl (perform turn patience token) w

end Watch

end CallGate.Rehearsal
