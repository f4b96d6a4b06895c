import PositionFeed.Stop.Token

namespace PositionFeed

/-!
# The stop signal

A stop signal is a token with a flag that tells its first trigger from the
later ones.  A trigger has two steps, which other callers may come between: it
raises the flag, and then it cancels the token.  Whoever waits for the signal
waits for the token.
-/

/-- A stop signal. -/
structure StopSignal where
  /-- The token that is cancelled. -/
  token : Token
  /-- Whether a trigger has begun. -/
  raised : Bool
  deriving Repr, DecidableEq

namespace StopSignal

/-- A signal that was not triggered. -/
def fresh (tokens : Tokens) : StopSignal × Tokens :=
  let (token, tokens) := tokens.fresh
  (⟨token, false⟩, tokens)

/-- The first step of a trigger: raises the flag and says whether it was down. -/
def raise (signal : StopSignal) : Bool × StopSignal :=
  (! signal.raised, { signal with raised := true })

/-- The second step of a trigger. -/
def cancel (signal : StopSignal) (tokens : Tokens) : Tokens :=
  tokens.cancel signal.token

/-- Triggers the signal and says whether this was the first time. -/
def trigger (signal : StopSignal) (tokens : Tokens) :
    Bool × StopSignal × Tokens :=
  let (first, signal) := signal.raise
  (first, signal, signal.cancel tokens)

/-- Whether whoever waits for the signal goes on at once. -/
def isTriggered (signal : StopSignal) (tokens : Tokens) : Bool :=
  tokens.isCancelled signal.token

end StopSignal

end PositionFeed
