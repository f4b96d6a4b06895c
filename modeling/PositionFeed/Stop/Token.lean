namespace PositionFeed

/-!
# Stop tokens

A token can be cancelled once and for all.  A token may have children, which
are cancelled with it; cancelling a child does not reach its parent.
-/

/-- A token: its own number and those of its parents, nearest first. -/
structure Token where
  number : Nat
  /-- The numbers of its parents. -/
  parents : List Nat
  deriving Repr, DecidableEq

/-- The tokens made so far, and those that were cancelled. -/
structure Tokens where
  /-- How many tokens there are. -/
  made : Nat
  /-- The numbers of the tokens that were cancelled themselves. -/
  cancelled : List Nat
  deriving Repr, DecidableEq

namespace Tokens

def empty : Tokens := ⟨0, []⟩

/-- A new token without a parent. -/
def fresh (tokens : Tokens) : Token × Tokens :=
  (⟨tokens.made, []⟩, { tokens with made := tokens.made + 1 })

/-- A new child of a token. -/
def child (parent : Token) (tokens : Tokens) : Token × Tokens :=
  (⟨tokens.made, parent.number :: parent.parents⟩,
    { tokens with made := tokens.made + 1 })

def cancel (token : Token) (tokens : Tokens) : Tokens :=
  { tokens with cancelled := token.number :: tokens.cancelled }

/-- Whether a token or one of its parents was cancelled. -/
def isCancelled (token : Token) (tokens : Tokens) : Bool :=
  (token.number :: token.parents).any (tokens.cancelled.contains ·)

/-- A token that was cancelled is. -/
@[simp]
theorem isCancelled_cancel_self (token : Token) (tokens : Tokens) :
    (tokens.cancel token).isCancelled token = true := by
  simp [isCancelled, cancel]

/-- A token that is cancelled stays so. -/
theorem isCancelled_cancel {token : Token} {tokens : Tokens}
    (cancelled : tokens.isCancelled token = true) (other : Token) :
    (tokens.cancel other).isCancelled token = true := by
  simp only [isCancelled, cancel, List.any_eq_true] at cancelled ⊢
  obtain ⟨number, member, contained⟩ := cancelled
  exact ⟨number, member, by simp_all⟩

end Tokens

end PositionFeed
