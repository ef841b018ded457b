import Mathlib.Data.List.Basic

/-! A bounded first-in first-out channel between a producer that never waits and a consumer that
takes what it wants between two attempts to send. -/

/-- What the consumer does before an attempt: it takes some items, and may then wait for the
next. -/
structure Turn where
  taken : ℕ
  waiting : Bool
  deriving DecidableEq

/-- The items in the channel and those already taken, with the consumer's next turns. Once these
are used up it takes nothing more. -/
structure Channel (α : Type*) where
  capacity : ℕ
  queue : List α
  consumed : List α
  turns : List Turn

namespace Channel

variable {α : Type*}

def new (capacity : ℕ) (turns : List Turn) : Channel α := ⟨capacity, [], [], turns⟩

/-- Everything the channel ever took, in order. -/
def accepted (c : Channel α) : List α := c.consumed ++ c.queue

/-- The consumer's turn, and whether it waits after it. -/
def turn (c : Channel α) : Channel α × Bool :=
  match c.turns with
  | [] => (c, false)
  | t :: turns =>
      ({ c with
          queue := c.queue.drop t.taken
          consumed := c.consumed ++ c.queue.take t.taken
          turns }, t.waiting)

/-- An attempt to send. A channel without room of its own hands an item to a waiting consumer. -/
def trySend (c : Channel α) (a : α) : Bool × Channel α :=
  let (c, waiting) := c.turn
  if c.queue.length < c.capacity then (true, { c with queue := c.queue ++ [a] })
  else if c.capacity = 0 ∧ waiting ∧ c.queue = [] then
    (true, { c with consumed := c.consumed ++ [a] })
  else (false, c)

/-- What the consumer has taken once it has taken an item that was sent with a wait for room. -/
def consumedAfter (c : Channel α) (a : α) : List α := c.accepted ++ [a]

@[simp] theorem accepted_open (capacity : ℕ) (turns : List Turn) :
    (new capacity turns : Channel α).accepted = [] := rfl

@[simp] theorem accepted_turn (c : Channel α) : c.turn.1.accepted = c.accepted := by
  rw [turn]
  split
  · rfl
  · simp [accepted]

/-- An attempt takes the item behind all the others, or leaves the channel's items alone. -/
theorem accepted_trySend (c : Channel α) (a : α) :
    (c.trySend a).2.accepted = c.accepted ++ if (c.trySend a).1 then [a] else [] := by
  have hturn := c.accepted_turn
  rw [trySend]
  rcases h : c.turn with ⟨d, waiting⟩
  rw [h] at hturn
  have hd : d.consumed ++ d.queue = c.accepted := hturn
  rw [← hd]
  simp only
  split
  · simp [accepted]
  · split
    · rename_i hwaiting
      simp [accepted, hwaiting.2.2]
    · simp [accepted]

end Channel
