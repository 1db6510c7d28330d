/-!
# SegmentedDownload.Channel

A channel that hands every message to every receiver.

It keeps the latest messages, as many as its capacity. A receiver gets all
messages that were sent since it subscribed, in order, unless so many are sent
that it falls behind: then it learns how many it missed, and goes on with the
oldest message that is kept. Without a receiver a message is dropped.
-/

namespace SegmentedDownload

/-- A channel for messages of type `α`. -/
structure Channel (α : Type) where
  /-- Number of messages that are kept. -/
  capacity : Nat
  /-- Number of messages sent. -/
  sent : Nat := 0
  /-- The latest messages, the last one first. -/
  recent : List α := []
  /-- The number of the next message for each receiver. -/
  receivers : List Nat := []
deriving Repr, DecidableEq

namespace Channel

/-- What a receiver gets. -/
inductive Receipt (α : Type)
  | message (a : α)
  | empty
  | lagged (missed : Nat)
deriving Repr, DecidableEq

/-- The least power of two that is not below `n`, not counting those below `p`. -/
def powerAbove (n p : Nat) (fuel : Nat) : Nat :=
  match fuel with
  | 0 => p
  | fuel + 1 => if n ≤ p then p else powerAbove n (2 * p) fuel

/-- The largest capacity whose messages have an address each. -/
def maxCapacity : Nat := 72057594037927936

/-- A channel with at least the given capacity, which has to be positive. -/
def new? (α : Type) (capacity : Nat) : Option (Channel α) :=
  if 0 < capacity ∧ capacity ≤ maxCapacity then some { capacity := powerAbove capacity 1 64 }
  else none

/-- Add a receiver. It gets the messages sent from now on. -/
def subscribe (c : Channel α) : Channel α := { c with receivers := c.receivers ++ [c.sent] }

def send (c : Channel α) (a : α) : Channel α :=
  if c.receivers.isEmpty then c
  else { c with sent := c.sent + 1, recent := (a :: c.recent).take c.capacity }

/-- What the next message number `next` is for a receiver, and which number comes
after it. -/
def receipt (c : Channel α) (next : Nat) : Receipt α × Nat :=
  if next = c.sent then (.empty, next)
  else if c.capacity < c.sent - next then
    (.lagged (c.sent - c.capacity - next), c.sent - c.capacity)
  else
    match c.recent[c.sent - next - 1]? with
    | some a => (.message a, next + 1)
    | none => (.empty, next)

/-- Take the next message for a receiver. -/
def receive? (c : Channel α) (receiver : Nat) : Option (Channel α × Receipt α) :=
  c.receivers[receiver]?.map fun next =>
    let (receipt, next) := c.receipt next
    ({ c with receivers := c.receivers.set receiver next }, receipt)

end Channel

end SegmentedDownload
