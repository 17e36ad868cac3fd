import OrderingService.Sequencer.Basic

/-!
# Reading what is published

A subscriber reads the transactions published after it subscribed, in order. Only the latest
transactions are kept; one that fell further behind is told how many it missed and goes on with
the oldest one kept. After the sequencer stopped, what is left is read first.

## Main definitions

* `Reading` — what a subscriber is given
* `Sequencer.read` — one read
-/

namespace OrderingService

/-- What a subscriber is given. -/
inductive Reading where
  /-- The next transaction. -/
  | transaction (tx : OrderedTransaction)
  /-- This many transactions were missed. -/
  | lagged (missed : Nat)
  /-- Nothing is there yet. -/
  | empty
  /-- Nothing is left, and nothing will come. -/
  | closed
  deriving DecidableEq, Repr

namespace Sequencer

/-- The number of transactions that a subscriber has not read. -/
def unread (s : Sequencer) (sub : Subscription) : Nat := s.published.length - sub.next

/-- One read of a subscriber. -/
def read (s : Sequencer) (sub : Subscription) : Reading × Subscription :=
  if s.kept < s.unread sub then
    (.lagged (s.unread sub - s.kept), ⟨s.published.length - s.kept⟩)
  else
    match s.published[sub.next]? with
    | some tx => (.transaction tx, ⟨sub.next + 1⟩)
    | none => (if s.stopped then .closed else .empty, sub)

end Sequencer

end OrderingService
