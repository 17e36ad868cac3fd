import OrderingService.Rpc.Status

/-!
# The two sides of a stream

A stream handler reads requests from a queue that the client fills and closes, and writes answers
to a queue with a bound that the client empties and may abandon. In place of a request the queue
can hold the status with which reading broke.

## Main definitions

* `Exchange` — both queues of a stream
* `Exchange.take?` — the next request
* `Exchange.push?` — one more answer
-/

namespace OrderingService

/-- The queues between a client and the handler of its stream. -/
structure Exchange (Request Response : Type) where
  /-- Requests not yet read. -/
  requests : List (Except RpcStatus Request) := []
  /-- Whether no further request will come. -/
  requestsClosed : Bool := false
  /-- Answers not yet taken by the client. -/
  responses : List (Except RpcStatus Response) := []
  /-- How many answers may wait. -/
  capacity : Nat
  /-- Whether the client has gone. -/
  hungUp : Bool := false

namespace Exchange

variable {Request Response : Type}

/-- The next request, or that there is none left, unless the handler has to wait. -/
def take? (x : Exchange Request Response) :
    Option (Option (Except RpcStatus Request) × Exchange Request Response) :=
  match x.requests with
  | item :: rest => some (some item, { x with requests := rest })
  | [] => if x.requestsClosed then some (none, x) else none

/-- What becomes of an answer. -/
inductive Delivery (Request Response : Type) where
  /-- It waits for the client. -/
  | queued (x : Exchange Request Response)
  /-- The client has gone. -/
  | abandoned
  /-- There is no room yet. -/
  | blocked

/-- Hand over an answer. -/
def push (x : Exchange Request Response) (response : Except RpcStatus Response) :
    Delivery Request Response :=
  if x.hungUp then .abandoned
  else if x.responses.length < x.capacity then
    .queued { x with responses := x.responses ++ [response] }
  else .blocked

/-- One more request from the client. -/
def request (x : Exchange Request Response) (item : Except RpcStatus Request) :
    Exchange Request Response :=
  { x with requests := x.requests ++ [item] }

/-- The client sends no more. -/
def closeRequests (x : Exchange Request Response) : Exchange Request Response :=
  { x with requestsClosed := true }

/-- The client takes no more. -/
def hangUp (x : Exchange Request Response) : Exchange Request Response :=
  { x with hungUp := true, responses := [] }

end Exchange

end OrderingService
