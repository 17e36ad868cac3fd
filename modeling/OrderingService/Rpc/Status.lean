/-!
# Statuses of remote calls

A call ends with a status: a code out of a fixed list and a message. A stream hands over a status
in place of a message when something went wrong.

## Main definitions

* `RpcCode`, `RpcCode.ofNumber`, `RpcCode.name`
* `RpcStatus`
-/

namespace OrderingService

/-- The code of a status. -/
inductive RpcCode where
  | ok
  | cancelled
  | unknown
  | invalidArgument
  | deadlineExceeded
  | notFound
  | alreadyExists
  | permissionDenied
  | resourceExhausted
  | failedPrecondition
  | aborted
  | outOfRange
  | unimplemented
  | internal
  | unavailable
  | dataLoss
  | unauthenticated
  deriving DecidableEq, Repr

namespace RpcCode

/-- All codes in the order of their numbers, from zero. -/
def all : List RpcCode :=
  [ok, cancelled, unknown, invalidArgument, deadlineExceeded, notFound, alreadyExists,
   permissionDenied, resourceExhausted, failedPrecondition, aborted, outOfRange, unimplemented,
   internal, unavailable, dataLoss, unauthenticated]

/-- The code with a number; numbers without a code are unknown. -/
def ofNumber (n : Nat) : RpcCode := all[n]?.getD unknown

/-- The name of a code. -/
def name : RpcCode → String
  | ok => "Ok"
  | cancelled => "Cancelled"
  | unknown => "Unknown"
  | invalidArgument => "InvalidArgument"
  | deadlineExceeded => "DeadlineExceeded"
  | notFound => "NotFound"
  | alreadyExists => "AlreadyExists"
  | permissionDenied => "PermissionDenied"
  | resourceExhausted => "ResourceExhausted"
  | failedPrecondition => "FailedPrecondition"
  | aborted => "Aborted"
  | outOfRange => "OutOfRange"
  | unimplemented => "Unimplemented"
  | internal => "Internal"
  | unavailable => "Unavailable"
  | dataLoss => "DataLoss"
  | unauthenticated => "Unauthenticated"

end RpcCode

/-- How a call ended, or why a stream broke. -/
structure RpcStatus where
  code : RpcCode
  message : String := ""
  deriving DecidableEq, Repr

end OrderingService
