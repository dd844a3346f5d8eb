import CallGate.Metadata

/-!
# Statuses

The status of a call tells the caller how the call ended: a code out of seventeen, a message,
details for programs, and metadata.
-/

namespace CallGate

/-- How a call ended. -/
inductive StatusCode where
  /-- The call succeeded. -/
  | ok
  /-- The call was cancelled. -/
  | cancelled
  /-- The cause is not known. -/
  | unknown
  /-- An argument is not valid. -/
  | invalidArgument
  /-- The call took too long. -/
  | deadlineExceeded
  /-- Something that the call asked for does not exist. -/
  | notFound
  /-- Something that the call was to create exists already. -/
  | alreadyExists
  /-- The caller lacks a right. -/
  | permissionDenied
  /-- A resource is used up. -/
  | resourceExhausted
  /-- The system is not in the state that the call needs. -/
  | failedPrecondition
  /-- The call was given up half-way. -/
  | aborted
  /-- A position lies outside of its range. -/
  | outOfRange
  /-- The call is not supported. -/
  | unimplemented
  /-- The system is broken. -/
  | internal
  /-- The service cannot be reached. -/
  | unavailable
  /-- Data are lost. -/
  | dataLoss
  /-- The caller is not known. -/
  | unauthenticated
deriving DecidableEq, Repr

namespace StatusCode

/-- All codes, in the order of their numbers. -/
def all : List StatusCode :=
  [ok, cancelled, unknown, invalidArgument, deadlineExceeded, notFound, alreadyExists,
   permissionDenied, resourceExhausted, failedPrecondition, aborted, outOfRange, unimplemented,
   internal, unavailable, dataLoss, unauthenticated]

/-- The number of a code on the wire. -/
def toNat (c : StatusCode) : Nat := all.idxOf c

/-- The code of a number on the wire. Numbers without a code of their own are unknown. -/
def ofInt (n : Int) : StatusCode :=
  if 0 ≤ n then all.getD n.toNat unknown else unknown

/-- The name of a code. -/
def name : StatusCode → String
  | ok => "Ok"
  | cancelled => "Cancelled"
  | unknown => "Unknown"
  | invalidArgument => "InvalidArgument"
  | deadlineExceeded => "DeadlineExceeded"
  | notFound => "NotFound"
  | alreadyExists => "AlreadyExists"
  | permissionDenied => "PermissionDenied"
  | resourceExhausted => "ResourceExhausted"
  | failedPrecondition => "FailedPrecondition"
  | aborted => "Aborted"
  | outOfRange => "OutOfRange"
  | unimplemented => "Unimplemented"
  | internal => "Internal"
  | unavailable => "Unavailable"
  | dataLoss => "DataLoss"
  | unauthenticated => "Unauthenticated"

end StatusCode

/-- What a caller is told about the end of a call. -/
structure Status where
  /-- How the call ended. -/
  code : StatusCode
  /-- The message for people. -/
  message : String
  /-- The details for programs. -/
  details : Bytes := []
  /-- The metadata that go with the status. -/
  metadata : Metadata := .empty
deriving DecidableEq

/-- The status as messages show it. -/
def Status.description (s : Status) : String :=
  "status: " ++ s.code.name ++ ", message: " ++ quoted s.message
    ++ ", details: [" ++ commaSeparated (s.details.map fun b => toString b.toNat)
    ++ "], metadata: " ++ s.metadata.description

end CallGate
