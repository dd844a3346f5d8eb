import CallGate.Json.StringList
import CallGate.Status

/-!
# Complaints

A handler that finds rules of its domain broken complains in one or more messages. The messages
travel in the details of a status, as a JSON array of strings, and never in its message.
-/

namespace CallGate

/-- Messages about broken rules of the domain. -/
structure Complaint where
  /-- The messages, in the order in which they were given. -/
  messages : List String
deriving DecidableEq

namespace Complaint

/-- The complaint of one message. -/
def single (message : String) : Complaint := ⟨[message]⟩

/-- The complaint with one more message. -/
def add (c : Complaint) (message : String) : Complaint := ⟨c.messages ++ [message]⟩

/-- The messages in one line. -/
def text (c : Complaint) : String := "; ".intercalate c.messages

/-- The messages as details of a status. -/
def detail (c : Complaint) : Bytes := utf8Bytes (StringList.encode c.messages)

/-- The complaint that a status carries: the code must be the internal one, and the details must be
an array of strings. -/
def ofStatus? (s : Status) : Option Complaint :=
  if s.code = .internal && !s.details.isEmpty then do
    let text ← ofUtf8? s.details
    let messages ← StringList.decode? text
    return ⟨messages⟩
  else
    none

end Complaint

end CallGate
