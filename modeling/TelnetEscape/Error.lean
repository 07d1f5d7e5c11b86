/-!
# Errors

A sink fails with a `SinkError`. A send that does not get all of its input through reports a
`Shortfall`: how much input did arrive, whether a doubled IAC was torn, and the sink's error.

A writer that serves as another writer's sink has to answer with a `SinkError` of its own. Where
passing on the cause would invite a retry that must not happen, the whole shortfall is wrapped into
one, with kind `other`.
-/

namespace TelnetEscape

/-- What sort of thing went wrong. -/
inductive ErrorKind
  | notFound
  | permissionDenied
  | connectionRefused
  | connectionReset
  | hostUnreachable
  | networkUnreachable
  | connectionAborted
  | notConnected
  | addressInUse
  | addressNotAvailable
  | networkDown
  | brokenPipe
  | alreadyExists
  | wouldBlock
  | notADirectory
  | isADirectory
  | directoryNotEmpty
  | readOnlyFilesystem
  | filesystemLoop
  | staleNetworkFileHandle
  | invalidInput
  | invalidData
  | timedOut
  | writeZero
  | storageFull
  | notSeekable
  | quotaExceeded
  | fileTooLarge
  | resourceBusy
  | executableFileBusy
  | deadlock
  | crossesDevices
  | tooManyLinks
  | invalidFilename
  | argumentListTooLong
  | interrupted
  | unsupported
  | unexpectedEof
  | outOfMemory
  | inProgress
  | other
  | uncategorized
deriving DecidableEq, Repr

/-- The text of an error that has none of its own. -/
def ErrorKind.text : ErrorKind → String
  | notFound => "entity not found"
  | permissionDenied => "permission denied"
  | connectionRefused => "connection refused"
  | connectionReset => "connection reset"
  | hostUnreachable => "host unreachable"
  | networkUnreachable => "network unreachable"
  | connectionAborted => "connection aborted"
  | notConnected => "not connected"
  | addressInUse => "address in use"
  | addressNotAvailable => "address not available"
  | networkDown => "network down"
  | brokenPipe => "broken pipe"
  | alreadyExists => "entity already exists"
  | wouldBlock => "operation would block"
  | notADirectory => "not a directory"
  | isADirectory => "is a directory"
  | directoryNotEmpty => "directory not empty"
  | readOnlyFilesystem => "read-only filesystem or storage medium"
  | filesystemLoop => "filesystem loop or indirection limit (e.g. symlink loop)"
  | staleNetworkFileHandle => "stale network file handle"
  | invalidInput => "invalid input parameter"
  | invalidData => "invalid data"
  | timedOut => "timed out"
  | writeZero => "write zero"
  | storageFull => "no storage space"
  | notSeekable => "seek on unseekable file"
  | quotaExceeded => "quota exceeded"
  | fileTooLarge => "file too large"
  | resourceBusy => "resource busy"
  | executableFileBusy => "executable file busy"
  | deadlock => "deadlock"
  | crossesDevices => "cross-device link or rename"
  | tooManyLinks => "too many links"
  | invalidFilename => "invalid filename"
  | argumentListTooLong => "argument list too long"
  | interrupted => "operation interrupted"
  | unsupported => "unsupported"
  | unexpectedEof => "unexpected end of file"
  | outOfMemory => "out of memory"
  | inProgress => "in progress"
  | other => "other error"
  | uncategorized => "uncategorized error"

/-- The error of a sink. -/
inductive SinkError
  /-- An error without a text of its own. -/
  | plain (kind : ErrorKind)
  /-- An error with its own text. -/
  | described (kind : ErrorKind) (text : String)
  /-- The shortfall of an inner send, passed on as an error. -/
  | shortfall (delivered : Nat) (tornPair : Bool) (cause : SinkError)
deriving DecidableEq, Repr

/-- The text of a shortfall with the given count and cause. -/
def shortfallText (delivered : Nat) (causeText : String) : String :=
  "sink failed after " ++ toString delivered ++ " input bytes: " ++ causeText

namespace SinkError

def kind : SinkError → ErrorKind
  | plain kind => kind
  | described kind _ => kind
  | shortfall .. => .other

def text : SinkError → String
  | plain kind => kind.text
  | described _ text => text
  | shortfall delivered _ cause => shortfallText delivered cause.text

/-- The sink answered an offer by taking none of it. -/
def nothingTaken : SinkError :=
  described .writeZero "sink accepted no bytes"

end SinkError

/-- A send that did not get all of its input through. -/
structure Shortfall where
  /-- Input bytes that the sink has in full. -/
  delivered : Nat
  /-- The sink has the first half of a doubled IAC and not the second, so the stream cannot be
  resumed from `delivered`. -/
  tornPair : Bool
  cause : SinkError
deriving DecidableEq, Repr

/-- The input bytes that the answer of a send counts. -/
def counted : Except Shortfall Nat → Nat
  | .ok n => n
  | .error f => f.delivered

namespace Shortfall

def text (f : Shortfall) : String :=
  shortfallText f.delivered f.cause.text

/-- The shortfall itself as an error, in place of its cause. -/
def toError (f : Shortfall) : SinkError :=
  .shortfall f.delivered f.tornPair f.cause

/-- A shortfall as the answer to a plain write. Input that got through counts as a short write,
unless a pair was torn: then going on from the count would corrupt the stream. A torn pair after an
interruption is wrapped, because an interrupted write is one that callers try again. -/
def toWriteAnswer (f : Shortfall) : Except SinkError Nat :=
  if 0 < f.delivered ∧ f.tornPair = false then .ok f.delivered
  else if f.tornPair = true ∧ f.cause.kind = .interrupted then .error f.toError
  else .error f.cause

end Shortfall

/-- The shortfall that an error wraps, if it wraps one. -/
def SinkError.shortfall? : SinkError → Option Shortfall
  | .shortfall delivered tornPair cause => some ⟨delivered, tornPair, cause⟩
  | _ => none

end TelnetEscape
