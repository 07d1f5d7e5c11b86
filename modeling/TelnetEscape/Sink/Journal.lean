import TelnetEscape.Sink.Basic

/-!
# Journals

A journaled sink passes every call on to the sink inside and keeps, in order, what was offered, what
was answered, and the events it was told of. Since a writer passes its events down to its sink, a
journal at the bottom of a stack of writers holds the events of all of them between the calls that
they led to.

`Entry.taken` is the contract between a sink and its caller: of an offer answered with `ok n` the
first `n` bytes are taken, and of every other offer none.
-/

namespace TelnetEscape

/-- One line of a journal. A blocking sink's answers are written down as ready ones. -/
inductive Entry
  | write (offered : Bytes) (answer : Poll (Except SinkError Nat))
  | flush (answer : Poll (Except SinkError Unit))
  | shutdown (answer : Poll (Except SinkError Unit))
  | event (event : Event)

namespace Entry

/-- The bytes that the sink took. -/
def taken : Entry → Bytes
  | write offered (.ready (.ok n)) => offered.take n
  | _ => []

def event? : Entry → Option Event
  | event e => some e
  | _ => none

def isWrite : Entry → Bool
  | write .. => true
  | _ => false

def isFlush : Entry → Bool
  | flush .. => true
  | _ => false

def isShutdown : Entry → Bool
  | shutdown .. => true
  | _ => false

/-- The call was answered with pending. -/
def isPending : Entry → Bool
  | write _ .pending => true
  | flush .pending => true
  | shutdown .pending => true
  | _ => false

end Entry

/-- The calls and events of a sink, in order. -/
abbrev Journal := List Entry

namespace Journal

/-- All bytes that were taken. -/
def taken (journal : Journal) : Bytes :=
  journal.flatMap Entry.taken

/-- All events. -/
def events (journal : Journal) : List Event :=
  journal.filterMap Entry.event?

/-- How many write calls there were. -/
def writes (journal : Journal) : Nat :=
  journal.countP Entry.isWrite

/-- How many flush calls there were. -/
def flushes (journal : Journal) : Nat :=
  journal.countP Entry.isFlush

/-- How many shutdown calls there were. -/
def shutdowns (journal : Journal) : Nat :=
  journal.countP Entry.isShutdown

@[simp] theorem taken_nil : taken [] = [] := rfl

@[simp] theorem taken_cons (e : Entry) (journal : Journal) :
    taken (e :: journal) = e.taken ++ taken journal := rfl

@[simp] theorem taken_append (a b : Journal) : taken (a ++ b) = taken a ++ taken b :=
  List.flatMap_append

end Journal

/-- A sink together with the journal of its calls. -/
structure Journaled (σ : Type) where
  sink : σ
  newestFirst : Journal := []

namespace Journaled

variable {σ : Type}

/-- The journal from its first line on. -/
def journal (j : Journaled σ) : Journal :=
  j.newestFirst.reverse

/-- Goes on with the sink's new state and one more line. -/
def record (j : Journaled σ) (sink : σ) (entry : Entry) : Journaled σ :=
  { sink, newestFirst := entry :: j.newestFirst }

@[simp] theorem journal_record (j : Journaled σ) (sink : σ) (entry : Entry) :
    (j.record sink entry).journal = j.journal ++ [entry] := by
  simp [record, journal]

@[simp] theorem sink_record (j : Journaled σ) (sink : σ) (entry : Entry) :
    (j.record sink entry).sink = sink := rfl

instance [Observer σ] : Observer (Journaled σ) where
  observe j e := j.record (Observer.observe j.sink e) (.event e)

instance [Sink σ] : Sink (Journaled σ) where
  write j offered :=
    let (answer, s) := Sink.write j.sink offered
    (answer, j.record s (.write offered (.ready answer)))
  flush j :=
    let (answer, s) := Sink.flush j.sink
    (answer, j.record s (.flush (.ready answer)))

instance [AsyncSink σ] : AsyncSink (Journaled σ) where
  pollWrite j offered :=
    let (answer, s) := AsyncSink.pollWrite j.sink offered
    (answer, j.record s (.write offered answer))
  pollFlush j :=
    let (answer, s) := AsyncSink.pollFlush j.sink
    (answer, j.record s (.flush answer))
  pollShutdown j :=
    let (answer, s) := AsyncSink.pollShutdown j.sink
    (answer, j.record s (.shutdown answer))

/-! ## What each call leaves in the journal -/

@[simp] theorem observe_eq [Observer σ] (j : Journaled σ) (e : Event) :
    Observer.observe j e = j.record (Observer.observe j.sink e) (.event e) := rfl

@[simp] theorem write_eq [Sink σ] (j : Journaled σ) (offered : Bytes) :
    Sink.write j offered =
      ((Sink.write j.sink offered).1, j.record (Sink.write j.sink offered).2
        (.write offered (.ready (Sink.write j.sink offered).1))) := rfl

@[simp] theorem flush_eq [Sink σ] (j : Journaled σ) :
    Sink.flush j =
      ((Sink.flush j.sink).1,
        j.record (Sink.flush j.sink).2 (.flush (.ready (Sink.flush j.sink).1))) := rfl

@[simp] theorem pollWrite_eq [AsyncSink σ] (j : Journaled σ) (offered : Bytes) :
    AsyncSink.pollWrite j offered =
      ((AsyncSink.pollWrite j.sink offered).1, j.record (AsyncSink.pollWrite j.sink offered).2
        (.write offered (AsyncSink.pollWrite j.sink offered).1)) := rfl

@[simp] theorem pollFlush_eq [AsyncSink σ] (j : Journaled σ) :
    AsyncSink.pollFlush j =
      ((AsyncSink.pollFlush j.sink).1, j.record (AsyncSink.pollFlush j.sink).2
        (.flush (AsyncSink.pollFlush j.sink).1)) := rfl

@[simp] theorem pollShutdown_eq [AsyncSink σ] (j : Journaled σ) :
    AsyncSink.pollShutdown j =
      ((AsyncSink.pollShutdown j.sink).1, j.record (AsyncSink.pollShutdown j.sink).2
        (.shutdown (AsyncSink.pollShutdown j.sink).1)) := rfl

end Journaled
end TelnetEscape
