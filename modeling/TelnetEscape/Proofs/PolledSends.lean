import TelnetEscape.Proofs.Front
import TelnetEscape.Proofs.Polls
import TelnetEscape.Writer.Sending

/-!
# What polled sends do

One poll takes a send through any number of its parts: pushing out earlier output, pushing out its
own batches, flushing the sink. `SendPolls` says what a poll does from one part on: it stops there,
pending or with an answer, or goes on with the next one. `SendRuns` is any number of polls, after
which the send has its answer or is given up.

* `pollSend_polls`, `sendFrom_runs`: this is what the writers do;
* `SendPolls.stop_eq`, `pollUpTo_eq_sendFrom`: the part in which a send stopped is what is left of
  one that is pending, and `sendFrom` adds nothing else to polling it.
-/

namespace TelnetEscape

/-- The answer that a turn brings. -/
def Turn.answer? {φ α : Type} : Turn φ α → Option α
  | .pending _ => none
  | .ready answer => some answer

/-! ## Where a send stops -/

namespace Writer

variable {σ : Type} [AsyncSink σ]

/-- Where a poll stops that has `data` still to stage, after `delivered` bytes that are through. -/
def batchesStop (w : Writer σ) (delivered : Nat) (data : Bytes) : Sending :=
  if data = [] then .flushing delivered
  else
    match (w.startBatch data).pollDrain with
    | (.ready (.ok ()), w') =>
      batchesStop w' (delivered + w.batchSize data) (data.drop (w.batchSize data))
    | _ => .pushing delivered (w.batchSize data) (data.drop (w.batchSize data))
termination_by data.length
decreasing_by exact length_drop_batchSize_lt w ‹_›

/-- The part of a send in which a poll stops, pending or with an answer. -/
def sendStop (w : Writer σ) : Sending → Sending
  | .clearing data =>
    match w.pollDrain with
    | (.ready (.ok ()), w') => w'.batchesStop 0 data
    | _ => .clearing data
  | .pushing delivered inputs rest =>
    match w.pollDrain with
    | (.ready (.ok ()), w') => w'.batchesStop (delivered + inputs) rest
    | _ => .pushing delivered inputs rest
  | .flushing delivered => .flushing delivered

/-- Polls a send at most so many times: where it stopped, its answer unless it was still pending
when it was given up, and the writer afterwards. -/
def sendFrom : Nat → Sending → Writer σ → Sending × Option (Except Shortfall Nat) × Writer σ
  | 0, sending, w => (sending, none, w)
  | polls + 1, sending, w =>
    match w.pollSend sending with
    | (.ready answer, w') => (w.sendStop sending, some answer, w')
    | (.pending left, w') => sendFrom polls left w'

end Writer

/-! ## One poll -/

/-- The part that follows when `delivered` bytes are through and `rest` is not staged yet. -/
def Sending.next (limit delivered : Nat) (rest : Bytes) : Sending :=
  if rest = [] then .flushing delivered
  else .pushing delivered (fit limit rest) (rest.drop (fit limit rest))

/-- Only a send that is to flush the sink can be waiting for that. -/
def Sending.Awaits (config : Config) : Sending → Prop
  | .flushing _ => config.flushSink = true
  | _ => True

/-- What the answer to the flush makes of a send. -/
def flushTurn (delivered : Nat) : Poll (Except SinkError Unit) → SendTurn
  | .pending => .pending (.flushing delivered)
  | .ready (.ok ()) => .ready (.ok delivered)
  | .ready (.error e) => .ready (.error ⟨delivered, false, e⟩)

/-- One poll of a send: the part it starts from with the stage, its calls, the part it stops in, its
turn and the stage afterwards. -/
inductive SendPolls (config : Config) :
    Sending → Stage → Journal → Sending → SendTurn → Stage → Prop
  | clearing_pending {data : Bytes} {stage stage' : Stage} {lines : Journal}
      (drains : PollDrains stage lines .pending stage') :
      SendPolls config (.clearing data) stage lines (.clearing data) (.pending (.clearing data))
        stage'
  | clearing_failed {data : Bytes} {stage stage' : Stage} {lines : Journal} {e : SinkError}
      (drains : PollDrains stage lines (.ready (.error e)) stage') :
      SendPolls config (.clearing data) stage lines (.clearing data)
        (.ready (.error ⟨0, false, e⟩)) stage'
  | cleared {data : Bytes} {stage stage' : Stage} {lines more : Journal} {stop : Sending}
      {turn : SendTurn} (drains : PollDrains stage lines (.ready (.ok ())) {})
      (go_on : SendPolls config (.next config.stageLimit 0 data)
        (({} : Stage).fill config.stageLimit data) more stop turn stage') :
      SendPolls config (.clearing data) stage (lines ++ more) stop turn stage'
  | pushing_pending {delivered inputs : Nat} {rest : Bytes} {stage stage' : Stage} {lines : Journal}
      (drains : PollDrains stage lines .pending stage') :
      SendPolls config (.pushing delivered inputs rest) stage lines (.pushing delivered inputs rest)
        (.pending (.pushing delivered inputs rest)) stage'
  | pushing_failed {delivered inputs : Nat} {rest : Bytes} {stage stage' : Stage} {lines : Journal}
      {e : SinkError} {p : Progress} (drains : PollDrains stage lines (.ready (.error e)) stage')
      (reached : p = stage'.progress) :
      SendPolls config (.pushing delivered inputs rest) stage
        (lines ++ [.event (.failed none (delivered + p.inputs) p.midPair e)])
        (.pushing delivered inputs rest) (.ready (.error ⟨delivered + p.inputs, p.midPair, e⟩)) {}
  | pushed {delivered inputs : Nat} {rest : Bytes} {stage stage' : Stage} {lines more : Journal}
      {stop : Sending} {turn : SendTurn} (drains : PollDrains stage lines (.ready (.ok ())) {})
      (go_on : SendPolls config (.next config.stageLimit (delivered + inputs) rest)
        (({} : Stage).fill config.stageLimit rest) more stop turn stage') :
      SendPolls config (.pushing delivered inputs rest) stage (lines ++ more) stop turn stage'
  | flushing {delivered : Nat} {stage : Stage} (on : config.flushSink = true)
      (answer : Poll (Except SinkError Unit)) :
      SendPolls config (.flushing delivered) stage [.flush answer] (.flushing delivered)
        (flushTurn delivered answer) stage
  | done {delivered : Nat} {stage : Stage} (off : config.flushSink = false) :
      SendPolls config (.flushing delivered) stage [] (.flushing delivered)
        (.ready (.ok delivered)) stage

/-- What is left of a pending send is the part that the poll stopped in. -/
theorem SendPolls.stop_eq {config : Config} {sending stop left : Sending} {stage stage' : Stage}
    {lines : Journal} {turn : SendTurn} (h : SendPolls config sending stage lines stop turn stage')
    (hpending : turn = .pending left) : stop = left := by
  induction h with
  | clearing_pending | pushing_pending => exact Turn.pending.inj hpending
  | clearing_failed | pushing_failed | done => cases hpending
  | cleared _ _ ih | pushed _ _ ih => exact ih hpending
  | flushing _ answer =>
    match answer, hpending with
    | .pending, hpending => exact Turn.pending.inj hpending

theorem SendPolls.awaits {config : Config} {sending stop left : Sending} {stage stage' : Stage}
    {lines : Journal} {turn : SendTurn} (h : SendPolls config sending stage lines stop turn stage')
    (hpending : turn = .pending left) : left.Awaits config := by
  rw [← h.stop_eq hpending]
  induction h with
  | clearing_pending | pushing_pending => trivial
  | clearing_failed | pushing_failed | done => cases hpending
  | cleared _ _ ih | pushed _ _ ih => exact ih hpending
  | flushing on => exact on

/-! ## What the writers do in one poll -/

namespace Writer

variable {σ : Type} [AsyncSink σ]

/-- A poll that has data to stage goes on like one that finds its first batch staged. -/
theorem pollBatches_eq (w : Writer σ) (delivered : Nat) {data : Bytes} (hdata : data ≠ []) :
    w.pollBatches delivered data = (w.startBatch data).pollSend
      (.pushing delivered (w.batchSize data) (data.drop (w.batchSize data))) := by
  rw [pollBatches, if_neg hdata, pollSend]

theorem batchesStop_eq (w : Writer σ) (delivered : Nat) {data : Bytes} (hdata : data ≠ []) :
    w.batchesStop delivered data = (w.startBatch data).sendStop
      (.pushing delivered (w.batchSize data) (data.drop (w.batchSize data))) := by
  rw [batchesStop, if_neg hdata, sendStop]

/-- What `pollBatches` does from an empty stage. -/
def BatchesPoll (w : Writer σ) (delivered : Nat) (data : Bytes) : Prop :=
  ∃ lines, w.Moves lines (w.pollBatches delivered data).2 ∧
    SendPolls w.config (.next w.config.stageLimit delivered data)
      (({} : Stage).fill w.config.stageLimit data) lines (w.batchesStop delivered data)
      (w.pollBatches delivered data).1 (w.pollBatches delivered data).2.stage

theorem finishSend_polls (w : Writer σ) (delivered : Nat) :
    ∃ lines, w.Moves lines (w.finishSend delivered).2 ∧
      SendPolls w.config (.flushing delivered) w.stage lines (.flushing delivered)
        (w.finishSend delivered).1 (w.finishSend delivered).2.stage := by
  rw [finishSend]
  by_cases hflush : w.config.flushSink = true
  · rw [if_pos hflush, pollEndFlush, onSink]
    cases hanswer : AsyncSink.pollFlush w.sink with
    | mk answer s =>
      have hcalls : Calls AsyncSink.Step w.sink [.flush answer] s := .single hanswer
      match answer with
      | .pending => exact ⟨_, ⟨hcalls, rfl⟩, .flushing hflush .pending⟩
      | .ready (.ok ()) => exact ⟨_, ⟨hcalls, rfl⟩, .flushing hflush (.ready (.ok ()))⟩
      | .ready (.error e) => exact ⟨_, ⟨hcalls, rfl⟩, .flushing hflush (.ready (.error e))⟩
  · rw [if_neg hflush]
    exact ⟨[], ⟨.nil _, rfl⟩, .done (by simpa using hflush)⟩

/-- A poll that finds a batch staged, if it is known how it goes on after the batch. -/
theorem pollSend_pushing_polls (w : Writer σ) (delivered inputs : Nat) (rest : Bytes)
    (go_on : ∀ w' : Writer σ, w'.stage = {} → w'.BatchesPoll (delivered + inputs) rest) :
    ∃ lines, w.Moves lines (w.pollSend (.pushing delivered inputs rest)).2 ∧
      SendPolls w.config (.pushing delivered inputs rest) w.stage lines
        (w.sendStop (.pushing delivered inputs rest))
        (w.pollSend (.pushing delivered inputs rest)).1
        (w.pollSend (.pushing delivered inputs rest)).2.stage := by
  obtain ⟨lines, hmoves, hdrains⟩ := w.pollDrain_drains
  rw [pollSend, sendStop]
  generalize w.pollDrain = drained at *
  obtain ⟨answer, w'⟩ := drained
  rcases answer with _ | e | _
  case pending => exact ⟨lines, hmoves, .pushing_pending hdrains⟩
  case ready.error =>
    refine ⟨_, hmoves.append ?_, .pushing_failed hdrains rfl⟩
    exact ⟨.asyncObserve _ _, rfl⟩
  case ready.ok =>
    have hstage : w'.stage = {} := hdrains.eq_empty
    obtain ⟨more, hmore, hpolls⟩ := go_on w' hstage
    rw [hstage] at hdrains
    rw [hmoves.config_eq] at hpolls
    exact ⟨lines ++ more, hmoves.append hmore, .pushed hdrains hpolls⟩

theorem pollBatches_polls (w : Writer σ) (delivered : Nat) (data : Bytes) (hstage : w.stage = {}) :
    w.BatchesPoll delivered data := by
  induction hlen : data.length using Nat.strongRecOn generalizing w delivered data with
  | ind len ih =>
    rw [BatchesPoll]
    by_cases hdata : data = []
    · have hfill : w.stage = ({} : Stage).fill w.config.stageLimit data := by
        rw [hstage, hdata]
        rfl
      rw [pollBatches, batchesStop, if_pos hdata, if_pos hdata, Sending.next, if_pos hdata, ← hfill]
      exact w.finishSend_polls delivered
    · rw [pollBatches_eq w delivered hdata, batchesStop_eq w delivered hdata, Sending.next,
        if_neg hdata, ← batchSize_eq]
      obtain ⟨lines, hmoves, hpolls⟩ := (w.startBatch data).pollSend_pushing_polls delivered
        (w.batchSize data) (data.drop (w.batchSize data)) fun w' hw' =>
          ih _ (hlen ▸ length_drop_batchSize_lt w hdata) w' _ _ hw' rfl
      exact ⟨lines, ⟨hmoves.calls, hmoves.config_eq⟩, hpolls⟩

/-- What a poll of a send does. -/
theorem pollSend_polls (w : Writer σ) (sending : Sending) (hawaits : sending.Awaits w.config) :
    ∃ lines, w.Moves lines (w.pollSend sending).2 ∧
      SendPolls w.config sending w.stage lines (w.sendStop sending) (w.pollSend sending).1
        (w.pollSend sending).2.stage := by
  cases sending with
  | clearing data =>
    obtain ⟨lines, hmoves, hdrains⟩ := w.pollDrain_drains
    rw [pollSend, sendStop]
    generalize w.pollDrain = drained at *
    obtain ⟨answer, w'⟩ := drained
    rcases answer with _ | e | _
    case pending => exact ⟨lines, hmoves, .clearing_pending hdrains⟩
    case ready.error => exact ⟨lines, hmoves, .clearing_failed hdrains⟩
    case ready.ok =>
      have hstage : w'.stage = {} := hdrains.eq_empty
      obtain ⟨more, hmore, hpolls⟩ := w'.pollBatches_polls 0 data hstage
      rw [hstage] at hdrains
      rw [hmoves.config_eq] at hpolls
      exact ⟨lines ++ more, hmoves.append hmore, .cleared hdrains hpolls⟩
  | pushing delivered inputs rest =>
    exact w.pollSend_pushing_polls delivered inputs rest fun w' hw' => w'.pollBatches_polls _ _ hw'
  | flushing delivered =>
    have hon : w.config.flushSink = true := hawaits
    have hpolls := w.finishSend_polls delivered
    rwa [finishSend, if_pos hon] at hpolls

end Writer

/-! ## Many polls -/

/-- Polls of a send until it has its answer or is given up. -/
inductive SendRuns (config : Config) :
    Sending → Stage → Journal → Sending → Option (Except Shortfall Nat) → Stage → Prop
  | given_up {sending : Sending} {stage : Stage} :
      SendRuns config sending stage [] sending none stage
  | answered {sending stop : Sending} {stage stage' : Stage} {lines : Journal}
      {answer : Except Shortfall Nat}
      (polls : SendPolls config sending stage lines stop (.ready answer) stage') :
      SendRuns config sending stage lines stop (some answer) stage'
  | again {sending stop left stop' : Sending} {stage stage' stage'' : Stage} {lines more : Journal}
      {answer? : Option (Except Shortfall Nat)}
      (polls : SendPolls config sending stage lines stop (.pending left) stage')
      (rest : SendRuns config left stage' more stop' answer? stage'') :
      SendRuns config sending stage (lines ++ more) stop' answer? stage''

namespace Writer

variable {σ : Type} [AsyncSink σ]

theorem pollFrom_eq_sendFrom (made polls : Nat) (sending : Sending) (w : Writer σ) :
    (pollFrom (fun sending w => w.pollSend sending) made polls sending w).answer? =
      (sendFrom polls sending w).2.1 ∧
    (pollFrom (fun sending w => w.pollSend sending) made polls sending w).state =
      (sendFrom polls sending w).2.2 := by
  induction polls generalizing made sending w with
  | zero => exact ⟨rfl, rfl⟩
  | succ polls ih =>
    rw [pollFrom, sendFrom]
    rcases w.pollSend sending with ⟨left | answer, w'⟩
    · exact ih (made + 1) left w'
    · exact ⟨rfl, rfl⟩

/-- `sendFrom` polls a send as any operation is polled. -/
theorem pollUpTo_eq_sendFrom (polls : Nat) (sending : Sending) (w : Writer σ) :
    (pollUpTo (fun sending w => w.pollSend sending) polls sending w).answer? =
      (sendFrom polls sending w).2.1 ∧
    (pollUpTo (fun sending w => w.pollSend sending) polls sending w).state =
      (sendFrom polls sending w).2.2 :=
  pollFrom_eq_sendFrom 0 polls sending w

theorem sendFrom_runs (polls : Nat) (sending : Sending) (w : Writer σ)
    (hawaits : sending.Awaits w.config) :
    ∃ lines, w.Moves lines (sendFrom polls sending w).2.2 ∧
      SendRuns w.config sending w.stage lines (sendFrom polls sending w).1
        (sendFrom polls sending w).2.1 (sendFrom polls sending w).2.2.stage := by
  induction polls generalizing sending w with
  | zero => exact ⟨[], ⟨.nil _, rfl⟩, .given_up⟩
  | succ polls ih =>
    obtain ⟨lines, hmoves, hpolls⟩ := w.pollSend_polls sending hawaits
    rw [sendFrom]
    generalize w.pollSend sending = polled at *
    obtain ⟨turn, w'⟩ := polled
    cases turn with
    | ready answer => exact ⟨lines, hmoves, .answered hpolls⟩
    | pending left =>
      have hleft : left.Awaits w'.config := by
        rw [hmoves.config_eq]
        exact hpolls.awaits rfl
      obtain ⟨more, hmore, hruns⟩ := ih left w' hleft
      rw [hmoves.config_eq] at hruns
      exact ⟨lines ++ more, hmoves.append hmore, .again hpolls hruns⟩

end Writer
end TelnetEscape
