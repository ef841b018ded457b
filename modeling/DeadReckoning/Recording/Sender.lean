import DeadReckoning.Lib.Channel
import DeadReckoning.Lib.Runs
import DeadReckoning.Lib.Trace
import DeadReckoning.Recording.Client
import Mathlib.Data.List.DropRight

/-! The sender in front of the journal's thread. A record that finds the channel full is dropped
and the gap is journaled; a marker waits in an outbox; a dropped cancellation of an object leaves
a marker of its own. -/
namespace DeadReckoning.Recording

open Wal (WalRecord SyncPolicy Marker MarkerKind)

section Model

/-- A command to the journal's thread. -/
inductive WalCmd where
  | append (record : WalRecord) (sync : SyncPolicy)
  | heartbeat (data : Option HeartbeatData)
  | receiveSeq (monoNs widened : ℕ)
  | shutdown
  deriving DecidableEq

def WalCmd.append? : WalCmd → Option (WalRecord × SyncPolicy)
  | append record sync => some (record, sync)
  | heartbeat _ | receiveSeq _ _ | shutdown => none

/-- What becomes of what the sender is given. -/
inductive SenderEvent where
  /-- The channel took the record. -/
  | accepted (record : WalRecord) (sync : SyncPolicy)
  /-- A marker was sent or queued. -/
  | placed (marker : Marker)
  /-- The marker that closes a gap was sent. -/
  | gap (startMonoNs endMonoNs : ℕ)
  /-- A record was dropped, and the evidence sent or queued for it. -/
  | dropped (record : WalRecord) (monoNs : ℕ) (evidence : Option Marker)
  deriving DecidableEq

abbrev SenderLog := List SenderEvent

def gapMarker (startMonoNs endMonoNs : ℕ) : Marker :=
  ⟨endMonoNs, .subscriptionGap startMonoNs endMonoNs⟩

/-- The evidence of a lost cancellation. -/
def lossMarker (monoNs : ℕ) : Marker := ⟨monoNs, .exclusionUpdateLost⟩

structure WalSender where
  gapStart : Option ℕ
  outbox : List Marker
  lastExcluded : Option (List String)
  exclusionLossPending : Bool
  deriving DecidableEq

/-- The sender with its channel. The log is nobody's state: it tells what has happened. The
thread behind the channel is alive, so an attempt to send succeeds or finds no room. -/
structure Journal where
  sender : WalSender
  channel : Channel WalCmd
  log : SenderLog

def Journal.new (capacity : ℕ) (turns : List Turn) : Journal :=
  ⟨⟨none, [], none, false⟩, .new capacity turns, []⟩

/-- The excluded names of a record, and whether it brings definitions. -/
def excludeFingerprint : WalRecord → Option (List String × Bool)
  | .context context => context.exclude.map fun e => (e.excluded, e.definitions.isSome)
  | .trapqSegment _ | .stepperRange _ | .marker _ | .heartbeat _ => none

/-- Whether a record changes what is known of the excluded objects. -/
def changesExclusion (lastExcluded : Option (List String)) (record : WalRecord) : Bool :=
  (excludeFingerprint record).any fun (excluded, redefines) =>
    redefines || lastExcluded ≠ some excluded

namespace Journal

def note (j : Journal) (e : SenderEvent) : Journal := { j with log := j.log ++ [e] }

def trySend (j : Journal) (cmd : WalCmd) : Bool × Journal :=
  let (sent, channel) := j.channel.trySend cmd
  (sent, { j with channel })

def sendMarker (j : Journal) (marker : Marker) : Bool × Journal :=
  j.trySend (.append (.marker marker) .immediate)

def setOutbox (j : Journal) (outbox : List Marker) : Journal :=
  { j with sender := { j.sender with outbox } }

/-- Sends the queued markers until there is no room. -/
def flush (j : Journal) : List Marker → Journal
  | [] => j
  | front :: rest =>
      match j.sendMarker front with
      | (true, j) => (j.setOutbox rest).flush rest
      | (false, j) => j

def flushOutbox (j : Journal) : Journal := j.flush j.sender.outbox

/-- Opens or extends the gap. -/
def noteDrop (j : Journal) (monoNs : ℕ) : Journal :=
  { j with sender := { j.sender with gapStart := some (j.sender.gapStart.getD monoNs) } }

def dropRecord (j : Journal) (record : WalRecord) (monoNs : ℕ) (changes : Bool) : Journal :=
  let j := j.noteDrop monoNs
  if changes && !j.sender.exclusionLossPending then
    let queued : WalSender :=
      { j.sender with
        exclusionLossPending := true
        outbox := j.sender.outbox ++ [lossMarker monoNs] }
    let j := { j with sender := queued }.note (.dropped record monoNs (some (lossMarker monoNs)))
    j.flushOutbox
  else j.note (.dropped record monoNs none)

/-- Sends the marker that closes the open gap, if there is one; whether it found room. -/
def closeGap (j : Journal) (monoNs : ℕ) : Bool × Journal :=
  match j.sender.gapStart with
  | none => (true, j)
  | some start =>
      match j.sendMarker (gapMarker start monoNs) with
      | (true, j) =>
          (true, { j with sender := { j.sender with gapStart := none } }.note (.gap start monoNs))
      | (false, j) => (false, j)

/-- The record has landed. -/
def landed (j : Journal) (record : WalRecord) (sync : SyncPolicy) : Journal :=
  let sender :=
    match excludeFingerprint record with
    | some (excluded, _) =>
        { j.sender with lastExcluded := some excluded, exclusionLossPending := false }
    | none => j.sender
  { j with sender }.note (.accepted record sync)

def record (j : Journal) (record : WalRecord) (sync : SyncPolicy) (monoNs : ℕ) : Journal :=
  let changes := changesExclusion j.sender.lastExcluded record
  let j := j.flushOutbox
  -- Markers still queued come before the record, so there is no room for it.
  if !j.sender.outbox.isEmpty then j.dropRecord record monoNs changes
  else
    match j.closeGap monoNs with
    | (false, j) => j.dropRecord record monoNs changes
    | (true, j) =>
        match j.trySend (.append record sync) with
        | (true, j) => j.landed record sync
        | (false, j) => j.dropRecord record monoNs changes

def marker (j : Journal) (marker : Marker) : Journal :=
  let j := j.flushOutbox
  if !j.sender.outbox.isEmpty then
    (j.setOutbox (j.sender.outbox ++ [marker])).note (.placed marker)
  else
    match j.sendMarker marker with
    | (true, j) => j.note (.placed marker)
    | (false, j) => (j.setOutbox (j.sender.outbox ++ [marker])).note (.placed marker)

def step (j : Journal) : SenderCall → Journal
  | .record r sync monoNs => j.record r sync monoNs
  | .marker m => j.marker m
  | .heartbeatData data => (j.trySend (.heartbeat data)).2
  | .receiveSeq monoNs widened => (j.trySend (.receiveSeq monoNs widened)).2

/-- What the thread has consumed when it has read the command to shut down. The outbox goes
with the sender. -/
def shutdown (j : Journal) : List WalCmd := j.channel.consumedAfter .shutdown

/-- The journal after a sequence of calls. -/
def after (capacity : ℕ) (turns : List Turn) (calls : List SenderCall) : Journal :=
  calls.foldl step (.new capacity turns)

end Journal

end Model

section Stream

/-- What goes to the journal of an event. -/
def SenderEvent.append? : SenderEvent → Option (WalRecord × SyncPolicy)
  | accepted record sync => some (record, sync)
  | placed marker => some (.marker marker, .immediate)
  | gap start stop => some (.marker (gapMarker start stop), .immediate)
  | dropped _ _ evidence => evidence.map fun marker => (.marker marker, .immediate)

namespace Journal

/-- The records and markers that were sent, and then the markers still queued. -/
def stream (j : Journal) : List (WalRecord × SyncPolicy) :=
  j.channel.accepted.filterMap WalCmd.append? ++
    j.sender.outbox.map fun marker => (.marker marker, .immediate)

/-- The journal after some events: they are logged, and what goes to the journal of them is at
the end of the stream. -/
structure Moved (j j' : Journal) (events : SenderLog) : Prop where
  log : j'.log = j.log ++ events
  stream : j'.stream = j.stream ++ events.filterMap SenderEvent.append?

theorem Moved.trans {j j' j'' : Journal} {events events' : SenderLog} (h : Moved j j' events)
    (h' : Moved j' j'' events') : Moved j j'' (events ++ events') where
  log := by rw [h'.log, h.log, List.append_assoc]
  stream := by rw [h'.stream, h.stream, List.filterMap_append, List.append_assoc]

/-- The sender but for its outbox. -/
def SameBooks (s s' : WalSender) : Prop :=
  s'.gapStart = s.gapStart ∧ s'.lastExcluded = s.lastExcluded ∧
    s'.exclusionLossPending = s.exclusionLossPending

theorem trySend_spec (j : Journal) (cmd : WalCmd) :
    (j.trySend cmd).2.sender = j.sender ∧ (j.trySend cmd).2.log = j.log ∧
      (j.trySend cmd).2.channel.accepted =
        j.channel.accepted ++ if (j.trySend cmd).1 then [cmd] else [] :=
  ⟨rfl, rfl, j.channel.accepted_trySend cmd⟩

/-- A command was sent. -/
theorem trySend_true {j j' : Journal} {cmd : WalCmd} (h : j.trySend cmd = (true, j')) :
    j'.sender = j.sender ∧ j'.log = j.log ∧
      j'.channel.accepted = j.channel.accepted ++ [cmd] := by
  have hspec := j.trySend_spec cmd
  rw [h] at hspec
  exact hspec

/-- A command found no room. -/
theorem trySend_false {j j' : Journal} {cmd : WalCmd} (h : j.trySend cmd = (false, j')) :
    j'.sender = j.sender ∧ Moved j j' [] := by
  have hspec := j.trySend_spec cmd
  rw [h] at hspec
  obtain ⟨hsender, hlog, haccepted⟩ := hspec
  refine ⟨hsender, ⟨by rw [hlog, List.append_nil], ?_⟩⟩
  simp only at hsender haccepted
  rw [stream, stream, haccepted, hsender]
  simp

/-- A sample may be sent or not; nothing of it goes to the journal. -/
theorem trySend_sample {j : Journal} {cmd : WalCmd} (hcmd : cmd.append? = none) :
    (j.trySend cmd).2.sender = j.sender ∧ Moved j (j.trySend cmd).2 [] := by
  obtain ⟨hsender, hlog, haccepted⟩ := j.trySend_spec cmd
  refine ⟨hsender, ⟨by rw [hlog, List.append_nil], ?_⟩⟩
  rw [stream, stream, haccepted, hsender, List.filterMap_append]
  split <;> simp [hcmd]

/-- Flushing sends the first markers of the outbox and leaves the others. -/
theorem flush_spec {j : Journal} {queued : List Marker} (h : j.sender.outbox = queued) :
    SameBooks j.sender (j.flush queued).sender ∧ Moved j (j.flush queued) [] := by
  induction queued generalizing j with
  | nil => exact ⟨⟨rfl, rfl, rfl⟩, by simp [flush], by simp [flush]⟩
  | cons front rest ih =>
    rw [flush]
    split
    · rename_i j' hsend
      obtain ⟨hsender, hlog, haccepted⟩ := trySend_true hsend
      obtain ⟨hbooks, hmoved⟩ := @ih (j'.setOutbox rest) rfl
      have hsame : SameBooks j.sender (j'.setOutbox rest).sender := by
        rw [← hsender]
        exact ⟨rfl, rfl, rfl⟩
      have hstream : (j'.setOutbox rest).stream = j.stream := by
        have hchannel : (j'.setOutbox rest).channel.accepted = j.channel.accepted ++
            [.append (.marker front) .immediate] := haccepted
        have houtbox : (j'.setOutbox rest).sender.outbox = rest := rfl
        rw [stream, stream, hchannel, houtbox, h, List.filterMap_append]
        simp [WalCmd.append?]
      refine ⟨⟨hbooks.1.trans hsame.1, hbooks.2.1.trans hsame.2.1, hbooks.2.2.trans hsame.2.2⟩,
        ?_, ?_⟩
      · rw [hmoved.log]
        exact congrArg (· ++ []) hlog
      · rw [hmoved.stream, hstream]
    · rename_i j' hsend
      obtain ⟨hsender, hmoved⟩ := trySend_false hsend
      rw [hsender]
      exact ⟨⟨rfl, rfl, rfl⟩, hmoved⟩

theorem flushOutbox_spec (j : Journal) :
    SameBooks j.sender j.flushOutbox.sender ∧ Moved j j.flushOutbox [] := flush_spec rfl

/-- The evidence of a dropped record. -/
def evidence (j : Journal) (changes : Bool) (monoNs : ℕ) : Option Marker :=
  if changes && !j.sender.exclusionLossPending then some (lossMarker monoNs) else none

theorem dropRecord_spec (j : Journal) (record : WalRecord) (monoNs : ℕ) (changes : Bool) :
    Moved j (j.dropRecord record monoNs changes)
      [.dropped record monoNs (j.evidence changes monoNs)] ∧
    (j.dropRecord record monoNs changes).sender.gapStart =
      some (j.sender.gapStart.getD monoNs) ∧
    (j.dropRecord record monoNs changes).sender.lastExcluded = j.sender.lastExcluded ∧
    (j.dropRecord record monoNs changes).sender.exclusionLossPending =
      (j.sender.exclusionLossPending || changes) := by
  have hpending : (j.noteDrop monoNs).sender.exclusionLossPending =
      j.sender.exclusionLossPending := rfl
  rw [dropRecord, evidence]
  simp only [hpending]
  split
  · rename_i hloses
    simp only [Bool.and_eq_true, Bool.not_eq_eq_eq_not, Bool.not_true] at hloses
    obtain ⟨hbooks, hmoved⟩ := flushOutbox_spec
      (({ j.noteDrop monoNs with
          sender := { (j.noteDrop monoNs).sender with
            exclusionLossPending := true
            outbox := (j.noteDrop monoNs).sender.outbox ++ [lossMarker monoNs] } } : Journal).note
        (.dropped record monoNs (some (lossMarker monoNs))))
    refine ⟨⟨?_, ?_⟩, hbooks.1, hbooks.2.1, ?_⟩
    · rw [hmoved.log, List.append_nil]
      rfl
    · rw [hmoved.stream]
      simp [stream, note, noteDrop, SenderEvent.append?]
    · rw [hbooks.2.2, hloses.1, hloses.2]
      rfl
  · rename_i hkeeps
    refine ⟨⟨rfl, ?_⟩, rfl, rfl, ?_⟩
    · simp [stream, note, noteDrop, SenderEvent.append?]
    · change j.sender.exclusionLossPending = _
      cases changes <;> cases hloss : j.sender.exclusionLossPending <;> simp_all

/-- Closing the gap sends its marker, and the gap is closed, or finds no room. -/
theorem closeGap_true {j j' : Journal} {monoNs : ℕ} (hempty : j.sender.outbox = [])
    (h : j.closeGap monoNs = (true, j')) :
    j'.sender = { j.sender with gapStart := none } ∧
      Moved j j' (j.sender.gapStart.toList.map (.gap · monoNs)) := by
  rw [closeGap] at h
  split at h
  · rename_i hnone
    obtain rfl := (Prod.mk.inj h).2
    rw [hnone]
    refine ⟨?_, by simp, by simp⟩
    rw [← hnone]
  · rename_i start hsome
    split at h
    · rename_i j₁ hsend
      obtain ⟨hsender, hlog, haccepted⟩ := trySend_true hsend
      obtain rfl := (Prod.mk.inj h).2
      rw [hsome]
      refine ⟨by rw [← hsender]; rfl, ?_, ?_⟩
      · exact congrArg (· ++ _) hlog
      · have hstream : ({ j₁ with sender := { j₁.sender with gapStart := none } }.note
            (.gap start monoNs)).stream = (j₁.channel.accepted.filterMap WalCmd.append?) ++
              j₁.sender.outbox.map fun marker => (.marker marker, .immediate) := rfl
        rw [hstream, haccepted, hsender, stream, hempty, List.filterMap_append]
        simp [WalCmd.append?, SenderEvent.append?]
    · cases h

theorem closeGap_false {j j' : Journal} {monoNs : ℕ} (h : j.closeGap monoNs = (false, j')) :
    j'.sender = j.sender ∧ Moved j j' [] := by
  rw [closeGap] at h
  split at h
  · cases h
  · split at h
    · cases h
    · rename_i j₁ hsend
      obtain rfl := (Prod.mk.inj h).2
      exact trySend_false hsend

/-- How a call with a record ends. -/
inductive RecordEnds (j j' : Journal) (record : WalRecord) (sync : SyncPolicy) (monoNs : ℕ) : Prop
  /-- The gap is closed if one is open, and the record lands right behind its marker. -/
  | accepted
      (moved : Moved j j' (j.sender.gapStart.toList.map (.gap · monoNs) ++
        [.accepted record sync]))
      (gapStart : j'.sender.gapStart = none)
      (lastExcluded : j'.sender.lastExcluded =
        ((excludeFingerprint record).map (·.1)).or j.sender.lastExcluded)
      (pending : j'.sender.exclusionLossPending =
        (j.sender.exclusionLossPending && (excludeFingerprint record).isNone))
  /-- The record is dropped, behind the marker of the gap before it when that was sent. -/
  | dropped (closed : List ℕ)
      (moved : Moved j j' (closed.map (.gap · monoNs) ++ [.dropped record monoNs
        (j.evidence (changesExclusion j.sender.lastExcluded record) monoNs)]))
      (gapStart : (closed = [] ∧ j'.sender.gapStart = some (j.sender.gapStart.getD monoNs)) ∨
        (∃ start, j.sender.gapStart = some start ∧ closed = [start] ∧
          j'.sender.gapStart = some monoNs))
      (lastExcluded : j'.sender.lastExcluded = j.sender.lastExcluded)
      (pending : j'.sender.exclusionLossPending =
        (j.sender.exclusionLossPending || changesExclusion j.sender.lastExcluded record))

theorem evidence_congr {j j' : Journal} {changes : Bool} {monoNs : ℕ}
    (h : j'.sender.exclusionLossPending = j.sender.exclusionLossPending) :
    j'.evidence changes monoNs = j.evidence changes monoNs := by
  rw [evidence, evidence, h]

theorem landed_spec {j : Journal} {record : WalRecord} {sync : SyncPolicy} :
    (j.landed record sync).sender.gapStart = j.sender.gapStart ∧
    (j.landed record sync).sender.lastExcluded =
      ((excludeFingerprint record).map (·.1)).or j.sender.lastExcluded ∧
    (j.landed record sync).sender.exclusionLossPending =
      (j.sender.exclusionLossPending && (excludeFingerprint record).isNone) ∧
    (j.landed record sync).log = j.log ++ [.accepted record sync] ∧
    (j.landed record sync).stream = j.stream := by
  rw [landed]
  cases excludeFingerprint record with
  | none => simp [note, stream]
  | some fingerprint => simp [note, stream]

theorem record_ends (j : Journal) (record : WalRecord) (sync : SyncPolicy) (monoNs : ℕ) :
    RecordEnds j (j.record record sync monoNs) record sync monoNs := by
  obtain ⟨⟨hgap, hlast, hpending⟩, hflush⟩ := j.flushOutbox_spec
  rw [Journal.record]
  split
  · obtain ⟨hmoved, hstart, hexcluded, hloss⟩ := dropRecord_spec j.flushOutbox record monoNs
      (changesExclusion j.sender.lastExcluded record)
    rw [evidence_congr hpending] at hmoved
    refine .dropped [] (hflush.trans hmoved) (.inl ⟨rfl, ?_⟩) (hexcluded.trans hlast) ?_
    · rw [hstart, hgap]
    · rw [hloss, hpending]
  · rename_i hqueued
    have hempty : j.flushOutbox.sender.outbox = [] := by simpa using hqueued
    split
    · rename_i j₁ hclose
      obtain ⟨hsender, hmoved₁⟩ := closeGap_false hclose
      obtain ⟨hmoved, hstart, hexcluded, hloss⟩ := dropRecord_spec j₁ record monoNs
        (changesExclusion j.sender.lastExcluded record)
      rw [evidence_congr ((congrArg _ hsender).trans hpending)] at hmoved
      refine .dropped [] ((hflush.trans hmoved₁).trans hmoved) (.inl ⟨rfl, ?_⟩) ?_ ?_
      · rw [hstart, hsender, hgap]
      · rw [hexcluded, hsender, hlast]
      · rw [hloss, hsender, hpending]
    · rename_i j₁ hclose
      obtain ⟨hsender, hmoved₁⟩ := closeGap_true hempty hclose
      rw [hgap] at hmoved₁
      split
      · rename_i j₂ hsend
        obtain ⟨hsame, hlog, haccepted⟩ := trySend_true hsend
        obtain ⟨hstart, hexcluded, hloss, hlanded, hstream⟩ := @landed_spec j₂ record sync
        have hmoved₂ : Moved j₁ (j₂.landed record sync) [.accepted record sync] := by
          refine ⟨by rw [hlanded, hlog], ?_⟩
          have houtbox : j₁.sender.outbox = [] := by rw [hsender]; exact hempty
          rw [hstream, stream, stream, haccepted, hsame, houtbox, List.filterMap_append]
          simp [WalCmd.append?, SenderEvent.append?]
        refine .accepted ((hflush.trans hmoved₁).trans hmoved₂) ?_ ?_ ?_
        · rw [hstart, hsame, hsender]
        · rw [hexcluded, hsame, hsender, hlast]
        · rw [hloss, hsame, hsender, hpending]
      · rename_i j₂ hsend
        obtain ⟨hsame, hmoved₂⟩ := trySend_false hsend
        obtain ⟨hmoved, hstart, hexcluded, hloss⟩ := dropRecord_spec j₂ record monoNs
          (changesExclusion j.sender.lastExcluded record)
        have hloss₂ : j₂.sender.exclusionLossPending = j.sender.exclusionLossPending := by
          rw [hsame, hsender, hpending]
        rw [evidence_congr hloss₂] at hmoved
        have hall := ((hflush.trans hmoved₁).trans hmoved₂).trans hmoved
        simp only [List.nil_append, List.append_nil] at hall
        refine .dropped j.sender.gapStart.toList hall ?_ ?_ ?_
        · have hopened : (j₂.dropRecord record monoNs
              (changesExclusion j.sender.lastExcluded record)).sender.gapStart = some monoNs := by
            rw [hstart, hsame, hsender]
            rfl
          cases hopen : j.sender.gapStart with
          | none => exact .inl ⟨rfl, hopened⟩
          | some start => exact .inr ⟨start, rfl, rfl, hopened⟩
        · rw [hexcluded, hsame, hsender, hlast]
        · rw [hloss, hloss₂]

/-- A marker is placed, whether it is sent or queued. -/
theorem marker_spec (j : Journal) (marker : Marker) :
    SameBooks j.sender (j.marker marker).sender ∧
      Moved j (j.marker marker) [.placed marker] := by
  obtain ⟨hbooks, hflush⟩ := j.flushOutbox_spec
  have hqueue : ∀ j₁ : Journal, Moved j.flushOutbox j₁ [] → Moved j
      ((j₁.setOutbox (j₁.sender.outbox ++ [marker])).note (.placed marker)) [.placed marker] := by
    intro j₁ hmoved
    have hplaced : Moved j₁ ((j₁.setOutbox (j₁.sender.outbox ++ [marker])).note (.placed marker))
        [.placed marker] := by
      refine ⟨rfl, ?_⟩
      simp [stream, note, setOutbox, SenderEvent.append?]
    exact (hflush.trans hmoved).trans hplaced
  rw [Journal.marker]
  split
  · exact ⟨hbooks, hqueue _ ⟨by simp, by simp⟩⟩
  · rename_i hqueued
    have hempty : j.flushOutbox.sender.outbox = [] := by simpa using hqueued
    split
    · rename_i j₁ hsend
      obtain ⟨hsender, hlog, haccepted⟩ := trySend_true hsend
      have hsent : Moved j.flushOutbox (j₁.note (.placed marker)) [.placed marker] := by
        refine ⟨congrArg (· ++ _) hlog, ?_⟩
        have hstream : (j₁.note (.placed marker)).stream =
            j₁.channel.accepted.filterMap WalCmd.append? ++
              j₁.sender.outbox.map fun m => (.marker m, .immediate) := rfl
        rw [hstream, haccepted, hsender, stream, hempty, List.filterMap_append]
        simp [WalCmd.append?, SenderEvent.append?]
      refine ⟨?_, hflush.trans hsent⟩
      have hkept : (j₁.note (.placed marker)).sender = j.flushOutbox.sender := hsender
      rw [hkept]
      exact hbooks
    · rename_i j₁ hsend
      obtain ⟨hsender, hmoved⟩ := trySend_false hsend
      refine ⟨?_, hqueue j₁ hmoved⟩
      have hkept : j₁.sender = j.flushOutbox.sender := hsender
      change SameBooks j.sender { j₁.sender with outbox := _ }
      rw [hkept]
      exact hbooks

end Journal

end Stream

end DeadReckoning.Recording
