import DeadReckoning.Recording.Sender
import DeadReckoning.Wal.Frame
import DeadReckoning.Wal.Heartbeat

/-! The service that owns the files of the journal: what it appends, when it makes it durable, and
how it goes on to the next segment. The disk sees its calls one by one, so that the power may fail
between any two of them. No call fails here. -/
namespace DeadReckoning.Recording

open Wal

section Disk

/-- A segment on the disk: what was written to it, how much of that is durable, and whether its
name is. -/
structure SegmentFile where
  written : Bytes
  synced : ℕ
  named : Bool

abbrev Disk := ℕ → Option SegmentFile

/-- The calls that concern the segments and their directory. -/
inductive Syscall where
  | create (index : ℕ)
  | header (index : ℕ) (bytes : Bytes)
  | append (index : ℕ) (frame : Bytes)
  | fdatasync (index : ℕ)
  | fsyncDir

namespace Disk

/-- The segment changes, if it is there. -/
def modify (d : Disk) (index : ℕ) (f : SegmentFile → SegmentFile) : Disk :=
  Function.update d index ((d index).map f)

def call (d : Disk) : Syscall → Disk
  | .create index => Function.update d index (some ⟨[], 0, false⟩)
  | .header index bytes | .append index bytes =>
      d.modify index fun file => { file with written := file.written ++ bytes }
  | .fdatasync index => d.modify index fun file => { file with synced := file.written.length }
  | .fsyncDir => fun index => (d index).map fun file => { file with named := true }

def after (d : Disk) (calls : List Syscall) : Disk := calls.foldl call d

/-- The name and everything that was written are durable. -/
def Durable (d : Disk) (index : ℕ) : Prop :=
  ∃ file, d index = some file ∧ file.named = true ∧ file.synced = file.written.length

end Disk

end Disk

section Model

structure WalSvcCfg where
  batchInterval : ℕ
  heartbeatPeriod : ℕ
  rotateBytes : ℕ
  walHeartbeatQuietEvery : UInt64

def walHeartbeatActiveEvery : UInt64 := 1

/-- The service. The disk, the calls made so far and the records appended so far are nobody's state:
they tell what has happened. -/
structure Service where
  cfg : WalSvcCfg
  writer : WalWriter
  segIndex : ℕ
  hbSeq : UInt64
  hbData : Option HeartbeatData
  lastWalHbSeq : Option UInt64
  dirty : Bool
  batchDeadline : Option ℕ
  nextHeartbeat : ℕ
  powerFailingSeen : Bool
  heartbeatFile : HeartbeatFile
  calls : List Syscall
  appended : List WalRecord

/-- What the clocks show during one turn of the loop, and the bits of a number. -/
structure Clocks where
  appendAt : ℕ
  turnAt : ℕ
  tickAt : ℕ
  monoNs : UInt64
  wallNs : UInt64
  headerMonoNs : UInt64
  headerWallNs : UInt64
  bits : F64 → F64Bits

namespace Service

def call (s : Service) (c : Syscall) : Service := { s with calls := s.calls ++ [c] }

/-- What the disk holds, when it held `earlier` before the first call. -/
def disk (earlier : Disk) (s : Service) : Disk := earlier.after s.calls

def syncSegment (s : Service) : Service :=
  let s := if s.dirty then { s.call (.fdatasync s.segIndex) with dirty := false } else s
  { s with batchDeadline := none }

/-- Creates a segment and makes its header durable. -/
def createSegment (s : Service) (index : ℕ) (header : SegmentHeader) : Service :=
  ((s.call (.create index)).call (.header index header.encode)).call (.fdatasync index)

def rotate (clocks : Clocks) (s : Service) : Service :=
  let s := s.syncSegment
  let next := s.segIndex + 1
  let header := SegmentHeader.new clocks.headerWallNs clocks.headerMonoNs
  let s := (s.createSegment next header).call .fsyncDir
  { s with writer := .create header, segIndex := next }

/-- What the policy asks for once a record is written. -/
def settle (now : ℕ) (sync : SyncPolicy) (s : Service) : Service :=
  match sync with
  | .immediate => s.syncSegment
  | .batched =>
      if s.batchDeadline.isNone then { s with batchDeadline := some (now + s.cfg.batchInterval) }
      else s

/-- The writer has taken the record. -/
def wrote (s : Service) (record : WalRecord) (frame : Bytes) (writer : WalWriter) : Service :=
  { s.call (.append s.segIndex frame) with
    writer := writer
    dirty := true
    appended := s.appended ++ [record] }

/-- Appends a record; one that the writer refuses is skipped. -/
def append (codec : Codec) (clocks : Clocks) (now : ℕ) (s : Service) (record : WalRecord)
    (sync : SyncPolicy) : Service :=
  match s.writer.append codec record with
  | .error _ => s
  | .ok (_, writer) =>
      let s := (s.wrote record (writer.inner.drop s.writer.inner.length) writer).settle now sync
      if s.cfg.rotateBytes ≤ s.writer.offset then s.rotate clocks else s

/-- Writes the beat to its slot, if there is a sample. -/
def writeHeartbeatSlot (clocks : Clocks) (s : Service) : Option Heartbeat × Service :=
  match s.hbData with
  | none => (none, s)
  | some data =>
      let heartbeat : Heartbeat :=
        { sequence := s.hbSeq
          monoNs := clocks.monoNs
          wallNs := clocks.wallNs
          printTime := clocks.bits data.printTime
          estSampleMonoNs := .ofNat data.estSampleMonoNs
          estSamplePrintTime := clocks.bits data.estSamplePrintTime
          walOffset := .ofNat s.writer.offset }
      (some heartbeat,
        { s with
          heartbeatFile := s.heartbeatFile.write (slotForSequence heartbeat.sequence)
            (.encode heartbeat)
          hbSeq := s.hbSeq + 1 })

/-- The beat is due as a record of the log. -/
def recordDue (s : Service) (active : Bool) (sequence : UInt64) : Bool :=
  let divisor := if active then walHeartbeatActiveEvery else s.cfg.walHeartbeatQuietEvery
  s.lastWalHbSeq.all fun last => divisor ≤ sequence - last

def heartbeatTick (codec : Codec) (clocks : Clocks) (s : Service) : Service :=
  if s.powerFailingSeen then s
  else
    match s.writeHeartbeatSlot clocks with
    | (none, s) => s
    | (some heartbeat, s) =>
        if s.recordDue (s.hbData.any (·.active)) heartbeat.sequence then
          { s.append codec clocks clocks.tickAt (.heartbeat heartbeat) .batched with
            lastWalHbSeq := some heartbeat.sequence }
        else s

def isPowerFailing : WalRecord → Bool
  | .marker m => m.kind = .powerFailing
  | _ => false

/-- Handles a command; the loop itself handles the end. The counter of received lines goes to a
file of its own. -/
def handle (codec : Codec) (clocks : Clocks) (s : Service) : WalCmd → Service
  | .append record sync =>
      let s := s.append codec clocks clocks.appendAt record sync
      if isPowerFailing record then
        { (s.writeHeartbeatSlot clocks).2 with powerFailingSeen := true }
      else s
  | .heartbeat data => { s with hbData := data }
  | .receiveSeq _ _ | .shutdown => s

/-- One turn of the loop: a command or a timeout, then what has become due. -/
def turn (codec : Codec) (s : Service) (received : Option WalCmd) (clocks : Clocks) : Service :=
  let s := match received with
    | some cmd => s.handle codec clocks cmd
    | none => s
  let s := if s.batchDeadline.any fun deadline => deadline ≤ clocks.turnAt then s.syncSegment else s
  if s.nextHeartbeat ≤ clocks.turnAt then
    let s := s.heartbeatTick codec clocks
    let next := s.nextHeartbeat + s.cfg.heartbeatPeriod
    { s with
      nextHeartbeat :=
        if next < clocks.turnAt then clocks.turnAt + s.cfg.heartbeatPeriod else next }
  else s

/-- The loop, until it is told to end; then everything is made durable. -/
def run (codec : Codec) (s : Service) : List (Option WalCmd × Clocks) → Service
  | [] => s
  | (received, clocks) :: turns =>
      if received = some .shutdown then s.syncSegment
      else run codec (s.turn codec received clocks) turns

/-- The service with its first segment. -/
def init (cfg : WalSvcCfg) (index : ℕ) (heartbeatFile : HeartbeatFile) (now : ℕ)
    (clocks : Clocks) : Service :=
  let header := SegmentHeader.new clocks.headerWallNs clocks.headerMonoNs
  let s : Service :=
    { cfg := cfg
      writer := .create header
      segIndex := index
      hbSeq := resumeSequence heartbeatFile.bytes
      hbData := none
      lastWalHbSeq := none
      dirty := false
      batchDeadline := none
      nextHeartbeat := now + cfg.heartbeatPeriod
      powerFailingSeen := false
      heartbeatFile := heartbeatFile
      calls := []
      appended := [] }
  (s.createSegment index header).call .fsyncDir

end Service

end Model

end DeadReckoning.Recording
