import DeadReckoning.Boot.StateFiles
import DeadReckoning.Lib.Bytes
import DeadReckoning.Wal.Frame
import Mathlib.Data.Finset.Basic
import Mathlib.Data.List.ModifyLast

/-! Retention: the segments of the log are grouped into sessions by the clock in their headers,
and whole old sessions are deleted until the directory fits its cap. -/
namespace DeadReckoning.Retention

open Bytes Wal Boot

section Grouping

/-- One segment file, as retention sees it; sizes and their sums stay far below the machine's
word. The stamp is missing when the header does not decode. -/
structure SegmentMeta where
  index : ℕ
  sizeBytes : ℕ
  createdMonoNs : Option UInt64
  deriving DecidableEq

structure Session where
  segments : List ℕ
  totalBytes : ℕ
  deletable : Bool
  deriving DecidableEq

namespace Session

def new : Session := ⟨[], 0, true⟩

def push (s : Session) (seg : SegmentMeta) : Session :=
  ⟨s.segments ++ [seg.index], s.totalBytes + seg.sizeBytes,
    s.deletable && seg.createdMonoNs.isSome⟩

end Session

def rebootMonoRegressionNs : ℕ := 1000000000

/-- The sessions so far, and the newest stamp that was readable. -/
structure Grouping where
  sessions : List Session
  lastReadableMono : Option UInt64

namespace Grouping

def boundary (g : Grouping) (seg : SegmentMeta) : Bool :=
  match seg.createdMonoNs with
  | none => g.sessions.isEmpty
  | some cur => match g.lastReadableMono with
    | none => g.sessions.isEmpty
    | some prev => rebootMonoRegressionNs ≤ prev.toNat - cur.toNat

/-- The segment joins the session under construction; the first segment opens one. -/
def fold (g : Grouping) (seg : SegmentMeta) : Grouping :=
  let sessions := if g.boundary seg then g.sessions ++ [.new] else g.sessions
  ⟨sessions.modifyLast fun s => s.push seg, seg.createdMonoNs.or g.lastReadableMono⟩

end Grouping

def groupIntoSessions (segments : List SegmentMeta) : List Session :=
  (segments.foldl Grouping.fold ⟨[], none⟩).sessions

def unreadableSegments (metas : List SegmentMeta) : List ℕ :=
  (metas.filter fun m => m.createdMonoNs.isNone).map fun m => m.index

end Grouping

section Plan

/-- The oldest session that must be kept, and what is pinned. -/
structure Pins where
  keepFrom : Option ℕ
  pinned : Option String
  deriving DecidableEq

structure Overage where
  overBy : ℕ
  keptBytes : ℕ
  cap : ℕ
  pinned : Option String
  deriving DecidableEq

structure PruningPlan where
  delete : List ℕ
  keptBytes : ℕ
  cap : ℕ
  overage : Option Overage
  deriving DecidableEq

/-- The sessions from here on are kept whatever they hold. -/
def keepFloor (sessions : List Session) (pins : Pins) : ℕ :=
  let newest := sessions.length - 1
  pins.keepFrom.elim newest fun k => min k newest

def protectedSegments (sessions : List Session) (pins : Pins) : Finset ℕ :=
  if sessions.isEmpty then ∅
  else
    ((sessions.drop (keepFloor sessions pins)).flatMap fun s => s.segments).toFinset ∪
      ((sessions.filter fun s => !s.deletable).flatMap fun s => s.segments).toFinset ∪
      (sessions.flatMap fun s => s.segments).max?.elim ∅ fun highest => {highest}

/-- The loop over the old sessions: what is still in use, and what is to be deleted. -/
def pruneLoop (cap : ℕ) : List Session → ℕ → List ℕ → ℕ × List ℕ
  | [], running, delete => (running, delete)
  | s :: rest, running, delete =>
      if running ≤ cap then (running, delete)
      else if !s.deletable then pruneLoop cap rest running delete
      else pruneLoop cap rest (running - s.totalBytes) (delete ++ s.segments)

def planPruning (sessions : List Session) (pins : Pins) (cap : ℕ) : PruningPlan :=
  let total := (sessions.map fun s => s.totalBytes).sum
  if sessions.isEmpty then ⟨[], 0, cap, none⟩
  else
    let (running, delete) := pruneLoop cap (sessions.take (keepFloor sessions pins)) total []
    ⟨delete, running, cap,
      if cap < running then some ⟨running - cap, running, cap, pins.pinned⟩ else none⟩

end Plan

section Directory

/-- The directory of the log: its segments in the order of their index, and the state files that
may carry a pin. -/
structure WalDir where
  segments : List (ℕ × Bytes)
  pending : StatePresence PendingRecovery
  frameInvalid : StatePresence Unit

def readHeaderMono (bytes : Bytes) : Option UInt64 :=
  if bytes.length < segmentHeaderLen then none
  else (SegmentHeader.decode (bytes.take segmentHeaderLen)).toOption.map fun h => h.createdMonoNs

def readSegmentMetas (dir : WalDir) : List SegmentMeta :=
  dir.segments.map fun (index, bytes) => ⟨index, bytes.length, readHeaderMono bytes⟩

variable (codec : Codec)

def sessionNamesFile (dir : WalDir) (session : Session) (file : String) : Bool :=
  session.segments.any fun index => match dir.segments.lookup index with
    | none => false
    | some bytes => (scan codec bytes).records.any fun r => match r.2 with
      | .context c => c.virtualSdcard.any fun v => v.filePath == file
      | _ => false

/-- The newest session that names the file. -/
def newestSessionNaming (dir : WalDir) (sessions : List Session) (file : String) : Option ℕ :=
  ((List.range sessions.length).reverse).find? fun ordinal =>
    sessions[ordinal]?.any fun s => sessionNamesFile codec dir s file

def keepAll (reason : String) : Pins := ⟨some 0, some reason⟩

def resolvePins (dir : WalDir) (sessions : List Session) : Pins :=
  match dir.pending, dir.frameInvalid with
  | .unreadable, _ =>
      keepAll "pending_recovery.json is present but unreadable (torn write); keeping all WAL"
  | _, .unreadable =>
      keepAll "frame_invalid.json is present but unreadable (torn write); keeping all WAL"
  | .absent, .present _ =>
      keepAll "frame-invalid interlock (no pending file to localize; keeping all WAL)"
  | .absent, .absent => ⟨none, none⟩
  | .present pending, frame =>
      let framePresent := match frame with
        | .present _ => true
        | _ => false
      match newestSessionNaming codec dir sessions pending.file with
      | some ordinal =>
          let note := if framePresent || pending.frameInvalid then
            " [Z frame UNKNOWN — fresh dry run required]" else ""
          ⟨some ordinal, some ("pending recovery for '" ++ pending.file ++ "'" ++ note)⟩
      | none => keepAll ("pending recovery for '" ++ pending.file ++
          "' (session not found; keeping all WAL)")

/-- Why a whole batch of deletions is refused. -/
inductive Refusal where
  | highestNumbered (index : ℕ)
  | protectedSegment (index : ℕ)
  deriving DecidableEq

/-- Unlinks the listed segments, unless one of them must stay. -/
def applyPruning (dir : WalDir) (delete : List ℕ) (guarded : Finset ℕ) (maxIndex : ℕ) :
    Except Refusal WalDir :=
  match delete.find? fun index => index = maxIndex || decide (index ∈ guarded) with
  | some index =>
      .error (if index = maxIndex then .highestNumbered index else .protectedSegment index)
  | none => .ok { dir with segments := dir.segments.filter fun (index, _) => index ∉ delete }

/-- One pass of retention over the directory. -/
def runPruning (dir : WalDir) (cap : ℕ) : PruningPlan × Except Refusal WalDir :=
  let metas := readSegmentMetas dir
  let sessions := groupIntoSessions metas
  let pins := resolvePins codec dir sessions
  let plan := planPruning sessions pins cap
  if plan.delete.isEmpty then (plan, .ok dir)
  else
    let guarded := protectedSegments sessions pins
    let maxIndex := ((metas.map fun m => m.index).max?).getD 0
    (plan, applyPruning dir plan.delete guarded maxIndex)

end Directory

end DeadReckoning.Retention
