import DeadReckoning.Lib.Runs
import DeadReckoning.Lib.Trace
import DeadReckoning.Wal.Frame
import DeadReckoning.Wal.Heartbeat
import DeadReckoning.Recording.Sessions
import DeadReckoning.Recording.SenderHonesty
import DeadReckoning.Retention.Evidence
import DeadReckoning.Boot.PowerFailEdge
import DeadReckoning.Interlock.Reopening
import DeadReckoning.Recording.CleanShutdown
import DeadReckoning.Recording.Client
import DeadReckoning.Execution.Safety
import DeadReckoning.Execution.Cleanups
import DeadReckoning.Execution.Frame
import DeadReckoning.Control.Protocol
import DeadReckoning.Plugin.Honesty
import DeadReckoning.Calibration.Fingerprint
import DeadReckoning.Recovery.Names
import DeadReckoning.Recovery.Guard
import DeadReckoning.Gcode.Atomicity
import DeadReckoning.Gcode.Laws
import DeadReckoning.Reconstruct.Anchor
import DeadReckoning.Reconstruct.Partition
import DeadReckoning.Recording.Durability
import DeadReckoning.Reconstruct.Containment
import DeadReckoning.Reconstruct.EdgeNarrows
import DeadReckoning.Reconstruct.Interference
import DeadReckoning.Reconstruct.Cancellation
import DeadReckoning.Reconstruct.Whereabouts
import DeadReckoning.Reconstruct.ExtruderQueues
import DeadReckoning.Reconstruct.ResumeBoundary
import DeadReckoning.Klipper.FrameSplitter
import DeadReckoning.Klipper.SeqWidener
import DeadReckoning.Recovery.ResumeFile
import DeadReckoning.Gcode.Fixpoint
import DeadReckoning.Gcode.Profile
import DeadReckoning.Reconstruct.ExtensionHeights
import DeadReckoning.Reconstruct.Outline
import DeadReckoning.Attempt.Harmless
import DeadReckoning.Plugin.ProbeHistory
import DeadReckoning.Analyzer.Honest
import DeadReckoning.Analyzer.PreviewLaws
import DeadReckoning.Analyzer.Work
import DeadReckoning.Reconstruct.Coverage
import DeadReckoning.Gcode.Course
import DeadReckoning.Contact.DistanceTransform
import DeadReckoning.Contact.RasterLaws
import DeadReckoning.Contact.Estimates
import DeadReckoning.Contact.SelectionLaws
import DeadReckoning.Plugin.DaemonWorker
import DeadReckoning.Recovery.GateAccepts
import DeadReckoning.Wal.Corruption
import DeadReckoning.Recording.Sidecars
import DeadReckoning.Recording.CrashSurvival
import DeadReckoning.StateFiles.PowerFail
