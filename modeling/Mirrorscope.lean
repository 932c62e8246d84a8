import Mirrorscope.Lib.LittleEndian
import Mirrorscope.Lib.ByteIO
import Mirrorscope.Lib.Effect
import Mirrorscope.Trace.Format
import Mirrorscope.Trace.Writer
import Mirrorscope.Trace.Reader
import Mirrorscope.Trace.Codec
import Mirrorscope.Trace.Framing
import Mirrorscope.Trace.RoundTrip
import Mirrorscope.Trace.Grammar
import Mirrorscope.Trace.Truncation
import Mirrorscope.Lib.Run
import Mirrorscope.Capture.Payload
import Mirrorscope.Lib.KeyMap
import Mirrorscope.Replay.Schedule
import Mirrorscope.Replay.State
import Mirrorscope.Replay.Tracee
import Mirrorscope.Replay.Checkpoint
import Mirrorscope.Replay.Mt
import Mirrorscope.Replay.Session
import Mirrorscope.Lib.Hoare
import Mirrorscope.Replay.Frame
import Mirrorscope.Replay.Divergence
import Mirrorscope.Replay.Finality
import Mirrorscope.Lib.Sim
import Mirrorscope.Lib.UpTo
import Mirrorscope.Linux.Machine
import Mirrorscope.Replay.Snapshot
import Mirrorscope.Replay.Twin
import Mirrorscope.Replay.Follow
import Mirrorscope.Replay.Straight
import Mirrorscope.Replay.Restart
import Mirrorscope.Replay.Travel
import Mirrorscope.Replay.History
import Mirrorscope.Replay.Rewind
import Mirrorscope.Replay.CheckpointList
import Mirrorscope.Replay.Matching
import Mirrorscope.Linux.Journal
import Mirrorscope.Replay.Journaled
import Mirrorscope.Replay.Directed
import Mirrorscope.Lib.Hosted
import Mirrorscope.Lib.ByteMemory
import Mirrorscope.Lib.Each
import Mirrorscope.Capture.Syscall
import Mirrorscope.Capture.Sched
import Mirrorscope.Capture.Turns
import Mirrorscope.Capture.Queue
import Mirrorscope.Capture.Vfork
import Mirrorscope.Capture.Lifetimes
import Mirrorscope.Capture.Tags
import Mirrorscope.Linux.Monitored
import Mirrorscope.Replay.Attribution
import Mirrorscope.Replay.Arming
import Mirrorscope.Capture.Readback
import Mirrorscope.Trace.Reserved
import Mirrorscope.Replay.Injection
import Mirrorscope.Capture.Kernel
import Mirrorscope.Replay.Fidelity
import Mirrorscope.Replay.Routing
import Mirrorscope.Dap.Conversation
import Mirrorscope.Decoder.Queries
import Mirrorscope.Decoder.AsyncView
import Mirrorscope.Replay.Landing
import Mirrorscope.Dap.ReplayBackend
import Mirrorscope.Dap.Timeline
import Mirrorscope.Dap.Stepping
import Mirrorscope.Dap.Debugging
import Mirrorscope.Replay.Custody
import Mirrorscope.Replay.Teardown
import Mirrorscope.Replay.Film
import Mirrorscope.Replay.Scan
import Mirrorscope.Replay.Recall
import Mirrorscope.Lib.Forest
import Mirrorscope.Decoder.Flatten
import Mirrorscope.Decoder.TaskWalk
import Mirrorscope.Decoder.AwaitChain
import Mirrorscope.Decoder.GoWalk
import Mirrorscope.Decoder.OwnedTasks
import Mirrorscope.Decoder.LiveTasks
import Mirrorscope.Decoder.Finished
import Mirrorscope.Decoder.Dwarf
import Mirrorscope.Decoder.Branches
import Mirrorscope.Capture.Solo
import Mirrorscope.Replay.Agreement
import Mirrorscope.Replay.Crew
import Mirrorscope.Replay.FollowMt
import Mirrorscope.Replay.TimeTravel
import Mirrorscope.Capture.Canonical
import Mirrorscope.Capture.Remote
import Mirrorscope.Dap.Transport
import Mirrorscope.Decoder.ElfGeometry
import Mirrorscope.Decoder.GoTree
import Mirrorscope.Decoder.PtraceView
import Mirrorscope.Ebpf.Collect
import Mirrorscope.Lib.FirstSeen
import Mirrorscope.RemoteReads
import Mirrorscope.Replay.TidTable
import Mirrorscope.Replay.Untouched
import Mirrorscope.Unwind.Elf
import Mirrorscope.Unwind.Maps
import Mirrorscope.Unwind.Symbolize
import Mirrorscope.Trace.Delivery
import Mirrorscope.Decoder.PollNames
import Mirrorscope.Decoder.VersionScan
import Mirrorscope.Decoder.ExecutableBase
import Mirrorscope.Linux.DebugHardware
import Mirrorscope.Replay.Hardware
import Mirrorscope.Replay.CutShort
import Mirrorscope.Replay.Recording
import Mirrorscope.Decoder.Extract
import Mirrorscope.Decoder.Extraction
import Mirrorscope.Lib.Tracking
import Mirrorscope.Dap.Wire
import Mirrorscope.Ebpf.Observed
import Mirrorscope.Unwind.Remote
import Mirrorscope.Unwind.Process
import Mirrorscope.Decoder.Native
import Mirrorscope.Decoder.LiveView
import Mirrorscope.Dap.Inspect
import Mirrorscope.Dap.Display
import Mirrorscope.Dap.Shown
import Mirrorscope.Decoder.GoLayout
import Mirrorscope.Decoder.GoBinary
import Mirrorscope.Decoder.TokioBinary
import Mirrorscope.Decoder.TokioProcess
