import FsChecking.Config
import FsChecking.Lib.Chain
import FsChecking.Lib.Program
import FsChecking.Lib.Bitmap
import FsChecking.Lib.Marks
import FsChecking.Lib.Table
import FsChecking.Lib.CircularQueue
import FsChecking.Lib.Placement
import FsChecking.Lib.RefCount
import FsChecking.Lib.PrefixCode
import FsChecking.Lib.Playback
import FsChecking.Lib.Ring
import FsChecking.Lib.Circle
import FsChecking.Lib.FileTree
import FsChecking.Lib.FreeStack
import FsChecking.Lib.Cells
import FsChecking.Lib.Heap
import FsChecking.Lib.Selection
import FsChecking.Storage.Model
import FsChecking.Storage.Counting
import FsChecking.Storage.History
import FsChecking.Storage.Isolation
import FsChecking.F2fs.Blocks
import FsChecking.F2fs.FileMap
import FsChecking.F2fs.State
import FsChecking.F2fs.Pool
import FsChecking.F2fs.Segment
import FsChecking.F2fs.Invalidate
import FsChecking.F2fs.FreeQueue
import FsChecking.F2fs.Node
import FsChecking.F2fs.GcPool
import FsChecking.F2fs.Collect
import FsChecking.F2fs.Allocation
import FsChecking.F2fs.AllocationRuns
import FsChecking.F2fs.Inode
import FsChecking.F2fs.Checkpoint
import FsChecking.F2fs.NodeAllocator
import FsChecking.F2fs.Load
import FsChecking.F2fs.Flush
import FsChecking.F2fs.Recovery
import FsChecking.F2fs.Durable
import FsChecking.F2fs.Marks
import FsChecking.F2fs.Evolution
import FsChecking.F2fs.FsckMarks
import FsChecking.F2fs.CrashRuns
import FsChecking.F2fs.CallRuns
import FsChecking.F2fs.File
import FsChecking.F2fs.FileState
import FsChecking.F2fs.FileEffect
import FsChecking.F2fs.FileWalk
import FsChecking.F2fs.Unmap
import FsChecking.F2fs.Truncate
import FsChecking.F2fs.Directory
import FsChecking.F2fs.DentryBlocks
import FsChecking.F2fs.Simulator
import FsChecking.F2fs.WriteLimit
import FsChecking.F2fs.ByteRange
import FsChecking.F2fs.Fsck
import FsChecking.F2fs.Consistency
import FsChecking.F2fs.LogHeads
import FsChecking.F2fs.Walk
import FsChecking.F2fs.FsckBounds
import FsChecking.F2fs.FsckSound
import FsChecking.F2fs.FsckPath
import FsChecking.PerfSim.SegmentManager
import FsChecking.PerfSim.FreeSegments
import FsChecking.PerfSim.NodeTable
import FsChecking.PerfSim.Accounting
import FsChecking.PerfSim.GcPool
import FsChecking.PerfSim.GcPoolQuick
import FsChecking.PerfSim.VictimPools
import FsChecking.PerfSim.Ssd
import FsChecking.PerfSim.SsdMapping
import FsChecking.PerfSim.SsdBijection
import FsChecking.RefFs.Model
import FsChecking.RefFs.Encode
import FsChecking.RefFs.Slots
import FsChecking.RefFs.Tree
import FsChecking.RefFs.Represented
import FsChecking.RefFs.Calls
import FsChecking.RefFs.Entries
import FsChecking.RefFs.Runs
import FsChecking.RefFs.Canonical
import FsChecking.RefFs.Isomorphism
import FsChecking.RefFs.OpHistory
import FsChecking.RefFs.StateHeap
import FsChecking.RefFs.Rename
import FsChecking.RefFs.Rooted
import FsChecking.Tester.PowerLoss
import FsChecking.Tester.GenerateOps
import FsChecking.Device.CrashDisk
import FsChecking.Device.CrashRings
import FsChecking.Device.CrashHistory
import FsChecking.Device.CrashBackLog
import FsChecking.Device.CrashRuns
import FsChecking.Device.CrashArchive
import FsChecking.Device.Journal
import FsChecking.Device.JournalReplay
import FsChecking.Tester.StateManager
import FsChecking.Tester.References
import FsChecking.Tester.Explorer
import FsChecking.Tester.WorkItems
import FsChecking.Tester.Lifetime
import FsChecking.Tester.Threads
import FsChecking.Tester.Agreement
import FsChecking.FullTester.Reference
import FsChecking.FullTester.SlotList
import FsChecking.FsTester.Stamps
import FsChecking.FsTester.TraceNames
import FsChecking.FsTester.TraceLoad
import FsChecking.FsTester.TraceText
import FsChecking.FsTester.TracePrepare
import FsChecking.Tester.PowerSweep
