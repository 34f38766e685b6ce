import PerfEventTests.Lib.Words
import PerfEventTests.Lib.Ring
import PerfEventTests.Lib.Runs
import PerfEventTests.Lib.Text
import PerfEventTests.Lib.Fields
import PerfEventTests.Lib.Lines
import PerfEventTests.Lib.Kept
import PerfEventTests.Lib.Draws
import PerfEventTests.Lib.Programs
import PerfEventTests.Lib.Searches
import PerfEventTests.Lib.Files
import PerfEventTests.Lib.Reading
import PerfEventTests.Lib.Expressions
import PerfEventTests.Lib.Scanning
import PerfEventTests.Lib.Shifts
import PerfEventTests.Lib.Masks
import PerfEventTests.Lib.Slots
import PerfEventTests.Lib.Tokens
import PerfEventTests.Lib.Packing
import PerfEventTests.Lib.Visits
import PerfEventTests.Lib.Lockstep
import PerfEventTests.Abi.Attr
import PerfEventTests.Abi.Record
import PerfEventTests.Fuzzer.PerfEventOpen
import PerfEventTests.Fuzzer.OpenLine
import PerfEventTests.Fuzzer.State
import PerfEventTests.Fuzzer.Tables
import PerfEventTests.Fuzzer.Mmap
import PerfEventTests.Fuzzer.Overflow
import PerfEventTests.Fuzzer.Open
import PerfEventTests.Fuzzer.Filter
import PerfEventTests.Fuzzer.Ioctl
import PerfEventTests.Fuzzer.Main
import PerfEventTests.Fuzzer.Lines
import PerfEventTests.Fuzzer.Steady
import PerfEventTests.Fuzzer.QuietOps
import PerfEventTests.Fuzzer.LinkedOps
import PerfEventTests.Fuzzer.Indices
import PerfEventTests.Fuzzer.LogFraming
import PerfEventTests.Fuzzer.Sweep
import PerfEventTests.Fuzzer.Deliveries
import PerfEventTests.Fuzzer.Books
import PerfEventTests.Fuzzer.BookedOps
import PerfEventTests.Fuzzer.Counters
import PerfEventTests.Fuzzer.Groups
import PerfEventTests.Fuzzer.GroupOps
import PerfEventTests.Fuzzer.GroupRuns
import PerfEventTests.Fuzzer.TracepointFilter
import PerfEventTests.Fuzzer.FilterGrammar
import PerfEventTests.Fuzzer.FilterRuns
import PerfEventTests.Fuzzer.OpenFiles
import PerfEventTests.Replay.ParseLog
import PerfEventTests.Replay.OpenRoundTrip
import PerfEventTests.Replay.AttrPrint
import PerfEventTests.Replay.PrintedValues
import PerfEventTests.Replay.Reproducer
import PerfEventTests.Replay.Machine
import PerfEventTests.Replay.Bounds
import PerfEventTests.Replay.Mappings
import PerfEventTests.Replay.Translation
import PerfEventTests.Replay.Forks
import PerfEventTests.Replay.FileAccesses
import PerfEventTests.Replay.Filtering
import PerfEventTests.Replay.CutLines
import PerfEventTests.Replay.Work
import PerfEventTests.Replay.LineWork
import PerfEventTests.Replay.LogLanguage
import PerfEventTests.Replay.FilterLog
import PerfEventTests.Replay.Recordings
import PerfEventTests.LogToCode.Program
import PerfEventTests.LogToCode.Printer
import PerfEventTests.LogToCode.Steps
import PerfEventTests.LogToCode.Opening
import PerfEventTests.LogToCode.Agreement
import PerfEventTests.LogToCode.Orderly
import PerfEventTests.LogToCode.Entries
import PerfEventTests.LogToCode.Beginnings
import PerfEventTests.ParseRecord.Reader
import PerfEventTests.ParseRecord.Advance
import PerfEventTests.ParseRecord.Loop
import PerfEventTests.ParseRecord.CopyOut
import PerfEventTests.ParseRecord.Parts
import PerfEventTests.ParseRecord.Call
import PerfEventTests.ParseRecord.Fields
import PerfEventTests.ParseRecord.Checked
import PerfEventTests.ParseRecord.Progress
import PerfEventTests.ParseRecord.Bounds
import PerfEventTests.ParseRecord.Quiet
import PerfEventTests.ParseRecord.Names
import PerfEventTests.ParseRecord.Decoding
import PerfEventTests.ParseRecord.Samples
import PerfEventTests.PeriodicStats.Reader
import PerfEventTests.PeriodicStats.Agreement
import PerfEventTests.PeriodicStats.Calls
import PerfEventTests.PerfData.Create
import PerfEventTests.PerfData.Placement
import PerfEventTests.PerfData.Format
import PerfEventTests.PerfData.Sections
import PerfEventTests.PerfData.Fitting
import PerfEventTests.PerfData.Flags
import PerfEventTests.PerfData.DumpData
import PerfEventTests.PerfData.Progress
import PerfEventTests.PerfData.ReadFormat
import PerfEventTests.PerfData.RawDumps
import PerfEventTests.PerfData.RecordBounds
import PerfEventTests.PerfData.Topology
import PerfEventTests.ActiveEvents.Machine
import PerfEventTests.ActiveEvents.Meaning
import PerfEventTests.Sysfs.Format
import PerfEventTests.Sysfs.Generic
import PerfEventTests.Rdpmc.ReadSelf
import PerfEventTests.Rdpmc.Times
import PerfEventTests.TraceEvents.Parser
import PerfEventTests.TraceEvents.Declarations
import PerfEventTests.TraceEvents.Table
import PerfEventTests.Versions.KernelVersion
