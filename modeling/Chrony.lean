import Chrony.AddrFilt.Paths
import Chrony.AddrFilt.Refinement
import Chrony.AddrFilt.Tree
import Chrony.Addressing
import Chrony.ClientLog.Eviction
import Chrony.ClientLog.HashTable
import Chrony.ClientLog.RateBound
import Chrony.ClientLog.RateLimit
import Chrony.ClientLog.Records
import Chrony.ClientLog.Retrieval
import Chrony.ClientLog.Runs
import Chrony.ClientLog.Save
import Chrony.ClientLog.Search
import Chrony.ClientLog.TimestampMap
import Chrony.Conf.Reloads
import Chrony.Conf.SourceDirs
import Chrony.Hex
import Chrony.HwClock
import Chrony.Keys
import Chrony.LeapDb
import Chrony.Lib.Buckets
import Chrony.Lib.Bytes
import Chrony.Lib.Civil
import Chrony.Lib.CyclePlacement
import Chrony.Lib.FirstLeast
import Chrony.Lib.IntervalSweep
import Chrony.Lib.LeastSquares
import Chrony.Lib.LevelledRules
import Chrony.Lib.OpenAddressing
import Chrony.Lib.OrderStatistic
import Chrony.Lib.Pointwise
import Chrony.Lib.Program
import Chrony.Lib.Ramps
import Chrony.Lib.RingBuffer
import Chrony.Lib.Run
import Chrony.Lib.Scan
import Chrony.Lib.Segments
import Chrony.Lib.SortedMerge
import Chrony.Lib.Spacing
import Chrony.Lib.SweepBest
import Chrony.Lib.TokenBucket
import Chrony.Lib.Words
import Chrony.Lib.WrapOrder
import Chrony.Lines
import Chrony.Ntp.Buffer
import Chrony.Ntp.Ext
import Chrony.Ntp.Packet
import Chrony.Ntp.SymmetricAuth
import Chrony.NtpCore.Association
import Chrony.NtpCore.Bursts
import Chrony.NtpCore.Frame
import Chrony.NtpCore.Handlers
import Chrony.NtpCore.Instance
import Chrony.NtpCore.KodRate
import Chrony.NtpCore.Modes
import Chrony.NtpCore.Polling
import Chrony.NtpCore.Polls
import Chrony.NtpCore.Quiet
import Chrony.NtpCore.Requests
import Chrony.NtpCore.Response
import Chrony.NtpCore.Runs
import Chrony.NtpCore.StaleResponse
import Chrony.NtpCore.Timers
import Chrony.NtpCore.Transmit
import Chrony.NtpCore.TxUnknown
import Chrony.NtpIo.UdpData
import Chrony.NtpSources.Additions
import Chrony.NtpSources.HashTable
import Chrony.NtpSources.Invariant
import Chrony.NtpSources.Pools
import Chrony.NtpSources.Resolver
import Chrony.NtpSources.ResolverRuns
import Chrony.NtpSources.Runs
import Chrony.NtpSources.Table
import Chrony.Nts.Auth
import Chrony.Nts.AuthField
import Chrony.Nts.Client
import Chrony.Nts.ClientInvariant
import Chrony.Nts.ClientRuns
import Chrony.Nts.Cookies
import Chrony.Nts.Dump
import Chrony.Nts.DumpRuns
import Chrony.Nts.Framing
import Chrony.Nts.KeAgreement
import Chrony.Nts.KeAnswer
import Chrony.Nts.KeClient
import Chrony.Nts.KeHandlers
import Chrony.Nts.KeServer
import Chrony.Nts.KeSessionEvents
import Chrony.Nts.KeSessionRuns
import Chrony.Nts.KeSessions
import Chrony.Nts.KeyAtomic
import Chrony.Nts.KeyDump
import Chrony.Nts.Parsing
import Chrony.Nts.Server
import Chrony.Nts.ServerKeys
import Chrony.Nts.ServerResponse
import Chrony.Nts.Session
import Chrony.Nts.Siv
import Chrony.Quantiles
import Chrony.Quantiles.Runs
import Chrony.Reference.Leap
import Chrony.Reference.LeapRuns
import Chrony.Regress.Arrays
import Chrony.Regress.BestRegression
import Chrony.Regress.Median
import Chrony.Regress.Optimum
import Chrony.SampleFilt.Filter
import Chrony.SampleFilt.Runs
import Chrony.SampleFilt.Selection
import Chrony.Sched.Classes
import Chrony.Sched.Invariant
import Chrony.Sched.Owners
import Chrony.Sched.Queue
import Chrony.Signd
import Chrony.Smooth
import Chrony.SourceStats.BestSample
import Chrony.SourceStats.Limits
import Chrony.SourceStats.Register
import Chrony.SourceStats.Runs
import Chrony.SourceStats.Window
import Chrony.Sources.AuthSelect
import Chrony.Sources.BestInterval
import Chrony.Sources.Passes
import Chrony.Sources.Runs
import Chrony.Sources.Selection
import Chrony.Sources.Soundness
import Chrony.Sources.Status
import Chrony.Sources.Sweep
import Chrony.Sources.Table
import Chrony.Strings
import Chrony.SysGeneric
import Chrony.Timespec
import Chrony.NetworkFloat
import Chrony.Candm.Packet
import Chrony.Candm.Handlers
import Chrony.Candm.Cmdmon
import Chrony.Candm.Network
import Chrony.Candm.Clients
import Chrony.Candm.Session
import Chrony.Local
import Chrony.SourceStats.TimeScale
import Chrony.Lib.Exchange
import Chrony.NtpCore.Measurement
import Chrony.NtpCore.Exchanges
import Chrony.Lib.BlockStream
import Chrony.Md5
import Chrony.LocalFrequency
