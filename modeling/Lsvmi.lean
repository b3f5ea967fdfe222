import Lsvmi.ProcPid.Deltas
import Lsvmi.ProcPid.Files
import Lsvmi.ProcPid.Categorical
import Lsvmi.ProcPid.Cmdline
import Lsvmi.ProcPid.Injection
import Lsvmi.Procfs.InterruptsLines
import Lsvmi.InterruptsMetrics.Runs
import Lsvmi.Procfs.SoftirqsHistory
import Lsvmi.SoftirqsMetrics.Runs
import Lsvmi.Procfs.DiskstatsHistory
import Lsvmi.NetSnmp6Metrics.Deltas
import Lsvmi.Procfs.NetSnmpHistory
import Lsvmi.NetSnmpMetrics.Deltas
import Lsvmi.DiskstatsMetrics.MountinfoMetrics
import Lsvmi.Statfs.Runs
import Lsvmi.Procfs.PidTidListRuns
import Lsvmi.Procfs.PidStat
import Lsvmi.Procfs.PidStatusHistory
import Lsvmi.HttpPool.ResponseBodies
import Lsvmi.HttpPool.Deadline
import Lsvmi.HttpPool.Readers
import Lsvmi.HttpPool.Shutdown
import Lsvmi.HttpPool.Accounting
import Lsvmi.HttpPool.Rotation
import Lsvmi.Scheduler.Stats
import Lsvmi.Scheduler.Timer
import Lsvmi.Scheduler.Deadlines
import Lsvmi.Compressor.Delivery
import Lsvmi.Compressor.Safety
import Lsvmi.RateController.Accounting
import Lsvmi.InternalMetrics.Conservation
import Lsvmi.Qdisc.IfNames
import Lsvmi.Procfs.NetDevHistory
import Lsvmi.Procfs.StatUnknown
import Lsvmi.NetDevMetrics.Presence
import Lsvmi.FullCycles
import Lsvmi.MetricsCounts
import Lsvmi.ReadFileBufPool
import Lsvmi.CpuLists
import Lsvmi.InternalMetrics.Sections
