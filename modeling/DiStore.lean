import DiStore.Cluster.AccessOwnership
import DiStore.Cluster.AdmissionBudget
import DiStore.Cluster.BringUp
import DiStore.Cluster.ChainedPuts
import DiStore.Cluster.CompletionAccounting
import DiStore.Cluster.FlushRace
import DiStore.Cluster.GetBesidePuts
import DiStore.Cluster.HandoverDurable
import DiStore.Cluster.Handovers
import DiStore.Cluster.IPV4Addr
import DiStore.Cluster.InplaceSplit
import DiStore.Cluster.LocalMap
import DiStore.Cluster.MorphCapacity
import DiStore.Cluster.NodeChains
import DiStore.Cluster.PutRefinement
import DiStore.Cluster.PutReports
import DiStore.Cluster.RemoteUpdate
import DiStore.Cluster.RepeatedPut
import DiStore.Cluster.ScanCount
import DiStore.Cluster.ScanOrder
import DiStore.Cluster.SplitRace
import DiStore.Cluster.UpdateResults
import DiStore.Cluster.Waits
import DiStore.Cluster.WriteFootprints
import DiStore.CmdParser.Options
import DiStore.Common.DecimalText
import DiStore.DataLayer.NodeMap
import DiStore.DataLayer.ShortKeys
import DiStore.KV.DiStoreString
import DiStore.Library.LexScan
import DiStore.Library.WholeMatch
import DiStore.Memory.AllocatorRun
import DiStore.Memory.FreeCredit
import DiStore.Memory.PageSlots
import DiStore.Memory.PointerArithmetic
import DiStore.Memory.Refills
import DiStore.Memory.SegmentFallback
import DiStore.Memory.SegmentGrants
import DiStore.Misc.Sockets
import DiStore.SearchLayer.AsyncLinking
import DiStore.SearchLayer.Removal
import DiStore.SearchLayer.Towers
import DiStore.Workload.PaddedKeys
