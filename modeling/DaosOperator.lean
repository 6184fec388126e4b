import DaosOperator.Dmg.RankText
import DaosOperator.Dmg.Readers
import DaosOperator.Hostprep.LayoutCheck
import DaosOperator.Hostprep.SerialNumber
import DaosOperator.Plugin.Interleaving
import DaosOperator.Plugin.RankWait
import DaosOperator.Safety.Answers
import DaosOperator.Safety.ContainersApart
import DaosOperator.Safety.CreateProperties
import DaosOperator.Safety.DegradedPools
import DaosOperator.Safety.Deletion
import DaosOperator.Safety.DestroyRetry
import DaosOperator.Safety.EngineStarts
import DaosOperator.Safety.ExtendRanks
import DaosOperator.Safety.ExternalRanks
import DaosOperator.Safety.FormatHosts
import DaosOperator.Safety.FormatOnce
import DaosOperator.Safety.FormatRecord
import DaosOperator.Safety.FormattedField
import DaosOperator.Safety.Gates
import DaosOperator.Safety.Outcome
import DaosOperator.Safety.JobNames
import DaosOperator.Safety.PodImages
import DaosOperator.Safety.PoolNumbers
import DaosOperator.Safety.QueryOutput
import DaosOperator.Safety.RankCounters
import DaosOperator.Safety.RankNumbers
import DaosOperator.Safety.ReadyColumn
import DaosOperator.Safety.ReplicaChoice
import DaosOperator.Safety.SideBySide
import DaosOperator.Safety.StaleReads
import DaosOperator.Safety.StorableConfigs
import DaosOperator.Safety.StuckServers
import DaosOperator.Safety.Unreachable
import DaosOperator.Safety.WaitKept
