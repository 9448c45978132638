import HybridOs.SiteActionRuns
import HybridOs.SiteDebounce
import HybridOs.SiteSequenceTimeout
import HybridOs.SiteLdss
import HybridOs.SiteFaultGate
import HybridOs.CopsHeartbeatRuns
import HybridOs.ParquetCodec
import HybridOs.GcomTimer
import HybridOs.CloudSyncDeadlock
import HybridOs.CloudSyncKept
import HybridOs.CloudSyncRecovery
import HybridOs.GcomWorkItems
import HybridOs.GcomDebounce
import HybridOs.GcomPacked
import HybridOs.GcomGetAny
import HybridOs.GcomBitStrings
import HybridOs.CopsDoctor
import HybridOs.CopsElection
import HybridOs.GoMetricsCanonicalRuns
import HybridOs.SchedulerModesRuns
import HybridOs.SchedulerSync
import HybridOs.CopsDispatch
import HybridOs.SiteChargeControl
import HybridOs.SiteEssBalancing
import HybridOs.SchedulerActiveUpdate
import HybridOs.SchedulerScadaAppend
import HybridOs.SchedulerOccurrences
import HybridOs.FimsCodecRuns
import HybridOs.SiteEssLimits
import HybridOs.SiteStopAll
import HybridOs.SiteInputSources
import HybridOs.SiteFreqResp
import HybridOs.FimsCodecMetadata
import HybridOs.CloudSyncTar
import HybridOs.CloudSyncUntar
import HybridOs.SiteClosedLoop
import HybridOs.SiteSolar
import HybridOs.GoMetricsComparisons
import HybridOs.CaisoAds
import HybridOs.GoMetricsFilters
import HybridOs.FtdBitStrings
import HybridOs.InfluxBatches
import HybridOs.GoMetricsSubscribe
import HybridOs.DbiFieldLaws
import HybridOs.SiteReactiveDispatch
