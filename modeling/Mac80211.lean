import Mac80211.Bip
import Mac80211.MncAccounting
import Mac80211.TlRound
import Mac80211.RxReorderOrder
import Mac80211.RxReorderClash
import Mac80211.WpaDelivery
import Mac80211.TkipRx
import Mac80211.MeshPlinkCount
import Mac80211.MeshPlinkMatch
import Mac80211.MeshPlinkLlid
import Mac80211.MeshPlinkTimer
import Mac80211.PowerSaveCount
import Mac80211.PowerSaveBuffers
import Mac80211.AggTxOperational
import Mac80211.MeshRmc
import Mac80211.MeshCsaRelay
import Mac80211.FragmentRoundTrip
import Mac80211.QueuesOrder
import Mac80211.McastStaRun
import Mac80211.TxqsLenRun
import Mac80211.KeysXmit
import Mac80211.RocStalls
import Mac80211.RocOnce
import Mac80211.ChannelSwitchRefused
import Mac80211.IfaceRun
import Mac80211.ScanRun
import Mac80211.MeshPlinkAgree
import Mac80211.AggHandoverFirst
import Mac80211.MncDecodeEnds
import Mac80211.IbssMembership
import Mac80211.IbssElements
import Mac80211.TxTspecAccount
import Mac80211.OffChannelDiscipline
import Mac80211.MlmeUnchanged
import Mac80211.BeaconFilter
import Mac80211.MncEncodeAccess
import Mac80211.MncHeader
import Mac80211.MncPruning
import Mac80211.TlCounters
import Mac80211.TlArrangement
import Mac80211.TlRelay
import Mac80211.AesCmac
import Mac80211.WpaScheme
import Mac80211.TimElement
import Mac80211.CsaCounters
import Mac80211.MeshAirtime
import Mac80211.MeshHwmpElems
import Mac80211.MeshGates
import Mac80211.MeshPathtblGrow
import Mac80211.PowerSaveResponse
import Mac80211.ChanctxRun
import Mac80211.ParseElemsWalk
import Mac80211.Srates
import Mac80211.NoaWindows
import Mac80211.TdlsChannels
import Mac80211.MinstrelHtSafe
import Mac80211.Minstrel
import Mac80211.PreqIes
import Mac80211.MinstrelSample
import Mac80211.PermAddr
import Mac80211.BeaconDup
import Mac80211.StartAp
import Mac80211.TxRates
