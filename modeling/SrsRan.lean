import SrsRan.Mac.DlSchCodec
import SrsRan.Sched.DlPendingViews
import SrsRan.Mac.UlSchCodec
import SrsRan.Sched.TimingAdvance
import SrsRan.Exec.StrandRefusal
import SrsRan.Edgeric.DlSchedContext
import SrsRan.Sched.HarqTimeouts
import SrsRan.Timers.Protocol
import SrsRan.Adt.LockfreeTripleBuffer
import SrsRan.Asn1.PerPrimitives
import SrsRan.Adt.BatchedDispatchQueue
import SrsRan.Pdcp.CryptoToken
import SrsRan.Async.ProtocolTransactions
import SrsRan.F1u.DiscardNotification
import SrsRan.Sched.DrxController
import SrsRan.Sched.PdcchSlotAllocator
import SrsRan.Phy.LdpcRateDematcher
import SrsRan.Phy.DownlinkProcessor
import SrsRan.Phy.UplinkProcessorInvariant
import SrsRan.Ofh.UplaneDownlink
import SrsRan.Ofh.UplinkReceiver
import SrsRan.Phy.LdpcReassembly
import SrsRan.Phy.RxBufferPoolInvariant
import SrsRan.Rlc.RxAmDelivery
import SrsRan.Rlc.TxAmPolling
import SrsRan.Rlc.AmStatusTrim
import SrsRan.Edgeric.Weights
import SrsRan.Pdcp.RxCount
import SrsRan.Sched.InterSlicePrio
import SrsRan.Sched.RbgPartition
import SrsRan.Sched.SliceRbCounters
import SrsRan.Gtpu.TeidPool
import SrsRan.Support.TokenBucket
import SrsRan.Support.SlotArithmetic
import SrsRan.Ran.Riv
import SrsRan.Ran.PdcchCandidates
import SrsRan.Ofh.UplaneSections
import SrsRan.CuCp.UeManager
import SrsRan.Mac.RntiManager
import SrsRan.Psup.Packing
import SrsRan.Rlc.UmPdu
