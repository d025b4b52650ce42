import StellarCore.Lib.CeilSqrt
import StellarCore.Lib.ConstantProduct
import StellarCore.Lib.Except
import StellarCore.Lib.Lex
import StellarCore.Lib.SortedList
import StellarCore.Lib.Shrink
import StellarCore.Lib.Triple
import StellarCore.Util.Numeric
import StellarCore.Transactions.LiquidityPool
import StellarCore.Transactions.LiquidityPoolInvariant
import StellarCore.Transactions.LiquidityPoolSpec
import StellarCore.Transactions.LiquidityPoolRun
import StellarCore.Scp.Types
import StellarCore.Scp.LocalNode
import StellarCore.Scp.QuorumSetUtils
import StellarCore.Scp.Quorum
import StellarCore.Scp.State
import StellarCore.Scp.BallotProtocol
import StellarCore.Scp.NominationProtocol
import StellarCore.Scp.Slot
import StellarCore.Scp.BallotProgress
import StellarCore.Scp.NominationProgress
import StellarCore.Transactions.FeeRefund
import StellarCore.Transactions.FeeRefundSpec
import StellarCore.Herder.SurgePricing
import StellarCore.Herder.CombineCandidates
import StellarCore.Lib.ArgMax
import StellarCore.Herder.CombineCandidatesSpec
import StellarCore.Overlay.FlowControl
import StellarCore.Overlay.Connection
import StellarCore.Overlay.FlowControlSpec
import StellarCore.Overlay.ConnectionSpec
import StellarCore.Transactions.PoolExchange
import StellarCore.Transactions.OfferExchange
import StellarCore.Transactions.OfferExchangeSpec
import StellarCore.Lib.AlignDown
import StellarCore.Bucket.BucketListBase
import StellarCore.Bucket.BucketListSizes
import StellarCore.Bucket.BucketList
import StellarCore.Bucket.LiveBucketList
import StellarCore.Lib.Cycle
import StellarCore.Bucket.EvictionScan
import StellarCore.Herder.ApplyOrder
import StellarCore.Herder.ApplyOrderSpec
import StellarCore.Lib.LexCompare
import StellarCore.Scp.AttemptBump
import StellarCore.Scp.QuorumSetNormalForm
import StellarCore.Herder.HerderSCPDriver
import StellarCore.Catchup.CatchupRange
import StellarCore.Transactions.ClaimableBalance
import StellarCore.Bucket.BucketMergeMap
import StellarCore.Overlay.OutboundQueues
import StellarCore.Herder.QuorumIntersectionChecker
import StellarCore.Herder.SurgePricingQueue
import StellarCore.Herder.SurgePricingQueueSpec
import StellarCore.Herder.SurgePricingEviction
import StellarCore.Bucket.LedgerCmp
import StellarCore.Bucket.LedgerCmpSpec
import StellarCore.Lib.Components
import StellarCore.Util.TarjanSCC
import StellarCore.Util.TarjanSCCSpec
import StellarCore.Herder.QuorumIntersection
import StellarCore.Herder.QuorumIntersectionSpec
import StellarCore.Scp.SlotProgress
import StellarCore.Lib.LeastSum
import StellarCore.Scp.ClosestVBlocking
import StellarCore.Bucket.AddBatch
import StellarCore.Bucket.BucketListContents
import StellarCore.Lib.MergeJoin
import StellarCore.Bucket.BucketMerge
import StellarCore.Bucket.BucketMergeSpec
import StellarCore.Bucket.FreshBucket
