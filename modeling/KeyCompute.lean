import KeyCompute.Admission.Wakeup
import KeyCompute.Billing.Deduction
import KeyCompute.Cache.Console
import KeyCompute.Database.Router
import KeyCompute.Gateway.Billed
import KeyCompute.Gateway.Finality
import KeyCompute.Gateway.OpenAiChunk
import KeyCompute.Gateway.ProxySelector
import KeyCompute.Memory.Interleaving
import KeyCompute.NodeGateway.Capability
import KeyCompute.NodeGateway.HealthRun
import KeyCompute.NodeGateway.Redecoding
import KeyCompute.NodeGateway.StreamRun
import KeyCompute.NodeGateway.TaskRun
import KeyCompute.Payment.Order
import KeyCompute.Pricing.Cost
import KeyCompute.Pricing.SnapshotRun
import KeyCompute.RateLimit.RedisAgreement
import KeyCompute.RateLimit.RedisRequests
import KeyCompute.Responses.ClaimRun
import KeyCompute.Responses.RecoveryScan
import KeyCompute.Responses.SettlementRun
import KeyCompute.Routing.CapacityBounds
import KeyCompute.Scoped.Run
import KeyCompute.Sse.JsonDecoder
import KeyCompute.Tips.Book
import KeyCompute.Wallet.ManualOperation
