import ValidatorForge.Lib.Numeral
import ValidatorForge.Lib.Lines
import ValidatorForge.Lib.Literal
import ValidatorForge.Lib.Hcl
import ValidatorForge.Lib.Yaml
import ValidatorForge.Lib.LTS
import ValidatorForge.Lib.Prog
import ValidatorForge.Lib.Unwind
import ValidatorForge.Lib.Relate
import ValidatorForge.Lib.Pool
import ValidatorForge.Lib.Permits
import ValidatorForge.Lib.Rely
import ValidatorForge.Lib.Cost
import ValidatorForge.Lib.Table
import ValidatorForge.Lib.ChangeLog
import ValidatorForge.Lib.Capped
import ValidatorForge.Lib.Json
import ValidatorForge.Lib.Document
import ValidatorForge.Types.Ids
import ValidatorForge.Types.Node
import ValidatorForge.Types.Health
import ValidatorForge.Types.Classify
import ValidatorForge.Types.Ops
import ValidatorForge.Types.Wire
import ValidatorForge.Resilience.Breaker
import ValidatorForge.Resilience.History
import ValidatorForge.Resilience.Probes
import ValidatorForge.Resilience.Callers
import ValidatorForge.Resilience.Retry
import ValidatorForge.Resilience.Backoff
import ValidatorForge.Resilience.Counter
import ValidatorForge.Resilience.RateLimit
import ValidatorForge.Resilience.Bulkhead
import ValidatorForge.Core.Saga
import ValidatorForge.Core.Plan
import ValidatorForge.Core.Ports
import ValidatorForge.Core.Agent
import ValidatorForge.Core.Engine
import ValidatorForge.Core.Deploy
import ValidatorForge.Core.Rollback
import ValidatorForge.Core.Record
import ValidatorForge.Core.Contract
import ValidatorForge.Core.Progress
import ValidatorForge.Core.Admission
import ValidatorForge.Core.Calm
import ValidatorForge.Core.Latency
import ValidatorForge.Core.Sound
import ValidatorForge.Core.Compensation
import ValidatorForge.Core.Hosts
import ValidatorForge.Core.Shield
import ValidatorForge.Core.Guard
import ValidatorForge.Core.Isolation
import ValidatorForge.Core.Crash
import ValidatorForge.Api.Types
import ValidatorForge.Api.Query
import ValidatorForge.Api.Mutation
import ValidatorForge.Infra.Repo
import ValidatorForge.Infra.Session
import ValidatorForge.Infra.Pg
import ValidatorForge.Infra.Equivalence
import ValidatorForge.Infra.Audit
import ValidatorForge.Infra.Replay
import ValidatorForge.Infra.Failover
import ValidatorForge.Infra.Concurrent
import ValidatorForge.Infra.Records
import ValidatorForge.Infra.Lifetimes
import ValidatorForge.Infra.Stream
import ValidatorForge.Infra.Sim
import ValidatorForge.Infra.Fleet
import ValidatorForge.Infra.Iac
import ValidatorForge.Infra.Payload
import ValidatorForge.Ai.Advisor
import ValidatorForge.Ai.Llm
import ValidatorForge.Api.Events
import ValidatorForge.Api.Service
import ValidatorForge.Node.Plan
