import WorkerPool.Main
import WorkerPool.Pool.Run
import WorkerPool.Scenario.Run
import WorkerPool.Proofs.Outcomes
import WorkerPool.Proofs.Farewells
import WorkerPool.Proofs.Overflow
import WorkerPool.Proofs.Panics
import WorkerPool.Proofs.Overtaking
import WorkerPool.Proofs.Load.Periods
import WorkerPool.Proofs.Load.OneThread
import WorkerPool.Proofs.Replies
import WorkerPool.Proofs.Load.Signal
import WorkerPool.Proofs.Retirement
import WorkerPool.Proofs.Tiers
import WorkerPool.Proofs.Phases
