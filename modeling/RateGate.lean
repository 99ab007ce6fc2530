import RateGate.Time.ClockBoard
import RateGate.Deployment.Text
import RateGate.Proofs.Crowd.Budget
import RateGate.Proofs.Crowd.Instant
import RateGate.Proofs.Crowd.Isolation
import RateGate.Proofs.Extractor
import RateGate.Proofs.Gate.First
import RateGate.Proofs.Gate.Verdict
import RateGate.Proofs.Identifier
import RateGate.Proofs.Meter.Decay
import RateGate.Proofs.Meter.Frame
import RateGate.Proofs.Meter.Justified
import RateGate.Proofs.Meter.Memory
import RateGate.Proofs.Meter.Range
import RateGate.Proofs.Meter.Register
import RateGate.Proofs.Meter.Reorder
import RateGate.Proofs.Meter.Retention
import RateGate.Proofs.Quota.Reading
import RateGate.Proofs.Quota.Reset
import RateGate.Proofs.Time.KeepsTime
