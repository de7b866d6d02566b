import Slonk.Ownership
import Slonk.Halting
import Slonk.StopExclusion
import Slonk.Exclusion
import Slonk.Recovery
import Slonk.Bounds
import Slonk.CommandOrder
import Slonk.ManualControl
import Slonk.Concurrency.Locks
import Slonk.Concurrency.Fallible
import Slonk.Concurrency.May
import Slonk.Spi
import Slonk.ChipSelect
import Slonk.Adc
import Slonk.Transfer
import Slonk.Wire
import Slonk.Protected
import Slonk.Monitoring
import Slonk.Concurrency.Handlers
import Slonk.Controller
import Slonk.Listeners
import Slonk.Nesting
import Slonk.Deadlock
import Slonk.Stalling
import Slonk.Snapshots
import Slonk.Shutdown
import Slonk.OpenPort
import Slonk.FirstMessage
import Slonk.Outliving
import Slonk.Validation
import Slonk.Hardware
import Slonk.Numeric.RollingAverage
import Slonk.Sampling
import Slonk.Alarms
import Slonk.SensorLogs
import Slonk.Transmissions
import Slonk.Identifiers
import Slonk.Concurrency.Within
import Slonk.Poisoning
import Slonk.Concurrency.Refinement
import Slonk.CriticalSections
import Slonk.Quiescence
import Slonk.StopDelivery
import Slonk.AlarmResponse
import Slonk.AuditTrail
import Slonk.CommandLog
import Slonk.Concurrency.Serial
import Slonk.SharedBus
import Slonk.Startup
import Slonk.Startable
import Slonk.Unfailing
import Slonk.Accountability
import Slonk.Concurrency.Worklist
import Slonk.Conservation
import Slonk.Heartbeat
import Slonk.DriverReports
