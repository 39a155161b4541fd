import EmbeddedSystem.Foundations.Runs
import EmbeddedSystem.Foundations.Sections
import EmbeddedSystem.Foundations.Outputs
import EmbeddedSystem.Foundations.SelectiveFifo
import EmbeddedSystem.Kernel.Memory
import EmbeddedSystem.Kernel.RcuList
import EmbeddedSystem.KuIpc.Driver
import EmbeddedSystem.KuIpc.Effects
import EmbeddedSystem.KuIpc.Delivery
import EmbeddedSystem.KuIpc.Capacity
import EmbeddedSystem.KuIpc.Library
import EmbeddedSystem.KuIpc.References
import EmbeddedSystem.KuIpc.Holders
import EmbeddedSystem.KuIpc.Blocking
import EmbeddedSystem.KuIpc.ExactlyOnce
import EmbeddedSystem.KuIpc.Terminators
import EmbeddedSystem.KuIpc.Receives
import EmbeddedSystem.KuIpc.RoundTrip
import EmbeddedSystem.Switch.Driver
import EmbeddedSystem.Switch.Broadcast
import EmbeddedSystem.Coffer.App
import EmbeddedSystem.Coffer.System
import EmbeddedSystem.Coffer.Pairing
import EmbeddedSystem.Challenge4.Driver
import EmbeddedSystem.Challenge4.Waiting
import EmbeddedSystem.Rculist.Driver
import EmbeddedSystem.Rculist.Invariant
import EmbeddedSystem.Rculist.Updates
import EmbeddedSystem.Rculist.Readers
import EmbeddedSystem.Rculist.Emptied
import EmbeddedSystem.Challenge4.WakeUp
import EmbeddedSystem.Challenge9.Driver
import EmbeddedSystem.Foundations.Register
import EmbeddedSystem.Challenge9.SafeRegister
import EmbeddedSystem.Switch.Debounce
import EmbeddedSystem.Switch.Handshake
import EmbeddedSystem.Switch.Presses
import EmbeddedSystem.Switch.Ownership
import EmbeddedSystem.StepMotor.Driver
import EmbeddedSystem.StepMotor.Rotor
import EmbeddedSystem.Coffer.Loop
import EmbeddedSystem.Coffer.Descriptors
import EmbeddedSystem.Coffer.Attempts
import EmbeddedSystem.Switch.Teardown
import EmbeddedSystem.Challenge4.ListMemory
import EmbeddedSystem.Challenge4.Undisturbed
import EmbeddedSystem.Challenge3.Driver
import EmbeddedSystem.Challenge3.Agreement
import EmbeddedSystem.SimpleBlock2.Driver
import EmbeddedSystem.SimpleBlock2.Tokens
import EmbeddedSystem.Foundations.Fuel
import EmbeddedSystem.Foundations.Ownership
import EmbeddedSystem.Kernel.Ledger
import EmbeddedSystem.Kernel.Ring
import EmbeddedSystem.Kernel.Messages
import EmbeddedSystem.Challenge3.Memory
import EmbeddedSystem.Challenge3.Lifetime
import EmbeddedSystem.KuIpc.Memory
import EmbeddedSystem.KuIpc.Lifetime
import EmbeddedSystem.Challenge9.Lifecycle
import EmbeddedSystem.Challenge9.SafeLife
import EmbeddedSystem.KuIpc.Failures
import EmbeddedSystem.KuIpc.Rereads
import EmbeddedSystem.KuIpc.Bounds
import EmbeddedSystem.Coffer.Keys
import EmbeddedSystem.Switch.Distance
import EmbeddedSystem.StepMotor.Drift
import EmbeddedSystem.StepMotor.Pins
import EmbeddedSystem.Speaker.Driver
import EmbeddedSystem.Challenge2.Calculator
import EmbeddedSystem.SimpleSensor.Driver
import EmbeddedSystem.Challenge10.Driver
import EmbeddedSystem.Challenge4.Strings
import EmbeddedSystem.SimpleBlock1.Driver
import EmbeddedSystem.SimpleBlock1.Takes
import EmbeddedSystem.SimpleBlock1.WaitQueue
import EmbeddedSystem.SimpleBlock1.Waits
import EmbeddedSystem.SimpleBlock1.Sleepers
import EmbeddedSystem.Foundations.Timer
import EmbeddedSystem.Challenge7.Driver
import EmbeddedSystem.Challenge8.Driver
import EmbeddedSystem.Kernel.Scan
import EmbeddedSystem.SimpleProc.Driver
import EmbeddedSystem.SimpleProc.Writes
import EmbeddedSystem.SimpleBlock2.Queue
import EmbeddedSystem.SimpleBlock2.Asleep
import EmbeddedSystem.Switch.Lifetime
import EmbeddedSystem.SensorProc.Shows
import EmbeddedSystem.Coffer.Programs
import EmbeddedSystem.SimpleWorkqueue.Once
import EmbeddedSystem.Challenge9.Iterations
import EmbeddedSystem.SimpleTasklet.Driver
import EmbeddedSystem.SimpleTasklet.Unload
import EmbeddedSystem.SimpleSpin.Driver
