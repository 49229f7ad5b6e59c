import Sen66Accessory.Flags
import Sen66Accessory.Machine
import Sen66Accessory.Bus
import Sen66Accessory.Bus.Manners
import Sen66Accessory.BusThreads
import Sen66Accessory.BusThreads.Atomicity
import Sen66Accessory.BusThreads.Courtesy
import Sen66Accessory.GuardedCell
import Sen66Accessory.Deadband
import Sen66Accessory.BitPolynomial
import Sen66Accessory.BitPolynomial.Detection
import Sen66Accessory.Decimal
import Sen66Accessory.Binary32
import Sen66Accessory.Binary32.Arithmetic
import Sen66Accessory.Sen66.Crc
import Sen66Accessory.Sen66.CrcPolynomial
import Sen66Accessory.Sen66.Protocol
import Sen66Accessory.Sen66.Driver
import Sen66Accessory.Sen66.Encoding
import Sen66Accessory.Sen66.Canonical
import Sen66Accessory.Sen66.Serial
import Sen66Accessory.Sen66.ErrorDetection
import Sen66Accessory.Sen66.ResponseCode
import Sen66Accessory.Sen66.Exchange
import Sen66Accessory.Sen66.Linearizability
import Sen66Accessory.Sen66.Shell
import Sen66Accessory.MeasurementService.Policy
import Sen66Accessory.MeasurementService.Policy.Delta
import Sen66Accessory.MeasurementService.Policy.Step
import Sen66Accessory.MeasurementService.Policy.Calls
import Sen66Accessory.MeasurementService.Policy.Notify
import Sen66Accessory.MeasurementService.Policy.Backoff
import Sen66Accessory.MeasurementService.Service
import Sen66Accessory.MeasurementService.Tick
import Sen66Accessory.MeasurementService.TimedTicks
import Sen66Accessory.MeasurementService.Pending
import Sen66Accessory.MeasurementService.History
import Sen66Accessory.MeasurementService.Heartbeat
import Sen66Accessory.MeasurementService.Recovery
import Sen66Accessory.MeasurementService.Convergence
import Sen66Accessory.MeasurementService.NotifyBudget
import Sen66Accessory.MeasurementService.Settled
import Sen66Accessory.MeasurementService.Poller
import Sen66Accessory.MeasurementService.SnapshotStore
import Sen66Accessory.MeasurementService.SnapshotLaw
import Sen66Accessory.MeasurementService.Clock
import Sen66Accessory.MeasurementService.Schedule
import Sen66Accessory.AirQualityEndpoint.Policy
import Sen66Accessory.AirQualityEndpoint.Aggregation
import Sen66Accessory.AirQualityEndpoint.Stability
import Sen66Accessory.AirQualityEndpoint.Attribute
import Sen66Accessory.AirQualityEndpoint.Adapter
import Sen66Accessory.AirQualityEndpoint.SinglePrecision
import Sen66Accessory.Publication.System
import Sen66Accessory.Publication.Invariant
import Sen66Accessory.Publication.Delivery
import Sen66Accessory.Publication.Freshness
import Sen66Accessory.Publication.Drift
import Sen66Accessory.Publication.Confluence
import Sen66Accessory.Publication.ShownLevel
import Sen66Accessory.Publication.SinglePrecision
import Sen66Accessory.Publication.Fault
import Sen66Accessory.Publication.Faithful
import Sen66Accessory.Sen66.ShellText
import Sen66Accessory.Sen66.ShellCommand
import Sen66Accessory.Sen66.BusUse
import Sen66Accessory.MeasurementService.Operator
import Sen66Accessory.Publication.ShellAgreement
import Sen66Accessory.Publication.CrossCheck
