import Tgpio.Interference.Program
import Tgpio.Interference.Logic
import Tgpio.Interference.Worker
import Tgpio.Interference.Pool
import Tgpio.Interference.TornRead
import Tgpio.Interference.Looks
import Tgpio.Interference.Alone
import Tgpio.Interference.Seqlock
import Tgpio.ClockArithmetic
import Tgpio.Words.Calculation
import Tgpio.Scaling.Rounding
import Tgpio.Scaling.Line
import Tgpio.Buffers.Ring
import Tgpio.Buffers.Sampler
import Tgpio.Text.Fields
import Tgpio.Text.Numbers
import Tgpio.PhcMapping
import Tgpio.PhcRoundTrip
import Tgpio.PhcSpans
import Tgpio.CheckedClock
import Tgpio.PhcStages
import Tgpio.EdgeAlignment
import Tgpio.PhcQuantization
import Tgpio.Statistics.Tally
import Tgpio.InputStatistics
import Tgpio.TdcPairing
import Tgpio.StatisticsReset
import Tgpio.StallWatchdog
import Tgpio.PhaseNudge
import Tgpio.NudgeWindow
import Tgpio.NudgeFixedPoint
import Tgpio.DutyDrift
import Tgpio.PulseSchedule
import Tgpio.PulseTimes
import Tgpio.ClockDomain
import Tgpio.RealtimeRate
import Tgpio.ArtMaintenance
import Tgpio.RealtimeConversion
import Tgpio.RealtimeRoundTrip
import Tgpio.ArtCalibration
import Tgpio.ClockSteering
import Tgpio.ClockSteps
import Tgpio.ClockReading
import Tgpio.ClockOperations
import Tgpio.SteeredClock
import Tgpio.GuardedClock
import Tgpio.OutputBlock
import Tgpio.OutputHardware
import Tgpio.OutputWork
import Tgpio.OutputFrames
import Tgpio.GuardedRecords
import Tgpio.OutputRequests
import Tgpio.AutoPolarity
import Tgpio.RequestOutcomes
import Tgpio.RequestTimes
import Tgpio.RefineTick
import Tgpio.RealtimePlaces
import Tgpio.TickOutcomes
import Tgpio.PhaseSlots
import Tgpio.FollowedOutput
import Tgpio.SoftwareEdges
import Tgpio.SoftwareLead
import Tgpio.SoftwareWakes
import Tgpio.ModuleConfig
import Tgpio.ModuleLoad
import Tgpio.LoadFailure
import Tgpio.RateAcquisition
import Tgpio.OutputSystem
import Tgpio.OneshotPulse
import Tgpio.PulseOutcome
import Tgpio.Oneshots
import Tgpio.LevelTracking
import Tgpio.LevelParity
import Tgpio.ArmGrid
import Tgpio.OutputAlone
import Tgpio.DutyIntervals
import Tgpio.DutyVisits
import Tgpio.DrainedStop
import Tgpio.DutyStop
import Tgpio.HotRewrites
import Tgpio.ModeSequences
import Tgpio.Reconciler
import Tgpio.Teardown
import Tgpio.WakeUps
import Tgpio.HardwarePath
import Tgpio.Windows.Device
import Tgpio.Windows.Requests
import Tgpio.CompareReads
import Tgpio.Windows.Modes
import Tgpio.Windows.ModeRuns
import Tgpio.Windows.LevelMirror
import Tgpio.Windows.InvertTiming
import Tgpio.Windows.LevelRequests
import Tgpio.Windows.ArmAgreement
import Tgpio.InputPolling
import Tgpio.InputFrames
import Tgpio.InputDelivery
import Tgpio.InputReconcile
import Tgpio.InputTeardown
import Tgpio.StatusText
import Tgpio.StatusReader
import Tgpio.Dashboard
import Tgpio.ChannelRouting
import Tgpio.LoadedPins
