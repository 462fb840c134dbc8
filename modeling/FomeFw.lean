import FomeFw.Lib.Bilinear
import FomeFw.Lib.Bits
import FomeFw.Lib.Chain
import FomeFw.Lib.Circle
import FomeFw.Lib.Decimal
import FomeFw.Lib.FixedArray
import FomeFw.Lib.Machine
import FomeFw.Lib.NaturalAlignment
import FomeFw.Lib.Places
import FomeFw.Lib.Reservoir
import FomeFw.Lib.Ring
import FomeFw.Lib.SharedCells
import FomeFw.Lib.TimedQueue
import FomeFw.Lib.Turning
import FomeFw.Lib.Windows
import FomeFw.Containers.CyclicAggregates
import FomeFw.Containers.FifoBuffer
import FomeFw.Containers.FifoRefinement
import FomeFw.Containers.FlStack
import FomeFw.Containers.Mailbox
import FomeFw.Containers.MemoryHeap
import FomeFw.Flash.Burn
import FomeFw.Flash.FlashMain
import FomeFw.Flash.TwoCopies
import FomeFw.Can.FlowControl
import FomeFw.Can.FrameLoss
import FomeFw.Can.IsoTpCanDecoder
import FomeFw.Can.Obd2
import FomeFw.Can.ReceiveBounds
import FomeFw.Can.Receiver
import FomeFw.Can.RoundTrip
import FomeFw.Can.Segments
import FomeFw.Can.SerialCan
import FomeFw.Can.SupportedPids
import FomeFw.Can.Transfer
import FomeFw.Can.TransmitLoss
import FomeFw.Can.TroubleCodes
import FomeFw.Console.BigBuffer
import FomeFw.Console.BinaryLogging
import FomeFw.Console.BufferUsers
import FomeFw.Console.BufferedWriter
import FomeFw.Console.Dialogue
import FomeFw.Console.EngineChart
import FomeFw.Console.EngineState
import FomeFw.Console.Framing
import FomeFw.Console.HostPackets
import FomeFw.Console.LogReader
import FomeFw.Console.LoggingCentral
import FomeFw.Console.OneResponse
import FomeFw.Console.PageWrites
import FomeFw.Console.ReadImage
import FomeFw.Console.ScriptUpload
import FomeFw.Console.SrecParser
import FomeFw.Console.ToothBuffers
import FomeFw.Console.TsProcessOne
import FomeFw.Console.TunerStudio
import FomeFw.Console.XcpLoader
import FomeFw.Timer.Agenda
import FomeFw.Timer.Client
import FomeFw.Timer.EqualMoments
import FomeFw.Timer.EventQueue
import FomeFw.Timer.EventQueueProofs
import FomeFw.Timer.EventQueueRuns
import FomeFw.Timer.PoolConservation
import FomeFw.Timer.PwmGenerator
import FomeFw.Timer.PwmNesting
import FomeFw.Timer.PwmSwitchTimes
import FomeFw.Timer.ScheduleByAngle
import FomeFw.Timer.SingleTimerExecutor
import FomeFw.Timer.TriggerScheduler
import FomeFw.Timer.TriggerSchedulerProofs
import FomeFw.Timer.Wakeup
import FomeFw.Timer.WrapAround62
import FomeFw.Trigger.AddEvent
import FomeFw.Trigger.AngleArray
import FomeFw.Trigger.CamPosition
import FomeFw.Trigger.CountedCycles
import FomeFw.Trigger.DecodedAngle
import FomeFw.Trigger.DecodedIndex
import FomeFw.Trigger.DecoderSteps
import FomeFw.Trigger.EnginePhase
import FomeFw.Trigger.EvenWheel
import FomeFw.Trigger.EventAngles
import FomeFw.Trigger.GapHistory
import FomeFw.Trigger.NextTooth
import FomeFw.Trigger.PhaseAgreement
import FomeFw.Trigger.PhaseInForce
import FomeFw.Trigger.PhaseIndependence
import FomeFw.Trigger.PhaseSpaces
import FomeFw.Trigger.PhaseWindows
import FomeFw.Trigger.PrimaryTriggerDecoder
import FomeFw.Trigger.SimulatedWheel
import FomeFw.Trigger.SkippedToothWheel
import FomeFw.Trigger.SyncEdge
import FomeFw.Trigger.TriggerDecoder
import FomeFw.Trigger.TriggerSimulator
import FomeFw.Trigger.TriggerWaveform
import FomeFw.Trigger.VvtCamSignal
import FomeFw.Trigger.WheelRun
import FomeFw.Trigger.WheelTable
import FomeFw.Injection.AccelEnrichment
import FomeFw.Injection.AccelSteps
import FomeFw.Injection.AccelTable
import FomeFw.Injection.Balance
import FomeFw.Injection.FuelSchedule
import FomeFw.Injection.HighPressureFuelPump
import FomeFw.Injection.OverlappingPulses
import FomeFw.Injection.PumpEvents
import FomeFw.Injection.PumpRecord
import FomeFw.Injection.WallFuel
import FomeFw.Ignition.Cylinders
import FomeFw.Ignition.Dwell
import FomeFw.Ignition.SparkCalls
import FomeFw.Ignition.SparkLogic
import FomeFw.Ignition.TrailingSparks
import FomeFw.Rpm.InstantRpmCalculator
import FomeFw.Rpm.PreSynchTimes
import FomeFw.Rpm.RpmCalculator
import FomeFw.Rpm.ShaftSignals
import FomeFw.Hardware.CompressedBlockDevice
import FomeFw.Hardware.ExtiChannels
import FomeFw.Hardware.ExtiQueue
import FomeFw.Hardware.GpioChips
import FomeFw.Hardware.PinRepository
import FomeFw.Hardware.Stepper
import FomeFw.Sensors.AdcSubscription
import FomeFw.Sensors.Converters
import FomeFw.Sensors.HotReconfiguration
import FomeFw.Sensors.InitSensors
import FomeFw.Sensors.MapAveraging
import FomeFw.Sensors.OwnCalibration
import FomeFw.Sensors.SensorPlan
import FomeFw.Sensors.SensorRegistry
import FomeFw.Sensors.SensorRelease
import FomeFw.Sensors.SensorTypes
import FomeFw.Config.OutputLookup
import FomeFw.Config.StructLayout
import FomeFw.Config.CStructs
import FomeFw.Config.LayoutElements
import FomeFw.Config.MemoryMap
import FomeFw.Config.TsLayout
import FomeFw.Config.TsMembers
import FomeFw.Config.TsNames
import FomeFw.Config.ReaderState
import FomeFw.Config.TsOutput
import FomeFw.Config.ReaderLists
import FomeFw.Config.OneMap
import FomeFw.Config.TsOffsets
import FomeFw.Config.TwoIterators
import FomeFw.Config.SameSizes
import FomeFw.Config.EvenFiles
import FomeFw.Config.ParseState
import FomeFw.Config.TwoGenerators
import FomeFw.Config.FieldGroups
import FomeFw.Config.SameTypes
import FomeFw.Config.Alongside
import FomeFw.Config.OneLayout
import FomeFw.Config.EnumValues
import FomeFw.Config.HumanSorted
import FomeFw.Config.ScaleString
import FomeFw.Lua.CanCallbacks
import FomeFw.Lua.CanFilterTable
import FomeFw.Lua.LuaCanRx
import FomeFw.Lua.LuaHeap
import FomeFw.Lua.NumberLexing
import FomeFw.Util.CliRegistry
import FomeFw.Util.CommandLine
import FomeFw.Util.EfiLib
import FomeFw.Util.FindIndex
import FomeFw.Util.Itoa
import FomeFw.Util.Logging
import FomeFw.Engine.KeySwitch
import FomeFw.Engine.LambdaMonitor
import FomeFw.Engine.MalfunctionIndicator
