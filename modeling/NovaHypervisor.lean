import NovaHypervisor.General.BitField
import NovaHypervisor.General.Run
import NovaHypervisor.General.SetLog
import NovaHypervisor.RequestList
import NovaHypervisor.RequestBag
import NovaHypervisor.PoolManager
import NovaHypervisor.PoolLedger
import NovaHypervisor.PoolThreads
import NovaHypervisor.PoolCalls
import NovaHypervisor.PoolLeak
import NovaHypervisor.PoolContents
import NovaHypervisor.MtrrPrecedence
import NovaHypervisor.MtrrVariable
import NovaHypervisor.Vmcs
import NovaHypervisor.Ept
import NovaHypervisor.Translation
import NovaHypervisor.EptInvariant
import NovaHypervisor.HookSteps
import NovaHypervisor.HookRuns
import NovaHypervisor.HookOutcome
import NovaHypervisor.HookList
import NovaHypervisor.HookRoundTrip
import NovaHypervisor.ExitRuns
import NovaHypervisor.Rearm
import NovaHypervisor.Alias
import NovaHypervisor.General.Supplies
import NovaHypervisor.PoolSupply
import NovaHypervisor.QuietHook
import NovaHypervisor.DeviceControl
import NovaHypervisor.ProtectRequest
import NovaHypervisor.EptConstruction
import NovaHypervisor.LeafRights
import NovaHypervisor.LinearTranslations
import NovaHypervisor.HookMap
import NovaHypervisor.EventInjection
import NovaHypervisor.RegistersHandler
import NovaHypervisor.VmexitHandler
import NovaHypervisor.EntryFields
import NovaHypervisor.InterruptedEvent
import NovaHypervisor.OperandHalves
import NovaHypervisor.Xstate
import NovaHypervisor.AsmMachine
import NovaHypervisor.General.Monitor
import NovaHypervisor.VmxInitialization
import NovaHypervisor.VmxOperation
import NovaHypervisor.VmxResources
import NovaHypervisor.DriverEntry
import NovaHypervisor.FastHypercall
import NovaHypervisor.XsaveArea
import NovaHypervisor.RepeatedHook
import NovaHypervisor.SplitLargePage
import NovaHypervisor.General.BoundedTable
import NovaHypervisor.General.Tiling
import NovaHypervisor.MtrrFixed
import NovaHypervisor.CpuidTransparency
import NovaHypervisor.ForwardedHypercall
import NovaHypervisor.SegmentDescriptor
import NovaHypervisor.SegmentDecoding
import NovaHypervisor.ControlRegisters
import NovaHypervisor.ComLogger
import NovaHypervisor.FormatScan
import NovaHypervisor.FormatTruncation
import NovaHypervisor.AllocationBroadcast
import NovaHypervisor.PoolWaits
import NovaHypervisor.ClientAddress
import NovaHypervisor.WorkerStartup
import NovaHypervisor.EntryLookup
import NovaHypervisor.NumberText
import NovaHypervisor.General.Cache
import NovaHypervisor.GuestCpu
import NovaHypervisor.CachedTranslations
import NovaHypervisor.GuestMonitor
import NovaHypervisor.GuestProtection
import NovaHypervisor.General.Mutex
import NovaHypervisor.LockedQueue
import NovaHypervisor.LogPort
import NovaHypervisor.VmcsSetup
import NovaHypervisor.EntryControls
import NovaHypervisor.VmLaunch
import NovaHypervisor.SelfVmcall
import NovaHypervisor.BareProcessor
import NovaHypervisor.GuestInstructions
import NovaHypervisor.PoolConduct
import NovaHypervisor.ExitConduct
import NovaHypervisor.QuietExits
import NovaHypervisor.GuestSystem
import NovaHypervisor.SystemProtection
