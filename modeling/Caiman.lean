import Caiman.Lib.Bytes
import Caiman.Lib.Run
import Caiman.Lib.Ring
import Caiman.Lib.Triple
import Caiman.Lib.File
import Caiman.Lib.Json
import Caiman.Lib.Stream
import Caiman.Lib.Path
import Caiman.Lib.Str
import Caiman.Lib.Select
import Caiman.Lib.Spread
import Caiman.Lib.Stable
import Caiman.Lib.Recent
import Caiman.Lib.Overlay
import Caiman.Vmm.Kvm.Memory
import Caiman.Vmm.Kvm.Confinement
import Caiman.Vmm.Kvm.Loader
import Caiman.Vmm.Kvm.MemoryMap
import Caiman.Vmm.Virtio.Queue
import Caiman.Vmm.Virtio.Mmio
import Caiman.Vmm.Virtio.Blk
import Caiman.Vmm.Virtio.Net
import Caiman.Vmm.Virtio.Completion
import Caiman.Vmm.Virtio.Interrupts
import Caiman.Vmm.Virtio.QueueSize
import Caiman.Vmm.Virtio.Rings
import Caiman.Vmm.Virtio.Request
import Caiman.Vmm.Virtio.Wakeup
import Caiman.Vmm.Virtio.Disk
import Caiman.Vmm.Virtio.Transfer
import Caiman.Vmm.Virtio.Frame
import Caiman.Vmm.Virtio.Reset
import Caiman.Vmm.Virtio.Ready
import Caiman.Vmm.Device.Serial
import Caiman.Vmm.Device.Console
import Caiman.Vmm.Device.Input
import Caiman.Vmm.Device.Pci
import Caiman.Vmm.Kvm.Vcpu
import Caiman.Vmm.Kvm.Output
import Caiman.Vmm.Kvm.Windows
import Caiman.Vmm.Mac
import Caiman.Bridge.Qcow2
import Caiman.Bridge.Image
import Caiman.Bridge.Reader
import Caiman.Bridge.Convert
import Caiman.Bridge.ReadAt
import Caiman.Bridge.Session
import Caiman.Livemig.Proto
import Caiman.Livemig.Ctrl
import Caiman.Livemig.Destination
import Caiman.Livemig.Migration
import Caiman.Livemig.Abort
import Caiman.Livemig.Precopy
import Caiman.Livemig.Order
import Caiman.Microseg.Compiler
import Caiman.Microseg.Selectors
import Caiman.Microseg.Lookup
import Caiman.Microseg.Ports
import Caiman.Microseg.Loop
import Caiman.Microseg.Priority
import Caiman.Microseg.Stale
import Caiman.Microseg.Xdp
import Caiman.Microseg.Mediation
import Caiman.Api.State
import Caiman.Api.Lifecycle
import Caiman.Api.OneVmm
import Caiman.Api.Deletion
import Caiman.Api.Record
import Caiman.Api.Disks
import Caiman.Api.Paths
import Caiman.Api.Tap
import Caiman.Api.Mac
import Caiman.Cni.Ipam
import Caiman.Cni.Concurrency
import Caiman.Api.Addresses
import Caiman.Kernel.Net
import Caiman.Kernel.Table
import Caiman.Kernel.Xdp
import Caiman.Kernel.Refs
import Caiman.Drs.Types
import Caiman.Drs.Exact
import Caiman.Drs.StateFiles
import Caiman.Drs.Affinity
import Caiman.Drs.Balancer
import Caiman.Drs.Gain
import Caiman.Drs.Skewed
import Caiman.Drs.Headroom
import Caiman.Drs.Balance
import Caiman.Drs.Rules
import Caiman.Api.Backlog
import Caiman.Api.Migrate
import Caiman.Cni.Standalone
import Caiman.Drs.Scheduler
import Caiman.Bts.Snapshots
import Caiman.Bts.Take
import Caiman.Bts.Catalog
import Caiman.Bts.Immutable
import Caiman.Bts.Backup
import Caiman.Bts.Retention
import Caiman.Vmm.Virtio.Chain
import Caiman.Vmm.Virtio.Transmit
import Caiman.Vmm.Virtio.Receive
import Caiman.Vmm.Kvm.Placement
import Caiman.Ui.Mutations
import Caiman.Lib.Shell
import Caiman.Lib.Utf8
import Caiman.Bridge.Acquire
import Caiman.Bridge.Quote
import Caiman.Bridge.Accept
import Caiman.Lib.Agree
import Caiman.Bridge.Cache
import Caiman.Bridge.Wrap
import Caiman.Lib.Last
import Caiman.Vmm.Kvm.Store
import Caiman.Vmm.Virtio.Address
import Caiman.Livemig.Converge
import Caiman.Livemig.Pages
import Caiman.Vmm.Virtio.UsedLen
import Caiman.Lib.Join
import Caiman.Lib.Rounding
import Caiman.Vmm.Device.Uart
import Caiman.Vmm.Device.PciAccess
import Caiman.Microseg.Identity
import Caiman.Cni.Allocator
import Caiman.Drs.Allowed
import Caiman.Drs.Plan
import Caiman.Gpu.Vgpu
import Caiman.Api.Cmdline
import Caiman.Drs.Quantity
import Caiman.Lib.History
import Caiman.Ui.Bus
import Caiman.Ui.Dispatched
import Caiman.Vmm.Virtio.Journal
import Caiman.Bts.Templates
import Caiman.Bts.Clones
import Caiman.Lib.Permits
import Caiman.Drs.Daemon
import Caiman.Lib.Percpu
import Caiman.Kernel.Router
import Caiman.Microseg.Accounts
import Caiman.Lib.Keyed
import Caiman.Storage.Volumes
import Caiman.Api.Console
import Caiman.Ui.Cluster
import Caiman.Ui.Overview
import Caiman.Ui.ConsoleModal
import Caiman.Vmm.Kvm.Entry
import Caiman.Vmm.Cmdline
import Caiman.Api.Auth
