import DispService.Lib.Run
import DispService.Exclusive.Ownership
import DispService.Lib.Heap
import DispService.Lib.LinkedForest
import DispService.StatesStore.SavedStateStore
import DispService.StatesStore.Marked
import DispService.StatesStore.Traversal
import DispService.StatesStore.Consistency
import DispService.StatesStore.Deletion
import DispService.StatesStore.StoreRuns
import DispService.Lib.Dom
import DispService.StatesStore.Xml
import DispService.StatesStore.XmlRoundTrip
import DispService.Lib.Nested
import DispService.SnapshotStore.LockRuns
import DispService.Directory.Catalogue
import DispService.Directory.Rollback
import DispService.Directory.Admission
import DispService.Lib.Balance
import DispService.Vm.StateMachine
import DispService.Lib.Table
import DispService.Registry.Tables
import DispService.Registry.Soundness
import DispService.Registry.Interleaving
import DispService.Registry.Declaration
import DispService.Libvirt.Entry
import DispService.Libvirt.EntryRuns
import DispService.Lib.FileSystem
import DispService.Restore.Assembly
import DispService.Restore.Moves
import DispService.Restore.Kept
import DispService.Restore.Replaced
import DispService.Instrument.Batch
import DispService.Restore.Closed
import DispService.Restore.Online
import DispService.Restore.Atomic
import DispService.Libvirt.Filter
import DispService.Restore.Parts
import DispService.Restore.Offline
import DispService.Restore.Temporary
import DispService.Restore.Handed
import DispService.Lib.Listing
import DispService.Move.Commands
import DispService.Move.Copied
import DispService.Move.Kept
import DispService.Move.Imported
import DispService.Move.Moved
import DispService.Backup.Removal
import DispService.Backup.Stopped
import DispService.Backup.Tail
import DispService.Backup.Chains
import DispService.Backup.Halfway
import DispService.Backup.Deleted
import DispService.Backup.Exact
import DispService.Backup.Requested
import DispService.Template.Storage
import DispService.Template.Atomic
import DispService.Template.Commit
import DispService.Lib.Buffer
import DispService.Pump.Held
import DispService.Pump.Flow
import DispService.Pump.Streamed
import DispService.Pump.Conveyed
import DispService.VmConfig.Mixed
import DispService.VmConfig.Saved
import DispService.VmConfig.Restored
import DispService.Vnc.Driver
import DispService.Vnc.Evicted
import DispService.Vnc.Promised
import DispService.Vnc.Needed
import DispService.Vnc.Installed
import DispService.Lib.Script
import DispService.PrivateNetwork.Commands
import DispService.PrivateNetwork.Configured
import DispService.PrivateNetwork.Agreed
import DispService.PrivateNetwork.Managed
import DispService.PrivateNetwork.Replaced
import DispService.Repair.Devices
import DispService.Repair.Repairer
import DispService.Repair.Assigned
import DispService.Repair.Merged
import DispService.Repair.Clear
import DispService.Repair.Classes
import DispService.Backup.Guarded
import DispService.Backup.Covered
import DispService.Edit.Dispatcher
import DispService.Edit.Marks
import DispService.Edit.Shots
import DispService.Lib.Bracket
import DispService.Migrate.Restored
import DispService.Migrate.Undone
import DispService.Lib.FirstMatch
import DispService.Lib.Pattern
import DispService.Nwfilter.Address
import DispService.Nwfilter.Packet
import DispService.Nwfilter.Meaning
import DispService.Nwfilter.Translation
import DispService.Nwfilter.Faithful
import DispService.Lib.Lines
import DispService.Shaping.Text
import DispService.Shaping.Config
import DispService.Shaping.Printed
import DispService.Shaping.Updated
import DispService.Shaping.Merged
import DispService.Shaping.RoundTrip
import DispService.Lib.Links
import DispService.StatesStore.Removal
import DispService.StatesStore.Loading
import DispService.StatesStore.Operations
import DispService.StatesStore.Extension
import DispService.Lib.Arranged
import DispService.SnapshotStore.Viewed
import DispService.SnapshotStore.Shown
import DispService.Directory.AllOrNothing
import DispService.Crash.Reactor
import DispService.Repair.Redirected
import DispService.Vnc.Ports
import DispService.BackupDevice.Service
import DispService.BackupDevice.Schedule
import DispService.BackupDevice.Visited
import DispService.BackupTree.Task
import DispService.BackupTree.Filtered
import DispService.BackupTree.Independent
import DispService.BackupTree.Placed
import DispService.Lib.FreeName
import DispService.Product.Distinct
import DispService.Product.Bitmaps
import DispService.Lib.Prefix
import DispService.VirtualNetwork.HostOnly
import DispService.Lib.Objects
import DispService.VirtualNetwork.Defaults
import DispService.VirtualNetwork.Filled
import DispService.Lib.Tiling
import DispService.Transponster.BackingChain
import DispService.Transponster.Bandwidth
import DispService.Transponster.CpuFeatures
import DispService.Transponster.Hardware
import DispService.Transponster.Numa
import DispService.Transponster.CpuTune
import DispService.Transponster.TuneSafe
import DispService.Transponster.TuneBack
import DispService.Transponster.Memory
import DispService.Backup.Incremental
import DispService.Backup.Justified
import DispService.Backup.Creating
import DispService.Backup.Created
import DispService.Backup.Undisturbed
import DispService.Transponster.Attachment
import DispService.Transponster.Addresses
import DispService.Lib.Partitioned
import DispService.Transponster.BootOrder
import DispService.Edit.DevicePath
import DispService.Edit.Hotplug
import DispService.Transponster.CommandLine
import DispService.Transponster.NetFilter
import DispService.Edit.Convert
import DispService.Transponster.HostAddress
import DispService.Transponster.HostOnlyNetwork
import DispService.Transponster.Addressing
import DispService.FileCopy.Peer
import DispService.Lib.Glob
import DispService.Wildcards.Match
import DispService.Lib.Records
import DispService.PrivateNetwork.Generated
import DispService.UuidMap.Map
import DispService.Lib.Reconcile
import DispService.Statistics.Guard
import DispService.Lib.Holders
import DispService.Routing.Reconfigure
import DispService.Statistics.Reconciled
import DispService.Routing.Minimal
import DispService.Exclusive.Sole
import DispService.Edit.Service
import DispService.Edit.Clean
import DispService.Patches.Logic
import DispService.Patches.Kept
import DispService.Registry.Breeding
import DispService.Registry.Reconciled
import DispService.FileCopy.Source
import DispService.FileCopy.Delivered
import DispService.Exec.Output
