import WlanpiCore.Streaming.FramerRoundTrip
import WlanpiCore.Config.Recovery
import WlanpiCore.Config.Delete
import WlanpiCore.Config.Activation
import WlanpiCore.Config.Edit
import WlanpiCore.Config.Serialise
import WlanpiCore.Streaming.Invariant
import WlanpiCore.Streaming.Shutdown
import WlanpiCore.Auth.Provenance
import WlanpiCore.Scan.Restore
import WlanpiCore.Connection.Monitor
import WlanpiCore.Namespaces.Apps
import WlanpiCore.Monitors.LookupAgree
import WlanpiCore.Wpa.Config
import WlanpiCore.Namespaces.Untouched
import WlanpiCore.Streaming.StreamLaw
import WlanpiCore.Streaming.FramerSound
import WlanpiCore.Auth.Lifetime
import WlanpiCore.Auth.Canonical
import WlanpiCore.Config.Reload
import WlanpiCore.Monitors.Sync
import WlanpiCore.Namespaces.Atomic
import WlanpiCore.Namespaces.Delivery
import WlanpiCore.Config.Deactivate
import WlanpiCore.System.Services
import WlanpiCore.Vlan.Live
import WlanpiCore.Namespaces.Emptiness
import WlanpiCore.Scan.Picker
import WlanpiCore.Wpa.SsidText
import WlanpiCore.Namespaces.PidFile
import WlanpiCore.Profiler.Listing
import WlanpiCore.Config.Disclosure
import WlanpiCore.Wpa.ScanResults
import WlanpiCore.Namespaces.Injective
import WlanpiCore.Config.Shown
import WlanpiCore.Profiler.PurgeExact
import WlanpiCore.Wpa.SupplicantRuns
import WlanpiCore.Config.Mapping
import WlanpiCore.Config.AtomicWrite
import WlanpiCore.Profiler.Lifecycle
import WlanpiCore.Streaming.Endpoint
import WlanpiCore.Network.WlanLink
import WlanpiCore.Network.LinkReport
import WlanpiCore.Network.LinkInfo
import WlanpiCore.Streaming.RxFilter
import WlanpiCore.Auth.Secrets
