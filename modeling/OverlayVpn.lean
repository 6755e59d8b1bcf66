import OverlayVpn.Cli.Client
import OverlayVpn.Cli.Options
import OverlayVpn.Cli.Outcome
import OverlayVpn.Cli.Server
import OverlayVpn.Client.Ping
import OverlayVpn.Client.Plan
import OverlayVpn.Client.Profile
import OverlayVpn.Client.Route
import OverlayVpn.Client.Session
import OverlayVpn.Client.SystemRoutes
import OverlayVpn.Config.Basic
import OverlayVpn.Config.File
import OverlayVpn.Config.Load
import OverlayVpn.Control.Plane
import OverlayVpn.Disk.Basic
import OverlayVpn.Disk.OsError
import OverlayVpn.Disk.Replace
import OverlayVpn.Engine.Device
import OverlayVpn.Engine.DeviceState
import OverlayVpn.Engine.Exchange
import OverlayVpn.Engine.Launch
import OverlayVpn.Engine.Reply
import OverlayVpn.Engine.Request
import OverlayVpn.Json.Basic
import OverlayVpn.Json.Reader
import OverlayVpn.Json.Record
import OverlayVpn.Json.Token
import OverlayVpn.Key
import OverlayVpn.Key.Base64
import OverlayVpn.Key.Curve
import OverlayVpn.Main
import OverlayVpn.Net.Ipv4
import OverlayVpn.Net.Ipv6
import OverlayVpn.Net.Socket
import OverlayVpn.Path
import OverlayVpn.Pool.Allocator
import OverlayVpn.Pool.Basic
import OverlayVpn.Registry
import OverlayVpn.Rehearsal.Machine
import OverlayVpn.Rehearsal.Shell
import OverlayVpn.Rehearsal.Stage
import OverlayVpn.Store.KeyMap
import OverlayVpn.System.Command
import OverlayVpn.System.Process
import OverlayVpn.Task
import OverlayVpn.Text.Blank
import OverlayVpn.Text.Decimal
import OverlayVpn.Text.Printable
import OverlayVpn.Text.Quoted
import OverlayVpn.Text.Utf8
import OverlayVpn.Time.Rfc3339
import OverlayVpn.Time.Timestamp
import OverlayVpn.Toml.Basic
import OverlayVpn.Toml.Printer
import OverlayVpn.Toml.Reader
import OverlayVpn.Tunnel.Backend
import OverlayVpn.Tunnel.EngineTunnel
import OverlayVpn.Proofs.Control.Calls
import OverlayVpn.Proofs.Control.Race
import OverlayVpn.Proofs.Control.Registering
import OverlayVpn.Proofs.Control.Runs
import OverlayVpn.Proofs.Control.Synchrony
import OverlayVpn.Proofs.Control.Uniqueness
import OverlayVpn.Proofs.Disk.Basic
import OverlayVpn.Proofs.Disk.Replace
import OverlayVpn.Proofs.Engine.Protocol
import OverlayVpn.Proofs.Interleaving
import OverlayVpn.Proofs.Json.Reader
import OverlayVpn.Proofs.Json.Token
import OverlayVpn.Proofs.Net.Ipv4
import OverlayVpn.Proofs.Path
import OverlayVpn.Proofs.Pool.Allocator
import OverlayVpn.Proofs.Pool.Basic
import OverlayVpn.Proofs.Pool.Lease
import OverlayVpn.Proofs.Pool.Shared
import OverlayVpn.Proofs.Pool.Burst
import OverlayVpn.Proofs.Registry
import OverlayVpn.Proofs.Store.KeyMap
import OverlayVpn.Proofs.Task
import OverlayVpn.Proofs.Text.Blank
import OverlayVpn.Proofs.Text.Decimal
import OverlayVpn.Proofs.Text.Utf8
import OverlayVpn.Proofs.Time.Rfc3339
import OverlayVpn.Proofs.Tunnel.EngineTunnel
import OverlayVpn.Proofs.Tunnel.Bracketing
import OverlayVpn.Proofs.Tunnel.Mirror
import OverlayVpn.Proofs.Control.Roster
import OverlayVpn.Proofs.Control.Restart
import OverlayVpn.Proofs.Control.LostWrites
import OverlayVpn.Proofs.Key
import OverlayVpn.Proofs.Control.Identity
import OverlayVpn.Proofs.Control.Crowd
import OverlayVpn.Proofs.Client.Journal
import OverlayVpn.Proofs.Client.Lifecycle
import OverlayVpn.Proofs.Client.RouteReversal
import OverlayVpn.Proofs.Client.Profile
import OverlayVpn.Proofs.Crash
import OverlayVpn.Proofs.Control.FailedCalls
import OverlayVpn.Proofs.Engine.Exchange
import OverlayVpn.Proofs.Engine.DeviceText
import OverlayVpn.Proofs.Tunnel.Transfer
import OverlayVpn.Proofs.Control.Requests
import OverlayVpn.Proofs.Client.Endpoint
import OverlayVpn.Proofs.Disk.Privacy
import OverlayVpn.Proofs.Pool.Words
import OverlayVpn.Proofs.Client.DefaultRoute
import OverlayVpn.Proofs.Config.Overrides
import OverlayVpn.Proofs.Config.Saving
import OverlayVpn.Proofs.Control.Spelling
