import NexTerminal.Dhcp.Reconcile
import NexTerminal.Dhcp.StoreRoundTrip
import NexTerminal.Dhcp.Exclusivity
import NexTerminal.Exchange.ImportedLinks
import NexTerminal.Exchange.ShareSecrets
import NexTerminal.Inventory.ListRoundTrip
import NexTerminal.Inventory.FolderValidity
import NexTerminal.Inventory.EndpointCoherence
import NexTerminal.Inventory.DanglingReferences
import NexTerminal.Inventory.FailedApply
import NexTerminal.Tunnel.Socks5Handshake
import NexTerminal.Cwd.CwdRuns
import NexTerminal.Terminal.ChunkIndependence
import NexTerminal.Terminal.StreamRuns
import NexTerminal.Tftp.ReadTransfer
import NexTerminal.Tftp.WriteTransfer
import NexTerminal.Tftp.Dally
import NexTerminal.Scripts.SemaphoreRuns
import NexTerminal.Scripts.SlotRuns
import NexTerminal.Scripts.IncludeCycles
import NexTerminal.Host.DhcpPool
import NexTerminal.Host.ConfigSanitize
import NexTerminal.Host.Agreement
import NexTerminal.Telnet.NegotiationLoop
import NexTerminal.Telnet.Inbound
import NexTerminal.Terminal.HighlightSafety
import NexTerminal.AutoTrigger.ConsumptionRuns
import NexTerminal.Logging.RotationIdentity
import NexTerminal.Serial.SessionRuns
import NexTerminal.Ssh.ListenerRuns
import NexTerminal.Macros.SecretRuns
import NexTerminal.Dhcp.OfferCap
import NexTerminal.Daemon.WorkflowOrder
import NexTerminal.LocalServers.SupervisionRuns
import NexTerminal.Polling.PollRuns
import NexTerminal.Host.RuntimeAgreement
import NexTerminal.Terminal.OscAgreement
import NexTerminal.Dhcp.ReplyRoundTrip
import NexTerminal.Tftp.SilentPeer
import NexTerminal.Tftp.OptionNegotiation
import NexTerminal.Tftp.PathGuard
import NexTerminal.Scripts.IncludeScope
import NexTerminal.Host.TransferSession
import NexTerminal.Host.BoundedLineReader
import NexTerminal.Host.BoundedJsonLineWriter
import NexTerminal.Daemon.LineReader
