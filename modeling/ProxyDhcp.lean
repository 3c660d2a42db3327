import ProxyDhcp.Main
import ProxyDhcp.Proofs.Datagram
import ProxyDhcp.Proofs.Grammar
import ProxyDhcp.Proofs.ReadBack
import ProxyDhcp.Proofs.Serving
import ProxyDhcp.Proofs.Settings
import ProxyDhcp.Proofs.RawOptions
import ProxyDhcp.Proofs.Handlers
import ProxyDhcp.Proofs.Exchange
import ProxyDhcp.Proofs.HandlerOrder
import ProxyDhcp.Proofs.RequestFields
import ProxyDhcp.Proofs.Faults
import ProxyDhcp.Proofs.VendorOptions
import ProxyDhcp.Proofs.SettingOutcome
import ProxyDhcp.Proofs.ClassIdentifierText
import ProxyDhcp.Proofs.PxeVerdict
import ProxyDhcp.Proofs.Pieces
import ProxyDhcp.Proofs.ChainCalls
import ProxyDhcp.Proofs.PluginSpecText
import ProxyDhcp.Proofs.Startup
