import EspcanBr.Base.Hex
import EspcanBr.Base.Machine
import EspcanBr.Base.PubSub
import EspcanBr.Base.Search
import EspcanBr.Base.Tasks
import EspcanBr.Base.Text
import EspcanBr.Slcan.Codec
import EspcanBr.Slcan.Grammar
import EspcanBr.Can.Frame
import EspcanBr.Can.Manager
import EspcanBr.Transport.Dispatch
import EspcanBr.Transport.Port
import EspcanBr.Tools.Slcan
import EspcanBr.Tools.Encode
import EspcanBr.Tools.Pinning
import EspcanBr.System.Firmware
import EspcanBr.System.Manager
import EspcanBr.System.Transmit
import EspcanBr.System.Mode
import EspcanBr.System.Receive
import EspcanBr.System.Session
import EspcanBr.Config
import EspcanBr.Autoconnect.Url
import EspcanBr.Autoconnect.Verifier
import EspcanBr.Autoconnect.Task
import EspcanBr.Http.Request
import EspcanBr.Http.Server
import EspcanBr.Autoconnect.Status
import EspcanBr.Mdns.Packet
import EspcanBr.Base.Slots
import EspcanBr.Mdns.Responder
import EspcanBr.Store
import EspcanBr.Http.Handlers
import EspcanBr.Http.Boot
import EspcanBr.Http.Login
import EspcanBr.Base.Base64
import EspcanBr.Http.Gate
import EspcanBr.Tools.Reader
import EspcanBr.Transport.Stream
import EspcanBr.Transport.Talk
import EspcanBr.System.Protocol
import EspcanBr.Tools.RoundTrip
import EspcanBr.Transport.Effects
import EspcanBr.Http.Segments
import EspcanBr.Http.Saves
import EspcanBr.Base.Form
import EspcanBr.Http.Fields
import EspcanBr.Http.Credentials
import EspcanBr.Base.Labels
import EspcanBr.Mdns.Question
import EspcanBr.Autoconnect.Grammar
import EspcanBr.Tools.Url
import EspcanBr.Http.Accessors
import EspcanBr.Base.Utf8
import EspcanBr.Http.Unchecked
import EspcanBr.Http.Decoders
import EspcanBr.Base.Window
import EspcanBr.System.Led
import EspcanBr.Base.Html
import EspcanBr.Base.Json
import EspcanBr.Http.Pages
import EspcanBr.Base.Tally
import EspcanBr.System.Sessions
import EspcanBr.Base.Simulation
import EspcanBr.Base.Message
import EspcanBr.Base.Budget
import EspcanBr.Http.Servers
import EspcanBr.Http.Secrets
import EspcanBr.Http.Framing
import EspcanBr.Tools.Observe
import EspcanBr.Tools.Proxy
import EspcanBr.Tools.Relay
import EspcanBr.System.Work
import EspcanBr.System.Counters
import EspcanBr.System.Station
import EspcanBr.Base.Clock
import EspcanBr.Autoconnect.Pacing
import EspcanBr.Transport.Calls
import EspcanBr.Tools.Host
import EspcanBr.System.ToolSession
import EspcanBr.System.Dialogue
import EspcanBr.Http.Bootstrap
