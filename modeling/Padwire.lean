import Padwire.Attach.Applied
import Padwire.Attach.Deadlines
import Padwire.Attach.ErrorLines
import Padwire.Attach.Recovery
import Padwire.Attach.RoundTrip
import Padwire.Attach.Status
import Padwire.Backend.Descriptors
import Padwire.Backend.FilterText
import Padwire.Backend.Outstanding
import Padwire.Jni.Bridge
import Padwire.Mdns.Browse
import Padwire.Mdns.Compression
import Padwire.Proto.Devlist
import Padwire.Server.AcceptLoop
import Padwire.Server.AllowList
import Padwire.Server.Binds
import Padwire.Server.Buffers
import Padwire.Server.ChordNames
import Padwire.Server.Connection
import Padwire.Server.Endpoints
import Padwire.Server.Handle
import Padwire.Server.Handshake
import Padwire.Server.Import
import Padwire.Server.Opened
import Padwire.Server.PrefetchInvariant
import Padwire.Server.Reports
import Padwire.Server.Screening
import Padwire.Server.Teardown
import Padwire.Server.Unlinks
