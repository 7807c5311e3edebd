import PqChat.Lib.Proc
import PqChat.Lib.ByteString
import PqChat.Lib.Symbolic
import PqChat.Crypto
import PqChat.Protocol
import PqChat.Client.State
import PqChat.Client.Ratchet
import PqChat.Client.Handshake
import PqChat.Client.Inbox
import PqChat.Client.Moves
import PqChat.Client.Run
import PqChat.Client.Keys
import PqChat.Client.Schedule
import PqChat.Session.Agreement
import PqChat.Session.Calls
import PqChat.Session.Duplex
import PqChat.Session.Authenticity
import PqChat.Session.Gap
import PqChat.Session.KeyUse
import PqChat.Session.Restart
import PqChat.Session.Pinning
import PqChat.Session.Failures
import PqChat.Lib.Codec
import PqChat.Transport
import PqChat.Wire.Serialization
import PqChat.Wire.RoundTrip
import PqChat.Wire.Canonical
import PqChat.Wire.Sizes
import PqChat.Lib.Map
import PqChat.Lib.History
import PqChat.Lib.Sql
import PqChat.Server.Api
import PqChat.Server.InMemory
import PqChat.Server.Sqlite
import PqChat.Server.Auth
import PqChat.Server.InMemoryAuth
import PqChat.Server.SqliteAuth
import PqChat.Server.Backend
import PqChat.Lib.Thread
import PqChat.Server.Tcp
import PqChat.Server.Stores
import PqChat.Server.SqliteStores
import PqChat.Server.Separation
import PqChat.Server.Authorisation
import PqChat.Lib.Window
import PqChat.Server.Rates
import PqChat.Lib.Lockstep
import PqChat.Server.AuthAgreement
import PqChat.Server.StoreAgreement
import PqChat.Server.Delivery
import PqChat.Client.Publishing
import PqChat.Client.StateFile
import PqChat.Client.Capacity
import PqChat.Client.Growth
import PqChat.Service.Shared
import PqChat.Service.Reservation
import PqChat.Service.Recovery
import PqChat.Client.Guards
import PqChat.Client.Pools
import PqChat.Session.Chains
import PqChat.Server.TcpWire
import PqChat.Server.Paging
import PqChat.Server.AuthRates
import PqChat.Client.TcpServerApi
import PqChat.Client.TlsPinning
import PqChat.Lib.Consumer
import PqChat.Client.Processing
import PqChat.Service.Mailbox
import PqChat.Service.Inbox
import PqChat.Lib.FileSystem
import PqChat.Client.Persistence
import PqChat.Lib.Serving
import PqChat.Client.Connection
import PqChat.Service.Remote
