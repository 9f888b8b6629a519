import Pbote.Wire.Bytes
import Pbote.Wire.Packets
import Pbote.Base.StdMap
import Pbote.Base.FS
import Pbote.Kademlia.NodeTable
import Pbote.Kademlia.NodeFile
import Pbote.Kademlia.Closest
import Pbote.Kademlia.PeerList
import Pbote.Kademlia.Lookup
import Pbote.Kademlia.Handlers
import Pbote.Packet.IncomingRequest
import Pbote.Protocol.FindClosePeers
import Pbote.Protocol.Retrieve
import Pbote.Kademlia.Verbs
import Pbote.Kademlia.TableRuns
import Pbote.Kademlia.ConcurrentAdd
import Pbote.Protocol.Network
import Pbote.Mail.Packets
import Pbote.Mail.Send
import Pbote.Mail.Address
import Pbote.Mail.Outbox
import Pbote.Mail.Check
import Pbote.Mail.Inbox
import Pbote.Mail.Supervisor
