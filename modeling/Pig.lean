import Pig.Auth.Token
import Pig.Clients.Admission
import Pig.Clients.Allocation
import Pig.Clients.ReadBuffers
import Pig.Clients.StartUp
import Pig.Demux.Forwarding
import Pig.Demux.RouteTable
import Pig.Ice.Agreement
import Pig.Ice.Listener
import Pig.Ice.Offers
import Pig.Ice.Payload
import Pig.Ice.Scheduling
import Pig.Icmp.AckTimer
import Pig.Icmp.Flight
import Pig.Icmp.Link
import Pig.Icmp.PeerAck
import Pig.Icmp.RetransmissionTimer
import Pig.Icmp.Ring
import Pig.Icmp.SharedListener
import Pig.Icmp.WindowBounds
import Pig.Log.Rotation
import Pig.Network.ExtensionHeaders
import Pig.Network.Fragments
import Pig.Network.Subnets
import Pig.Queue.Bounded
import Pig.Queue.Creation
import Pig.Routing.CanonicalForm
import Pig.Routing.Following
import Pig.Routing.Gateway
import Pig.Routing.RtAttrs
import Pig.Routing.Teardown
import Pig.Settings.Stability
import Pig.Stun.Connectivity
import Pig.Stun.Extraction
import Pig.Stun.IceAttributes
import Pig.Stun.MemorySafety
import Pig.Stun.Nomination
import Pig.Stun.Representation
import Pig.Stun.Server
import Pig.Tunnel.Batching
import Pig.Tunnel.Flows
import Pig.Tunnel.Lifecycle
import Pig.Tunnel.Spoofing
import Pig.Wireguard.Channel
