import Asyncmsg.PacketLink
import Asyncmsg.RpcHandlers
import Asyncmsg.Routing

namespace Asyncmsg
open Transition

/-- Clients and a server. A connection has a direction from the client up to
the server and one down to the client, each with the side that sends on it; the
side that a direction leads to has its own calls on the other one. -/
structure RpcSystem {Handler : Type*} (service : Service Handler) (Conn : Type) where
  up : Conn → Link
  down : Conn → Link
  server : RpcServer service Conn

namespace RpcSystem
variable {Handler : Type*} {service : Service Handler} {Conn : Type}

def start (service : Service Handler) (Conn : Type) (seqGenerator : UInt32) : Option (RpcSystem service Conn) :=
  (Link.start seqGenerator).map fun link => ⟨fun _ => link, fun _ => link, .start service Conn seqGenerator⟩

/-- A step of a sender that is not caused by a packet received, the end of a
read, the end of a connection by the server's inactivity check, a step inside
the server, or the `send_packet` of a handler. -/
inductive Action (service : Service Handler) (Conn : Type)
  | client (c : Conn) (a : Sender.Action)
  | server (c : Conn) (a : Sender.Action)
  | toServer (c : Conn) (n : Nat)
  | toClient (c : Conn) (n : Nat)
  | serverLost (c : Conn) (result : ReadResult)
  | clientLost (c : Conn) (result : ReadResult)
  | inactive (c : Conn)
  | inside (a : RpcServer.Action service Conn)
  | respond (h : Handler)

variable [DecidableEq Handler] [DecidableEq Conn] (hasher : List UInt8 → UInt64) (s : RpcSystem service Conn)

def setUp (c : Conn) (link : Link) : RpcSystem service Conn := { s with up := Function.update s.up c link }

def setDown (c : Conn) (link : Link) : RpcSystem service Conn := { s with down := Function.update s.down c link }

def stepUp (c : Conn) (a : Sender.Action) : Option (RpcSystem service Conn) :=
  ((s.up c).step (.sender a)).map (s.setUp c)

def stepDown (c : Conn) (a : Sender.Action) : Option (RpcSystem service Conn) :=
  ((s.down c).step (.sender a)).map (s.setDown c)

def stepServer (a : RpcServer.Action service Conn) : Option (RpcSystem service Conn) :=
  (s.server.step hasher a).map fun server => { s with server := server }

/-- What the server makes of an event of one of its connections. -/
def serverEvent (c : Conn) (s : RpcSystem service Conn) : Event → Option (RpcSystem service Conn)
  | .decoded _ | .refreshed => some s
  | .gotDeviceId id => s.stepServer hasher (.mapped id (some c))
  | .disconnected id => s.stepServer hasher (.mapped id none)
  | .response pack => s.stepDown c (.response pack)
  | .request _ pack => (s.stepServer hasher (.arrive pack)).bind fun t =>
    if pack.cmd = heartbeatCmd then
      t.stepDown c (.send .detach (heartbeatResponse s.server.requests.seqGenerator pack).1)
    else some t

/-- What a client makes of an event of its connection. The packet that it
acknowledges has a sequence number, so that no generator is read. -/
def clientEvent (c : Conn) (s : RpcSystem service Conn) : Event → Option (RpcSystem service Conn)
  | .response pack => s.stepUp c (.response pack)
  | .request id pack => s.stepUp c (.send .detach (clientAck 0 id pack).1)
  | _ => some s

/-- The events that a link has raised since it was `old`. -/
def newEvents (old link : Link) : List Event :=
  link.loop.conn.receiver.events.drop old.loop.conn.receiver.events.length

def readUp (c : Conn) (a : Link.Action) : Option (RpcSystem service Conn) :=
  ((s.up c).step a).bind fun link => (newEvents (s.up c) link).foldlM (serverEvent hasher c) (s.setUp c link)

def readDown (c : Conn) (a : Link.Action) : Option (RpcSystem service Conn) :=
  ((s.down c).step a).bind fun link => (newEvents (s.down c) link).foldlM (clientEvent c) (s.setDown c link)

/-- The new call of `send_packet` by a handler writes to the connection that
the map has for it. -/
def respond (h : Handler) : Option (RpcSystem service Conn) :=
  (s.server.step hasher (.send h)).bind fun server =>
    match (server.tasks h).sent.drop (s.server.tasks h).sent.length with
    | (c, rsp) :: _ => ({ s with server := server } : RpcSystem service Conn).stepDown c (.send .packet rsp)
    | [] => some { s with server := server }

def step (s : RpcSystem service Conn) : Action service Conn → Option (RpcSystem service Conn)
  | .client c a =>
    match a with
    | .response _ => none
    | a => s.stepUp c a
  | .server c a =>
    match a with
    | .response _ => none
    | a => s.stepDown c a
  | .toServer c n => if (s.down c).sender.alive then s.readUp hasher c (.arrive n) else none
  | .toClient c n => if (s.up c).sender.alive then s.readDown c (.arrive n) else none
  | .serverLost c result => s.readUp hasher c (.lose result)
  | .clientLost c result => s.readDown c (.lose result)
  | .inactive c => s.serverEvent hasher c (.disconnected (s.up c).loop.conn.receiver.deviceId)
  | .inside a =>
    match a with
    | .arrive _ | .mapped _ _ | .send _ => none
    | a => s.stepServer hasher a
  | .respond h => s.respond hasher h

end RpcSystem
end Asyncmsg
