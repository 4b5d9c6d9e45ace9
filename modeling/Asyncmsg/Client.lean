import Asyncmsg.Library.Channel
import Asyncmsg.Library.Transition
import Asyncmsg.Lru
import Asyncmsg.Packet

namespace Asyncmsg

def receivedPacketChannelSize : Nat := 64
def recentlyReceivedRequestCap : Nat := 1000

abbrev RequestChannel := Channel Packet receivedPacketChannelSize

/-- An acknowledgement as it was sent: for which request, and whether a channel
for its command was in the table. -/
structure Ack where
  request : Nat
  rsp : Packet
  awaited : Bool
  deriving DecidableEq

/-- The requests received by a `tcp_client`. An entry of the channel table may
hold a null pointer; a step that follows one leaves the client broken.

The requests that the server has built are listed to tell a retransmission from
a new request with the same key. `tried` are those that have been handed to the
`try_send` of a channel and `accepted` those that one has taken, `duplicates`
those that were dropped as received before, each once for each time; `received`
are the packets that the application has got. -/
structure Client where
  running : Bool
  broken : Bool
  stopped : Bool
  stopHandler : Option Bool
  seqGenerator : UInt32
  recentlyReceivedRequest : Lru UInt64
  channels : AList fun _ : UInt32 => Option RequestChannel
  pushes : List Packet
  acks : List Ack
  tried : List Nat
  accepted : List Nat
  duplicates : List Nat
  received : List Packet

namespace Client

def start (seqGenerator : UInt32) : Client :=
  ⟨true, false, false, none, seqGenerator, .ofCap recentlyReceivedRequestCap, ∅, [], [], [], [], [], []⟩

inductive Action
  | push (pack : Packet)
  | arrive (i : Nat) (deviceId : List UInt8)
  | waitRequest (cmd : UInt32)
  | leave (cmd : UInt32)
  | stop (force : Bool)
  | runStop

variable (c : Client)

/-- `received_request_channels[cmd]`: a null pointer where there is no entry. -/
def channelAt (cmd : UInt32) : Option RequestChannel := (c.channels.lookup cmd).getD none

def setChannel (cmd : UInt32) (channel : Option RequestChannel) : Client :=
  { c with channels := c.channels.insert cmd channel }

/-- The acknowledgement of the copy of request `i` that has just come. -/
def acknowledge (i : Nat) (pack : Packet) (deviceId : List UInt8) : Client :=
  let (ack, seqGenerator) := buildRspPacket c.seqGenerator pack.cmd pack.seq 0 deviceId .empty
  { c with seqGenerator := seqGenerator, acks := c.acks ++ [⟨i, ack, (c.channelAt pack.cmd).isSome⟩] }

/-- `received_request_channels[pack.cmd()]->try_send`, whose result nobody reads. -/
def trySend (i : Nat) (pack : Packet) : Client :=
  match c.channelAt pack.cmd with
  | none => { c.setChannel pack.cmd none with broken := true }
  | some channel =>
    match channel.trySend pack with
    | none => { c with tried := c.tried ++ [i] }
    | some next =>
      { c.setChannel pack.cmd (some next) with
        tried := c.tried ++ [i]
        accepted := c.accepted ++ [i]
        received := if 0 < channel.waiters then c.received ++ [pack] else c.received }

def onReceiveRequest (i : Nat) (pack : Packet) (deviceId : List UInt8) : Client :=
  let c := c.acknowledge i pack deviceId
  let (known, recent) := c.recentlyReceivedRequest.exist pack.id
  if known then { c with recentlyReceivedRequest := recent, duplicates := c.duplicates ++ [i] }
  else ({ c with recentlyReceivedRequest := recent.put pack.id } : Client).trySend i pack

def waitRequest (cmd : UInt32) : Client :=
  let c := if (c.channels.lookup cmd).isNone then c.setChannel cmd (some .empty) else c
  match c.channelAt cmd with
  | none => { c with broken := true }
  | some channel =>
    let (message, next) := channel.receive
    { c.setChannel cmd (some next) with received := c.received ++ message.toList }

/-- `cancel` on every channel. -/
def cancelAll : Client :=
  { c with
    broken := c.channels.entries.any fun entry => entry.2.isNone
    channels := ⟨c.channels.entries.map fun entry => ⟨entry.1, entry.2.map Channel.cancel⟩, by
      have keys := c.channels.nodupKeys
      rw [List.NodupKeys, List.keys] at keys ⊢
      rwa [List.map_map]⟩ }

def step (c : Client) (a : Action) : Option Client :=
  if c.running ∧ ¬c.broken then
    match a with
    | .push pack => some { c with pushes := c.pushes ++ [pack] }
    | .arrive i deviceId => c.pushes[i]?.map fun pack => c.onReceiveRequest i pack deviceId
    | .waitRequest cmd => some (c.waitRequest cmd)
    | .leave cmd => (c.channelAt cmd).bind fun channel =>
      if 0 < channel.waiters then some (c.setChannel cmd (some channel.leave)) else none
    | .stop force => if c.stopped then none else some { c with stopped := true, stopHandler := some force }
    | .runStop => c.stopHandler.bind fun force =>
      some { c.cancelAll with stopHandler := none, running := !force }
  else none

end Client
end Asyncmsg
