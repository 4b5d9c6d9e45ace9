import Mathlib.Data.List.AList
import Asyncmsg.Library.RemoveIf
import Asyncmsg.Library.Transition
import Asyncmsg.Receive

namespace Asyncmsg

/-- A connection that the server has accepted: its device id, the calls that
keep it alive by a `shared_ptr` of their own, and its two coroutines. -/
structure Peer where
  deviceId : List UInt8
  holders : Nat
  receiving : Bool
  checking : Bool
  deriving DecidableEq

/-- The accepting coroutine: in `async_accept`, with a completion queued, or ended. -/
inductive Acceptor
  | pending
  | ready
  | ended
  deriving DecidableEq

/-- The connections of a `tcp_server`. Connections are named by the order in
which they were accepted; a null pointer in the list is `none`. The calls of
`on_disconnected` are recorded. -/
structure Registry where
  acceptor : Acceptor
  stopped : Bool
  stopHandler : Option Bool
  running : Bool
  peers : List Peer
  connections : List (Option Nat)
  connectionMap : AList fun _ : List UInt8 => Nat
  disconnects : List (Nat × List UInt8)

namespace Registry

def start : Registry := ⟨.pending, false, none, true, [], [], ∅, []⟩

inductive Action
  | incoming
  | accept
  | packet (c : Nat) (pack : Packet)
  | readFails (c : Nat)
  | readExpires (c : Nat)
  | inactive (c : Nat)
  | checkEnds (c : Nat)
  | send (id : List UInt8)
  | sendEnds (c : Nat)
  | stop (force : Bool)
  | runStop

variable (r : Registry)

/-- Some `shared_ptr` still points to the connection. -/
def Alive (c : Nat) : Prop :=
  some c ∈ r.connections ∨ (∃ entry ∈ r.connectionMap.entries, entry.2 = c) ∨
    ∃ peer ∈ r.peers[c]?, 0 < peer.holders

instance (c : Nat) : Decidable (r.Alive c) :=
  inferInstanceAs (Decidable (_ ∨ _ ∨ _))

/-- `connection_map.find` -/
def find (id : List UInt8) : Option Nat := r.connectionMap.lookup id

def setPeer (c : Nat) (peer : Peer) : Registry := { r with peers := r.peers.set c peer }

def onDisconnected (c : Nat) (deviceId : List UInt8) : Registry :=
  { r with
    connectionMap := r.connectionMap.erase deviceId
    connections := RemoveIf.removeIf (· == some c) none r.connections
    disconnects := r.disconnects ++ [(c, deviceId)] }

def onGotDeviceId (c : Nat) (deviceId : List UInt8) : Registry :=
  if some c ∈ r.connections then
    { r with
      connectionMap := r.connectionMap.insert deviceId c
      connections := r.connections.erase (some c) }
  else r

/-- What the server does on the events of a connection that concern the registry. -/
def react (c : Nat) (r : Registry) : Event → Registry
  | .gotDeviceId id => r.onGotDeviceId c id
  | _ => r

/-- A round of `process_packet`, and the end of `receive_packet` where the round
closes the connection. -/
def process (c : Nat) (peer : Peer) (pack : Packet) : Registry :=
  let (receiver, live) := (⟨0, peer.deviceId, []⟩ : Receiver).handle pack
  let r := r.setPeer c { peer with deviceId := receiver.deviceId, receiving := live }
  let r := receiver.events.foldl (react c) r
  if live then r else r.onDisconnected c receiver.deviceId

def step (r : Registry) (a : Action) : Option Registry :=
  if r.running then
    match a with
    | .incoming => if r.acceptor = .pending then some { r with acceptor := .ready } else none
    | .accept =>
      if r.acceptor = .ready then
        some { r with
          acceptor := .pending
          peers := r.peers ++ [⟨[], 0, true, true⟩]
          connections := r.connections ++ [some r.peers.length] }
      else none
    | .packet c pack => r.peers[c]?.bind fun peer =>
      if peer.receiving ∧ r.Alive c then some (r.process c peer pack) else none
    | .readFails c => r.peers[c]?.bind fun peer =>
      if peer.receiving ∧ r.Alive c then
        some ((r.setPeer c { peer with receiving := false }).onDisconnected c peer.deviceId)
      else none
    | .readExpires c => r.peers[c]?.bind fun peer =>
      if peer.receiving ∧ ¬r.Alive c then some (r.setPeer c { peer with receiving := false }) else none
    | .inactive c => r.peers[c]?.bind fun peer =>
      if peer.checking ∧ r.Alive c then
        some ((r.setPeer c { peer with checking := false }).onDisconnected c peer.deviceId)
      else none
    | .checkEnds c => r.peers[c]?.bind fun peer =>
      if peer.checking ∧ (¬peer.receiving ∨ ¬r.Alive c) then some (r.setPeer c { peer with checking := false })
      else none
    | .send id =>
      if r.stopped then none
      else (r.find id).bind fun c => r.peers[c]?.bind fun peer =>
        some (r.setPeer c { peer with holders := peer.holders + 1 })
    | .sendEnds c => r.peers[c]?.bind fun peer =>
      if 0 < peer.holders then some (r.setPeer c { peer with holders := peer.holders - 1 }) else none
    | .stop force => if r.stopped then none else some { r with stopped := true, stopHandler := some force }
    | .runStop => r.stopHandler.bind fun force =>
      some { r with
        acceptor := if r.acceptor = .pending then .ended else r.acceptor
        connectionMap := ∅
        connections := []
        stopHandler := none
        running := !force }
  else none

end Registry
end Asyncmsg
