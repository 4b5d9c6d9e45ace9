import Asyncmsg.IoBuffer
import Asyncmsg.Scan

namespace Asyncmsg

/-- What a connection does to the outside world while it receives. -/
inductive Event
  | decoded (pack : Packet)
  | gotDeviceId (id : List UInt8)
  | refreshed
  | request (id : List UInt8) (pack : Packet)
  | response (pack : Packet)
  | disconnected (id : List UInt8)
  deriving DecidableEq

/-- The state that received packets act on, with the trace of their effects.
The generator is the process-wide one. -/
structure Receiver where
  seqGenerator : UInt32
  deviceId : List UInt8
  events : List Event
  deriving DecidableEq

namespace Receiver

def emit (r : Receiver) (e : Event) : Receiver := { r with events := r.events ++ [e] }

/-- The end of a round of `process_packet`: the packet is for a waiting call or
for the owner of the connection. -/
def deliver (r : Receiver) (pack : Packet) : Receiver :=
  let r := r.emit .refreshed
  if pack.rsp then r.emit (.response pack) else r.emit (.request r.deviceId pack)

/-- One round of `process_packet` on the packet it has decoded; the flag is
lowered when the connection has to be closed. -/
def handle (r : Receiver) (pack : Packet) : Receiver × Bool :=
  let r := r.emit (.decoded pack)
  if pack.deviceId = [] then (r, true)
  else if r.deviceId = [] then
    ((({ r with deviceId := pack.deviceId } : Receiver).emit (.gotDeviceId pack.deviceId)).deliver pack, true)
  else if r.deviceId ≠ pack.deviceId then (r, false)
  else (r.deliver pack, true)

def disconnect (r : Receiver) : Receiver := r.emit (.disconnected r.deviceId)

end Receiver

structure Connection where
  receiver : Receiver
  recvBuffer : IoBuffer

namespace Connection

/-- No result stands for a decoder that has read outside the unread bytes. -/
def processPacket (c : Connection) : Option (Connection × Bool) :=
  match _ : decodePacket c.receiver.seqGenerator c.recvBuffer.pending with
  | none => none
  | some ⟨none, consumeLen, seqGenerator⟩ =>
    some (⟨{ c.receiver with seqGenerator := seqGenerator }, c.recvBuffer.consume consumeLen⟩, true)
  | some ⟨some pack, consumeLen, seqGenerator⟩ =>
    match ({ c.receiver with seqGenerator := seqGenerator } : Receiver).handle pack with
    | (receiver, false) => some (⟨receiver, c.recvBuffer.consume consumeLen⟩, false)
    | (receiver, true) => processPacket ⟨receiver, c.recvBuffer.consume consumeLen⟩
termination_by c.recvBuffer.size
decreasing_by
  have bound := decodePacket_consumeLen ‹_›
  simp only [IoBuffer.pending, List.length_take, headerLength] at bound
  exact IoBuffer.size_consume_lt (by omega) (by omega)

def recvBufSize : Nat := 128 * 1024

def sizeToRead (c : Connection) : Nat :=
  if 0 < c.recvBuffer.freeSize then c.recvBuffer.freeSize else c.recvBuffer.capacity

def disconnect (c : Connection) : Connection := { c with receiver := c.receiver.disconnect }

end Connection

/-- `receive_packet` between two of its steps: suspended in a read into the
slab it has prepared, or ended. -/
structure ReceiveLoop where
  conn : Connection
  slab : Option Slab

inductive ReadResult
  | expired
  | failed
  | done (bs : List UInt8)

namespace Connection

def suspend (c : Connection) : ReceiveLoop :=
  if c.sizeToRead = 0 then ⟨c.disconnect, none⟩
  else
    let (recvBuffer, slab) := c.recvBuffer.prepare c.sizeToRead
    ⟨{ c with recvBuffer := recvBuffer }, some slab⟩

/-- From the head of an iteration to its read. -/
def loopHead (c : Connection) : Option ReceiveLoop :=
  if c.sizeToRead = 0 then
    c.processPacket.map fun (c, live) => if live then c.suspend else ⟨c.disconnect, none⟩
  else some c.suspend

end Connection

namespace ReceiveLoop

/-- From the completion of a read into `slab` to the next read. -/
def resume (l : ReceiveLoop) (slab : Slab) : ReadResult → Option ReceiveLoop
  | .expired => some ⟨l.conn, none⟩
  | .failed => some ⟨l.conn.disconnect, none⟩
  | .done bs =>
    if 0 < bs.length then
      let recvBuffer := (l.conn.recvBuffer.fill slab bs).commit bs.length
      ({ l.conn with recvBuffer := recvBuffer } : Connection).processPacket.bind fun (c, live) =>
        if live then c.loopHead else some ⟨c.disconnect, none⟩
    else l.conn.loopHead

/-- The next bytes of the stream arrive. After the end nothing is read. -/
def read (l : ReceiveLoop) (bs : List UInt8) : Option ReceiveLoop :=
  match l.slab with
  | some slab => l.resume slab (.done bs)
  | none => some l

/-- The read completes in any way. -/
def complete (l : ReceiveLoop) (result : ReadResult) : Option ReceiveLoop :=
  match l.slab with
  | some slab => l.resume slab result
  | none => some l

def completeAll (l : ReceiveLoop) (results : List ReadResult) : Option ReceiveLoop :=
  results.foldlM complete l

/-- The loop of a connection that has no device id yet. -/
def start (seqGenerator : UInt32) : Option ReceiveLoop :=
  Connection.loopHead ⟨⟨seqGenerator, [], []⟩, .ofSize Connection.recvBufSize⟩

def readAll (l : ReceiveLoop) (reads : List (List UInt8)) : Option ReceiveLoop :=
  reads.foldlM read l

/-- Every read is at most as long as the slab that the loop offers for it. -/
def Fits (l : ReceiveLoop) : List (List UInt8) → Prop
  | [] => True
  | bs :: reads =>
    (∀ slab, l.slab = some slab → bs.length ≤ slab.size) ∧ ∀ next, l.read bs = some next → next.Fits reads

end ReceiveLoop

/-- `receive_packet` on a stream that arrives in the given reads. -/
def receivePacket (seqGenerator : UInt32) (reads : List (List UInt8)) : Option ReceiveLoop :=
  (ReceiveLoop.start seqGenerator).bind fun l => l.readAll reads

def FittingReads (seqGenerator : UInt32) (reads : List (List UInt8)) : Prop :=
  ∀ l, ReceiveLoop.start seqGenerator = some l → l.Fits reads

end Asyncmsg
