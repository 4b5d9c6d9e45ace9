import Asyncmsg.RoundTrip

namespace Asyncmsg

/-- A protobuf message type, with what the code relies on: parsing inverts
serialising, and the empty string is the default message. -/
structure Protobuf (Message : Type*) where
  serialize : Message → List UInt8
  parse : List UInt8 → Option Message
  default : Message
  parse_serialize : ∀ message, parse (serialize message) = some message
  parse_nil : parse [] = some default

/-- A message with one field, `bool value = 1`. -/
def boolMessage : Protobuf Bool where
  serialize value := if value then [0x08, 0x01] else []
  parse bs :=
    match bs with
    | [] => some false
    | [0x08, value] => some (value != 0)
    | _ => none
  default := false
  parse_serialize := by decide
  parse_nil := rfl

abbrev RpcResult (Message : Type*) := Except UInt32 Message

def errDeserialize : UInt32 := 3

/-- The hash of the name, cut to the size of a command. -/
def rpcId (hasher : List UInt8 → UInt64) (rpcName : List UInt8) : UInt32 := (hasher rpcName).toUInt32

/-- A packet as the machine decodes it that the encoded packet is sent to. -/
def transmit (seqGenerator : UInt32) (pack : Packet) : Option Packet :=
  (encodePacket pack).bind fun bs => (decodePacket seqGenerator bs).bind DecodeResult.pack

theorem transmit_eq_some (seqGenerator : UInt32) {pack : Packet} (short : pack.deviceId.length < deviceIdSize)
    (small : pack.body.bytes.length ≤ maxBodyLength) :
    ∃ received, transmit seqGenerator pack = some received ∧ received.ec = pack.ec ∧ received.body = pack.body := by
  have encoded : encodePacket pack = some (pack.frame short) :=
    encodePacket_eq_some.mpr ⟨short, by simp only [maxBodyLength, headerLength] at small ⊢; omega, rfl⟩
  have decoded := decodePacket_frame seqGenerator short small []
  rw [List.append_nil] at decoded
  refine ⟨(Packet.construct seqGenerator pack.cmd pack.rsp pack.body (nulPad pack.deviceId) pack.seq pack.ec).1, ?_,
    Packet.construct_ec .., (Packet.construct_deviceId_body ..).2⟩
  rw [transmit, encoded, Option.bind_some, decoded, Option.bind_some]

namespace Protobuf
variable {Message : Type*} (proto : Protobuf Message)

/-- `SerializeToArray` into a buffer of `ByteSizeLong` bytes, whose size it takes
as an `int`. No result stands for a buffer that is left unwritten. -/
def body (message : Message) : Option Ibuffer :=
  if small : (proto.serialize message).length < 2 ^ 31 then some ⟨proto.serialize message, by omega⟩ else none

def buildRequestPacket (hasher : List UInt8 → UInt64) (seqGenerator : UInt32) (rpcName : List UInt8)
    (message : Message) (deviceId : List UInt8) : Option (Packet × UInt32) :=
  (proto.body message).map fun body => buildReqPacket seqGenerator (rpcId hasher rpcName) body deviceId

def buildResponsePacket (seqGenerator : UInt32) (req : Packet) : RpcResult Message → Option (Packet × UInt32)
  | .error ec => some (buildRspPacket seqGenerator req.cmd req.seq ec req.deviceId .empty)
  | .ok message =>
    (proto.body message).map fun body => buildRspPacket seqGenerator req.cmd req.seq 0 req.deviceId body

def parseBody (pack : Packet) : RpcResult Message :=
  if pack.ec ≠ 0 then .error pack.ec
  else
    match proto.parse pack.body.bytes with
    | some message => .ok message
    | none => .error errDeserialize

/-- What the caller makes of the result that a handler has returned. -/
def receivedResult (seqGenerator callerGenerator : UInt32) (req : Packet) (result : RpcResult Message) :
    Option (RpcResult Message) :=
  (proto.buildResponsePacket seqGenerator req result).bind fun (rsp, _) =>
    (transmit callerGenerator rsp).map proto.parseBody

variable {proto}

theorem body_eq_some {message : Message} {b : Ibuffer} (built : proto.body message = some b) :
    b.bytes = proto.serialize message ∧ b.bytes.length < 2 ^ 31 := by
  unfold body at built
  split at built
  · rename_i small
    cases built
    exact ⟨rfl, small⟩
  · cases built

theorem body_of_le {message : Message} (small : (proto.serialize message).length ≤ maxBodyLength) :
    ∃ b, proto.body message = some b ∧ b.bytes = proto.serialize message := by
  simp only [maxBodyLength] at small
  exact ⟨_, dif_pos (by omega), rfl⟩

theorem parseBody_error {pack : Packet} (failed : pack.ec ≠ 0) : proto.parseBody pack = .error pack.ec := if_pos failed

theorem parseBody_ok {pack : Packet} {message : Message} (ec : pack.ec = 0)
    (parsed : proto.parse pack.body.bytes = some message) : proto.parseBody pack = .ok message := by
  rw [parseBody, if_neg (not_not.mpr ec), parsed]

/-- A response is parsed from the code and the body it was built with. -/
theorem receivedResult_of_build {seqGenerator ec : UInt32} {req : Packet} {result : RpcResult Message} {b : Ibuffer}
    (built : proto.buildResponsePacket seqGenerator req result =
      some (buildRspPacket seqGenerator req.cmd req.seq ec req.deviceId b))
    (short : req.deviceId.length < deviceIdSize) (small : b.bytes.length ≤ maxBodyLength) (callerGenerator : UInt32) :
    ∃ pack : Packet, pack.ec = ec ∧ pack.body = b ∧
      proto.receivedResult seqGenerator callerGenerator req result = some (proto.parseBody pack) := by
  obtain ⟨deviceId, body⟩ := Packet.construct_deviceId_body seqGenerator req.cmd true b req.deviceId req.seq ec
  have code := Packet.construct_ec seqGenerator req.cmd true b req.deviceId req.seq ec
  rw [← buildRspPacket] at deviceId body code
  obtain ⟨received, arrives, sameCode, sameBody⟩ :=
    transmit_eq_some callerGenerator (lt_of_eq_of_lt (congrArg List.length deviceId) short) (by rwa [body])
  refine ⟨received, sameCode.trans code, sameBody.trans body, ?_⟩
  rw [receivedResult, built]
  exact congrArg (Option.map proto.parseBody) arrives

/-- The code zero of an error is lost on the way. -/
theorem receivedResult_error (proto : Protobuf Message) (seqGenerator callerGenerator ec : UInt32) {req : Packet}
    (short : req.deviceId.length < deviceIdSize) :
    proto.receivedResult seqGenerator callerGenerator req (.error ec) =
      some (if ec = 0 then .ok proto.default else .error ec) := by
  have built : proto.buildResponsePacket seqGenerator req (.error ec) =
      some (buildRspPacket seqGenerator req.cmd req.seq ec req.deviceId .empty) := rfl
  obtain ⟨pack, code, body, received⟩ := receivedResult_of_build built short (Nat.zero_le _) callerGenerator
  rw [received]
  split
  · rename_i zero
    rw [parseBody_ok (code.trans zero) (by rw [body]; exact proto.parse_nil)]
  · rename_i failed
    rw [parseBody_error (code ▸ failed), code]

theorem receivedResult_ok (proto : Protobuf Message) (seqGenerator callerGenerator : UInt32) {req : Packet}
    {message : Message} (short : req.deviceId.length < deviceIdSize)
    (small : (proto.serialize message).length ≤ maxBodyLength) :
    proto.receivedResult seqGenerator callerGenerator req (.ok message) = some (.ok message) := by
  obtain ⟨b, written, bytes⟩ := body_of_le small
  have built : proto.buildResponsePacket seqGenerator req (.ok message) =
      some (buildRspPacket seqGenerator req.cmd req.seq 0 req.deviceId b) := by
    rw [buildResponsePacket, written, Option.map_some]
  obtain ⟨pack, code, body, received⟩ := receivedResult_of_build built short (bytes ▸ small) callerGenerator
  rw [received, parseBody_ok code (by rw [body, bytes, proto.parse_serialize])]

/-- The caller gets back the result of the handler exactly if it is not an
error with code zero: that is taken for a success. -/
theorem receivedResult_eq_iff (proto : Protobuf Message) (seqGenerator callerGenerator : UInt32) {req : Packet}
    {result : RpcResult Message} (short : req.deviceId.length < deviceIdSize)
    (small : ∀ message, result = .ok message → (proto.serialize message).length ≤ maxBodyLength) :
    proto.receivedResult seqGenerator callerGenerator req result = some result ↔ result ≠ .error 0 := by
  cases result with
  | error ec =>
    rw [receivedResult_error proto seqGenerator callerGenerator ec short]
    by_cases zero : ec = 0 <;> simp [zero]
  | ok message =>
    rw [receivedResult_ok proto seqGenerator callerGenerator short (small message rfl)]
    simp

theorem receivedResult_true : boolMessage.receivedResult 0 0 ping (.ok true) = some (.ok true) :=
  (boolMessage.receivedResult_eq_iff 0 0 (by decide) (by rintro _ ⟨⟩; decide)).mpr (by simp)

/-- A handler that fails with code zero is taken to have returned the default message. -/
theorem receivedResult_error_zero :
    ¬∀ (proto : Protobuf Bool) (seqGenerator callerGenerator : UInt32) (req : Packet) (result : RpcResult Bool),
      req.seq ≠ 0 → req.deviceId.length < deviceIdSize →
      (∀ message, result = .ok message → (proto.serialize message).length ≤ maxBodyLength) →
      proto.receivedResult seqGenerator callerGenerator req result = some result := by
  intro claim
  have faithful := claim boolMessage 0 0 ping (.error 0) (by decide) (by decide) (by simp)
  rw [boolMessage.receivedResult_error 0 0 0 (by decide)] at faithful
  cases faithful

end Protobuf

end Asyncmsg
