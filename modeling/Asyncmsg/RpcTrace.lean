import Asyncmsg.HandlerAnswers
import Asyncmsg.LinkEvents
import Asyncmsg.RpcSystem

namespace Asyncmsg
open Transition

/-- The call has got this response, whether it has returned it yet or not. -/
def Call.Got (call : Call) (rsp : Packet) : Prop :=
  call.phase = .waiting (.received rsp) ∨ call.phase = .returned (some rsp)

namespace Sender
variable {s t : Sender} {a : Action}

/-- What is true of every response that has come for a waiting call is true of
every response that a call has got. -/
theorem Moves.got (moves : Moves s a t) (consistent : s.Consistent) {P : Call → Packet → Prop}
    (kept : ∀ call phase rsp, P call rsp → P (call.setPhase phase) rsp)
    (new : ∀ rsp, a = .response rsp → ∀ call ∈ s.calls, call.kind = .waitRsp → call.pack.id = rsp.id → P call rsp)
    (old : ∀ call ∈ s.calls, ∀ rsp, call.Got rsp → P call rsp) : ∀ call ∈ t.calls, ∀ rsp, call.Got rsp → P call rsp := by
  intro later member rsp got
  obtain ⟨i, found⟩ := List.mem_iff_getElem?.mp member
  rcases moves.found found with ⟨call, before, phase, rfl, steps⟩ | ⟨_, _, queued | writing⟩
  · have inside := List.mem_of_getElem? before
    refine kept call phase rsp ?_
    generalize was : call.phase = first at steps
    cases steps with
    | refl =>
      refine old call inside rsp ?_
      rw [Call.Got, was]
      exact got
    | single step =>
      cases step with
      | received response =>
        subst response
        rcases got with same | same <;> cases same
        have key : call.pack.id = rsp.id := by
          cases moves
          exact received_key consistent.owned before found (by simp [was, Call.setPhase])
        exact new rsp rfl call inside (consistent.pending i call before was).2.1 key
      | answered =>
        rcases got with same | same <;> cases same
        exact old call inside _ (Or.inl was)
      | _ => rcases got with same | same <;> cases same
  · simp [Call.Got, queued] at got
  · simp [Call.Got, writing] at got

end Sender

namespace Link
variable {s t : Link} {common : List UInt8} {seqGenerator : UInt32} {a : Sender.Action}

/-- A new call asks what no other call of this side asks, under a small
sequence number. A heartbeat waits for no response. -/
def Asking (s : Link) : Sender.Action → Prop
  | .send kind pack => (kind = .waitRsp → pack.rsp = false ∧ pack.cmd ≠ heartbeatCmd) ∧
      (pack.rsp = false → pack.seq.toNat < 2 ^ 31 ∧
        ∀ call ∈ s.sender.calls, call.pack.rsp = false → ¬Sender.Matches pack call.pack)
  | .response rsp => rsp.seq.toNat < 2 ^ 31
  | _ => True

/-- The packets of a direction arrive, and the side that receives them is honest. -/
structure Carries (common : List UInt8) (seqGenerator : UInt32) (s : Link) : Prop where
  delivers : s.Delivers common seqGenerator
  honest : Honest s.events

/-- The side that asks tells its calls apart. -/
structure Asks (s : Link) : Prop where
  distinct : s.sender.Distinct
  routed : s.sender.Routed
  small : ∀ call ∈ s.sender.calls, call.pack.rsp = false → call.pack.seq.toNat < 2 ^ 31
  waits : ∀ call ∈ s.sender.calls, call.kind = .waitRsp → call.pack.rsp = false ∧ call.pack.cmd ≠ heartbeatCmd

theorem Asking.smallPairs (asking : s.Asking a) (asks : s.Asks) : s.sender.SmallPairs a := by
  cases a with
  | send kind pack =>
    intro wait
    have request := (asking.1 wait).1
    obtain ⟨small, apart⟩ := asking.2 request
    exact ⟨small, fun call member wait' => apart call member (asks.waits call member wait').1⟩
  | response rsp => exact asking
  | _ => trivial

/-- A call has been there, or has just been started. -/
theorem origin (moved : s.step (.sender a) = some t) {later : Call} (member : later ∈ t.sender.calls) :
    (∃ call ∈ s.sender.calls, later.kind = call.kind ∧ later.pack = call.pack) ∨ a = .send later.kind later.pack := by
  obtain ⟨sender, sent, rfl⟩ := Option.map_eq_some_iff.mp moved
  obtain ⟨i, found⟩ := List.mem_iff_getElem?.mp member
  rcases (Sender.moves_of_step sent).found found with ⟨call, before, advances⟩ | ⟨new, _⟩
  · exact Or.inl ⟨call, List.mem_of_getElem? before, advances.same⟩
  · exact Or.inr new

theorem Asks.step (asks : s.Asks) (asking : s.Asking a) (taken : s.step (.sender a) = some t) : t.Asks := by
  have later : ∀ call ∈ t.sender.calls, (∃ before ∈ s.sender.calls, call.kind = before.kind ∧ call.pack = before.pack) ∨
      a = .send call.kind call.pack := fun call member => origin taken member
  obtain ⟨sender, sent, rfl⟩ := Option.map_eq_some_iff.mp taken
  have moves := Sender.moves_of_step sent
  have small := asking.smallPairs asks
  have keyed := asks.distinct.keyed small moves
  refine ⟨moves.distinct small asks.distinct, moves.routed keyed asks.routed, fun call member request => ?_,
    fun call member wait => ?_⟩
  · rcases later call member with ⟨before, inside, _, pack⟩ | rfl
    · rw [pack] at request ⊢
      exact asks.small before inside request
    · exact (asking.2 request).1
  · rcases later call member with ⟨before, inside, kind, pack⟩ | rfl
    · rw [pack]
      exact asks.waits before inside (kind.symm.trans wait)
    · exact asking.1 wait

theorem start_carries (started : start seqGenerator = some s) : s.Carries common seqGenerator :=
  ⟨start_delivers started, start_events started⟩

theorem start_asks (started : start seqGenerator = some s) : s.Asks := by
  obtain ⟨loop, _, rfl⟩ := Option.map_eq_some_iff.mp started
  exact ⟨Sender.start_distinct, Sender.start_routed, nofun, nofun⟩

theorem sender_events (taken : s.step (.sender a) = some t) : t.events = s.events := by
  obtain ⟨_, _, rfl⟩ := Option.map_eq_some_iff.mp taken
  rfl

theorem Carries.sender (short : common.length < deviceIdSize) (nulFree : 0 ∉ common)
    (carries : s.Carries common seqGenerator) (legal : a.Sends (Packet.Deliverable common))
    (serial : s.sender.Serial a) (taken : s.step (.sender a) = some t) : t.Carries common seqGenerator :=
  have fair : s.Fair common (.sender a) := ⟨legal, serial⟩
  ⟨carries.delivers.step short nulFree fair taken, (sender_events taken).symm ▸ carries.honest⟩

/-- The end of a read adds to what the other side has done. -/
theorem Carries.read (short : common.length < deviceIdSize) (nulFree : 0 ∉ common)
    (carries : s.Carries common seqGenerator) {b : Action} (reads : ∀ a, b ≠ .sender a) (taken : s.step b = some t) :
    t.Carries common seqGenerator ∧ t.sender = s.sender ∧ s.events <+: t.events := by
  obtain ⟨same, more, grown, honest⟩ := read_grows reads taken
  have fair : s.Fair common b := by
    cases b with
    | sender a => exact absurd rfl (reads a)
    | _ => trivial
  exact ⟨⟨carries.delivers.step short nulFree fair taken, grown ▸ carries.honest.append honest⟩, same, more, grown.symm⟩

end Link

namespace RpcSystem
variable {Handler : Type*} {service : Service Handler} {Conn : Type}

section Setting
variable [DecidableEq Conn] {s : RpcSystem service Conn} {c : Conn} {link : Link}

theorem setUp_forall {P : Conn → Link → Prop} (mine : P c link) (others : ∀ other, P other (s.up other)) :
    ∀ other, P other ((s.setUp c link).up other) :=
  (Function.forall_update_iff s.up P).mpr ⟨mine, fun other _ => others other⟩

theorem setDown_forall {P : Conn → Link → Prop} (mine : P c link) (others : ∀ other, P other (s.down other)) :
    ∀ other, P other ((s.setDown c link).down other) :=
  (Function.forall_update_iff s.down P).mpr ⟨mine, fun other _ => others other⟩

/-- A call on the way up has been there, or has just been started. -/
theorem origin_setUp {a : Sender.Action} (moved : (s.up c).step (.sender a) = some link) {other : Conn} {i : Nat}
    {later : Call} (found : ((s.setUp c link).up other).sender.calls[i]? = some later) :
    (∃ call, (s.up other).sender.calls[i]? = some call ∧ later.pack = call.pack) ∨
      other = c ∧ a = .send later.kind later.pack ∧ i = (s.up c).sender.calls.length := by
  change (Function.update s.up c link other).sender.calls[i]? = some later at found
  by_cases same : other = c
  · subst same
    rw [Function.update_self] at found
    obtain ⟨sender, sent, rfl⟩ := Option.map_eq_some_iff.mp moved
    rcases (Sender.moves_of_step sent).found found with ⟨call, before, advances⟩ | ⟨new, at_end, _⟩
    · exact Or.inl ⟨call, before, advances.same.2⟩
    · exact Or.inr ⟨rfl, new, at_end⟩
  · rw [Function.update_of_ne same] at found
    exact Or.inl ⟨later, found, rfl⟩

theorem up_of_stepDown {a : Sender.Action} {t : RpcSystem service Conn} (taken : s.stepDown c a = some t) :
    t.up = s.up := by
  obtain ⟨_, _, rfl⟩ := Option.map_eq_some_iff.mp taken
  rfl

theorem down_of_stepUp {a : Sender.Action} {t : RpcSystem service Conn} (taken : s.stepUp c a = some t) :
    t.down = s.down := by
  obtain ⟨_, _, rfl⟩ := Option.map_eq_some_iff.mp taken
  rfl

theorem append_newEvents {old : Link} (grown : old.events <+: link.events) :
    old.events ++ newEvents old link = link.events := by
  obtain ⟨more, grown⟩ := grown
  have new : newEvents old link = more := by
    change link.events.drop old.events.length = more
    rw [← grown, List.drop_left]
  rw [new, grown]

/-- A step of a sender does not touch what has been received. -/
theorem up_events_of_stepUp {a : Sender.Action} {t : RpcSystem service Conn} (taken : s.stepUp c a = some t) :
    (fun c => (t.up c).events) = fun c => (s.up c).events := by
  obtain ⟨link, moved, rfl⟩ := Option.map_eq_some_iff.mp taken
  funext other
  exact setUp_forall (P := fun other link => link.events = (s.up other).events) (Link.sender_events moved)
    (fun _ => rfl) other

end Setting

section Pushes
variable {ownId : Conn → List UInt8}

variable (ownId) in
/-- The other way round: the responses sent up are the acknowledgements of
requests that have come down, and a call of the server has got one that has
come up its own connection. -/
structure Pushed (up down : Conn → Link) : Prop where
  consistent : ∀ c, (down c).sender.Consistent
  small : ∀ c, ∀ call ∈ (down c).sender.calls, call.pack.rsp = false → call.pack.seq.toNat < 2 ^ 31
  waits : ∀ c, ∀ call ∈ (down c).sender.calls, call.kind = .waitRsp → call.pack.rsp = false
  same : ∀ c c', ownId c = ownId c' → ∀ first ∈ (down c).sender.calls, ∀ second ∈ (down c').sender.calls,
    first.pack.rsp = false → second.pack.rsp = false → Sender.Matches first.pack second.pack → first.pack = second.pack
  acks : ∀ c, ∀ call ∈ (up c).sender.calls, call.pack.rsp = true →
    ∃ req ∈ requestsOf (down c).events, call.pack = (clientAck 0 req.deviceId req).1
  acked : ∀ c, ∀ call ∈ (down c).sender.calls, ∀ rsp, call.Got rsp →
    call.kind = .waitRsp ∧ .response rsp ∈ (up c).events ∧ Sender.Matches rsp call.pack

variable [DecidableEq Conn] {s : RpcSystem service Conn} {c : Conn} {link : Link} {a : Sender.Action}

theorem Pushed.stepUp (pushed : Pushed ownId s.up s.down) (moved : (s.up c).step (.sender a) = some link)
    (acks : ∀ kind pack, a = .send kind pack → pack.rsp = true →
      ∃ req ∈ requestsOf (s.down c).events, pack = (clientAck 0 req.deviceId req).1) :
    Pushed ownId (s.setUp c link).up s.down := by
  refine ⟨pushed.consistent, pushed.small, pushed.waits, pushed.same, ?_, ?_⟩
  · refine setUp_forall (P := fun c link => ∀ call ∈ link.sender.calls, call.pack.rsp = true →
      ∃ req ∈ requestsOf (s.down c).events, call.pack = (clientAck 0 req.deviceId req).1) ?_ pushed.acks
    intro later member response
    rcases Link.origin moved member with ⟨call, before, _, pack⟩ | new
    · rw [pack] at response ⊢
      exact pushed.acks c call before response
    · exact acks _ _ new response
  · refine setUp_forall (P := fun c link => ∀ call ∈ (s.down c).sender.calls, ∀ rsp, call.Got rsp →
      call.kind = .waitRsp ∧ .response rsp ∈ link.events ∧ Sender.Matches rsp call.pack) ?_ pushed.acked
    rw [Link.sender_events moved]
    exact pushed.acked c

theorem Pushed.stepDown (pushed : Pushed ownId s.up s.down) (moved : (s.down c).step (.sender a) = some link)
    (waits : ∀ kind pack, a = .send kind pack → kind = .waitRsp → pack.rsp = false)
    (pushes : ∀ kind pack, a = .send kind pack → pack.rsp = false → pack.seq.toNat < 2 ^ 31 ∧
      ∀ other, ownId other = ownId c → ∀ call ∈ (s.down other).sender.calls, call.pack.rsp = false →
        Sender.Matches pack call.pack → call.pack = pack)
    (received : ∀ rsp, a = .response rsp → .response rsp ∈ (s.up c).events ∧ rsp.seq.toNat < 2 ^ 31) :
    Pushed ownId s.up (s.setDown c link).down := by
  have origin : ∀ other, ∀ later ∈ ((s.setDown c link).down other).sender.calls,
      (∃ call ∈ (s.down other).sender.calls, later.kind = call.kind ∧ later.pack = call.pack) ∨
        other = c ∧ a = .send later.kind later.pack :=
    setDown_forall (P := fun other link => ∀ later ∈ link.sender.calls,
        (∃ call ∈ (s.down other).sender.calls, later.kind = call.kind ∧ later.pack = call.pack) ∨
          other = c ∧ a = .send later.kind later.pack)
      (fun later member => (Link.origin moved member).imp_right fun new => ⟨rfl, new⟩)
      fun other later member => Or.inl ⟨later, member, rfl, rfl⟩
  refine ⟨?_, fun other later member request => ?_, fun other later member wait => ?_,
    fun c₁ c₂ sameId first member second member' request request' related => ?_, ?_, ?_⟩
  · refine setDown_forall (P := fun _ link => link.sender.Consistent) ?_ pushed.consistent
    obtain ⟨sender, sent, rfl⟩ := Option.map_eq_some_iff.mp moved
    have moves := Sender.moves_of_step sent
    exact ⟨moves.owned (pushed.consistent c).owned, moves.pendingOwned (pushed.consistent c).pending⟩
  · rcases origin other later member with ⟨call, before, _, pack⟩ | ⟨_, new⟩
    · rw [pack] at request ⊢
      exact pushed.small other call before request
    · exact (pushes _ _ new request).1
  · rcases origin other later member with ⟨call, before, kind, pack⟩ | ⟨_, new⟩
    · rw [pack]
      exact pushed.waits other call before (kind.symm.trans wait)
    · exact waits _ _ new wait
  · rcases origin c₁ first member with ⟨call, before, _, pack⟩ | ⟨here, new⟩
    · rw [pack] at request related ⊢
      rcases origin c₂ second member' with ⟨call', before', _, pack'⟩ | ⟨here', new'⟩
      · rw [pack'] at request' related ⊢
        exact pushed.same c₁ c₂ sameId call before call' before' request request' related
      · exact (pushes _ _ new' request').2 c₁ (sameId.trans (congrArg ownId here')) call before request
          ⟨related.1.symm, related.2.symm⟩
    · rcases origin c₂ second member' with ⟨call', before', _, pack'⟩ | ⟨_, new'⟩
      · rw [pack'] at request' related ⊢
        exact ((pushes _ _ new request).2 c₂ (sameId.symm.trans (congrArg ownId here)) call' before' request' related).symm
      · exact (Sender.Action.send.inj (new.symm.trans new')).2
  · refine setDown_forall (P := fun c link => ∀ call ∈ (s.up c).sender.calls, call.pack.rsp = true →
      ∃ req ∈ requestsOf link.events, call.pack = (clientAck 0 req.deviceId req).1) ?_ pushed.acks
    rw [Link.sender_events moved]
    exact pushed.acks c
  · refine setDown_forall (P := fun c link => ∀ call ∈ link.sender.calls, ∀ rsp, call.Got rsp →
      call.kind = .waitRsp ∧ .response rsp ∈ (s.up c).events ∧ Sender.Matches rsp call.pack) ?_ pushed.acked
    obtain ⟨sender, sent, rfl⟩ := Option.map_eq_some_iff.mp moved
    refine (Sender.moves_of_step sent).got (pushed.consistent c)
      (P := fun call rsp => call.kind = .waitRsp ∧ .response rsp ∈ (s.up c).events ∧ Sender.Matches rsp call.pack)
      (fun _ _ _ => id) (fun rsp response call member wait key => ?_) (pushed.acked c)
    obtain ⟨there, small⟩ := received rsp response
    obtain ⟨cmd, seq⟩ := packetId_injective_of_lt (pushed.small c call member (pushed.waits c call member wait)) small key
    exact ⟨wait, there, cmd.symm, seq.symm⟩

theorem Pushed.readUp (pushed : Pushed ownId s.up s.down) (same : link.sender = (s.up c).sender)
    (grown : (s.up c).events <+: link.events) : Pushed ownId (s.setUp c link).up s.down := by
  refine ⟨pushed.consistent, pushed.small, pushed.waits, pushed.same, ?_, ?_⟩
  · refine setUp_forall (P := fun c link => ∀ call ∈ link.sender.calls, call.pack.rsp = true →
      ∃ req ∈ requestsOf (s.down c).events, call.pack = (clientAck 0 req.deviceId req).1) ?_ pushed.acks
    rw [same]
    exact pushed.acks c
  · exact setUp_forall (P := fun c link => ∀ call ∈ (s.down c).sender.calls, ∀ rsp, call.Got rsp →
      call.kind = .waitRsp ∧ .response rsp ∈ link.events ∧ Sender.Matches rsp call.pack)
      (fun call member rsp got => (pushed.acked c call member rsp got).imp_right (And.imp_left (grown.subset ·)))
      pushed.acked

theorem Pushed.readDown (pushed : Pushed ownId s.up s.down) (same : link.sender = (s.down c).sender)
    (grown : (s.down c).events <+: link.events) : Pushed ownId s.up (s.setDown c link).down := by
  have senders : ∀ other, ((s.setDown c link).down other).sender = (s.down other).sender :=
    setDown_forall (P := fun other link => link.sender = (s.down other).sender) same fun _ => rfl
  refine ⟨fun other => ?_, fun other => ?_, fun other => ?_, fun c₁ c₂ => ?_, ?_, fun other => ?_⟩
  · rw [senders other]
    exact pushed.consistent other
  · rw [senders other]
    exact pushed.small other
  · rw [senders other]
    exact pushed.waits other
  · rw [senders c₁, senders c₂]
    exact pushed.same c₁ c₂
  · refine setDown_forall (P := fun c link => ∀ call ∈ (s.up c).sender.calls, call.pack.rsp = true →
      ∃ req ∈ requestsOf link.events, call.pack = (clientAck 0 req.deviceId req).1) (fun call member response => ?_)
      pushed.acks
    obtain ⟨req, before, ack⟩ := pushed.acks c call member response
    exact ⟨req, (grown.sublist.filterMap _).subset before, ack⟩
  · rw [senders other]
    exact pushed.acked other

end Pushes

section Guard
variable (ownId : Conn → List UInt8) (s : RpcSystem service Conn)

/-- A client asks what no other call asks under its device id, on whatever
connection. A heartbeat waits for no response. -/
def Fresh (c : Conn) : Sender.Action → Prop
  | .send kind pack => pack.rsp = false ∧ pack.seq.toNat < 2 ^ 31 ∧ (kind = .waitRsp → pack.cmd ≠ heartbeatCmd) ∧
      ∀ other, ownId other = ownId c → ∀ call ∈ (s.up other).sender.calls, call.pack.rsp = false →
        ¬Sender.Matches pack call.pack
  | _ => True

/-- A request of the server is a new one for its device id, or the same packet once more. -/
def Repeated (c : Conn) : Sender.Action → Prop
  | .send _ pack => pack.rsp = false ∧ pack.seq.toNat < 2 ^ 31 ∧
      ∀ other, ownId other = ownId c → ∀ call ∈ (s.down other).sender.calls, call.pack.rsp = false →
        Sender.Matches pack call.pack → call.pack = pack
  | _ => True

/-- The applications of both sides send requests under the device id of the
client, with small sequence numbers, and one frame after the other. The
response of a handler is not too long for a frame. -/
def Fair : Action service Conn → Prop
  | .client c a => a.Sends (Packet.Deliverable (ownId c)) ∧ (s.up c).sender.Serial a ∧ s.Fresh ownId c a
  | .server c a => a.Sends (Packet.Deliverable (ownId c)) ∧ (s.down c).sender.Serial a ∧ s.Repeated ownId c a
  | .respond h => ∀ rsp ∈ (s.server.tasks h).phase.response, rsp.body.bytes.length ≤ maxBodyLength
  | _ => True

variable {ownId} {s} {c : Conn}

theorem Fresh.asking {a : Sender.Action} (fresh : s.Fresh ownId c a) (own : ∀ rsp, a ≠ .response rsp) :
    (s.up c).Asking a ∧ ∀ kind pack, a = .send kind pack → pack.rsp = false → ∀ other, ownId other = ownId c →
      ∀ call ∈ (s.up other).sender.calls, call.pack.rsp = false → ¬Sender.Matches pack call.pack := by
  cases a with
  | send kind pack =>
    obtain ⟨request, small, ordinary, alone⟩ := fresh
    refine ⟨⟨fun wait => ⟨request, ordinary wait⟩, fun _ => ⟨small, alone c rfl⟩⟩, fun kind' pack' sends _ => ?_⟩
    cases sends
    exact alone
  | response rsp => exact absurd rfl (own rsp)
  | _ => exact ⟨trivial, nofun⟩

end Guard

variable [DecidableEq Handler] {hasher : List UInt8 → UInt64} {ownId : Conn → List UInt8} {seqGenerator : UInt32}
  {s t : RpcSystem service Conn} {heard : Conn → List Event} {c : Conn}

variable (hasher ownId seqGenerator) in
/-- Where everything comes from, when the server has taken notice of what it
has heard on each connection: a response that a call has got from the
connection down to it, a response sent down from a handler or from a heartbeat,
and a request that the server has from one connection, once. -/
structure Traced (s : RpcSystem service Conn) (heard : Conn → List Event) : Prop where
  ids : ∀ c, (ownId c).length < deviceIdSize ∧ 0 ∉ ownId c
  up : ∀ c, (s.up c).Carries (ownId c) seqGenerator
  asks : ∀ c, (s.up c).Asks
  down : ∀ c, (s.down c).Carries (ownId c) seqGenerator
  got : ∀ c, ∀ call ∈ (s.up c).sender.calls, ∀ rsp, call.Got rsp →
    call.kind = .waitRsp ∧ .response rsp ∈ (s.down c).events
  apart : ∀ (c c' : Conn) (i j : Nat) (first second : Call), ownId c = ownId c' →
    (s.up c).sender.calls[i]? = some first → (s.up c').sender.calls[j]? = some second →
    first.pack.rsp = false → second.pack.rsp = false → Sender.Matches first.pack second.pack → c = c' ∧ i = j
  answers : ∀ c, ∀ call ∈ (s.down c).sender.calls, call.pack.rsp = true → call.pack.seq.toNat < 2 ^ 31 ∧
    (call.pack.cmd = heartbeatCmd ∨ ∃ h, (c, call.pack) ∈ (s.server.tasks h).sent)
  pushed : Pushed ownId s.up s.down
  serves : s.server.Serves hasher ownId
  within : ∀ c, heard c <+: (s.up c).events
  seen : ∀ cmd, ∀ pack ∈ s.server.requests.admitted cmd, ∃ c, pack ∈ requestsOf (heard c)
  once : ∀ cmd, (s.server.requests.admitted cmd).Nodup

/-- A request that the server has been handed is the packet of a call of the client. -/
theorem Traced.request (traced : s.Traced hasher ownId seqGenerator heard) {pack : Packet}
    (member : pack ∈ requestsOf (s.up c).events) :
    pack.rsp = false ∧ pack.deviceId = ownId c ∧ pack.deviceId ≠ [] ∧ pack.seq ≠ 0 ∧ pack.seq.toNat < 2 ^ 31 ∧
      ∃ (i : Nat) (call : Call), (s.up c).sender.calls[i]? = some call ∧ call.pack = pack := by
  obtain ⟨id, inside⟩ := mem_requestsOf.mp member
  obtain ⟨decoded, request, named, _⟩ := (traced.up c).honest.request id pack inside
  obtain ⟨i, call, found, rfl⟩ := (traced.up c).delivers.sent (traced.ids c).1 (traced.ids c).2 (Link.mem_decoded.mpr decoded)
  have there := List.mem_of_getElem? found
  have legal := (traced.up c).delivers.legal call there
  exact ⟨request, legal.id.resolve_left named, named, legal.seq, (traced.asks c).small call there request,
    i, call, found, rfl⟩

/-- A response that a client has received is one that the server has sent. -/
theorem Traced.response (traced : s.Traced hasher ownId seqGenerator heard) {rsp : Packet}
    (member : .response rsp ∈ (s.down c).events) :
    rsp.seq.toNat < 2 ^ 31 ∧ (rsp.cmd = heartbeatCmd ∨ ∃ h, (c, rsp) ∈ (s.server.tasks h).sent) := by
  obtain ⟨decoded, response⟩ := (traced.down c).honest.response rsp member
  obtain ⟨i, call, found, rfl⟩ := (traced.down c).delivers.sent (traced.ids c).1 (traced.ids c).2 (Link.mem_decoded.mpr decoded)
  exact traced.answers c call (List.mem_of_getElem? found) response

/-- A request that a client has been handed is the packet of a call of the server. -/
theorem Traced.push (traced : s.Traced hasher ownId seqGenerator heard) {pack : Packet}
    (member : pack ∈ requestsOf (s.down c).events) :
    pack.rsp = false ∧ ∃ call ∈ (s.down c).sender.calls, call.pack = pack := by
  obtain ⟨id, handed⟩ := mem_requestsOf.mp member
  obtain ⟨decoded, request, _⟩ := (traced.down c).honest.request id pack handed
  obtain ⟨j, call, found, rfl⟩ :=
    (traced.down c).delivers.sent (traced.ids c).1 (traced.ids c).2 (Link.mem_decoded.mpr decoded)
  exact ⟨request, call, List.mem_of_getElem? found, rfl⟩

/-- A response that the server has received acknowledges a request that it has sent down this connection. -/
theorem Traced.ack (traced : s.Traced hasher ownId seqGenerator heard) {rsp : Packet}
    (member : .response rsp ∈ (s.up c).events) :
    ∃ call ∈ (s.down c).sender.calls, call.pack.rsp = false ∧ call.pack.seq ≠ 0 ∧
      call.pack ∈ requestsOf (s.down c).events ∧ rsp = (clientAck 0 call.pack.deviceId call.pack).1 := by
  obtain ⟨decoded, response⟩ := (traced.up c).honest.response rsp member
  obtain ⟨i, sent, found, rfl⟩ := (traced.up c).delivers.sent (traced.ids c).1 (traced.ids c).2 (Link.mem_decoded.mpr decoded)
  obtain ⟨req, inside, ack⟩ := traced.pushed.acks c sent (List.mem_of_getElem? found) response
  obtain ⟨request, call, there, rfl⟩ := traced.push inside
  exact ⟨call, there, request, ((traced.down c).delivers.legal call there).seq, inside, ack⟩

theorem clientAck_of_ne_zero {deviceId : List UInt8} {pack : Packet} (fresh : pack.seq ≠ 0) :
    (clientAck 0 deviceId pack).1 = ⟨pack.cmd, pack.seq, true, 0, deviceId, .empty⟩ := by
  rw [clientAck, buildRspPacket, Packet.construct_of_ne_zero fresh]

/-- Two connections that have handed on the same request are one. -/
theorem Traced.same_conn (traced : s.Traced hasher ownId seqGenerator heard) {c' : Conn} {pack : Packet}
    (member : pack ∈ requestsOf (s.up c).events) (member' : pack ∈ requestsOf (s.up c').events) : c = c' := by
  obtain ⟨request, own, _, _, _, i, call, found, same⟩ := traced.request member
  obtain ⟨_, own', _, _, _, j, call', found', same'⟩ := traced.request member'
  refine (traced.apart c c' i j call call' (own.symm.trans own') found found' ?_ ?_ ?_).1
  · rw [same, request]
  · rw [same', request]
  · rw [same, same']
    exact ⟨rfl, rfl⟩

/-- The server takes a step, and may have taken notice of more. -/
theorem Traced.server (traced : s.Traced hasher ownId seqGenerator heard) {b : RpcServer.Action service Conn}
    {server : RpcServer service Conn}
    (named : ∀ deviceId conn, b = .mapped deviceId (some conn) → ownId conn = deviceId) {heard' : Conn → List Event}
    (grows : ∀ c, heard c <+: heard' c) (within : ∀ c, heard' c <+: (s.up c).events)
    (arrived : ∀ pack, b = .arrive pack →
      pack ∉ s.server.requests.admitted pack.cmd ∧ ∃ c, pack ∈ requestsOf (heard' c))
    (taken : s.server.step hasher b = some server) :
    ({ s with server := server } : RpcSystem service Conn).Traced hasher ownId seqGenerator heard' := by
  have admitted := RpcServer.admitted_of_step traced.serves.own taken
  refine ⟨traced.ids, traced.up, traced.asks, traced.down, traced.got, traced.apart, fun c call member response => ?_,
    traced.pushed, traced.serves.step named taken, within, fun cmd pack member => ?_, fun cmd => ?_⟩
  · refine (traced.answers c call member response).imp_right (Or.imp_right fun ⟨h, sent⟩ => ⟨h, ?_⟩)
    rcases RpcServer.sent_of_step taken h with same | ⟨_, _, _, _, _, grown⟩
    · exact same ▸ sent
    · rw [grown]
      exact List.mem_append_left _ sent
  · rcases List.mem_append.mp ((admitted cmd).subset member) with old | new
    · obtain ⟨c, seen⟩ := traced.seen cmd pack old
      exact ⟨c, ((grows c).sublist.filterMap _).subset seen⟩
    · exact (arrived pack (RpcServer.arrive_of_arrivals new).1).2
  · refine (admitted cmd).nodup (List.nodup_append'.mpr ⟨traced.once cmd, ?_, fun pack old new => ?_⟩)
    · cases b.inner hasher with
      | none => exact List.nodup_nil
      | some inner => exact ServerRequests.arrivals_nodup cmd inner
    · obtain ⟨arrives, same⟩ := RpcServer.arrive_of_arrivals new
      exact (arrived pack arrives).1 (same ▸ old)

/-- The server takes notice of an event that is nothing to it. -/
theorem Traced.widen (traced : s.Traced hasher ownId seqGenerator heard) {heard' : Conn → List Event}
    (grows : ∀ c, heard c <+: heard' c) (within : ∀ c, heard' c <+: (s.up c).events) :
    s.Traced hasher ownId seqGenerator heard' :=
  { traced with
    within := within
    seen := fun cmd pack member =>
      let ⟨c, seen⟩ := traced.seen cmd pack member
      ⟨c, ((grows c).sublist.filterMap _).subset seen⟩ }

/-- A request that is handed on is one that the server has not been given before. -/
theorem Traced.new_request (traced : s.Traced hasher ownId seqGenerator heard) {id : List UInt8} {pack : Packet}
    (next : heard c ++ [.request id pack] <+: (s.up c).events) : pack ∉ s.server.requests.admitted pack.cmd := by
  intro admitted
  obtain ⟨c', seen⟩ := traced.seen _ _ admitted
  have here : pack ∈ requestsOf (s.up c).events := mem_requestsOf.mpr ⟨id, next.subset (by simp)⟩
  obtain rfl := traced.same_conn (((traced.within c').sublist.filterMap _).subset seen) here
  -- the packets of one connection are all different
  have nodup : (requestsOf (s.up c').events).Nodup := by
    refine (traced.up c').delivers.requests_nodup (traced.ids c').1 (traced.ids c').2 (traced.up c').honest
      fun i j first second found found' request same => ?_
    exact (traced.apart c' c' i j first second rfl found found' request (same ▸ request) (same ▸ ⟨rfl, rfl⟩)).2
  have twice : (requestsOf (heard c') ++ [pack]).Sublist (requestsOf (s.up c').events) := by
    have split : requestsOf (heard c' ++ [.request id pack]) = requestsOf (heard c') ++ [pack] := List.filterMap_append
    rw [← split]
    exact next.sublist.filterMap _
  exact List.disjoint_of_nodup_append (nodup.sublist twice) seen (List.mem_singleton_self pack)

/-- The request that a response of a handler answers has come up a connection
with the device id of the response. -/
theorem Traced.answered (traced : s.Traced hasher ownId seqGenerator heard) {h : Handler} {rsp : Packet}
    (built : rsp ∈ (s.server.tasks h).sent.map Prod.snd ++ (s.server.tasks h).phase.response.toList) :
    ∃ req c, s.server.Answers h rsp req ∧ req.cmd = rpcId hasher (service.rpcName h) ∧
      req ∈ requestsOf (s.up c).events := by
  obtain ⟨req, answers, given⟩ := traced.serves.answers built
  obtain ⟨own, admitted⟩ := traced.serves.given given
  obtain ⟨c, seen⟩ := traced.seen _ _ admitted
  exact ⟨req, c, answers, own, ((traced.within c).sublist.filterMap _).subset seen⟩

theorem start_traced (ids : ∀ c, (ownId c).length < deviceIdSize ∧ 0 ∉ ownId c)
    (started : start service Conn seqGenerator = some s) :
    s.Traced hasher ownId seqGenerator fun c => (s.up c).events := by
  obtain ⟨link, first, rfl⟩ := Option.map_eq_some_iff.mp started
  have silent : link.sender.calls = [] := by
    obtain ⟨loop, _, rfl⟩ := Option.map_eq_some_iff.mp first
    rfl
  refine ⟨ids, fun _ => Link.start_carries first, fun _ => Link.start_asks first, fun _ => Link.start_carries first,
    fun _ call member => ?_, fun _ _ i _ call _ _ found => ?_, fun _ call member => ?_, ?_, RpcServer.start_serves _,
    fun _ => List.prefix_rfl, fun cmd pack member => ?_, fun cmd => List.nodup_nil⟩
  · rw [silent] at member
    cases member
  · rw [silent] at found
    cases found
  · rw [silent] at member
    cases member
  · have start : link.sender = .start := by
      obtain ⟨loop, _, rfl⟩ := Option.map_eq_some_iff.mp first
      rfl
    refine ⟨fun _ => start ▸ Sender.start_consistent, ?_, ?_, ?_, ?_, ?_⟩ <;> simp [silent]
  · cases member

section Steps
variable [DecidableEq Conn] {a : Sender.Action}

theorem Traced.stepUp (traced : s.Traced hasher ownId seqGenerator heard)
    (legal : a.Sends (Packet.Deliverable (ownId c))) (serial : (s.up c).sender.Serial a) (asking : (s.up c).Asking a)
    (alone : ∀ kind pack, a = .send kind pack → pack.rsp = false → ∀ other, ownId other = ownId c →
      ∀ call ∈ (s.up other).sender.calls, call.pack.rsp = false → ¬Sender.Matches pack call.pack)
    (acks : ∀ kind pack, a = .send kind pack → pack.rsp = true →
      ∃ req ∈ requestsOf (s.down c).events, pack = (clientAck 0 req.deviceId req).1)
    (received : ∀ rsp, a = .response rsp → .response rsp ∈ (s.down c).events) (taken : s.stepUp c a = some t) :
    t.Traced hasher ownId seqGenerator heard := by
  obtain ⟨link, moved, rfl⟩ := Option.map_eq_some_iff.mp taken
  have carries := (traced.up c).sender (traced.ids c).1 (traced.ids c).2 legal serial moved
  refine ⟨traced.ids, ?_, ?_, traced.down, ?_, ?_, traced.answers, traced.pushed.stepUp moved acks, traced.serves, ?_,
    traced.seen, traced.once⟩
  · exact setUp_forall (P := fun c link => link.Carries (ownId c) seqGenerator) carries traced.up
  · exact setUp_forall (P := fun _ link => link.Asks) ((traced.asks c).step asking moved) traced.asks
  · refine setUp_forall (P := fun c link => ∀ call ∈ link.sender.calls, ∀ rsp, call.Got rsp →
      call.kind = .waitRsp ∧ .response rsp ∈ (s.down c).events) ?_ traced.got
    obtain ⟨sender, sent, rfl⟩ := Option.map_eq_some_iff.mp moved
    exact (Sender.moves_of_step sent).got (traced.asks c).distinct.consistent
      (P := fun call rsp => call.kind = .waitRsp ∧ .response rsp ∈ (s.down c).events)
      (fun _ _ _ => id) (fun rsp response _ _ wait _ => ⟨wait, received rsp response⟩) (traced.got c)
  · intro c₁ c₂ i j first second same found found' request request' related
    rcases origin_setUp moved found with ⟨call, before, pack⟩ | ⟨here, new, at_end⟩
    · rw [pack] at request related
      rcases origin_setUp moved found' with ⟨call', before', pack'⟩ | ⟨here', new', _⟩
      · rw [pack'] at request' related
        exact traced.apart c₁ c₂ i j call call' same before before' request request' related
      · have other := alone _ _ new' request' c₁ (same.trans (congrArg ownId here')) call (List.mem_of_getElem? before)
        exact absurd ⟨related.1.symm, related.2.symm⟩ (other request)
    · rcases origin_setUp moved found' with ⟨call', before', pack'⟩ | ⟨here', _, at_end'⟩
      · rw [pack'] at request' related
        have other := alone _ _ new request c₂ (same.symm.trans (congrArg ownId here)) call' (List.mem_of_getElem? before')
        exact absurd related (other request')
      · exact ⟨here.trans here'.symm, at_end.trans at_end'.symm⟩
  · exact setUp_forall (P := fun c link => heard c <+: link.events)
      ((Link.sender_events moved).symm ▸ traced.within c) traced.within

theorem Traced.stepDown (traced : s.Traced hasher ownId seqGenerator heard)
    (legal : a.Sends (Packet.Deliverable (ownId c))) (serial : (s.down c).sender.Serial a)
    (answer : ∀ kind pack, a = .send kind pack → pack.rsp = true → pack.seq.toNat < 2 ^ 31 ∧
      (pack.cmd = heartbeatCmd ∨ ∃ h, (c, pack) ∈ (s.server.tasks h).sent))
    (waits : ∀ kind pack, a = .send kind pack → kind = .waitRsp → pack.rsp = false)
    (pushes : ∀ kind pack, a = .send kind pack → pack.rsp = false → pack.seq.toNat < 2 ^ 31 ∧
      ∀ other, ownId other = ownId c → ∀ call ∈ (s.down other).sender.calls, call.pack.rsp = false →
        Sender.Matches pack call.pack → call.pack = pack)
    (received : ∀ rsp, a = .response rsp → .response rsp ∈ (s.up c).events ∧ rsp.seq.toNat < 2 ^ 31)
    (taken : s.stepDown c a = some t) : t.Traced hasher ownId seqGenerator heard := by
  obtain ⟨link, moved, rfl⟩ := Option.map_eq_some_iff.mp taken
  have carries := (traced.down c).sender (traced.ids c).1 (traced.ids c).2 legal serial moved
  refine ⟨traced.ids, traced.up, traced.asks, ?_, ?_, traced.apart, ?_,
    traced.pushed.stepDown moved waits pushes received, traced.serves, traced.within, traced.seen, traced.once⟩
  · exact setDown_forall (P := fun c link => link.Carries (ownId c) seqGenerator) carries traced.down
  · refine setDown_forall (P := fun c link => ∀ call ∈ (s.up c).sender.calls, ∀ rsp, call.Got rsp →
      call.kind = .waitRsp ∧ .response rsp ∈ link.events) ?_ traced.got
    rw [Link.sender_events moved]
    exact traced.got c
  · refine setDown_forall (P := fun c link => ∀ call ∈ link.sender.calls, call.pack.rsp = true →
      call.pack.seq.toNat < 2 ^ 31 ∧ (call.pack.cmd = heartbeatCmd ∨ ∃ h, (c, call.pack) ∈ (s.server.tasks h).sent))
      (fun later member response => ?_) traced.answers
    obtain ⟨sender, sent, rfl⟩ := Option.map_eq_some_iff.mp moved
    obtain ⟨i, found⟩ := List.mem_iff_getElem?.mp member
    rcases (Sender.moves_of_step sent).found found with ⟨call, before, advances⟩ | ⟨new, _⟩
    · rw [advances.same.2] at response ⊢
      exact traced.answers c call (List.mem_of_getElem? before) response
    · exact answer _ _ new response

/-- The server has taken notice of one more event. -/
def heardMore (heard : Conn → List Event) (c : Conn) (event : Event) : Conn → List Event :=
  Function.update heard c (heard c ++ [event])

theorem heardMore_self (event : Event) : heardMore heard c event c = heard c ++ [event] := Function.update_self _ _ _

theorem heardMore_grows (heard : Conn → List Event) (c : Conn) (event : Event) :
    ∀ other, heard other <+: heardMore heard c event other :=
  (Function.forall_update_iff heard fun other events => heard other <+: events).mpr
    ⟨List.prefix_append _ _, fun _ _ => List.prefix_rfl⟩

theorem Traced.heardMore_within (traced : s.Traced hasher ownId seqGenerator heard) {event : Event}
    (next : heard c ++ [event] <+: (s.up c).events) : ∀ other, heardMore heard c event other <+: (s.up other).events :=
  (Function.forall_update_iff heard fun other events => events <+: (s.up other).events).mpr
    ⟨next, fun other _ => traced.within other⟩

theorem Traced.serverEvent (traced : s.Traced hasher ownId seqGenerator heard) {event : Event}
    (next : heard c ++ [event] <+: (s.up c).events) (taken : s.serverEvent hasher c event = some t) :
    t.Traced hasher ownId seqGenerator (heardMore heard c event) ∧ t.up = s.up := by
  have member : event ∈ (s.up c).events := next.subset (by simp)
  have grows := heardMore_grows heard c event
  have within := traced.heardMore_within next
  cases event with
  | decoded pack =>
    cases taken
    exact ⟨traced.widen grows within, rfl⟩
  | refreshed =>
    cases taken
    exact ⟨traced.widen grows within, rfl⟩
  | gotDeviceId id =>
    change s.stepServer hasher (.mapped id (some c)) = some t at taken
    obtain ⟨server, moved, rfl⟩ := Option.map_eq_some_iff.mp taken
    refine ⟨traced.server (b := .mapped id (some c)) (fun deviceId conn mapped => ?_) grows within (by simp) moved, rfl⟩
    cases mapped
    obtain ⟨named, pack, decoded, rfl⟩ := (traced.up c).honest.named id member
    obtain ⟨i, call, found, rfl⟩ :=
      (traced.up c).delivers.sent (traced.ids c).1 (traced.ids c).2 (Link.mem_decoded.mpr decoded)
    exact (((traced.up c).delivers.legal call (List.mem_of_getElem? found)).id.resolve_left named).symm
  | disconnected id =>
    change s.stepServer hasher (.mapped id none) = some t at taken
    obtain ⟨server, moved, rfl⟩ := Option.map_eq_some_iff.mp taken
    exact ⟨traced.server (b := .mapped id none) (by simp) grows within (by simp) moved, rfl⟩
  | response pack =>
    change s.stepDown c (.response pack) = some t at taken
    obtain ⟨call, there, request, fresh, _, ack⟩ := traced.ack member
    refine ⟨(traced.widen grows within).stepDown (a := .response pack) trivial trivial (by simp) (by simp) (by simp)
      (fun rsp same => ?_) taken, up_of_stepDown taken⟩
    cases same
    refine ⟨member, ?_⟩
    rw [ack, clientAck_of_ne_zero fresh]
    exact traced.pushed.small c call there request
  | request id pack =>
    obtain ⟨middle, arrived, taken⟩ := Option.bind_eq_some_iff.mp taken
    obtain ⟨server, moved, rfl⟩ := Option.map_eq_some_iff.mp arrived
    have given := traced.server (b := .arrive pack) (by simp) grows within
      (fun other arrives => ?_) moved
    · split at taken
      · rename_i heartbeat
        obtain ⟨request, own, named, fresh, small, _⟩ := traced.request (mem_requestsOf.mpr ⟨id, member⟩)
        have built : (heartbeatResponse s.server.requests.seqGenerator pack).1 =
            ⟨pack.cmd, pack.seq, true, 0, pack.deviceId, .empty⟩ := by
          rw [heartbeatResponse, buildRspPacket, Packet.construct_of_ne_zero fresh]
        rw [built] at taken
        have legal : Packet.Deliverable (ownId c) ⟨pack.cmd, pack.seq, true, 0, pack.deviceId, .empty⟩ :=
          ⟨fresh, Nat.zero_le _, Or.inr own⟩
        refine ⟨given.stepDown (a := .send .detach _) legal trivial (fun kind rsp sends _ => ?_) (fun kind rsp sends wait => ?_)
          (fun kind rsp sends request => ?_) (by simp) taken, ?_⟩
        · cases sends
          exact ⟨small, Or.inl heartbeat⟩
        · cases sends
          cases wait
        · cases sends
          cases request
        · rw [up_of_stepDown taken]
      · cases taken
        exact ⟨given, rfl⟩
    · cases arrives
      refine ⟨traced.new_request next, c, mem_requestsOf.mpr ⟨id, ?_⟩⟩
      rw [heardMore_self]
      simp

theorem Traced.serverEvents {events : List Event} (traced : s.Traced hasher ownId seqGenerator heard)
    (next : heard c ++ events <+: (s.up c).events) (taken : events.foldlM (RpcSystem.serverEvent hasher c) s = some t) :
    t.Traced hasher ownId seqGenerator (Function.update heard c (heard c ++ events)) ∧ t.up = s.up := by
  induction events generalizing s heard with
  | nil =>
    cases taken
    rw [List.append_nil, Function.update_eq_self]
    exact ⟨traced, rfl⟩
  | cons event events ih =>
    obtain ⟨middle, first, rest⟩ := Option.bind_eq_some_iff.mp taken
    have split : heard c ++ event :: events = heardMore heard c event c ++ events := by
      rw [heardMore_self, List.append_assoc, List.singleton_append]
    rw [split] at next ⊢
    have here : heard c ++ [event] <+: (s.up c).events := by
      rw [heardMore_self] at next
      exact (List.prefix_append _ _).trans next
    obtain ⟨traced', same⟩ := traced.serverEvent here first
    obtain ⟨traced'', same'⟩ := ih traced' (same ▸ next) rest
    refine ⟨?_, same'.trans same⟩
    rwa [heardMore, Function.update_idem] at traced''

/-- The server's side of a connection has read on. -/
theorem Traced.reading (traced : s.Traced hasher ownId seqGenerator heard) {link : Link}
    (carries : link.Carries (ownId c) seqGenerator) (same : link.sender = (s.up c).sender)
    (grown : (s.up c).events <+: link.events) : (s.setUp c link).Traced hasher ownId seqGenerator heard := by
  have senders : ∀ other, ((s.setUp c link).up other).sender = (s.up other).sender :=
    setUp_forall (P := fun other link => link.sender = (s.up other).sender) same fun _ => rfl
  refine ⟨traced.ids, ?_, fun other => ?_, traced.down, fun other => ?_, fun c₁ c₂ => ?_, traced.answers,
    traced.pushed.readUp same grown, traced.serves, ?_, traced.seen, traced.once⟩
  · exact setUp_forall (P := fun c link => link.Carries (ownId c) seqGenerator) carries traced.up
  · obtain ⟨distinct, routed, small, waits⟩ := traced.asks other
    rw [← senders other] at distinct routed small waits
    exact ⟨distinct, routed, small, waits⟩
  · rw [senders other]
    exact traced.got other
  · rw [senders c₁, senders c₂]
    exact traced.apart c₁ c₂
  · exact setUp_forall (P := fun c link => heard c <+: link.events) ((traced.within c).trans grown) traced.within

theorem Traced.readUp (traced : s.Traced hasher ownId seqGenerator fun c => (s.up c).events) {b : Link.Action}
    (reads : ∀ a, b ≠ .sender a) (taken : s.readUp hasher c b = some t) :
    t.Traced hasher ownId seqGenerator fun c => (t.up c).events := by
  obtain ⟨link, read, taken⟩ := Option.bind_eq_some_iff.mp taken
  obtain ⟨carries, same, grown⟩ := (traced.up c).read (traced.ids c).1 (traced.ids c).2 reads read
  have whole := append_newEvents grown
  have here : ((s.setUp c link).up c).events = link.events := by
    change (Function.update s.up c link c).events = _
    rw [Function.update_self]
  obtain ⟨traced', same'⟩ := (traced.reading carries same grown).serverEvents
    (by rw [whole, here]) taken
  rw [whole] at traced'
  have heard : Function.update (fun c => (s.up c).events) c link.events = fun c => (t.up c).events := by
    rw [same']
    refine (funext fun other => ?_).symm
    change (Function.update s.up c link other).events = _
    by_cases mine : other = c
    · subst mine
      rw [Function.update_self, Function.update_self]
    · rw [Function.update_of_ne mine, Function.update_of_ne mine]
  rwa [heard] at traced'

theorem Traced.clientEvent (traced : s.Traced hasher ownId seqGenerator heard) {event : Event}
    (member : event ∈ (s.down c).events) (taken : s.clientEvent c event = some t) :
    t.Traced hasher ownId seqGenerator heard ∧ t.down = s.down ∧
      (fun c => (t.up c).events) = fun c => (s.up c).events := by
  cases event with
  | decoded pack =>
    cases taken
    exact ⟨traced, rfl, rfl⟩
  | refreshed =>
    cases taken
    exact ⟨traced, rfl, rfl⟩
  | gotDeviceId id =>
    cases taken
    exact ⟨traced, rfl, rfl⟩
  | disconnected id =>
    cases taken
    exact ⟨traced, rfl, rfl⟩
  | response pack =>
    change s.stepUp c (.response pack) = some t at taken
    have small : (s.up c).Asking (.response pack) := (traced.response member).1
    refine ⟨traced.stepUp (a := .response pack) trivial trivial small nofun nofun (fun rsp same => ?_) taken,
      down_of_stepUp taken, up_events_of_stepUp taken⟩
    cases same
    exact member
  | request id pack =>
    change s.stepUp c (.send .detach (clientAck 0 id pack).1) = some t at taken
    obtain ⟨decoded, _, named, rfl⟩ := (traced.down c).honest.request id pack member
    obtain ⟨i, call, found, rfl⟩ :=
      (traced.down c).delivers.sent (traced.ids c).1 (traced.ids c).2 (Link.mem_decoded.mpr decoded)
    obtain ⟨fresh, _, own⟩ := (traced.down c).delivers.legal call (List.mem_of_getElem? found)
    rw [clientAck_of_ne_zero fresh] at taken
    have legal : Packet.Deliverable (ownId c)
        ⟨call.pack.cmd, call.pack.seq, true, 0, call.pack.deviceId, .empty⟩ := ⟨fresh, Nat.zero_le _, own⟩
    have asking : (s.up c).Asking (.send .detach ⟨call.pack.cmd, call.pack.seq, true, 0, call.pack.deviceId, .empty⟩) :=
      ⟨nofun, nofun⟩
    refine ⟨traced.stepUp (a := .send .detach _) legal trivial asking (fun kind rsp sends request => ?_)
      (fun kind rsp sends _ => ?_) nofun taken, down_of_stepUp taken, up_events_of_stepUp taken⟩
    · cases sends
      cases request
    · cases sends
      exact ⟨call.pack, mem_requestsOf.mpr ⟨_, member⟩, (clientAck_of_ne_zero fresh).symm⟩

theorem Traced.clientEvents {events : List Event} (traced : s.Traced hasher ownId seqGenerator heard)
    (members : ∀ event ∈ events, event ∈ (s.down c).events)
    (taken : events.foldlM (RpcSystem.clientEvent c) s = some t) :
    t.Traced hasher ownId seqGenerator heard ∧ (fun c => (t.up c).events) = fun c => (s.up c).events :=
  (foldlM_invariant (I := fun t => t.Traced hasher ownId seqGenerator heard ∧ t.down = s.down ∧
      (fun c => (t.up c).events) = fun c => (s.up c).events) ⟨traced, rfl, rfl⟩
    (fun event inside s' t' ⟨traced, same, kept⟩ taken => by
      obtain ⟨traced', same', kept'⟩ := traced.clientEvent (same ▸ members event inside) taken
      exact ⟨traced', same'.trans same, kept'.trans kept⟩) taken).imp_right And.right

theorem Traced.readDown (traced : s.Traced hasher ownId seqGenerator heard) {b : Link.Action}
    (reads : ∀ a, b ≠ .sender a) (taken : s.readDown c b = some t) :
    t.Traced hasher ownId seqGenerator heard ∧ (fun c => (t.up c).events) = fun c => (s.up c).events := by
  obtain ⟨link, read, taken⟩ := Option.bind_eq_some_iff.mp taken
  obtain ⟨carries, same, grown⟩ := (traced.down c).read (traced.ids c).1 (traced.ids c).2 reads read
  have traced' : (s.setDown c link).Traced hasher ownId seqGenerator heard := by
    refine ⟨traced.ids, traced.up, traced.asks, ?_, ?_, traced.apart, ?_, traced.pushed.readDown same grown, traced.serves,
      traced.within, traced.seen, traced.once⟩
    · exact setDown_forall (P := fun c link => link.Carries (ownId c) seqGenerator) carries traced.down
    · refine setDown_forall (P := fun c link => ∀ call ∈ (s.up c).sender.calls, ∀ rsp, call.Got rsp →
        call.kind = .waitRsp ∧ .response rsp ∈ link.events) (fun call member rsp got => ?_) traced.got
      exact (traced.got c call member rsp got).imp_right (grown.subset ·)
    · refine setDown_forall (P := fun c link => ∀ call ∈ link.sender.calls, call.pack.rsp = true →
        call.pack.seq.toNat < 2 ^ 31 ∧ (call.pack.cmd = heartbeatCmd ∨ ∃ h, (c, call.pack) ∈ (s.server.tasks h).sent))
        ?_ traced.answers
      rw [same]
      exact traced.answers c
  refine traced'.clientEvents (fun event member => ?_) taken
  have here : ((s.setDown c link).down c).events = link.events := by
    change (Function.update s.down c link c).events = _
    rw [Function.update_self]
  rw [here]
  exact List.mem_of_mem_drop member

theorem Traced.respond (traced : s.Traced hasher ownId seqGenerator heard) {h : Handler}
    (small : ∀ rsp ∈ (s.server.tasks h).phase.response, rsp.body.bytes.length ≤ maxBodyLength)
    (taken : s.respond hasher h = some t) : t.Traced hasher ownId seqGenerator heard ∧ t.up = s.up := by
  obtain ⟨server, sent, taken⟩ := Option.bind_eq_some_iff.mp taken
  have traced' : ({ s with server := server } : RpcSystem service Conn).Traced hasher ownId seqGenerator heard :=
    traced.server (b := .send h) nofun (fun c => List.prefix_rfl) traced.within nofun sent
  rcases RpcServer.sent_of_step sent h with same | ⟨rsp, conn, _, sending, mapped, grown⟩
  · rw [same, List.drop_length] at taken
    cases taken
    exact ⟨traced', rfl⟩
  · rw [grown, List.drop_left] at taken
    have response : (s.server.tasks h).phase.response = some rsp := by rw [sending]; rfl
    have current : rsp ∈ (s.server.tasks h).sent.map Prod.snd ++ (s.server.tasks h).phase.response.toList := by
      simp [response]
    obtain ⟨req, c, ⟨message, result, _, _, gen, gen', built⟩, own, seen⟩ := traced.answered current
    obtain ⟨request, named, _, fresh, smallSeq, _⟩ := traced.request seen
    obtain ⟨isRsp, deviceId, ⟨cmd, seq⟩, _⟩ := Protobuf.response_of_build fresh built
    have legal : rsp.Deliverable (ownId conn) :=
      ⟨seq ▸ fresh, small rsp response, Or.inr (traced.serves.mapped _ _ mapped).symm⟩
    refine ⟨traced'.stepDown (a := .send .packet rsp) legal trivial (fun kind pack sends _ => ?_)
      (fun kind pack sends wait => ?_) (fun kind pack sends request => ?_) nofun taken, ?_⟩
    · cases sends
      refine ⟨seq ▸ smallSeq, Or.inr ⟨h, ?_⟩⟩
      rw [grown]
      exact List.mem_append_right _ (List.mem_singleton_self _)
    · cases sends
      cases wait
    · cases sends
      cases isRsp.symm.trans request
    · rw [up_of_stepDown taken]

/-- Responses are received from the connection only, not on their own. -/
theorem stepUp_of_step (taken : s.step hasher (.client c a) = some t) :
    (∀ rsp, a ≠ .response rsp) ∧ s.stepUp c a = some t := by
  cases a with
  | response rsp => cases taken
  | _ => exact ⟨by simp, taken⟩

theorem stepDown_of_step (taken : s.step hasher (.server c a) = some t) :
    (∀ rsp, a ≠ .response rsp) ∧ s.stepDown c a = some t := by
  cases a with
  | response rsp => cases taken
  | _ => exact ⟨by simp, taken⟩

/-- Nor does the server take notice of anything without its connections. -/
theorem stepServer_of_step {b : RpcServer.Action service Conn} (taken : s.step hasher (.inside b) = some t) :
    (∀ pack, b ≠ .arrive pack) ∧ (∀ deviceId conn, b ≠ .mapped deviceId conn) ∧ s.stepServer hasher b = some t := by
  cases b with
  | arrive pack => cases taken
  | mapped deviceId conn => cases taken
  | send h => cases taken
  | _ => exact ⟨by simp, by simp, taken⟩

theorem Traced.step (traced : s.Traced hasher ownId seqGenerator fun c => (s.up c).events)
    {a : Action service Conn} (fair : s.Fair ownId a) (taken : s.step hasher a = some t) :
    t.Traced hasher ownId seqGenerator fun c => (t.up c).events := by
  cases a with
  | client c a =>
    obtain ⟨legal, serial, fresh⟩ := fair
    obtain ⟨own, taken⟩ := stepUp_of_step taken
    obtain ⟨asking, alone⟩ := fresh.asking own
    rw [up_events_of_stepUp taken]
    refine traced.stepUp legal serial asking alone (fun kind pack same response => ?_)
      (fun rsp same => absurd same (own rsp)) taken
    subst same
    cases response.symm.trans fresh.1
  | server c a =>
    obtain ⟨legal, serial, repeated⟩ := fair
    obtain ⟨own, taken⟩ := stepDown_of_step taken
    rw [up_of_stepDown taken]
    refine traced.stepDown legal serial (fun kind pack same response => ?_) (fun kind pack same _ => ?_)
      (fun kind pack same _ => ?_) (fun rsp same => absurd same (own rsp)) taken
    · subst same
      cases response.symm.trans repeated.1
    · subst same
      exact repeated.1
    · subst same
      exact repeated.2
  | toServer c n =>
    obtain ⟨_, taken⟩ := Option.ite_none_right_eq_some.mp taken
    exact traced.readUp (b := .arrive n) nofun taken
  | serverLost c result => exact traced.readUp (b := .lose result) nofun taken
  | toClient c n =>
    obtain ⟨_, taken⟩ := Option.ite_none_right_eq_some.mp taken
    obtain ⟨traced', same⟩ := traced.readDown (b := .arrive n) nofun taken
    rw [same]
    exact traced'
  | clientLost c result =>
    obtain ⟨traced', same⟩ := traced.readDown (b := .lose result) nofun taken
    rw [same]
    exact traced'
  | inactive c =>
    change s.stepServer hasher (.mapped (s.up c).loop.conn.receiver.deviceId none) = some t at taken
    obtain ⟨server, moved, rfl⟩ := Option.map_eq_some_iff.mp taken
    exact traced.server (b := .mapped (s.up c).loop.conn.receiver.deviceId none) nofun (fun _ => List.prefix_rfl)
      (fun _ => List.prefix_rfl) nofun moved
  | inside b =>
    obtain ⟨noArrival, noMapping, taken⟩ := stepServer_of_step taken
    obtain ⟨server, moved, rfl⟩ := Option.map_eq_some_iff.mp taken
    exact traced.server (fun deviceId conn same => absurd same (noMapping deviceId _)) (fun _ => List.prefix_rfl)
      (fun _ => List.prefix_rfl) (fun pack same => absurd same (noArrival pack)) moved
  | respond h =>
    obtain ⟨traced', same⟩ := traced.respond fair taken
    rw [same]
    exact traced'

theorem run_traced {first : RpcSystem service Conn} {labels : List (Action service Conn)}
    (ids : ∀ c, (ownId c).length < deviceIdSize ∧ 0 ∉ ownId c) (started : start service Conn seqGenerator = some first)
    (run : Run (step hasher) (Fair ownId) first labels s) :
    s.Traced hasher ownId seqGenerator fun c => (s.up c).events :=
  run.invariant (I := fun s => s.Traced hasher ownId seqGenerator fun c => (s.up c).events)
    (start_traced ids started) fun _ _ _ traced fair taken => traced.step fair taken

end Steps
end RpcSystem
end Asyncmsg
