import Asyncmsg.Acknowledgement
import Asyncmsg.Library.Rendezvous

namespace Asyncmsg
open Transition

/-- The requests received by a `tcp_server`. Recorded are the heartbeats with
their responses, and who has been given which request. -/
structure ServerRequests (Caller : Type*) where
  running : Bool
  stopped : Bool
  stopHandler : Option Bool
  seqGenerator : UInt32
  channels : AList fun _ : UInt32 => Rendezvous Packet Caller receivedPacketChannelSize
  heartbeats : List (Packet × Packet)
  taken : List (Caller × Packet)

namespace ServerRequests
variable {Caller : Type*}

def start (seqGenerator : UInt32) : ServerRequests Caller := ⟨true, false, none, seqGenerator, ∅, [], []⟩

inductive Action (Caller : Type*)
  | receive (pack : Packet)
  | waitRequest (who : Caller) (cmd : UInt32)
  | leave (who : Caller) (cmd : UInt32)
  | stop (force : Bool)
  | runStop

variable (s : ServerRequests Caller)

def setChannel (cmd : UInt32) (channel : Rendezvous Packet Caller receivedPacketChannelSize) :
    ServerRequests Caller :=
  { s with channels := s.channels.insert cmd channel }

/-- `try_send`, whose result nobody reads. -/
def trySend (pack : Packet) (channel : Rendezvous Packet Caller receivedPacketChannelSize) : ServerRequests Caller :=
  match channel.trySend pack with
  | none => s
  | some (taker, next) =>
    { s.setChannel pack.cmd next with taken := s.taken ++ taker.toList.map fun who => (who, pack) }

def onReceiveRequest (pack : Packet) : ServerRequests Caller :=
  if pack.cmd = heartbeatCmd then
    let (rsp, seqGenerator) := heartbeatResponse s.seqGenerator pack
    { s with seqGenerator := seqGenerator, heartbeats := s.heartbeats ++ [(pack, rsp)] }
  else
    match s.channels.lookup pack.cmd with
    | none => s
    | some channel => s.trySend pack channel

/-- The task of `wait_request`: on a server that is stopped it throws. -/
def waitRequest (who : Caller) (cmd : UInt32) : ServerRequests Caller :=
  if s.stopped then s
  else
    let (message, next) := ((s.channels.lookup cmd).getD .empty).receive who
    { s.setChannel cmd next with taken := s.taken ++ message.toList.map fun pack => (who, pack) }

/-- `cancel` on every channel. -/
def cancelAll : ServerRequests Caller :=
  { s with
    channels := ⟨s.channels.entries.map fun entry => ⟨entry.1, entry.2.cancel⟩, by
      have keys := s.channels.nodupKeys
      rw [List.NodupKeys, List.keys] at keys ⊢
      rwa [List.map_map]⟩ }

def step [DecidableEq Caller] (s : ServerRequests Caller) (a : Action Caller) : Option (ServerRequests Caller) :=
  if s.running then
    match a with
    | .receive pack => some (s.onReceiveRequest pack)
    | .waitRequest who cmd => some (s.waitRequest who cmd)
    | .leave who cmd => (s.channels.lookup cmd).bind fun channel =>
      if who ∈ channel.receivers then some (s.setChannel cmd (channel.leave who)) else none
    | .stop force => if s.stopped then none else some { s with stopped := true, stopHandler := some force }
    | .runStop => s.stopHandler.bind fun force =>
      some { s.cancelAll with stopHandler := none, running := !force }
  else none

/-- The channel that stands under a command. -/
def At (cmd : UInt32) (channel : Rendezvous Packet Caller receivedPacketChannelSize) : Prop :=
  s.channels.lookup cmd = some channel

variable {s} {t : ServerRequests Caller} {cmd : UInt32}

theorem at_setChannel {key : UInt32} {channel next : Rendezvous Packet Caller receivedPacketChannelSize}
    (found : (s.setChannel cmd next).At key channel) : key = cmd ∧ channel = next ∨ key ≠ cmd ∧ s.At key channel := by
  unfold At setChannel at *
  by_cases same : key = cmd
  · subst same
    rw [AList.lookup_insert] at found
    exact Or.inl ⟨rfl, (Option.some.inj found).symm⟩
  · rw [AList.lookup_insert_ne same] at found
    exact Or.inr ⟨same, found⟩

theorem at_cancelAll {channel : Rendezvous Packet Caller receivedPacketChannelSize}
    (found : s.cancelAll.At cmd channel) : ∃ before, s.At cmd before ∧ channel = before.cancel := by
  have listed := AList.mem_lookup_iff.mp found
  obtain ⟨⟨key, before⟩, member, same⟩ := List.mem_map.mp listed
  cases same
  exact ⟨before, AList.mem_lookup_iff.mpr member, rfl⟩

/-- What a step does: it leaves the channels and the record alone, but for the
channel of one command, or it cancels all waits. -/
inductive Moves [DecidableEq Caller] (s : ServerRequests Caller) : Action Caller → ServerRequests Caller → Prop
  | heartbeat {pack : Packet} : pack.cmd = heartbeatCmd → Moves s (.receive pack) { s with
      seqGenerator := (heartbeatResponse s.seqGenerator pack).2
      heartbeats := s.heartbeats ++ [(pack, (heartbeatResponse s.seqGenerator pack).1)] }
  | ignored {pack : Packet} : Moves s (.receive pack) s
  | handed {pack : Packet} {channel next : Rendezvous Packet Caller receivedPacketChannelSize} {who : Caller} :
      s.At pack.cmd channel → channel.receivers = who :: next.receivers → next.buffer = [] →
      Moves s (.receive pack) { s.setChannel pack.cmd next with taken := s.taken ++ [(who, pack)] }
  | buffered {pack : Packet} {channel next : Rendezvous Packet Caller receivedPacketChannelSize} :
      s.At pack.cmd channel → next.receivers = [] → next.buffer = channel.buffer ++ [pack] →
      Moves s (.receive pack) (s.setChannel pack.cmd next)
  | refused {who : Caller} {cmd : UInt32} : s.stopped = true → Moves s (.waitRequest who cmd) s
  | fetched {who : Caller} {cmd : UInt32} {pack : Packet}
      {channel next : Rendezvous Packet Caller receivedPacketChannelSize} : s.stopped = false → s.At cmd channel →
      channel.buffer = pack :: next.buffer → next.receivers = channel.receivers →
      Moves s (.waitRequest who cmd) { s.setChannel cmd next with taken := s.taken ++ [(who, pack)] }
  | waits {who : Caller} {cmd : UInt32} {channel next : Rendezvous Packet Caller receivedPacketChannelSize} :
      s.stopped = false → (s.At cmd channel ∨ channel = .empty) → next.buffer = [] →
      next.receivers = channel.receivers ++ [who] → Moves s (.waitRequest who cmd) (s.setChannel cmd next)
  | leaves {who : Caller} {cmd : UInt32} {channel : Rendezvous Packet Caller receivedPacketChannelSize} :
      s.At cmd channel → Moves s (.leave who cmd) (s.setChannel cmd (channel.leave who))
  | stop {force : Bool} : s.stopped = false →
      Moves s (.stop force) { s with stopped := true, stopHandler := some force }
  | runStop {force : Bool} : s.stopHandler = some force →
      Moves s .runStop { s.cancelAll with stopHandler := none, running := !force }

theorem moves_of_step [DecidableEq Caller] {a : Action Caller} (taken : s.step a = some t) : Moves s a t := by
  obtain ⟨_, taken⟩ := Option.ite_none_right_eq_some.mp taken
  cases a with
  | receive pack =>
    cases taken
    unfold onReceiveRequest
    split
    · exact .heartbeat ‹_›
    · split
      · exact .ignored
      · rename_i channel found
        unfold trySend
        split
        · exact .ignored
        · rename_i taker next sent
          rcases Rendezvous.trySend_cases sent with ⟨who, rfl, waiting, empty⟩ | ⟨rfl, _, none, behind⟩
          · exact .handed found waiting empty
          · simp only [Option.toList_none, List.map_nil, List.append_nil]
            exact .buffered found none behind
  | waitRequest who cmd =>
    cases taken
    unfold waitRequest
    split
    · exact .refused ‹_›
    · rename_i accepting
      rw [Bool.not_eq_true] at accepting
      rcases Rendezvous.receive_cases ((s.channels.lookup cmd).getD .empty) who with
        ⟨pack, given, messages, same⟩ | ⟨given, _, empty, behind⟩
      · cases found : s.channels.lookup cmd with
        | none =>
          rw [found] at messages
          cases messages
        | some channel =>
          simp only [found, Option.getD_some] at given messages same ⊢
          simp only [given, Option.toList_some, List.map_cons, List.map_nil]
          exact .fetched accepting found messages same
      · simp only [given, Option.toList_none, List.map_nil, List.append_nil]
        refine .waits accepting ?_ empty behind
        cases found : s.channels.lookup cmd with
        | none => exact Or.inr rfl
        | some channel => exact Or.inl found
  | leave who cmd =>
    obtain ⟨channel, found, taken⟩ := Option.bind_eq_some_iff.mp taken
    obtain ⟨_, same⟩ := Option.ite_none_right_eq_some.mp taken
    cases same
    exact .leaves found
  | stop force =>
    obtain ⟨running, same⟩ := Option.ite_none_left_eq_some.mp taken
    cases same
    exact .stop (by simpa using running)
  | runStop =>
    obtain ⟨force, handler, same⟩ := Option.bind_eq_some_iff.mp taken
    cases same
    exact .runStop handler

end ServerRequests
end Asyncmsg
