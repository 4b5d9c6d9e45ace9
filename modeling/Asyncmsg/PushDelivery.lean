import Asyncmsg.ClientWindow
import Asyncmsg.RpcCalls
import Asyncmsg.WaitPush

namespace Asyncmsg
open Transition

namespace RpcSystem
variable {Handler : Type*} {service : Service Handler} {Conn : Type} {hasher : List UInt8 → UInt64}
  {s t : RpcSystem service Conn} {c : Conn}

/-- The connection whose client ends a read in this step. -/
def Action.reader : Action service Conn → Option Conn
  | .toClient c _ | .clientLost c _ => some c
  | _ => none

theorem down_of_stepServer [DecidableEq Handler] {a : RpcServer.Action service Conn}
    (taken : s.stepServer hasher a = some t) : t.down = s.down := by
  obtain ⟨_, _, rfl⟩ := Option.map_eq_some_iff.mp taken
  rfl

variable [DecidableEq Conn]

theorem down_events_of_stepDown {a : Sender.Action} (taken : s.stepDown c a = some t) (other : Conn) :
    (t.down other).events = (s.down other).events := by
  obtain ⟨link, moved, rfl⟩ := Option.map_eq_some_iff.mp taken
  exact setDown_forall (P := fun other link => link.events = (s.down other).events) (Link.sender_events moved)
    (fun _ => rfl) other

theorem down_of_clientEvent {event : Event} (taken : s.clientEvent c event = some t) : t.down = s.down := by
  cases event with
  | response pack => exact down_of_stepUp (a := .response pack) taken
  | request id pack => exact down_of_stepUp (a := .send .detach (clientAck 0 id pack).1) taken
  | _ =>
    cases taken
    rfl

theorem down_of_readDown {b : Link.Action} (taken : s.readDown c b = some t) :
    ∃ link, (s.down c).step b = some link ∧ t.down = (s.setDown c link).down := by
  obtain ⟨link, read, taken⟩ := Option.bind_eq_some_iff.mp taken
  exact ⟨link, read, foldlM_invariant (I := fun t => t.down = (s.setDown c link).down) rfl
    (fun _ _ _ _ same taken => (down_of_clientEvent taken).trans same) taken⟩

/-- What a client does at the end of a read is new on this connection only. -/
theorem down_events_of_readDown {b : Link.Action} (reads : ∀ sends, b ≠ .sender sends)
    (taken : s.readDown c b = some t) :
    (t.down c).events = (s.down c).events ++ newEvents (s.down c) (t.down c) ∧
      ∀ other, other ≠ c → (t.down other).events = (s.down other).events := by
  obtain ⟨link, read, same⟩ := down_of_readDown taken
  obtain ⟨_, more, grown, _⟩ := Link.read_grows reads read
  have here : t.down c = link := by
    rw [same]
    exact Function.update_self _ _ _
  refine ⟨by rw [here, append_newEvents ⟨more, grown.symm⟩], fun other different => ?_⟩
  rw [same]
  exact congrArg Link.events (Function.update_of_ne different _ _)

variable [DecidableEq Handler]

theorem down_events_of_serverEvent {event : Event} (taken : s.serverEvent hasher c event = some t) (other : Conn) :
    (t.down other).events = (s.down other).events := by
  cases event with
  | decoded pack =>
    cases taken
    rfl
  | refreshed =>
    cases taken
    rfl
  | gotDeviceId id => rw [down_of_stepServer (a := .mapped id (some c)) taken]
  | disconnected id => rw [down_of_stepServer (a := .mapped id none) taken]
  | response pack => exact down_events_of_stepDown (a := .response pack) taken other
  | request id pack =>
    obtain ⟨middle, arrived, taken⟩ := Option.bind_eq_some_iff.mp taken
    rw [← down_of_stepServer arrived]
    split at taken
    · exact down_events_of_stepDown taken other
    · cases taken
      rfl

theorem down_events_of_readUp {b : Link.Action} (taken : s.readUp hasher c b = some t) (other : Conn) :
    (t.down other).events = (s.down other).events := by
  obtain ⟨link, _, taken⟩ := Option.bind_eq_some_iff.mp taken
  exact foldlM_invariant (I := fun t => (t.down other).events = (s.down other).events) rfl
    (fun _ _ _ _ same taken => (down_events_of_serverEvent taken other).trans same) taken

theorem down_events_of_respond {h : Handler} (taken : s.respond hasher h = some t) (other : Conn) :
    (t.down other).events = (s.down other).events := by
  obtain ⟨server, _, taken⟩ := Option.bind_eq_some_iff.mp taken
  split at taken
  · exact (down_events_of_stepDown taken other).trans rfl
  · cases taken
    rfl

theorem readDown_of_reader {a : Action service Conn} (reads : a.reader = some c) (taken : s.step hasher a = some t) :
    ∃ b, (∀ sends, b ≠ .sender sends) ∧ s.readDown c b = some t := by
  cases a with
  | toClient c' n =>
    cases reads
    exact ⟨.arrive n, by simp, (Option.ite_none_right_eq_some.mp taken).2⟩
  | clientLost c' result =>
    cases reads
    exact ⟨.lose result, by simp, taken⟩
  | _ => cases reads

/-- Only the end of a read adds to what a client has done on a connection. -/
theorem down_events_of_step {a : Action service Conn} (taken : s.step hasher a = some t) (others : a.reader ≠ some c) :
    (t.down c).events = (s.down c).events := by
  cases a with
  | client c' b => rw [down_of_stepUp (stepUp_of_step taken).2]
  | server c' b => exact down_events_of_stepDown (stepDown_of_step taken).2 c
  | toServer c' n =>
    obtain ⟨_, taken⟩ := Option.ite_none_right_eq_some.mp taken
    exact down_events_of_readUp taken c
  | serverLost c' result => exact down_events_of_readUp (b := .lose result) taken c
  | inactive c' =>
    have moved : s.serverEvent hasher c' (.disconnected (s.up c').loop.conn.receiver.deviceId) = some t := taken
    exact down_events_of_serverEvent moved c
  | respond h => exact down_events_of_respond taken c
  | inside b => rw [down_of_stepServer (stepServer_of_step taken).2.2]
  | toClient c' n =>
    obtain ⟨_, reads, read⟩ := readDown_of_reader rfl taken
    exact (down_events_of_readDown reads read).2 c fun same => others (congrArg some same.symm)
  | clientLost c' result =>
    obtain ⟨_, reads, read⟩ := readDown_of_reader rfl taken
    exact (down_events_of_readDown reads read).2 c fun same => others (congrArg some same.symm)

end RpcSystem

namespace Client
variable {c t : Client} {a : Client.Action} {pack : Packet} {cmd : UInt32}

/-- Of the requests listed each has come. -/
structure Caught (c : Client) : Prop where
  kept : c.Kept
  arrived : ∀ i < c.pushes.length, ∃ ack ∈ c.acks, ack.request = i

theorem start_caught (seqGenerator : UInt32) : (start seqGenerator).Caught := ⟨start_kept, by simp [start]⟩

theorem Caught.taken (caught : c.Caught) (whole : c.broken = false) {i : Nat} (listed : i < c.pushes.length) :
    i ∈ c.accepted := by
  obtain ⟨ack, member, rfl⟩ := caught.arrived i listed
  exact caught.kept.handled whole ack member

/-- Whatever is no arrival. -/
theorem Caught.quiet (caught : c.Caught) (built : a.built = []) (others : ∀ i deviceId, a ≠ .arrive i deviceId)
    (taken : c.step a = some t) : t.Caught ∧ t.pushes = c.pushes := by
  have timely : c.Timely a := by
    cases a with
    | push pack => cases built
    | arrive i deviceId => exact absurd rfl (others i deviceId)
    | _ => trivial
  rcases step_quiet taken with ⟨i, _, deviceId, arrives, _⟩ | ⟨acks, _, _, _, pushes, _⟩
  · exact absurd arrives (others i deviceId)
  · rw [built, List.append_nil] at pushes
    refine ⟨⟨caught.kept.step timely taken, ?_⟩, pushes⟩
    rw [pushes, acks]
    exact caught.arrived

theorem mem_pushes_of_acceptedOf (member : pack ∈ c.acceptedOf cmd) : pack ∈ c.pushes := by
  obtain ⟨_, _, found⟩ := List.mem_filterMap.mp (List.mem_filter.mp member).1
  exact List.mem_of_getElem? found

theorem Caught.mem_acceptedOf (caught : c.Caught) (come : pack ∈ c.pushes) (whole : c.broken = false) :
    pack ∈ c.acceptedOf pack.cmd := by
  obtain ⟨i, found⟩ := List.mem_iff_getElem?.mp come
  have taken := caught.taken whole (List.getElem?_eq_some_iff.mp found).1
  exact List.mem_filter.mpr ⟨List.mem_filterMap.mpr ⟨i, taken, found⟩, decide_eq_true rfl⟩

theorem Kept.acceptedOf_nodup (kept : c.Kept) (cmd : UInt32) : (c.acceptedOf cmd).Nodup := by
  refine (kept.exact.once.filterMap fun i j pack found found' => ?_).filter _
  exact (List.getElem?_inj (List.getElem?_eq_some_iff.mp found).1 kept.distinct.of_map).mp (found.trans found'.symm)

end Client

namespace PushClient
variable {Message : Type*} (proto : Protobuf Message) (id : UInt32) (s : PushClient Message)

/-- A request comes on one of the client's connections. It is listed when it
comes for the first time. -/
def arrive (deviceId : List UInt8) (pack : Packet) : Option (PushClient Message) :=
  (if pack ∈ s.client.pushes then some s else s.step proto id (.client (.push pack))).bind fun t =>
    t.step proto id (.client (.arrive (t.client.pushes.idxOf pack) deviceId))

/-- The table of recent requests has not forgotten a request that comes again,
and the channel has room for one that is new. -/
def Admits (pack : Packet) : Prop :=
  if pack ∈ s.client.pushes then pack.id ∈ s.client.recentlyReceivedRequest.m
  else ∀ channel ∈ s.client.channelAt pack.cmd, channel.Accepts

instance (pack : Packet) : Decidable (s.Admits pack) := inferInstanceAs (Decidable (ite _ _ _))

variable {proto id s} {t : PushClient Message} {a : Action} {pack : Packet} {deviceId : List UInt8}

theorem client_of_client {b : Client.Action} (others : ∀ cmd, b ≠ .waitRequest cmd)
    (taken : s.step proto id (.client b) = some t) : s.client.step b = some t.client := by
  cases b with
  | waitRequest cmd => exact absurd rfl (others cmd)
  | _ =>
    obtain ⟨client, moved, rfl⟩ := Option.map_eq_some_iff.mp taken
    rw [advance_client]
    exact moved

/-- The request is listed, and there is room for it. -/
theorem Handed.listed (handed : s.Handed proto id) (caught : s.client.Caught) (admits : s.Admits pack)
    (apart : ∀ other ∈ s.client.pushes, other.id = pack.id → other = pack) (whole : t.client.broken = false)
    (taken : (if pack ∈ s.client.pushes then some s else s.step proto id (.client (.push pack))) = some t)
    (deviceId : List UInt8) :
    t.client.Kept ∧ t.client.Timely (.arrive (t.client.pushes.idxOf pack) deviceId) ∧ t.client.acks = s.client.acks ∧
      (∀ other, other ∈ t.client.pushes ↔ other ∈ s.client.pushes ∨ other = pack) ∧
      ∀ i < t.client.pushes.length, i < s.client.pushes.length ∨ i = t.client.pushes.idxOf pack := by
  unfold Admits at admits
  split at taken
  · rename_i old
    cases taken
    rw [if_pos old] at admits
    refine ⟨caught.kept, fun other found => ?_, rfl, fun other => ?_, fun i => Or.inl⟩
    · cases (List.getElem?_idxOf old).symm.trans found
      rwa [if_pos (caught.taken whole (List.idxOf_lt_length_of_mem old))]
    · exact (or_iff_left_of_imp fun same => same ▸ old).symm
  · rename_i new
    rw [if_neg new] at admits
    have pushed := client_of_client (by simp) taken
    have own : ∀ other ∈ s.client.pushes, other.id ≠ pack.id := fun other inside same =>
      new (apart other inside same ▸ inside)
    have kept := caught.kept.step (a := .push pack) own pushed
    have at_end : (s.client.pushes ++ [pack]).idxOf pack = s.client.pushes.length := by
      rw [List.idxOf_append_of_notMem new, List.idxOf_cons_self, Nat.add_zero]
    have fresh : s.client.pushes.length ∉ s.client.accepted := fun old => lt_irrefl _ (handed.inOrder.pushed _ old)
    obtain ⟨_, same⟩ := Option.ite_none_right_eq_some.mp pushed
    generalize t.client = client at same kept
    cases same
    dsimp only [Client.Timely]
    rw [at_end]
    refine ⟨kept, fun other found => ?_, rfl, by simp, fun i inside => ?_⟩
    · rw [List.getElem?_concat_length] at found
      cases found
      rwa [if_neg fresh]
    · rw [List.length_append, List.length_singleton] at inside
      exact Nat.lt_succ_iff_lt_or_eq.mp inside

/-- A request that there is room for is among those that have come when it has arrived. -/
theorem Handed.arrive (handed : s.Handed proto id) (caught : s.client.Caught) (admits : s.Admits pack)
    (apart : ∀ other ∈ s.client.pushes, other.id = pack.id → other = pack)
    (taken : s.arrive proto id deviceId pack = some t) :
    t.Handed proto id ∧ t.client.Caught ∧
      ∀ other, other ∈ t.client.pushes ↔ other ∈ s.client.pushes ∨ other = pack := by
  obtain ⟨u, listed, taken⟩ := Option.bind_eq_some_iff.mp taken
  have arrived := client_of_client (by simp) taken
  obtain ⟨⟨_, unbroken⟩, done⟩ := Option.ite_none_right_eq_some.mp arrived
  obtain ⟨kept, timely, acks, pushes, indices⟩ :=
    handed.listed caught admits apart (by simpa using unbroken) listed deviceId
  have handed' : u.Handed proto id := by
    split at listed
    · cases listed
      exact handed
    · exact handed.step listed
  have kept' := kept.step timely arrived
  obtain ⟨other, _, same⟩ := Option.map_eq_some_iff.mp done
  obtain ⟨rsp, acks'⟩ := u.client.onReceiveRequest_acks (u.client.pushes.idxOf pack) other deviceId
  have pushes' := (u.client.onReceiveRequest_recent (u.client.pushes.idxOf pack) other deviceId).1
  rw [same] at acks' pushes'
  refine ⟨handed'.step taken, ⟨kept', fun i inside => ?_⟩, fun other => ?_⟩
  · rw [pushes'] at inside
    rw [acks', acks]
    rcases indices i inside with before | rfl
    · obtain ⟨ack, member, same⟩ := caught.arrived i before
      exact ⟨ack, List.mem_append_left _ member, same⟩
    · exact ⟨_, List.mem_append_right _ (List.mem_singleton_self _), rfl⟩
  · rw [pushes']
    exact pushes other

/-- A step of the application. -/
theorem caught_of_application (caught : s.client.Caught)
    (inner : ∀ b, a = .client b → b.built = [] ∧ ∀ i deviceId, b ≠ .arrive i deviceId)
    (taken : s.step proto id a = some t) : t.client.Caught ∧ t.client.pushes = s.client.pushes := by
  rcases client_of_step taken with same | ⟨b, moved, rfl | own⟩
  · rw [same]
    exact ⟨caught, rfl⟩
  · exact caught.quiet (a := .waitRequest id) rfl (by simp) moved
  · exact caught.quiet (inner b own).1 (inner b own).2 moved

end PushClient

/-- A server that pushes, its connections, and the clients at their ends with
the applications that call `wait_push`. A client has one connection after the other. -/
structure PushSystem {Handler : Type*} (service : Service Handler) (Conn Who : Type) (Message : Type*) where
  system : RpcSystem service Conn
  client : Who → PushClient Message

namespace PushSystem
variable {Handler : Type*} {service : Service Handler} {Conn Who : Type} {Message : Type*}

def start (service : Service Handler) (Conn Who : Type) (Message : Type*) (seqGenerator : UInt32) :
    Option (PushSystem service Conn Who Message) :=
  (RpcSystem.start service Conn seqGenerator).map fun system => ⟨system, fun _ => .start seqGenerator⟩

inductive Action (service : Service Handler) (Conn Who : Type)
  | network (a : RpcSystem.Action service Conn)
  | application (w : Who) (a : PushClient.Action)

section Sound
variable [DecidableEq Handler] (hasher : List UInt8 → UInt64) (owner : Conn → Who) (proto : Protobuf Message)
  (id : UInt32) (deviceId : Who → List UInt8) (seqGenerator : UInt32) (s : PushSystem service Conn Who Message)

/-- What the clients have listed has come on one of their connections. -/
structure Sound : Prop where
  traced : s.system.Traced hasher (fun c => deviceId (owner c)) seqGenerator fun c => (s.system.up c).events
  handed : ∀ w, (s.client w).Handed proto id
  caught : ∀ w, (s.client w).client.Caught
  listed : ∀ w, ∀ pack ∈ (s.client w).client.pushes, ∃ c, owner c = w ∧ pack ∈ requestsOf (s.system.down c).events

/-- The clients have listed all that has come. -/
def Informed : Prop := ∀ c, ∀ pack ∈ requestsOf (s.system.down c).events, pack ∈ (s.client (owner c)).client.pushes

variable {hasher owner proto id deviceId seqGenerator s} {c : Conn}

/-- The packet id tells apart what comes to one client, on any of its connections. -/
theorem Sound.apart (sound : s.Sound hasher owner proto id deviceId seqGenerator) {pack other : Packet}
    (member : pack ∈ requestsOf (s.system.down c).events) (listed : other ∈ (s.client (owner c)).client.pushes)
    (same : other.id = pack.id) : other = pack := by
  obtain ⟨c', owned, member'⟩ := sound.listed _ other listed
  obtain ⟨request, call, there, rfl⟩ := sound.traced.push member
  obtain ⟨request', call', there', rfl⟩ := sound.traced.push member'
  have pairs := packetId_injective_of_lt (sound.traced.pushed.small c' call' there' request')
    (sound.traced.pushed.small c call there request) same
  exact sound.traced.pushed.same c' c (congrArg deviceId owned) call' there' call there request' request pairs

end Sound

section Model
variable [DecidableEq Who] (hasher : List UInt8 → UInt64) (owner : Conn → Who) (proto : Protobuf Message)
  (id : UInt32) (s : PushSystem service Conn Who Message)

def setClient (w : Who) (client : PushClient Message) : PushSystem service Conn Who Message :=
  { s with client := Function.update s.client w client }

/-- What a client makes of an event of its connection, besides the answer to it. -/
def hear (c : Conn) (s : PushSystem service Conn Who Message) : Event → Option (PushSystem service Conn Who Message)
  | .request deviceId pack => ((s.client (owner c)).arrive proto id deviceId pack).map (s.setClient (owner c))
  | _ => some s

/-- There is room for the request that comes, if one does. -/
def Ready (c : Conn) : Event → Prop
  | .request _ pack => (s.client (owner c)).Admits pack
  | _ => True

/-- There is room for one request after the other. -/
def Admits (c : Conn) (s : PushSystem service Conn Who Message) : List Event → Prop
  | [] => True
  | event :: events => s.Ready owner c event ∧ ∀ t ∈ s.hear owner proto id c event, t.Admits c events

variable [DecidableEq Handler] [DecidableEq Conn]

def step (s : PushSystem service Conn Who Message) :
    Action service Conn Who → Option (PushSystem service Conn Who Message)
  | .network a => (s.system.step hasher a).bind fun system =>
    match a.reader with
    | some c => (RpcSystem.newEvents (s.system.down c) (system.down c)).foldlM (hear owner proto id c)
        { s with system := system }
    | none => some { s with system := system }
  | .application w a =>
    match a with
    | .client (.push _) | .client (.arrive _ _) => none
    | a => ((s.client w).step proto id a).map (s.setClient w)

/-- The system runs as it should, and the clients have room. -/
def Fair (deviceId : Who → List UInt8) (s : PushSystem service Conn Who Message) : Action service Conn Who → Prop
  | .network a => s.system.Fair (fun c => deviceId (owner c)) a ∧
      ∀ system ∈ s.system.step hasher a, ∀ c ∈ a.reader,
        Admits owner proto id c { s with system := system } (RpcSystem.newEvents (s.system.down c) (system.down c))
  | .application _ _ => True

end Model

variable {hasher : List UInt8 → UInt64} {owner : Conn → Who} {proto : Protobuf Message} {id : UInt32}
  {deviceId : Who → List UInt8} {seqGenerator : UInt32} {s t : PushSystem service Conn Who Message} {c : Conn}
  [DecidableEq Who]

theorem setClient_self (w : Who) (client : PushClient Message) : (s.setClient w client).client w = client :=
  Function.update_self _ _ _

theorem setClient_forall {P : Who → PushClient Message → Prop} {w : Who} {client : PushClient Message}
    (mine : P w client) (others : ∀ w, P w (s.client w)) : ∀ other, P other ((s.setClient w client).client other) :=
  (Function.forall_update_iff s.client P).mpr ⟨mine, fun other _ => others other⟩

variable [DecidableEq Handler]

theorem Sound.hear (sound : s.Sound hasher owner proto id deviceId seqGenerator) {event : Event}
    (member : event ∈ (s.system.down c).events) (ready : s.Ready owner c event)
    (taken : s.hear owner proto id c event = some t) :
    t.Sound hasher owner proto id deviceId seqGenerator ∧ t.system = s.system ∧
      (∀ w, ∀ pack ∈ (s.client w).client.pushes, pack ∈ (t.client w).client.pushes) ∧
      ∀ pack ∈ requestsOf [event], pack ∈ (t.client (owner c)).client.pushes := by
  cases event with
  | request deviceId pack =>
    obtain ⟨client, arrived, rfl⟩ := Option.map_eq_some_iff.mp taken
    have here : pack ∈ requestsOf (s.system.down c).events := mem_requestsOf.mpr ⟨deviceId, member⟩
    obtain ⟨handed, caught, pushes⟩ := (sound.handed (owner c)).arrive (sound.caught (owner c)) ready
      (fun other inside same => sound.apart here inside same) arrived
    refine ⟨⟨sound.traced, setClient_forall handed sound.handed,
      setClient_forall (P := fun _ client => client.client.Caught) caught sound.caught,
      setClient_forall (P := fun w client => ∀ pack ∈ client.client.pushes,
        ∃ c, owner c = w ∧ pack ∈ requestsOf (s.system.down c).events) (fun other inside => ?_) sound.listed⟩,
      rfl, ?_, fun other inside => ?_⟩
    · rcases (pushes other).mp inside with old | rfl
      · exact sound.listed _ other old
      · exact ⟨c, rfl, here⟩
    · exact setClient_forall (P := fun w client => ∀ pack ∈ (s.client w).client.pushes, pack ∈ client.client.pushes)
        (fun other inside => (pushes other).mpr (Or.inl inside)) fun _ _ inside => inside
    · cases List.mem_singleton.mp inside
      rw [setClient_self]
      exact (pushes pack).mpr (Or.inr rfl)
  | _ =>
    cases taken
    exact ⟨sound, rfl, fun _ _ inside => inside, by simp [requestsOf]⟩

theorem Sound.hearAll {events : List Event} (sound : s.Sound hasher owner proto id deviceId seqGenerator)
    (members : ∀ event ∈ events, event ∈ (s.system.down c).events) (admits : s.Admits owner proto id c events)
    (taken : events.foldlM (PushSystem.hear owner proto id c) s = some t) :
    t.Sound hasher owner proto id deviceId seqGenerator ∧ t.system = s.system ∧
      (∀ w, ∀ pack ∈ (s.client w).client.pushes, pack ∈ (t.client w).client.pushes) ∧
      ∀ pack ∈ requestsOf events, pack ∈ (t.client (owner c)).client.pushes := by
  induction events generalizing s with
  | nil =>
    cases taken
    exact ⟨sound, rfl, fun _ _ inside => inside, by simp [requestsOf]⟩
  | cons event events ih =>
    obtain ⟨middle, first, rest⟩ := Option.bind_eq_some_iff.mp taken
    obtain ⟨here, later⟩ := List.forall_mem_cons.mp members
    obtain ⟨sound', same, kept, new⟩ := sound.hear here admits.1 first
    obtain ⟨sound'', same', kept', new'⟩ := ih sound' (by rwa [same]) (admits.2 middle first) rest
    refine ⟨sound'', same'.trans same, fun w pack inside => kept' w pack (kept w pack inside), fun pack inside => ?_⟩
    have split : requestsOf (event :: events) = requestsOf [event] ++ requestsOf events :=
      List.filterMap_append (l := [event])
    rw [split] at inside
    rcases List.mem_append.mp inside with first | others
    · exact kept' _ pack (new pack first)
    · exact new' pack others

variable [DecidableEq Conn]

theorem Sound.network (sound : s.Sound hasher owner proto id deviceId seqGenerator) (informed : s.Informed owner)
    {a : RpcSystem.Action service Conn} (fair : s.Fair hasher owner proto id deviceId (.network a))
    (taken : s.step hasher owner proto id (.network a) = some t) :
    t.Sound hasher owner proto id deviceId seqGenerator ∧ t.Informed owner := by
  obtain ⟨system, moved, taken⟩ := Option.bind_eq_some_iff.mp taken
  obtain ⟨fair, admits⟩ := fair
  have traced := sound.traced.step fair moved
  cases reads : a.reader with
  | none =>
    rw [reads] at taken
    cases taken
    have same (c : Conn) : (system.down c).events = (s.system.down c).events :=
      RpcSystem.down_events_of_step moved (by simp [reads])
    exact ⟨⟨traced, sound.handed, sound.caught, by simpa only [same] using sound.listed⟩,
      by simpa only [Informed, same] using informed⟩
  | some c =>
    rw [reads] at taken
    obtain ⟨b, ends, read⟩ := RpcSystem.readDown_of_reader reads moved
    obtain ⟨grown, others⟩ := RpcSystem.down_events_of_readDown ends read
    have kept (other : Conn) : (s.system.down other).events <+: (system.down other).events := by
      by_cases same : other = c
      · rw [same, grown]
        exact List.prefix_append _ _
      · rw [others other same]
    have sound' : ({ s with system := system } : PushSystem service Conn Who Message).Sound hasher owner proto id
        deviceId seqGenerator :=
      ⟨traced, sound.handed, sound.caught, fun w pack inside =>
        let ⟨other, owned, member⟩ := sound.listed w pack inside
        ⟨other, owned, ((kept other).sublist.filterMap _).subset member⟩⟩
    obtain ⟨sound'', same, listed, new⟩ := sound'.hearAll
      (fun event inside => grown ▸ List.mem_append_right _ inside) (admits system moved c reads) taken
    refine ⟨sound'', fun other pack inside => ?_⟩
    rw [same] at inside
    by_cases mine : other = c
    · subst mine
      rw [show (system.down other).events = _ from grown, requestsOf, List.filterMap_append] at inside
      rcases List.mem_append.mp inside with old | arrived
      · exact listed _ pack (informed other pack old)
      · exact new pack arrived
    · change pack ∈ requestsOf (system.down other).events at inside
      rw [others other mine] at inside
      exact listed _ pack (informed other pack inside)

theorem Sound.application (sound : s.Sound hasher owner proto id deviceId seqGenerator) (informed : s.Informed owner)
    {w : Who} {a : PushClient.Action} (taken : s.step hasher owner proto id (.application w a) = some t) :
    t.Sound hasher owner proto id deviceId seqGenerator ∧ t.Informed owner := by
  have allowed : (∀ b, a = .client b → b.built = [] ∧ ∀ i deviceId, b ≠ .arrive i deviceId) ∧
      ((s.client w).step proto id a).map (s.setClient w) = some t := by
    cases a with
    | client b =>
      cases b with
      | push pack => cases taken
      | arrive i deviceId => cases taken
      | _ =>
        refine ⟨fun b same => ?_, taken⟩
        cases same
        exact ⟨rfl, by simp⟩
    | _ => exact ⟨by simp, taken⟩
  obtain ⟨client, moved, rfl⟩ := Option.map_eq_some_iff.mp allowed.2
  obtain ⟨caught, pushes⟩ := PushClient.caught_of_application (sound.caught w) allowed.1 moved
  have same : ∀ w', ((s.setClient w client).client w').client.pushes = (s.client w').client.pushes :=
    setClient_forall (P := fun w client => client.client.pushes = (s.client w).client.pushes) pushes fun _ => rfl
  refine ⟨⟨sound.traced, setClient_forall ((sound.handed w).step moved) sound.handed,
    setClient_forall (P := fun _ client => client.client.Caught) caught sound.caught, fun w' => ?_⟩, fun c => ?_⟩
  · rw [same]
    exact sound.listed w'
  · rw [same]
    exact informed c

omit [DecidableEq Who] [DecidableEq Conn] in
theorem start_sound (ids : ∀ w, (deviceId w).length < deviceIdSize ∧ 0 ∉ deviceId w)
    (started : start service Conn Who Message seqGenerator = some s) :
    s.Sound hasher owner proto id deviceId seqGenerator ∧ s.Informed owner := by
  obtain ⟨system, first, rfl⟩ := Option.map_eq_some_iff.mp started
  have traced : system.Traced hasher (fun c => deviceId (owner c)) seqGenerator fun c => (system.up c).events :=
    RpcSystem.start_traced (fun c => ids (owner c)) first
  refine ⟨⟨traced, fun _ => PushClient.start_handed, fun _ => Client.start_caught _, fun _ _ listed => ?_⟩,
    fun c pack come => ?_⟩
  · cases listed
  · -- nothing has been sent yet
    obtain ⟨_, call, sent, _⟩ := traced.push come
    obtain ⟨link, begun, rfl⟩ := Option.map_eq_some_iff.mp first
    obtain ⟨loop, _, rfl⟩ := Option.map_eq_some_iff.mp begun
    cases sent

theorem run_sound {first : PushSystem service Conn Who Message} {labels : List (Action service Conn Who)}
    (ids : ∀ w, (deviceId w).length < deviceIdSize ∧ 0 ∉ deviceId w)
    (started : start service Conn Who Message seqGenerator = some first)
    (run : Run (step hasher owner proto id) (Fair hasher owner proto id deviceId) first labels s) :
    s.Sound hasher owner proto id deviceId seqGenerator ∧ s.Informed owner :=
  run.invariant (I := fun s => s.Sound hasher owner proto id deviceId seqGenerator ∧ s.Informed owner)
    (start_sound ids started) fun s a t ⟨sound, informed⟩ fair taken => by
      cases a with
      | network a => exact sound.network informed fair taken
      | application w a => exact sound.application informed taken

/-- Pushes are delivered exactly once, end to end. The messages that the
`wait_push` calls of a client have been given and those still in its channel are
the messages of the requests that the channel has taken, in this order; it has
taken none twice, and only what the server has sent to this client. And every
push that the server has seen acknowledged is among them, however often it has
been tried and on however many connections. -/
theorem pushes_once {rpcName : List UInt8} {first : PushSystem service Conn Who Message}
    {labels : List (Action service Conn Who)} (ids : ∀ w, (deviceId w).length < deviceIdSize ∧ 0 ∉ deviceId w)
    (started : start service Conn Who Message seqGenerator = some first)
    (run : Run (step hasher owner proto (rpcId hasher rpcName))
      (Fair hasher owner proto (rpcId hasher rpcName) deviceId) first labels s) :
    (∀ w, (s.client w).returned ++ ((s.client w).client.buffered (rpcId hasher rpcName)).filterMap proto.pushMessage =
        ((s.client w).client.acceptedOf (rpcId hasher rpcName)).filterMap proto.pushMessage ∧
      ((s.client w).client.acceptedOf (rpcId hasher rpcName)).Nodup ∧
      ∀ pack ∈ (s.client w).client.acceptedOf (rpcId hasher rpcName),
        ∃ c, owner c = w ∧ ∃ call ∈ (s.system.down c).sender.calls, call.pack = pack) ∧
      ∀ c, ∀ call ∈ (s.system.down c).sender.calls, ∀ rsp, call.phase = .returned (some rsp) →
        (s.client (owner c)).client.broken = false → ∀ gen gen' id message,
          proto.buildRequestPacket hasher gen rpcName message id = some (call.pack, gen') →
          call.pack ∈ (s.client (owner c)).client.acceptedOf (rpcId hasher rpcName) ∧
            message ∈ (s.client (owner c)).returned ++
              ((s.client (owner c)).client.buffered (rpcId hasher rpcName)).filterMap proto.pushMessage := by
  obtain ⟨sound, informed⟩ := run_sound ids started run
  refine ⟨fun w => ⟨(sound.handed w).all, (sound.caught w).kept.acceptedOf_nodup _, fun pack taken => ?_⟩,
    fun c call member rsp returned whole gen gen' id message built => ?_⟩
  · obtain ⟨c, owned, come⟩ := sound.listed w pack (Client.mem_pushes_of_acceptedOf taken)
    exact ⟨c, owned, (sound.traced.push come).2⟩
  · obtain ⟨cmd, parsed⟩ := PushClient.pushMessage_of_build built
    have come := mem_requestsOf.mpr ⟨_, (sound.traced.acknowledged member (Or.inr returned)).1⟩
    have taken := (sound.caught (owner c)).mem_acceptedOf (informed c _ come) whole
    rw [cmd] at taken
    rw [(sound.handed (owner c)).all]
    exact ⟨taken, List.mem_filterMap.mpr ⟨_, taken, parsed⟩⟩

section Example
variable [Fintype Conn]

instance (c : Conn) (s : PushSystem service Conn Who Message) (event : Event) : Decidable (s.Ready owner c event) :=
  match event with
  | .request _ pack => inferInstanceAs (Decidable ((s.client (owner c)).Admits pack))
  | .decoded _ | .refreshed | .gotDeviceId _ | .disconnected _ | .response _ => inferInstanceAs (Decidable True)

instance decidableAdmits (c : Conn) :
    (s : PushSystem service Conn Who Message) → (events : List Event) → Decidable (s.Admits owner proto id c events)
  | _, [] => inferInstanceAs (Decidable True)
  | s, event :: events =>
    have (t : PushSystem service Conn Who Message) : Decidable (t.Admits owner proto id c events) :=
      decidableAdmits c t events
    inferInstanceAs (Decidable (_ ∧ ∀ t ∈ s.hear owner proto id c event, t.Admits owner proto id c events))

instance (s : PushSystem service Conn Who Message) (a : Action service Conn Who) :
    Decidable (s.Fair hasher owner proto id deviceId a) :=
  match a with
  | .network a => inferInstanceAs (Decidable (s.system.Fair (fun c => deviceId (owner c)) a ∧
      ∀ system ∈ s.system.step hasher a, ∀ c ∈ a.reader, Admits owner proto id c { s with system := system }
        (RpcSystem.newEvents (s.system.down c) (system.down c))))
  | .application _ _ => inferInstanceAs (Decidable True)

end Example

/-- A push that is tried again after its first try has timed out. Both copies come. -/
def twice : List (Action RpcServer.flagService Unit Unit) :=
  [.application () .call, .application () .request, .network (.server () (.send .waitRsp RpcSystem.flagPush)),
    .network (.server () (.transfer 0 87)), .network (.server () (.writeDone 0)), .network (.server () (.timeout 0)),
    .network (.server () (.resume 0)), .network (.server () (.send .waitRsp RpcSystem.flagPush)),
    .network (.server () (.transfer 1 87)), .network (.server () (.writeDone 1)), .network (.toClient () 174),
    .network (.client () (.runDetached 0)), .network (.client () (.transfer 0 87)),
    .network (.client () (.writeDone 0)), .network (.toServer () 87), .network (.server () (.resume 1))]

theorem pushes_once_twice :
    ∃ first s, Run (step (fun _ => 9) (fun _ => ()) boolMessage (rpcId (fun _ => 9) []))
        (Fair (fun _ => 9) (fun _ => ()) boolMessage (rpcId (fun _ => 9) []) fun _ => [0x61]) first twice s ∧
      (s.client ()).returned = [false] ∧
      (∀ w, (s.client w).returned ++ ((s.client w).client.buffered 9).filterMap boolMessage.pushMessage =
          ((s.client w).client.acceptedOf 9).filterMap boolMessage.pushMessage ∧
        ((s.client w).client.acceptedOf 9).Nodup ∧
        ∀ pack ∈ (s.client w).client.acceptedOf 9,
          ∃ c, () = w ∧ ∃ call ∈ (s.system.down c).sender.calls, call.pack = pack) ∧
      RpcSystem.flagPush ∈ (s.client ()).client.acceptedOf 9 := by
  have trace : ((start RpcServer.flagService Unit Unit Bool 0).bind fun first =>
      exec (step (fun _ => 9) (fun _ => ()) boolMessage 9) (Fair (fun _ => 9) (fun _ => ()) boolMessage 9 fun _ => [0x61])
        first twice).map (fun s => ((s.system.down ()).sender.calls.map fun call => (call.pack, call.phase),
          (s.client ()).returned, (s.client ()).client.broken)) =
      some ([(RpcSystem.flagPush, .threw .timeout),
        (RpcSystem.flagPush, .returned (some { RpcSystem.flagPush with rsp := true }))], [false], false) := by
    decide +kernel
  obtain ⟨s, done, view⟩ := Option.map_eq_some_iff.mp trace
  obtain ⟨first, started, done⟩ := Option.bind_eq_some_iff.mp done
  obtain ⟨calls, view⟩ := Prod.mk.inj view
  obtain ⟨returned, whole⟩ := Prod.mk.inj view
  obtain ⟨call, member, same⟩ := List.mem_map.mp (calls ▸ List.mem_cons_of_mem _ (List.mem_singleton_self _))
  obtain ⟨pack, acknowledged⟩ := Prod.mk.inj same
  have run : Run (step (fun _ => 9) (fun _ => ()) boolMessage (rpcId (fun _ => 9) []))
      (Fair (fun _ => 9) (fun _ => ()) boolMessage (rpcId (fun _ => 9) []) fun _ => [0x61]) first twice s := exec_run done
  obtain ⟨order, taken⟩ := pushes_once (by decide) started run
  have built : boolMessage.buildRequestPacket (fun _ => 9) 1 [] false [0x61] = some (call.pack, 2) := by
    rw [pack]
    decide
  exact ⟨first, s, run, returned, order, pack ▸ (taken () call member _ acknowledged whole 1 2 [0x61] false built).1⟩

end PushSystem
end Asyncmsg
