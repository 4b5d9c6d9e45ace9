import Asyncmsg.RequestOrder

namespace Asyncmsg
open Transition

namespace ServerRequests
variable {Caller : Type*} [DecidableEq Caller] {s t : ServerRequests Caller}

/-- The requests that one caller has been given. -/
def takenBy (s : ServerRequests Caller) (who : Caller) : List Packet :=
  (s.taken.filter fun entry => entry.1 = who).map Prod.snd

theorem takenBy_append {who : Caller} {pack : Packet} (taken : t.taken = s.taken ++ [(who, pack)]) (other : Caller) :
    t.takenBy other = s.takenBy other ++ if other = who then [pack] else [] := by
  unfold takenBy
  rw [taken, List.filter_append, List.map_append]
  split
  · rename_i same
    simp [same]
  · rename_i different
    simp [Ne.symm different]

/-- An arriving request goes to nobody, or to the first who waits for its command. -/
theorem handed_of_receive {pack : Packet} (taken : s.step (.receive pack) = some t) :
    t.taken = s.taken ∧ (∀ cmd, ((t.channelOf cmd).receivers).Sublist (s.channelOf cmd).receivers) ∨
      ∃ who, t.taken = s.taken ++ [(who, pack)] ∧
        (s.channelOf pack.cmd).receivers = who :: (t.channelOf pack.cmd).receivers ∧
        ∀ cmd, cmd ≠ pack.cmd → (t.channelOf cmd).receivers = (s.channelOf cmd).receivers := by
  cases moves_of_step taken with
  | heartbeat => exact Or.inl ⟨rfl, fun cmd => List.Sublist.refl _⟩
  | ignored => exact Or.inl ⟨rfl, fun cmd => List.Sublist.refl _⟩
  | @handed _ channel next who found waiting _ =>
    refine Or.inr ⟨who, rfl, ?_, fun cmd other => ?_⟩
    · change _ = who :: ((s.setChannel pack.cmd next).channelOf pack.cmd).receivers
      rw [channelOf_setChannel, if_pos rfl, channelOf_of_at found, waiting]
    · change ((s.setChannel pack.cmd next).channelOf cmd).receivers = _
      rw [channelOf_setChannel, if_neg other.symm]
  | @buffered _ channel next found none _ =>
    refine Or.inl ⟨rfl, fun cmd => ?_⟩
    rw [channelOf_setChannel]
    split
    · rw [none]
      exact List.nil_sublist _
    · exact List.Sublist.refl _

/-- A call of `wait_request` is given a request, or waits behind the others. -/
theorem handed_of_waitRequest {who : Caller} {cmd : UInt32} (accepting : s.stopped = false)
    (taken : s.step (.waitRequest who cmd) = some t) :
    t.taken = s.taken ∧ (∀ key, (t.channelOf key).receivers =
        (s.channelOf key).receivers ++ if cmd = key then [who] else []) ∨
      ∃ pack, t.taken = s.taken ++ [(who, pack)] ∧ ∀ key, (t.channelOf key).receivers = (s.channelOf key).receivers := by
  obtain ⟨_, done⟩ := Option.ite_none_right_eq_some.mp taken
  cases done
  have unfolded : s.waitRequest who cmd = s.serve cmd ((s.channelOf cmd).receive who).2
      (((s.channelOf cmd).receive who).1.toList.map fun pack => (who, pack)) := if_neg (by simp [accepting])
  rw [unfolded]
  rcases Rendezvous.receive_cases (s.channelOf cmd) who with ⟨pack, given, _, same⟩ | ⟨given, _, _, behind⟩
  · refine Or.inr ⟨pack, by rw [serve, given]; rfl, fun key => ?_⟩
    rw [channelOf_serve]
    split
    · rename_i here
      rw [same, here]
    · rfl
  · refine Or.inl ⟨by rw [serve, given]; exact List.append_nil _, fun key => ?_⟩
    rw [channelOf_serve]
    split
    · rename_i here
      rw [behind, here]
    · rw [List.append_nil]

end ServerRequests

/-- The handlers registered on a server: the name of each, and the messages it
takes and returns. -/
structure Service (Handler : Type*) where
  rpcName : Handler → List UInt8
  Req : Handler → Type
  Rsp : Handler → Type
  reqProto : ∀ h, Protobuf (Req h)
  rspProto : ∀ h, Protobuf (Rsp h)

/-- Where the coroutine of a handler stands in its loop. It ends when
`wait_request` throws, which is outside of its `try`, or when the handler
throws what is no `std::exception`. -/
inductive HandlerPhase (Req : Type)
  | calling
  | waiting
  | fetched (req : Packet)
  | handling (req : Packet) (message : Req)
  | sending (rsp : Packet)
  | writing
  | ended

/-- What has become of a request: its body has not been parsed, the handler has
thrown, or a response has been built from the handler's result. -/
inductive Fate (Req Rsp : Type)
  | unparsed
  | failed (message : Req)
  | answered (message : Req) (result : RpcResult Rsp) (rsp : Packet)

/-- How the call of a handler ends. -/
inductive HandlerEnd (Rsp : Type)
  | returned (result : RpcResult Rsp)
  | threw
  | threwOther

/-- A handler, with the requests it is done with and the responses that it has
called `send_packet` for, each with the connection it has been given to, if any. -/
structure HandlerTask (Req Rsp Conn : Type) where
  phase : HandlerPhase Req
  record : List (Packet × Fate Req Rsp)
  passed : List (Option Conn × Packet)

/-- The request that the loop is at. -/
def HandlerPhase.current {Req : Type} : HandlerPhase Req → Option Packet
  | .fetched req | .handling req _ => some req
  | _ => none

def HandlerPhase.response {Req : Type} : HandlerPhase Req → Option Packet
  | .sending rsp => some rsp
  | _ => none

def Fate.response {Req Rsp : Type} : Fate Req Rsp → Option Packet
  | .answered _ _ rsp => some rsp
  | _ => none

namespace HandlerTask
variable {Req Rsp Conn : Type} (task : HandlerTask Req Rsp Conn)

def start : HandlerTask Req Rsp Conn := ⟨.calling, [], []⟩

def goTo (phase : HandlerPhase Req) : HandlerTask Req Rsp Conn := { task with phase := phase }

/-- The loop is done with a request. -/
def close (req : Packet) (fate : Fate Req Rsp) (phase : HandlerPhase Req) : HandlerTask Req Rsp Conn :=
  { task with phase := phase, record := task.record ++ [(req, fate)] }

/-- `send_packet` gives the response to a connection, or to none. -/
def pass (conn : Option Conn) (rsp : Packet) : HandlerTask Req Rsp Conn :=
  { task with phase := if conn.isSome then .writing else .calling, passed := task.passed ++ [(conn, rsp)] }

/-- The responses that connections have been given. -/
def sent : List (Conn × Packet) :=
  task.passed.filterMap fun entry => entry.1.map fun conn => (conn, entry.2)

theorem sent_sublist_passed : (task.sent.map Prod.snd).Sublist (task.passed.map Prod.snd) := by
  unfold sent
  induction task.passed with
  | nil => exact List.Sublist.refl _
  | cons entry rest ih =>
    rcases entry with ⟨_ | conn, rsp⟩
    · exact ih.cons rsp
    · exact ih.cons_cons rsp

@[simp] theorem goTo_phase (phase : HandlerPhase Req) : (task.goTo phase).phase = phase := rfl

@[simp] theorem close_phase (req : Packet) (fate : Fate Req Rsp) (phase : HandlerPhase Req) :
    (task.close req fate phase).phase = phase := rfl

@[simp] theorem pass_phase (conn : Option Conn) (rsp : Packet) :
    (task.pass conn rsp).phase = if conn.isSome then .writing else .calling := rfl

end HandlerTask

/-- A `tcp_server` with registered handlers. Until it is stopped the map of the
connections is what these make it. It is `drained` when its `io_context` has run
out of work. -/
structure RpcServer {Handler : Type*} (service : Service Handler) (Conn : Type) where
  requests : ServerRequests Handler
  connectionMap : List UInt8 → Option Conn
  tasks : ∀ h, HandlerTask (service.Req h) (service.Rsp h) Conn
  drained : Bool

namespace RpcServer
variable {Handler : Type*} {service : Service Handler} {Conn : Type}

def start (service : Service Handler) (Conn : Type) (seqGenerator : UInt32) : RpcServer service Conn :=
  ⟨.start seqGenerator, fun _ => none, fun _ => .start, false⟩

/-- The sequence number generator is shared with the rest of the process: a
step that draws from it is labelled with the value it finds. -/
inductive Action (service : Service Handler) (Conn : Type)
  | arrive (pack : Packet)
  | mapped (deviceId : List UInt8) (conn : Option Conn)
  | call (h : Handler)
  | resume (h : Handler)
  | finish (h : Handler) (seqGenerator : UInt32) (result : HandlerEnd (service.Rsp h))
  | send (h : Handler)
  | written (h : Handler)
  | stop (force : Bool)
  | runStop
  | drain

/-- A handler has an executor of its own, and anyone may call `stop`; all else is
run by the `io_context` of the server. -/
def Action.onContext : Action service Conn → Bool
  | .resume _ | .finish _ _ _ | .stop _ => false
  | _ => true

variable [DecidableEq Handler] (hasher : List UInt8 → UInt64) (s : RpcServer service Conn)

def setTask (h : Handler) (task : HandlerTask (service.Req h) (service.Rsp h) Conn) : RpcServer service Conn :=
  { s with tasks := Function.update s.tasks h task }

/-- A handler that has been handed a request by this step goes on with it. -/
def wake (next : ServerRequests Handler) : RpcServer service Conn :=
  match next.taken.drop s.requests.taken.length with
  | (h, req) :: _ => { s.setTask h ((s.tasks h).goTo (.fetched req)) with requests := next }
  | [] => { s with requests := next }

/-- A cancelled wait throws. -/
def endWait {Req Rsp : Type} (task : HandlerTask Req Rsp Conn) : HandlerTask Req Rsp Conn :=
  match task.phase with
  | .waiting => task.goTo .ended
  | _ => task

/-- The task of `send_packet` for a response. What it throws is caught. -/
def sendPacket (h : Handler) (rsp : Packet) : RpcServer service Conn :=
  if s.requests.stopped then s.setTask h ((s.tasks h).pass none rsp)
  else s.setTask h ((s.tasks h).pass (s.connectionMap rsp.deviceId) rsp)

/-- What an action does where it is run. The `io_context` may run out of work as
soon as the stop handler has reset its guard. -/
def act (s : RpcServer service Conn) : Action service Conn → Option (RpcServer service Conn)
  | .arrive pack => (s.requests.step (.receive pack)).map s.wake
  | .mapped deviceId conn => some { s with connectionMap := Function.update s.connectionMap deviceId conn }
  | .call h =>
    match (s.tasks h).phase with
    | .calling =>
      (s.requests.step (.waitRequest h (rpcId hasher (service.rpcName h)))).map fun next =>
        if s.requests.stopped then s.setTask h ((s.tasks h).goTo .ended)
        else (s.setTask h ((s.tasks h).goTo .waiting)).wake next
    | _ => none
  | .resume h =>
    match (s.tasks h).phase with
    | .fetched req =>
      match (service.reqProto h).parseBody req with
      | .error _ => some (s.setTask h ((s.tasks h).close req .unparsed .calling))
      | .ok message => some (s.setTask h ((s.tasks h).goTo (.handling req message)))
    | _ => none
  | .finish h seqGenerator result =>
    match (s.tasks h).phase with
    | .handling req message =>
      match result with
      | .threw => some (s.setTask h ((s.tasks h).close req (.failed message) .calling))
      | .threwOther => some (s.setTask h ((s.tasks h).close req (.failed message) .ended))
      | .returned result =>
        ((service.rspProto h).buildResponsePacket seqGenerator req result).map fun (rsp, _) =>
          s.setTask h ((s.tasks h).close req (.answered message result rsp) (.sending rsp))
    | _ => none
  | .send h =>
    match (s.tasks h).phase with
    | .sending rsp => some (s.sendPacket h rsp)
    | _ => none
  | .written h =>
    match (s.tasks h).phase with
    | .writing => some (s.setTask h ((s.tasks h).goTo .calling))
    | _ => none
  | .stop force => (s.requests.step (.stop force)).map fun next => { s with requests := next }
  | .runStop => (s.requests.step .runStop).map fun next =>
      { s with
        requests := next
        connectionMap := fun _ => none
        tasks := fun h => if next.running then endWait (s.tasks h) else s.tasks h }
  | .drain =>
    if s.requests.stopped ∧ s.requests.stopHandler = none then some { s with drained := true } else none

/-- An `io_context` that has been stopped or has run out of work runs nothing. -/
def step (s : RpcServer service Conn) (a : Action service Conn) : Option (RpcServer service Conn) :=
  if a.onContext ∧ (¬s.requests.running ∨ s.drained) then none else s.act hasher a

variable {hasher} {s} {t : RpcServer service Conn}

/-- What a step does, by the action that names it. -/
inductive Moves (hasher : List UInt8 → UInt64) (s : RpcServer service Conn) :
    Action service Conn → RpcServer service Conn → Prop
  | arrive {pack next} : s.requests.step (.receive pack) = some next → Moves hasher s (.arrive pack) (s.wake next)
  | mapped {deviceId conn} : Moves hasher s (.mapped deviceId conn)
      { s with connectionMap := Function.update s.connectionMap deviceId conn }
  | call {h next} : (s.tasks h).phase = .calling → s.requests.stopped = false →
      s.requests.step (.waitRequest h (rpcId hasher (service.rpcName h))) = some next →
      Moves hasher s (.call h) ((s.setTask h ((s.tasks h).goTo .waiting)).wake next)
  | refused {h} : (s.tasks h).phase = .calling → s.requests.stopped = true →
      Moves hasher s (.call h) (s.setTask h ((s.tasks h).goTo .ended))
  | unparsed {h req ec} : (s.tasks h).phase = .fetched req → (service.reqProto h).parseBody req = .error ec →
      Moves hasher s (.resume h) (s.setTask h ((s.tasks h).close req .unparsed .calling))
  | parsed {h req message} : (s.tasks h).phase = .fetched req → (service.reqProto h).parseBody req = .ok message →
      Moves hasher s (.resume h) (s.setTask h ((s.tasks h).goTo (.handling req message)))
  | failed {h seqGenerator result req message phase} : (s.tasks h).phase = .handling req message →
      (phase = .calling ∨ phase = .ended) →
      Moves hasher s (.finish h seqGenerator result) (s.setTask h ((s.tasks h).close req (.failed message) phase))
  | answered {h seqGenerator result req message rsp gen'} : (s.tasks h).phase = .handling req message →
      (service.rspProto h).buildResponsePacket seqGenerator req result = some (rsp, gen') →
      Moves hasher s (.finish h seqGenerator (.returned result))
        (s.setTask h ((s.tasks h).close req (.answered message result rsp) (.sending rsp)))
  | unsent {h rsp} : (s.tasks h).phase = .sending rsp →
      (s.requests.stopped = true ∨ s.connectionMap rsp.deviceId = none) →
      Moves hasher s (.send h) (s.setTask h ((s.tasks h).pass none rsp))
  | sent {h rsp conn} : (s.tasks h).phase = .sending rsp → s.requests.stopped = false →
      s.connectionMap rsp.deviceId = some conn →
      Moves hasher s (.send h) (s.setTask h ((s.tasks h).pass (some conn) rsp))
  | written {h} : (s.tasks h).phase = .writing → Moves hasher s (.written h) (s.setTask h ((s.tasks h).goTo .calling))
  | stop {force next} : s.requests.step (.stop force) = some next →
      Moves hasher s (.stop force) { s with requests := next }
  | runStop {next} : s.requests.step .runStop = some next → Moves hasher s .runStop
      { s with
        requests := next
        connectionMap := fun _ => none
        tasks := fun h => if next.running then endWait (s.tasks h) else s.tasks h }
  | drain : s.requests.stopped = true → s.requests.stopHandler = none → Moves hasher s .drain { s with drained := true }

theorem moves_of_step {a : Action service Conn} (taken : s.step hasher a = some t) : Moves hasher s a t := by
  obtain ⟨_, taken⟩ := Option.ite_none_left_eq_some.mp taken
  cases a with
  | arrive pack =>
    obtain ⟨next, received, rfl⟩ := Option.map_eq_some_iff.mp taken
    exact .arrive received
  | mapped deviceId conn =>
    cases taken
    exact .mapped
  | call h =>
    simp only [act] at taken
    split at taken
    · rename_i calling
      obtain ⟨next, called, rfl⟩ := Option.map_eq_some_iff.mp taken
      split
      · exact .refused calling ‹_›
      · rename_i accepting
        exact .call calling (Bool.eq_false_iff.mpr accepting) called
    · cases taken
  | resume h =>
    simp only [act] at taken
    split at taken
    · rename_i fetched
      split at taken <;> cases taken
      · exact .unparsed fetched ‹_›
      · exact .parsed fetched ‹_›
    · cases taken
  | finish h seqGenerator result =>
    simp only [act] at taken
    split at taken
    · rename_i handling
      split at taken
      · cases taken
        exact .failed handling (Or.inl rfl)
      · cases taken
        exact .failed handling (Or.inr rfl)
      · obtain ⟨⟨rsp, gen'⟩, built, rfl⟩ := Option.map_eq_some_iff.mp taken
        exact .answered handling built
    · cases taken
  | send h =>
    simp only [act] at taken
    split at taken
    · rename_i rsp sending
      cases taken
      unfold sendPacket
      split
      · exact .unsent sending (Or.inl ‹_›)
      · rename_i accepting
        rcases mapped : s.connectionMap rsp.deviceId with _ | conn
        · exact .unsent sending (Or.inr mapped)
        · exact .sent sending (Bool.eq_false_iff.mpr accepting) mapped
    · cases taken
  | written h =>
    simp only [act] at taken
    split at taken
    · cases taken
      exact .written ‹_›
    · cases taken
  | stop force =>
    obtain ⟨next, stopped, rfl⟩ := Option.map_eq_some_iff.mp taken
    exact .stop stopped
  | runStop =>
    obtain ⟨next, stopped, rfl⟩ := Option.map_eq_some_iff.mp taken
    exact .runStop stopped
  | drain =>
    obtain ⟨⟨stopped, handled⟩, same⟩ := Option.ite_none_right_eq_some.mp taken
    cases same
    exact .drain stopped handled

end RpcServer

section Accounts
variable {Req Rsp Conn : Type} {reqProto : Protobuf Req} {rspProto : Protobuf Rsp}

variable (reqProto rspProto) in
/-- A fate that the request deserves: the handler has had the message of its
body, and the response is built from the request and what it has returned. -/
def Fate.Right (req : Packet) : Fate Req Rsp → Prop
  | .unparsed => ∃ ec, reqProto.parseBody req = .error ec
  | .failed message => reqProto.parseBody req = .ok message
  | .answered message result rsp => reqProto.parseBody req = .ok message ∧
      ∃ seqGenerator gen', rspProto.buildResponsePacket seqGenerator req result = some (rsp, gen')

variable (reqProto rspProto) in
/-- A handler accounts for the requests that it has been given: it is done with
them in their order, but for the one that it is at, and it has called
`send_packet` once for each response that it has built, in this order, but for
the one that it is at. -/
structure HandlerTask.Accounts (task : HandlerTask Req Rsp Conn) (given : List Packet) : Prop where
  books : task.record.map Prod.fst ++ task.phase.current.toList = given
  right : ∀ entry ∈ task.record, entry.2.Right reqProto rspProto entry.1
  message : ∀ req message, task.phase = .handling req message → reqProto.parseBody req = .ok message
  responses : task.passed.map Prod.snd ++ task.phase.response.toList =
    task.record.filterMap fun entry => entry.2.response

namespace HandlerTask
variable {task : HandlerTask Req Rsp Conn} {given : List Packet}

theorem start_accounts : (start : HandlerTask Req Rsp Conn).Accounts reqProto rspProto [] :=
  ⟨rfl, nofun, nofun, rfl⟩

/-- What connections have been given was built. -/
theorem Accounts.sent_sublist (accounts : task.Accounts reqProto rspProto given) :
    (task.sent.map Prod.snd ++ task.phase.response.toList).Sublist
      (task.record.filterMap fun entry => entry.2.response) := by
  rw [← accounts.responses]
  exact task.sent_sublist_passed.append_right _

/-- The loop goes on without a request or a response in hand. -/
theorem Accounts.goTo (accounts : task.Accounts reqProto rspProto given) (none : task.phase.current = none)
    (unbuilt : task.phase.response = Option.none) {phase : HandlerPhase Req} (none' : phase.current = Option.none)
    (none'' : phase.response = Option.none) :
    (task.goTo phase).Accounts reqProto rspProto given where
  books := by
    have books := accounts.books
    rw [none] at books
    simpa only [HandlerTask.goTo, none'] using books
  right := accounts.right
  message _ _ handling := by
    rw [show phase = _ from handling] at none'
    cases none'
  responses := by
    have responses := accounts.responses
    rw [unbuilt] at responses
    simpa only [HandlerTask.goTo, none''] using responses

theorem Accounts.fetch (accounts : task.Accounts reqProto rspProto given) (none : task.phase.current = none)
    (unbuilt : task.phase.response = Option.none) (req : Packet) :
    (task.goTo (.fetched req)).Accounts reqProto rspProto (given ++ [req]) where
  books := by
    have books := accounts.books
    rw [none, Option.toList_none, List.append_nil] at books
    rw [← books]
    rfl
  right := accounts.right
  message := nofun
  responses := by
    have responses := accounts.responses
    rw [unbuilt] at responses
    exact responses

theorem Accounts.handle (accounts : task.Accounts reqProto rspProto given) {req : Packet} {message : Req}
    (fetched : task.phase = .fetched req) (parsed : reqProto.parseBody req = .ok message) :
    (task.goTo (.handling req message)).Accounts reqProto rspProto given where
  books := by
    have books := accounts.books
    rwa [fetched] at books
  right := accounts.right
  message _ _ handling := by
    cases handling
    exact parsed
  responses := by
    have responses := accounts.responses
    rwa [fetched] at responses

/-- The loop is done with its request. -/
theorem Accounts.close (accounts : task.Accounts reqProto rspProto given) {req : Packet}
    (current : task.phase.current = some req) {fate : Fate Req Rsp} (right : fate.Right reqProto rspProto req)
    {phase : HandlerPhase Req} (none : phase.current = none) (response : phase.response = fate.response) :
    (task.close req fate phase).Accounts reqProto rspProto given where
  books := by
    have books := accounts.books
    rw [current] at books
    rw [← books]
    simp [HandlerTask.close, none]
  right entry member := by
    rcases List.mem_append.mp member with old | new
    · exact accounts.right entry old
    · rw [List.mem_singleton.mp new]
      exact right
  message _ _ handling := by
    rw [show phase = _ from handling] at none
    cases none
  responses := by
    have none' : task.phase.response = Option.none := by
      cases at' : task.phase with
      | sending rsp =>
        rw [at'] at current
        cases current
      | _ => rfl
    have responses := accounts.responses
    rw [none', Option.toList_none, List.append_nil] at responses
    simp only [HandlerTask.close, response, List.filterMap_append, responses]
    cases built : fate.response <;> simp [built]

/-- `send_packet` takes the response. -/
theorem Accounts.pass (accounts : task.Accounts reqProto rspProto given) {rsp : Packet}
    (sending : task.phase = .sending rsp) (conn : Option Conn) :
    (task.pass conn rsp).Accounts reqProto rspProto given where
  books := by
    have books := accounts.books
    rw [sending] at books
    cases conn <;> exact books
  right := accounts.right
  message _ _ handling := by cases conn <;> cases handling
  responses := by
    have responses := accounts.responses
    rw [sending] at responses
    rw [HandlerTask.pass, List.map_append]
    cases conn <;> simpa [HandlerPhase.response] using responses

/-- A cancelled wait leaves no request behind. -/
theorem Accounts.endWait (accounts : task.Accounts reqProto rspProto given) :
    (RpcServer.endWait task).Accounts reqProto rspProto given := by
  unfold RpcServer.endWait
  split
  · rename_i waiting
    exact accounts.goTo (by rw [waiting]; rfl) (by rw [waiting]; rfl) rfl rfl
  · exact accounts

end HandlerTask
end Accounts

namespace RpcServer
variable {Handler : Type*} {service : Service Handler} {Conn : Type} [DecidableEq Handler]
  {hasher : List UInt8 → UInt64} {s t : RpcServer service Conn}

variable (hasher) in
/-- The channels know of the handlers that wait, each for its own command. -/
structure Attended (s : RpcServer service Conn) (requests : ServerRequests Handler) : Prop where
  waiting : ∀ cmd, ∀ h ∈ (requests.channelOf cmd).receivers,
    (s.tasks h).phase = .waiting ∧ cmd = rpcId hasher (service.rpcName h)
  once : ∀ cmd, (requests.channelOf cmd).receivers.Nodup

variable (hasher) in
structure Sound (s : RpcServer service Conn) : Prop where
  attended : s.Attended hasher s.requests
  accounts : ∀ h, (s.tasks h).Accounts (service.reqProto h) (service.rspProto h) (s.requests.takenBy h)

theorem setTask_tasks (h other : Handler) (task : HandlerTask (service.Req h) (service.Rsp h) Conn) (ne : other ≠ h) :
    (s.setTask h task).tasks other = s.tasks other := Function.update_of_ne ne _ _

theorem setTask_self (h : Handler) (task : HandlerTask (service.Req h) (service.Rsp h) Conn) :
    (s.setTask h task).tasks h = task := Function.update_self _ _ _

/-- A handler that does not wait goes on by itself. -/
theorem Sound.setTask (sound : s.Sound hasher) {h : Handler}
    {task : HandlerTask (service.Req h) (service.Rsp h) Conn}
    (accounts : task.Accounts (service.reqProto h) (service.rspProto h) (s.requests.takenBy h))
    (busy : (s.tasks h).phase ≠ .waiting) : (s.setTask h task).Sound hasher where
  attended := by
    refine ⟨fun cmd other member => ?_, sound.attended.once⟩
    obtain ⟨waiting, own⟩ := sound.attended.waiting cmd other member
    have ne : other ≠ h := fun same => busy (same ▸ waiting)
    rw [setTask_tasks h other task ne]
    exact ⟨waiting, own⟩
  accounts other := by
    by_cases same : other = h
    · subst same
      rw [setTask_self]
      exact accounts
    · rw [setTask_tasks h other task same]
      exact sound.accounts other

/-- A step of the channels hands a request to a handler that has waited, or to nobody. -/
theorem Sound.wake (sound : s.Sound hasher) {next : ServerRequests Handler} (attended : s.Attended hasher next)
    (handed : next.taken = s.requests.taken ∨ ∃ h req, next.taken = s.requests.taken ++ [(h, req)] ∧
      (s.tasks h).phase = .waiting ∧ ∀ cmd, h ∉ (next.channelOf cmd).receivers) : (s.wake next).Sound hasher := by
  rcases handed with same | ⟨h, req, taken, waiting, gone⟩
  · have unfolded : s.wake next = { s with requests := next } := by
      rw [RpcServer.wake, same, List.drop_length]
    rw [unfolded]
    refine ⟨⟨attended.waiting, attended.once⟩, fun h => ?_⟩
    have given : next.takenBy h = s.requests.takenBy h := by rw [ServerRequests.takenBy, same, ServerRequests.takenBy]
    rw [given]
    exact sound.accounts h
  · have unfolded : s.wake next = { s.setTask h ((s.tasks h).goTo (.fetched req)) with requests := next } := by
      rw [RpcServer.wake, taken, List.drop_left]
    rw [unfolded]
    refine ⟨⟨fun cmd other member => ?_, attended.once⟩, fun other => ?_⟩
    · have ne : other ≠ h := fun same => gone cmd (same ▸ member)
      change ((s.setTask h _).tasks other).phase = .waiting ∧ _
      rw [setTask_tasks h other _ ne]
      exact attended.waiting cmd other member
    · change ((s.setTask h _).tasks other).Accounts _ _ _
      rw [ServerRequests.takenBy_append taken]
      by_cases same : other = h
      · subst same
        rw [setTask_self, if_pos rfl]
        exact (sound.accounts other).fetch (by rw [waiting]; rfl) (by rw [waiting]; rfl) req
      · rw [setTask_tasks h other _ same, if_neg same, List.append_nil]
        exact sound.accounts other

theorem Sound.arrive (sound : s.Sound hasher) {pack : Packet} {next : ServerRequests Handler}
    (received : s.requests.step (.receive pack) = some next) : (s.wake next).Sound hasher := by
  rcases ServerRequests.handed_of_receive received with ⟨same, fewer⟩ | ⟨h, taken, first, others⟩
  · refine sound.wake ⟨fun cmd h member => ?_, fun cmd => ?_⟩ (Or.inl same)
    · exact sound.attended.waiting cmd h ((fewer cmd).subset member)
    · exact (fewer cmd).nodup (sound.attended.once cmd)
  · have once := sound.attended.once pack.cmd
    rw [first, List.nodup_cons] at once
    obtain ⟨waiting, own⟩ := sound.attended.waiting pack.cmd h (first ▸ List.mem_cons_self)
    refine sound.wake ⟨fun cmd other member => ?_, fun cmd => ?_⟩ (Or.inr ⟨h, pack, taken, waiting, fun cmd member => ?_⟩)
    · refine sound.attended.waiting cmd other ?_
      by_cases here : cmd = pack.cmd
      · rw [here, first]
        exact List.mem_cons_of_mem _ (here ▸ member)
      · exact others cmd here ▸ member
    · by_cases here : cmd = pack.cmd
      · rw [here]
        exact once.2
      · rw [others cmd here]
        exact sound.attended.once cmd
    · by_cases here : cmd = pack.cmd
      · exact once.1 (here ▸ member)
      · rw [others cmd here] at member
        exact here ((sound.attended.waiting cmd h member).2.trans own.symm)

theorem Sound.call (sound : s.Sound hasher) {h : Handler} {next : ServerRequests Handler}
    (calling : (s.tasks h).phase = .calling) (accepting : s.requests.stopped = false)
    (called : s.requests.step (.waitRequest h (rpcId hasher (service.rpcName h))) = some next) :
    ((s.setTask h ((s.tasks h).goTo .waiting)).wake next).Sound hasher := by
  have waits : (s.setTask h ((s.tasks h).goTo .waiting)).Sound hasher := by
    refine sound.setTask ((sound.accounts h).goTo ?_ ?_ rfl rfl) ?_ <;>
      simp [calling, HandlerPhase.current, HandlerPhase.response]
  have absent : ∀ cmd, h ∉ (s.requests.channelOf cmd).receivers := fun cmd member => by
    cases calling.symm.trans (sound.attended.waiting cmd h member).1
  have phase : ((s.setTask h ((s.tasks h).goTo .waiting)).tasks h).phase = .waiting := by
    rw [setTask_self]
    rfl
  rcases ServerRequests.handed_of_waitRequest accepting called with ⟨same, behind⟩ | ⟨req, taken, kept⟩
  · refine waits.wake ⟨fun cmd other member => ?_, fun cmd => ?_⟩ (Or.inl same)
    · rw [behind] at member
      rcases List.mem_append.mp member with old | new
      · exact waits.attended.waiting cmd other old
      · split at new
        · rename_i own
          rw [List.mem_singleton.mp new]
          exact ⟨phase, own.symm⟩
        · cases new
    · rw [behind]
      split
      · simpa only [List.concat_eq_append] using (sound.attended.once cmd).concat (absent cmd)
      · rw [List.append_nil]
        exact sound.attended.once cmd
  · refine waits.wake ⟨fun cmd other member => ?_, fun cmd => ?_⟩ (Or.inr ⟨h, req, taken, phase, fun cmd member => ?_⟩)
    · exact waits.attended.waiting cmd other (kept cmd ▸ member)
    · rw [kept]
      exact sound.attended.once cmd
    · exact absent cmd (kept cmd ▸ member)

theorem Sound.runStop (sound : s.Sound hasher) {next : ServerRequests Handler}
    (stopped : s.requests.step .runStop = some next) :
    ({ s with
        requests := next
        connectionMap := fun _ => none
        tasks := fun h => if next.running then endWait (s.tasks h) else s.tasks h } :
      RpcServer service Conn).Sound hasher := by
  obtain ⟨_, done⟩ := Option.ite_none_right_eq_some.mp stopped
  obtain ⟨force, _, same⟩ := Option.bind_eq_some_iff.mp done
  cases same
  have nobody : ∀ cmd, (s.requests.cancelAll.channelOf cmd).receivers = [] := fun cmd =>
    (ServerRequests.channelOf_cancelAll s.requests cmd).2
  refine ⟨⟨fun cmd h member => ?_, fun cmd => ?_⟩, fun h => ?_⟩
  · change h ∈ (s.requests.cancelAll.channelOf cmd).receivers at member
    rw [nobody cmd] at member
    cases member
  · change (s.requests.cancelAll.channelOf cmd).receivers.Nodup
    rw [nobody cmd]
    exact List.nodup_nil
  · change HandlerTask.Accounts _ _ (if _ then _ else _) _
    split
    · exact (sound.accounts h).endWait
    · exact sound.accounts h

theorem Sound.step (sound : s.Sound hasher) {a : Action service Conn} (taken : s.step hasher a = some t) :
    t.Sound hasher := by
  cases moves_of_step taken with
  | arrive received => exact sound.arrive received
  | mapped => exact ⟨⟨sound.attended.waiting, sound.attended.once⟩, sound.accounts⟩
  | call calling accepting called => exact sound.call calling accepting called
  | @refused h calling =>
    refine sound.setTask ((sound.accounts h).goTo ?_ ?_ rfl rfl) ?_ <;>
      simp [calling, HandlerPhase.current, HandlerPhase.response]
  | @unparsed h req ec fetched parsed =>
    have right : (.unparsed : Fate (service.Req h) (service.Rsp h)).Right (service.reqProto h) (service.rspProto h) req :=
      ⟨ec, parsed⟩
    exact sound.setTask ((sound.accounts h).close (by simp [fetched, HandlerPhase.current]) right rfl rfl)
      (by simp [fetched])
  | @parsed h req message fetched parsed =>
    exact sound.setTask ((sound.accounts h).handle fetched parsed) (by simp [fetched])
  | @failed h _ _ req message phase handling ended =>
    have right : (.failed message : Fate (service.Req h) (service.Rsp h)).Right (service.reqProto h)
        (service.rspProto h) req := (sound.accounts h).message req message handling
    have at' : (s.tasks h).phase.current = some req := by rw [handling]; rfl
    rcases ended with rfl | rfl
    · exact sound.setTask ((sound.accounts h).close at' right rfl rfl) (by simp [handling])
    · exact sound.setTask ((sound.accounts h).close at' right rfl rfl) (by simp [handling])
  | @answered h seqGenerator result req message rsp gen' handling built =>
    have right : (.answered message result rsp : Fate (service.Req h) (service.Rsp h)).Right (service.reqProto h)
        (service.rspProto h) req := ⟨(sound.accounts h).message req message handling, seqGenerator, gen', built⟩
    exact sound.setTask ((sound.accounts h).close (by rw [handling]; rfl) right rfl rfl) (by simp [handling])
  | @unsent h rsp sending => exact sound.setTask ((sound.accounts h).pass sending none) (by simp [sending])
  | @sent h rsp conn sending => exact sound.setTask ((sound.accounts h).pass sending (some conn)) (by simp [sending])
  | @written h writing =>
    refine sound.setTask ((sound.accounts h).goTo ?_ ?_ rfl rfl) ?_ <;>
      simp [writing, HandlerPhase.current, HandlerPhase.response]
  | stop stopped =>
    obtain ⟨_, done⟩ := Option.ite_none_right_eq_some.mp stopped
    obtain ⟨_, same⟩ := Option.ite_none_left_eq_some.mp done
    cases same
    exact ⟨⟨sound.attended.waiting, sound.attended.once⟩, sound.accounts⟩
  | runStop stopped => exact sound.runStop stopped
  | drain => exact ⟨⟨sound.attended.waiting, sound.attended.once⟩, sound.accounts⟩

theorem start_sound (seqGenerator : UInt32) : (start service Conn seqGenerator).Sound hasher where
  attended := by
    constructor
    · intro cmd h member
      cases member
    · exact fun cmd => List.nodup_nil
  accounts _ := HandlerTask.start_accounts

theorem run_sound {guard : RpcServer service Conn → Action service Conn → Prop} {seqGenerator : UInt32}
    {labels : List (Action service Conn)} (run : Run (step hasher) guard (start service Conn seqGenerator) labels s) :
    s.Sound hasher :=
  run.invariant (start_sound seqGenerator) fun _ _ _ sound _ taken => sound.step taken

variable (hasher) in
/-- The step of the channels in a step of the server. -/
def Action.inner : Action service Conn → Option (ServerRequests.Action Handler)
  | .arrive pack => some (.receive pack)
  | .call h => some (.waitRequest h (rpcId hasher (service.rpcName h)))
  | .stop force => some (.stop force)
  | .runStop => some .runStop
  | _ => none

theorem wake_requests (next : ServerRequests Handler) : (s.wake next).requests = next := by
  unfold wake
  split <;> rfl

theorem requests_of_step {a : Action service Conn} (taken : s.step hasher a = some t) :
    a.inner hasher = none ∧ t.requests = s.requests ∨
      ∃ b, a.inner hasher = some b ∧ s.requests.step b = some t.requests := by
  obtain ⟨_, acts⟩ := Option.ite_none_left_eq_some.mp taken
  cases a with
  | arrive pack =>
    obtain ⟨next, received, rfl⟩ := Option.map_eq_some_iff.mp acts
    exact Or.inr ⟨_, rfl, by rw [wake_requests, received]⟩
  | call h =>
    simp only [act] at acts
    split at acts
    · obtain ⟨next, called, rfl⟩ := Option.map_eq_some_iff.mp acts
      refine Or.inr ⟨_, rfl, called.trans (congrArg some ?_)⟩
      split
      · rename_i stopped
        obtain ⟨_, same⟩ := Option.ite_none_right_eq_some.mp called
        cases same
        exact if_pos stopped
      · exact (wake_requests next).symm
    · cases acts
  | stop force =>
    obtain ⟨next, stopped, rfl⟩ := Option.map_eq_some_iff.mp acts
    exact Or.inr ⟨_, rfl, stopped⟩
  | runStop =>
    obtain ⟨next, stopped, rfl⟩ := Option.map_eq_some_iff.mp acts
    exact Or.inr ⟨_, rfl, stopped⟩
  | _ =>
    refine Or.inl ⟨rfl, ?_⟩
    cases moves_of_step taken <;> rfl

theorem requests_of_run {guard : RpcServer service Conn → Action service Conn → Prop} {seqGenerator : UInt32}
    {labels : List (Action service Conn)} (run : Run (step hasher) guard (start service Conn seqGenerator) labels s) :
    Run ServerRequests.step (ServerRequests.Calling fun h cmd => cmd = rpcId hasher (service.rpcName h))
      (.start seqGenerator) (labels.filterMap (Action.inner hasher)) s.requests := by
  induction run with
  | nil => exact .nil
  | @snoc labels s a t _ _ taken ih =>
    rw [List.filterMap_append]
    rcases requests_of_step taken with ⟨none, same⟩ | ⟨b, inner, taken'⟩
    · rw [same, List.filterMap_cons_none none, List.filterMap_nil, List.append_nil]
      exact ih
    · rw [List.filterMap_cons_some inner, List.filterMap_nil]
      refine .snoc ih ?_ taken'
      cases a <;> cases inner <;> trivial

/-- The requests for one handler that have arrived. -/
def arrivals (hasher : List UInt8 → UInt64) (h : Handler) (labels : List (Action service Conn)) : List Packet :=
  labels.filterMap fun
    | .arrive pack => if pack.cmd = rpcId hasher (service.rpcName h) then some pack else none
    | _ => none

theorem takenBy_sublist (requests : ServerRequests Handler) {h : Handler} {cmd : UInt32}
    (own : ∀ entry ∈ requests.taken, entry.1 = h → entry.2.cmd = cmd) :
    (requests.takenBy h).Sublist (requests.admitted cmd) := by
  have same : requests.taken.filter (fun entry => entry.1 = h) =
      (requests.takenFor cmd).filter (fun entry => entry.1 = h) := by
    rw [ServerRequests.takenFor, List.filter_filter]
    refine List.filter_congr fun entry member => ?_
    by_cases mine : entry.1 = h
    · simp [mine, own entry member mine]
    · simp [mine]
  rw [ServerRequests.takenBy, same, ServerRequests.admitted]
  exact (List.filter_sublist.map Prod.snd).trans (List.sublist_append_left _ _)

theorem passed_setTask {h : Handler} {task : HandlerTask (service.Req h) (service.Rsp h) Conn}
    (same : task.passed = (s.tasks h).passed) (other : Handler) :
    ((s.setTask h task).tasks other).passed = (s.tasks other).passed := by
  by_cases here : other = h
  · subst here
    rw [setTask_self, same]
  · rw [setTask_tasks h other task here]

theorem passed_wake (next : ServerRequests Handler) (h : Handler) :
    ((s.wake next).tasks h).passed = (s.tasks h).passed := by
  unfold wake
  split
  · exact passed_setTask (by rfl) h
  · rfl

/-- The handler that calls `send_packet`. -/
def Action.sender : Action service Conn → Option Handler
  | .send h => some h
  | _ => none

/-- `send_packet` passes a response on, and nothing else does: to the connection
that the map has for its device id, unless the server is stopped. -/
theorem passed_of_step {a : Action service Conn} (taken : s.step hasher a = some t) (h : Handler) :
    a.sender ≠ some h ∧ (t.tasks h).passed = (s.tasks h).passed ∨
      ∃ rsp, a = .send h ∧ (s.tasks h).phase = .sending rsp ∧ (t.tasks h).passed =
        (s.tasks h).passed ++ [(if s.requests.stopped then none else s.connectionMap rsp.deviceId, rsp)] := by
  have go {other : Handler} {rsp : Packet} {conn : Option Conn} (sends : a = .send other)
      (sending : (s.tasks other).phase = .sending rsp)
      (given : conn = if s.requests.stopped then none else s.connectionMap rsp.deviceId)
      (same : t = s.setTask other ((s.tasks other).pass conn rsp)) :
      a.sender ≠ some h ∧ (t.tasks h).passed = (s.tasks h).passed ∨
        ∃ rsp, a = .send h ∧ (s.tasks h).phase = .sending rsp ∧ (t.tasks h).passed =
          (s.tasks h).passed ++ [(if s.requests.stopped then none else s.connectionMap rsp.deviceId, rsp)] := by
    subst same
    by_cases here : h = other
    · subst here
      exact Or.inr ⟨rsp, sends, sending, by rw [setTask_self, ← given]; rfl⟩
    · subst sends
      exact Or.inl ⟨fun same => here (Option.some.inj same).symm, by rw [setTask_tasks _ _ _ here]⟩
  cases moves_of_step taken with
  | arrive => exact Or.inl ⟨(Option.some_ne_none h).symm, passed_wake _ h⟩
  | @call other => exact Or.inl ⟨(Option.some_ne_none h).symm, (passed_wake _ h).trans (passed_setTask (by rfl) h)⟩
  | unsent sending dropped =>
    refine go rfl sending ?_ rfl
    split
    · rfl
    · exact (dropped.resolve_left ‹_›).symm
  | sent sending accepting mapped => exact go rfl sending (by rw [accepting, mapped]; rfl) rfl
  | mapped => exact Or.inl ⟨(Option.some_ne_none h).symm, rfl⟩
  | stop => exact Or.inl ⟨(Option.some_ne_none h).symm, rfl⟩
  | drain => exact Or.inl ⟨(Option.some_ne_none h).symm, rfl⟩
  | @runStop next =>
    refine Or.inl ⟨(Option.some_ne_none h).symm, ?_⟩
    change (if _ then endWait (s.tasks h) else s.tasks h).passed = _
    split
    · unfold endWait
      split <;> rfl
    · rfl
  | _ => exact Or.inl ⟨(Option.some_ne_none h).symm, passed_setTask (by rfl) h⟩

/-- Every call of `send_packet` has passed one response on. -/
theorem run_passed_length {seqGenerator : UInt32} {labels : List (Action service Conn)}
    (run : Run (step hasher) free (start service Conn seqGenerator) labels s) (h : Handler) :
    (s.tasks h).passed.length = labels.countP fun a => a.sender = some h := by
  induction run with
  | nil => rfl
  | snoc _ _ taken ih =>
    rw [List.countP_append, List.countP_singleton, ← ih]
    rcases passed_of_step taken h with ⟨other, same⟩ | ⟨rsp, rfl, _, grown⟩
    · rw [same, if_neg (by simpa using other), Nat.add_zero]
    · rw [grown, List.length_append]
      simp [Action.sender]

/-- What has been passed on was so at a moment of the run. -/
theorem run_passed {seqGenerator : UInt32} {labels : List (Action service Conn)}
    (run : Run (step hasher) free (start service Conn seqGenerator) labels s) (h : Handler) {conn : Option Conn}
    {rsp : Packet} (member : (conn, rsp) ∈ (s.tasks h).passed) :
    ∃ before q, Run (step hasher) free (start service Conn seqGenerator) before q ∧ before ++ [.send h] <+: labels ∧
      (q.tasks h).phase = .sending rsp ∧ conn = if q.requests.stopped then none else q.connectionMap rsp.deviceId := by
  induction run with
  | nil => cases member
  | @snoc labels s a t run met taken ih =>
    have earlier (old : (conn, rsp) ∈ (s.tasks h).passed) : ∃ before q,
        Run (step hasher) free (start service Conn seqGenerator) before q ∧ before ++ [.send h] <+: labels ++ [a] ∧
          (q.tasks h).phase = .sending rsp ∧
          conn = if q.requests.stopped then none else q.connectionMap rsp.deviceId := by
      obtain ⟨before, q, reached, within, sending, given⟩ := ih old
      exact ⟨before, q, reached, within.trans (List.prefix_append labels [a]), sending, given⟩
    rcases passed_of_step taken h with ⟨_, same⟩ | ⟨rsp', rfl, sending, grown⟩
    · exact earlier (same ▸ member)
    · rw [grown] at member
      rcases List.mem_append.mp member with old | new
      · exact earlier old
      · cases List.mem_singleton.mp new
        exact ⟨labels, s, run, List.prefix_rfl, sending, rfl⟩

/-- Every handler is done, one after the other and once, with the requests for
its name that it has been given, in the order in which they arrived: it has
found the body of each to be no message, or has thrown on its message, or has
built the response to it from its result. It calls `send_packet` once for each
response, in this order. Each call gives it to the connection which the map has
for its device id then, or to none if there is none or the server is stopped. -/
theorem requests_accounted {seqGenerator : UInt32} {labels : List (Action service Conn)}
    (run : Run (step hasher) free (start service Conn seqGenerator) labels s) (h : Handler) :
    (s.tasks h).Accounts (service.reqProto h) (service.rspProto h) (s.requests.takenBy h) ∧
      (s.requests.takenBy h).Sublist (arrivals hasher h labels) ∧
      ((s.tasks h).passed.length = labels.countP fun a => a.sender = some h) ∧
      ∀ conn rsp, (conn, rsp) ∈ (s.tasks h).passed →
        ∃ before q, Run (step hasher) free (start service Conn seqGenerator) before q ∧ before ++ [.send h] <+: labels ∧
          (q.tasks h).phase = .sending rsp ∧
          conn = if q.requests.stopped then none else q.connectionMap rsp.deviceId := by
  have inner := requests_of_run run
  have routed := ServerRequests.routed_of_run inner
  have free := inner.unguarded
  have arrived : ServerRequests.arrivals (rpcId hasher (service.rpcName h)) (labels.filterMap (Action.inner hasher)) =
      arrivals hasher h labels := by
    unfold ServerRequests.arrivals arrivals
    rw [List.filterMap_filterMap]
    refine List.filterMap_congr fun a _ => ?_
    cases a <;> rfl
  refine ⟨(run_sound run).accounts h, ?_, run_passed_length run h, fun conn rsp member => run_passed run h member⟩
  rw [← arrived]
  exact (takenBy_sublist s.requests fun entry member mine => mine ▸ routed.taken entry member).trans
    (ServerRequests.sublist_of_run free _).1

/-- One handler, for a message with a flag, that answers with another. -/
def flagService : Service Unit := ⟨fun _ => [0x61], fun _ => Bool, fun _ => Bool, fun _ => boolMessage, fun _ => boolMessage⟩

/-- Two requests, of which the second one is no message. -/
def answered : List (Action flagService Nat) :=
  [.mapped [0x61] (some 3), .call (), .arrive ⟨7, 1, false, 0, [0x61], ⟨[0x08, 0x01], by decide⟩⟩,
    .arrive ⟨7, 2, false, 0, [0x61], ⟨[0xff], by decide⟩⟩, .resume (), .finish () 5 (.returned (.ok false)), .send (),
    .written (), .call (), .resume ()]

theorem requests_accounted_answered :
    ∃ s rsp, exec (step fun _ => 7) free (start flagService Nat 0) answered = some s ∧
      (s.tasks ()).passed = [(some 3, rsp)] ∧
      (s.tasks ()).Accounts boolMessage boolMessage (s.requests.takenBy ()) ∧
      (s.requests.takenBy ()).Sublist (arrivals (fun _ => 7) () answered) ∧
      ((s.tasks ()).passed.length = answered.countP fun a => a.sender = some ()) ∧
      ∃ before q, Run (step fun _ => 7) free (start flagService Nat 0) before q ∧ before ++ [.send ()] <+: answered ∧
        (q.tasks ()).phase = .sending rsp ∧
        some 3 = if q.requests.stopped then none else q.connectionMap rsp.deviceId := by
  have trace : (exec (step fun _ => 7) free (start flagService Nat 0) answered).map (fun s =>
      (s.tasks ()).passed.map Prod.fst) = some [some 3] := by decide +kernel
  obtain ⟨s, done, view⟩ := Option.map_eq_some_iff.mp trace
  obtain ⟨⟨conn, rsp⟩, passed, given⟩ := List.map_eq_singleton_iff.mp view
  cases given
  obtain ⟨accounts, arrived, calls, sent⟩ := requests_accounted (exec_run done) ()
  exact ⟨s, rsp, done, passed, accounts, arrived, calls, sent (some 3) rsp (passed ▸ List.mem_singleton_self _)⟩

end RpcServer
end Asyncmsg
