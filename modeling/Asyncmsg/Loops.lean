import Asyncmsg.Lifetime

namespace Asyncmsg

/-- The read of `receive_packet`: in progress, or complete with its completion
queued (for a success with the packets that it brings to the decoder). -/
inductive ReadOp
  | pending
  | arrived (packs : List Packet)
  | failed
  | ended
  deriving DecidableEq

/-- The timer of `check`. -/
inductive TimerOp
  | pending
  | expired
  | aborted
  | ended
  deriving DecidableEq

/-- The operands of `receive_packet() || check()`. When one of them ends, the
other is cancelled. -/
structure Loops where
  read : ReadOp
  timer : TimerOp
  cancelled : Bool
  deriving DecidableEq

/-- What a coroutine does when it is resumed: where it leaves the two, what it
changes of its connection and what it calls or counts, in order. -/
structure Resumption where
  loops : Loops
  peer : Peer
  events : List Event

/-- `process_packet` on decoded packets, up to one that closes the connection. -/
def processPackets (deviceId : List UInt8) : List Packet → List Event × List UInt8 × Bool
  | [] => ([], deviceId, true)
  | pack :: packs =>
    match (⟨0, deviceId, []⟩ : Receiver).handle pack with
    | (receiver, false) => (receiver.events, receiver.deviceId, false)
    | (receiver, true) =>
      let (events, id, live) := processPackets receiver.deviceId packs
      (receiver.events ++ events, id, live)

namespace Loops

def start : Loops := ⟨.pending, .pending, false⟩

/-- `receive_packet` ends: a pending timer is aborted, one that has expired
keeps its success. -/
def endRead (l : Loops) : Loops :=
  ⟨.ended, if l.timer = .pending then .aborted else l.timer, true⟩

/-- `check` ends: a pending read fails, one that has come to an end stays as it is. -/
def endTimer (l : Loops) : Loops :=
  ⟨if l.read = .pending then .failed else l.read, .ended, true⟩

/-- From the completion of the read to the next read or to the end. Once it is
cancelled the coroutine throws at its next `co_await`. -/
def resumeReceive (l : Loops) (peer : Peer) (alive : Bool) : Option Resumption :=
  match l.read with
  | .pending | .ended => none
  | .failed =>
    some ⟨l.endRead, { peer with receiving := false }, if alive then [.disconnected peer.deviceId] else []⟩
  | .arrived packs =>
    if alive then
      let (events, id, live) := processPackets peer.deviceId packs
      some ⟨if live && !l.cancelled then { l with read := .pending } else l.endRead,
        { peer with deviceId := id, receiving := live },
        events ++ if live then [] else [.disconnected id]⟩
    else some ⟨l.endRead, { peer with receiving := false }, []⟩

/-- From the completion of the timer to the next wait or to the end. -/
def resumeCheck (l : Loops) (peer : Peer) (alive inactive : Bool) : Option Resumption :=
  match l.timer with
  | .pending | .ended => none
  | .aborted => some ⟨l.endTimer, { peer with checking := false }, []⟩
  | .expired =>
    if alive then
      if inactive then some ⟨l.endTimer, { peer with checking := false }, [.disconnected peer.deviceId]⟩
      else if l.cancelled then some ⟨l.endTimer, { peer with checking := false }, []⟩
      else some ⟨{ l with timer := .pending }, peer, []⟩
    else some ⟨l.endTimer, { peer with checking := false }, []⟩

end Loops

namespace Registry

/-- The callbacks of a connection that concern the registry. -/
def callback (c : Nat) (r : Registry) : Event → Registry
  | .gotDeviceId id => r.onGotDeviceId c id
  | .disconnected id => r.onDisconnected c id
  | _ => r

def follow (r : Registry) (c : Nat) (peer : Peer) (events : List Event) : Registry :=
  events.foldl (callback c) (r.setPeer c peer)

/-- What comes from outside the coroutines of a connection. -/
def Action.outside : Action → Bool
  | .incoming | .accept | .send _ | .sendEnds _ | .stop _ | .runStop => true
  | _ => false

end Registry

/-- The connections of a `tcp_server` with their coroutines, and the record of
what these have done. -/
structure PeerLoops where
  registry : Registry
  loops : List Loops
  log : List (Nat × Event)

namespace PeerLoops

def start : PeerLoops := ⟨.start, [], []⟩

inductive Action
  | server (a : Registry.Action)
  | arrives (c : Nat) (packs : List Packet)
  | breaks (c : Nat)
  | expires (c : Nat)
  | resumeReceive (c : Nat)
  | resumeCheck (c : Nat) (inactive : Bool)

variable (s : PeerLoops)

/-- A connection that has been accepted starts both of its coroutines. -/
def outer (r : Registry) : PeerLoops :=
  { s with
    registry := r
    loops := s.loops ++ List.replicate (r.peers.length - s.registry.peers.length) .start }

def setLoops (c : Nat) (l : Loops) : PeerLoops := { s with loops := s.loops.set c l }

def apply (c : Nat) (w : Resumption) : PeerLoops where
  registry := s.registry.follow c w.peer w.events
  loops := s.loops.set c w.loops
  log := s.log ++ w.events.map fun e => (c, e)

def step (s : PeerLoops) (a : Action) : Option PeerLoops :=
  if s.registry.running then
    match a with
    | .server a => if a.outside then (s.registry.step a).map s.outer else none
    | .arrives c packs => s.loops[c]?.bind fun l =>
      if l.read = .pending then some (s.setLoops c { l with read := .arrived packs }) else none
    | .breaks c => s.loops[c]?.bind fun l =>
      if l.read = .pending then some (s.setLoops c { l with read := .failed }) else none
    | .expires c => s.loops[c]?.bind fun l =>
      if l.timer = .pending then some (s.setLoops c { l with timer := .expired }) else none
    | .resumeReceive c => s.loops[c]?.bind fun l => s.registry.peers[c]?.bind fun peer =>
      (l.resumeReceive peer (s.registry.Alive c)).map (s.apply c)
    | .resumeCheck c inactive => s.loops[c]?.bind fun l => s.registry.peers[c]?.bind fun peer =>
      (l.resumeCheck peer (s.registry.Alive c) inactive).map (s.apply c)
  else none

/-- How the completion of an operation changes the two coroutines. -/
inductive Queues (l : Loops) (c : Nat) : Action → Loops → Prop
  | arrives {packs : List Packet} : l.read = .pending →
      Queues l c (.arrives c packs) { l with read := .arrived packs }
  | breaks : l.read = .pending → Queues l c (.breaks c) { l with read := .failed }
  | expires : l.timer = .pending → Queues l c (.expires c) { l with timer := .expired }

/-- The resumption of `receive_packet`. -/
inductive Receives (l : Loops) (peer : Peer) (alive : Bool) : Resumption → Prop
  | expires : alive = false → l.read ≠ .ended →
      Receives l peer alive ⟨l.endRead, { peer with receiving := false }, []⟩
  | fails : alive = true → l.read = .failed →
      Receives l peer alive ⟨l.endRead, { peer with receiving := false }, [.disconnected peer.deviceId]⟩
  | refuses {packs : List Packet} {events : List Event} {id : List UInt8} : alive = true → l.read = .arrived packs →
      processPackets peer.deviceId packs = (events, id, false) →
      Receives l peer alive ⟨l.endRead, { peer with deviceId := id, receiving := false }, events ++ [.disconnected id]⟩
  | reads {packs : List Packet} {events : List Event} {id : List UInt8} : alive = true → l.read = .arrived packs →
      processPackets peer.deviceId packs = (events, id, true) →
      Receives l peer alive ⟨if l.cancelled then l.endRead else { l with read := .pending },
        { peer with deviceId := id, receiving := true }, events⟩

/-- The resumption of `check`. -/
inductive Checks (l : Loops) (peer : Peer) (alive inactive : Bool) : Resumption → Prop
  | ends : l.timer = .aborted ∨ l.timer = .expired ∧ (alive = false ∨ inactive = false ∧ l.cancelled = true) →
      Checks l peer alive inactive ⟨l.endTimer, { peer with checking := false }, []⟩
  | reports : l.timer = .expired → alive = true → inactive = true →
      Checks l peer alive inactive ⟨l.endTimer, { peer with checking := false }, [.disconnected peer.deviceId]⟩
  | waits : l.timer = .expired → alive = true → inactive = false → l.cancelled = false →
      Checks l peer alive inactive ⟨{ l with timer := .pending }, peer, []⟩

theorem receives_of_resume {l : Loops} {peer : Peer} {alive : Bool} {w : Resumption}
    (resumed : l.resumeReceive peer alive = some w) : Receives l peer alive w := by
  unfold Loops.resumeReceive at resumed
  cases read : l.read with
  | pending => simp [read] at resumed
  | ended => simp [read] at resumed
  | failed =>
    simp only [read] at resumed
    cases alive with
    | false =>
      cases resumed
      exact .expires rfl (by simp [read])
    | true =>
      cases resumed
      exact .fails rfl read
  | arrived packs =>
    simp only [read] at resumed
    cases alive with
    | false =>
      cases resumed
      exact .expires rfl (by simp [read])
    | true =>
      rcases processed : processPackets peer.deviceId packs with ⟨events, id, _ | _⟩
      · simp only [processed, if_true, Bool.false_and, Bool.false_eq_true, if_false] at resumed
        cases resumed
        exact .refuses rfl read processed
      · simp only [processed, if_true, Bool.true_and, List.append_nil] at resumed
        cases resumed
        have := Receives.reads (l := l) rfl read processed
        cases cancelled : l.cancelled <;> simpa [cancelled] using this

theorem checks_of_resume {l : Loops} {peer : Peer} {alive inactive : Bool} {w : Resumption}
    (resumed : l.resumeCheck peer alive inactive = some w) : Checks l peer alive inactive w := by
  unfold Loops.resumeCheck at resumed
  cases timer : l.timer with
  | pending => simp [timer] at resumed
  | ended => simp [timer] at resumed
  | aborted =>
    simp only [timer] at resumed
    cases resumed
    exact .ends (Or.inl timer)
  | expired =>
    simp only [timer] at resumed
    cases alive with
    | false =>
      cases resumed
      exact .ends (Or.inr ⟨timer, Or.inl rfl⟩)
    | true =>
      cases inactive with
      | true =>
        cases resumed
        exact .reports timer rfl rfl
      | false =>
        rw [if_pos rfl, if_neg Bool.false_ne_true] at resumed
        split at resumed <;> rename_i cancelled <;> cases resumed
        · exact .ends (Or.inr ⟨timer, Or.inr ⟨rfl, cancelled⟩⟩)
        · exact .waits timer rfl rfl (Bool.not_eq_true _ ▸ cancelled)

/-- A resumption, by the action that names it. -/
inductive Resumes (l : Loops) (peer : Peer) (alive : Bool) (c : Nat) : Action → Resumption → Prop
  | receive {w : Resumption} : Receives l peer alive w → Resumes l peer alive c (.resumeReceive c) w
  | check {inactive : Bool} {w : Resumption} : Checks l peer alive inactive w →
      Resumes l peer alive c (.resumeCheck c inactive) w

/-- What a step does. -/
inductive Moves (s : PeerLoops) : Action → PeerLoops → Prop
  | outside {a : Registry.Action} {r : Registry} : a.outside = true → s.registry.step a = some r →
      Moves s (.server a) (s.outer r)
  | queues {b : Action} {c : Nat} {l next : Loops} : s.loops[c]? = some l → Queues l c b next →
      Moves s b (s.setLoops c next)
  | resumes {b : Action} {c : Nat} {l : Loops} {peer : Peer} {w : Resumption} : s.loops[c]? = some l →
      s.registry.peers[c]? = some peer → Resumes l peer (s.registry.Alive c) c b w → Moves s b (s.apply c w)

theorem moves_of_step {s t : PeerLoops} {a : Action} (taken : s.step a = some t) :
    s.registry.running = true ∧ Moves s a t := by
  obtain ⟨running, taken⟩ := Option.ite_none_right_eq_some.mp taken
  refine ⟨running, ?_⟩
  cases a with
  | server a =>
    obtain ⟨outside, taken⟩ := Option.ite_none_right_eq_some.mp taken
    obtain ⟨r, stepped, rfl⟩ := Option.map_eq_some_iff.mp taken
    exact .outside outside stepped
  | arrives c packs =>
    obtain ⟨l, found, taken⟩ := Option.bind_eq_some_iff.mp taken
    obtain ⟨pending, same⟩ := Option.ite_none_right_eq_some.mp taken
    cases same
    exact .queues found (.arrives pending)
  | breaks c =>
    obtain ⟨l, found, taken⟩ := Option.bind_eq_some_iff.mp taken
    obtain ⟨pending, same⟩ := Option.ite_none_right_eq_some.mp taken
    cases same
    exact .queues found (.breaks pending)
  | expires c =>
    obtain ⟨l, found, taken⟩ := Option.bind_eq_some_iff.mp taken
    obtain ⟨pending, same⟩ := Option.ite_none_right_eq_some.mp taken
    cases same
    exact .queues found (.expires pending)
  | resumeReceive c =>
    obtain ⟨l, found, taken⟩ := Option.bind_eq_some_iff.mp taken
    obtain ⟨peer, accepted, taken⟩ := Option.bind_eq_some_iff.mp taken
    obtain ⟨w, resumed, rfl⟩ := Option.map_eq_some_iff.mp taken
    exact .resumes found accepted (.receive (receives_of_resume resumed))
  | resumeCheck c inactive =>
    obtain ⟨l, found, taken⟩ := Option.bind_eq_some_iff.mp taken
    obtain ⟨peer, accepted, taken⟩ := Option.bind_eq_some_iff.mp taken
    obtain ⟨w, resumed, rfl⟩ := Option.map_eq_some_iff.mp taken
    exact .resumes found accepted (.check (checks_of_resume resumed))

end PeerLoops
end Asyncmsg
