import Asyncmsg.ClientLoopSteps
import Asyncmsg.Library.Transition
import Asyncmsg.RoundTrip

namespace Asyncmsg
open Transition

def millisecond : Nat := 1000000

/-- `reset_device_id_if_needed`. -/
def resetDeviceIdIfNeeded (deviceId : List UInt8) (pack : Packet) : Packet × Bool :=
  if pack.deviceId = [] then ({ pack with deviceId := deviceId }, true) else (pack, decide (pack.deviceId = deviceId))

section Reset
variable {deviceId : List UInt8} {pack sent : Packet}

theorem resetDeviceId_own (reset : resetDeviceIdIfNeeded deviceId pack = (sent, true)) : sent.deviceId = deviceId := by
  unfold resetDeviceIdIfNeeded at reset
  split at reset
  · cases reset
    rfl
  · obtain ⟨rfl, same⟩ := Prod.mk.inj reset
    exact of_decide_eq_true same

theorem resetDeviceId_foreign (reset : resetDeviceIdIfNeeded deviceId pack = (sent, false)) :
    sent.deviceId ≠ [] ∧ sent.deviceId ≠ deviceId := by
  unfold resetDeviceIdIfNeeded at reset
  split at reset
  · cases reset
  · obtain ⟨rfl, foreign⟩ := Prod.mk.inj reset
    exact ⟨‹_›, of_decide_eq_false foreign⟩

end Reset

namespace ClientLoop
variable {r t : ClientLoop} {a : ClientLoop.Action}

/-- The connection that `tcp_client::send_packet` writes the packet to. -/
def sendPacket (r : ClientLoop) (pack : Packet) : Packet × Option Nat :=
  match resetDeviceIdIfNeeded r.deviceId pack with
  | (pack, true) => (pack, r.conn)
  | (pack, false) => (pack, none)

/-- A packet for another device is not sent, and none is kept for later. -/
theorem sendPacket_own {pack : Packet} {c : Nat} (sends : (r.sendPacket pack).2 = some c) :
    (r.sendPacket pack).1.deviceId = r.deviceId ∧ r.conn = some c := by
  unfold sendPacket at sends ⊢
  split at sends
  · exact ⟨resetDeviceId_own ‹_›, sends⟩
  · cases sends

theorem running_of_step (taken : r.step a = some t) : r.running = true :=
  (Option.ite_none_right_eq_some.mp taken).1

/-- No coroutine and no connection of the client has anything left to do. -/
def Idle (r : ClientLoop) : Prop :=
  r.stopped = true ∧ r.stopHandler = none ∧ r.conn = none ∧ r.connect = .ended ∧ r.heartbeat = .ended ∧
    r.signal = .ended

instance (r : ClientLoop) : Decidable r.Idle := inferInstanceAs (Decidable (_ ∧ _))

theorem stopped_of_step (taken : r.step a = some t) (stopped : r.stopped = true) : t.stopped = true :=
  Bool.eq_true_of_not_eq_false fun unstopped => by
    cases stopped.symm.trans ((shared_of_step taken).unstopped unstopped)

end ClientLoop

/-- What `tcp_client::send_packet_and_wait_rsp` throws on its own. -/
inductive ClientError
  | invalidState
  | invalidDeviceId
  | connection
  | timeout
  deriving DecidableEq

/-- Where a call of it stands: in a round of its wait for a connection, or since
when it has been in the call of the connection with what is left of the timeout. -/
inductive ClientPhase
  | idle
  | waiting (round expiry : Nat)
  | calling (time c : Nat) (timeout : UInt32)
  | failed (time : Nat) (error : ClientError)
  deriving DecidableEq

/-- A call of `tcp_client::send_packet_and_wait_rsp`, under the clock, with the
rest of the client. The pointer to the connection has last changed at
`connectedAt`. The client is `drained` when its `io_context` has run out of work. -/
structure ClientCall where
  clock : Nat
  loop : ClientLoop
  connectedAt : Nat
  pack : Packet
  timeout : UInt32
  begun : Nat
  phase : ClientPhase
  drained : Bool

namespace ClientCall

def start (clock : Nat) (loop : ClientLoop) (pack : Packet) (timeout : UInt32) : ClientCall :=
  ⟨clock, loop, clock, pack, timeout, clock, .idle, false⟩

inductive Action
  | tick (n : Nat)
  | loop (a : ClientLoop.Action)
  | run
  | wake
  | drain

variable (s : ClientCall)

/-- The milliseconds since the call has begun. -/
def elapse : Nat := (s.clock - s.begun) / millisecond

def fail (error : ClientError) : ClientCall := { s with phase := .failed s.clock error }

/-- The head of the wait, which leaves it if there is a connection or half of the
timeout is over. -/
def poll (round : Nat) : ClientCall :=
  match s.loop.conn with
  | none =>
    if s.elapse > (s.timeout / 2).toNat then s.fail .connection
    else { s with phase := .waiting round (s.clock + 100 * millisecond) }
  | some c =>
    let elapse := UInt32.ofNat s.elapse
    if elapse ≥ s.timeout then s.fail .timeout else { s with phase := .calling s.clock c (s.timeout - elapse) }

def begin : ClientCall :=
  if s.loop.stopped then s.fail .invalidState
  else
    match resetDeviceIdIfNeeded s.loop.deviceId s.pack with
    | (pack, false) => { s with pack := pack }.fail .invalidDeviceId
    | (pack, true) => { s with pack := pack, begun := s.clock }.poll 1

/-- When the wait of the current round is over. -/
def timer : Option Nat :=
  match s.phase with
  | .waiting _ expiry => some expiry
  | _ => none

/-- The `io_context` runs what is posted to it. -/
def Runs : Prop := s.loop.running = true ∧ s.drained = false

instance : Decidable s.Runs := inferInstanceAs (Decidable (_ ∧ _))

/-- The timer of a call that waits is work that the `io_context` has. -/
def step : Action → Option ClientCall
  | .tick n => some { s with clock := s.clock + n }
  | .loop a =>
    if s.drained then none
    else (s.loop.step a).map fun loop =>
      { s with loop := loop, connectedAt := if loop.conn = s.loop.conn then s.connectedAt else s.clock }
  | .run =>
    match s.phase with
    | .idle => if s.Runs then some s.begin else none
    | _ => none
  | .wake =>
    match s.phase with
    | .waiting round expiry => if s.Runs ∧ expiry ≤ s.clock then some (s.poll (round + 1)) else none
    | _ => none
  | .drain => if s.Runs ∧ s.loop.Idle ∧ s.timer = none then some { s with drained := true } else none

/-- While the client runs no wait for the timer is over later than so long after
it has expired. -/
def Timely (late : Nat) (s : ClientCall) : Action → Prop
  | .tick n => ∀ expiry ∈ s.timer, s.loop.running → s.clock + n ≤ expiry + late
  | _ => True

instance (late : Nat) (a : Action) : Decidable (s.Timely late a) :=
  match a with
  | .tick n => inferInstanceAs (Decidable (∀ expiry ∈ s.timer, s.loop.running → s.clock + n ≤ expiry + late))
  | .loop _ | .run | .wake | .drain => inferInstanceAs (Decidable True)

/-- The last time at which a round begins, but for the lateness of its timer. -/
def lastRound : Nat := s.begun + ((s.timeout / 2).toNat + 101) * millisecond

variable (late : Nat)

/-- A call that waits does so for its own packet, with rounds of a tenth of a
second since it has begun; the last has found no connection. -/
structure Waits (round expiry : Nat) : Prop where
  own : s.pack.deviceId = s.loop.deviceId
  rounds : s.begun + round * (100 * millisecond) ≤ expiry
  soon : expiry < s.lastRound
  past : expiry ≤ s.clock + 100 * millisecond
  inTime : s.loop.running → s.clock ≤ expiry + late
  undrained : s.drained = false
  blind : s.loop.conn ≠ none → expiry ≤ s.connectedAt + 100 * millisecond

/-- The connection has been called for what is left of the timeout. -/
structure Calls (time : Nat) (timeout : UInt32) : Prop where
  own : s.pack.deviceId = s.loop.deviceId
  past : time ≤ s.clock
  left : 0 < timeout.toNat
  deadline : s.begun + s.timeout.toNat * millisecond ≤ time + timeout.toNat * millisecond ∧
    time + timeout.toNat * millisecond < s.begun + (s.timeout.toNat + 1) * millisecond
  soon : time < s.lastRound + late

def Follows : ClientPhase → Prop
  | .idle => True
  | .waiting round expiry => s.Waits late round expiry
  | .calling time _ timeout => s.Calls late time timeout
  | .failed time .connection =>
    s.begun + ((s.timeout / 2).toNat + 1) * millisecond ≤ time ∧ time < s.lastRound + late
  | .failed time .timeout => s.begun + s.timeout.toNat * millisecond ≤ time ∧ time < s.lastRound + late
  | .failed _ .invalidState => s.loop.stopped = true
  | .failed _ .invalidDeviceId => s.pack.deviceId ≠ [] ∧ s.pack.deviceId ≠ s.loop.deviceId

variable {late : Nat} {s t : ClientCall} {a : Action}

theorem half_toNat (timeout : UInt32) : (timeout / 2).toNat = timeout.toNat / 2 := UInt32.toNat_div ..

/-- The cast of the milliseconds does not cut them. -/
theorem elapse_toNat (few : late ≤ 2 ^ 30 * millisecond) (soon : s.clock < s.lastRound + late) :
    (UInt32.ofNat s.elapse).toNat = s.elapse := by
  have bound := s.timeout.toNat_lt
  simp only [lastRound, half_toNat, millisecond] at few soon
  refine UInt32.toNat_ofNat_of_lt' ?_
  simp only [elapse, millisecond, UInt32.size]
  omega

/-- A round begins in time: it ends the wait, or begins another. -/
theorem poll_follows (few : late ≤ 2 ^ 30 * millisecond) (own : s.pack.deviceId = s.loop.deviceId)
    (past : s.begun ≤ s.clock) (soon : s.clock < s.lastRound + late) (undrained : s.drained = false) {round : Nat}
    (rounds : s.begun + round * (100 * millisecond) ≤ s.clock + 100 * millisecond) :
    (s.poll round).Follows late (s.poll round).phase := by
  have whole := elapse_toNat few soon
  have below : s.begun + s.elapse * millisecond ≤ s.clock := by
    simp only [elapse, millisecond]
    omega
  have above : s.clock < s.begun + (s.elapse + 1) * millisecond := by
    simp only [elapse, millisecond]
    omega
  rcases connected : s.loop.conn with _ | c
  · simp only [poll, connected]
    split
    · rename_i half
      refine ⟨?_, soon⟩
      have more : ((s.timeout / 2).toNat + 1) * millisecond ≤ s.elapse * millisecond := Nat.mul_le_mul_right _ half
      exact (Nat.add_le_add_left more _).trans below
    · rename_i within
      refine ⟨own, rounds, ?_, Nat.le_refl _, fun _ => ?_, undrained, fun here => absurd connected here⟩
      · simp only [lastRound, millisecond] at above ⊢
        omega
      · dsimp only
        omega
  · simp only [poll, connected]
    split
    · rename_i beyond
      refine ⟨?_, soon⟩
      have more : s.timeout.toNat * millisecond ≤ s.elapse * millisecond :=
        Nat.mul_le_mul_right _ (whole ▸ UInt32.le_iff_toNat_le.mp beyond)
      exact (Nat.add_le_add_left more _).trans below
    · rename_i within
      have less : s.elapse < s.timeout.toNat := whole ▸ UInt32.lt_iff_toNat_lt.mp (UInt32.not_le.mp within)
      have left : (s.timeout - UInt32.ofNat s.elapse).toNat = s.timeout.toNat - s.elapse := by
        rw [UInt32.toNat_sub_of_le _ _ (UInt32.le_of_lt (UInt32.not_le.mp within)), whole]
      refine ⟨own, Nat.le_refl _, by rw [left]; omega, ?_, soon⟩
      rw [left]
      simp only [millisecond] at below above ⊢
      omega

theorem poll_begun (round : Nat) : (s.poll round).begun = s.begun ∧ (s.poll round).clock = s.clock := by
  unfold poll
  split
  · split <;> exact ⟨rfl, rfl⟩
  · dsimp only
    split <;> exact ⟨rfl, rfl⟩

/-- What a call may be found to do, since it cannot have begun later than now. -/
structure Sound (late : Nat) (s : ClientCall) : Prop where
  past : s.begun ≤ s.clock
  follows : s.Follows late s.phase

theorem poll_sound (few : late ≤ 2 ^ 30 * millisecond) (own : s.pack.deviceId = s.loop.deviceId)
    (past : s.begun ≤ s.clock) (soon : s.clock < s.lastRound + late) (undrained : s.drained = false) {round : Nat}
    (rounds : s.begun + round * (100 * millisecond) ≤ s.clock + 100 * millisecond) : (s.poll round).Sound late := by
  obtain ⟨begun, clock⟩ := s.poll_begun round
  exact ⟨by rwa [begun, clock], poll_follows few own past soon undrained rounds⟩

theorem begin_sound (few : late ≤ 2 ^ 30 * millisecond) (past : s.begun ≤ s.clock) (undrained : s.drained = false) :
    s.begin.Sound late := by
  unfold begin
  split
  · exact ⟨past, ‹_›⟩
  · split
    · exact ⟨past, resetDeviceId_foreign ‹_›⟩
    · rename_i pack reset
      have own : pack.deviceId = s.loop.deviceId := resetDeviceId_own reset
      refine poll_sound few own (Nat.le_refl _) ?_ ?_ ?_
      · simp only [lastRound, millisecond]
        omega
      · exact undrained
      · dsimp only
        omega

theorem Sound.tick (sound : s.Sound late) {n : Nat} (timely : s.Timely late (.tick n)) :
    ({ s with clock := s.clock + n } : ClientCall).Sound late := by
  obtain ⟨past, follows⟩ := sound
  have later : s.clock ≤ s.clock + n := Nat.le_add_right _ _
  refine ⟨past.trans later, ?_⟩
  cases phase : s.phase with
  | idle => trivial
  | waiting round expiry =>
    rw [phase] at follows
    obtain ⟨own, rounds, soon, past, _, undrained, blind⟩ := follows
    have set : expiry ∈ s.timer := by rw [timer, phase]; rfl
    exact ⟨own, rounds, soon, past.trans (Nat.add_le_add_right later _), timely expiry set, undrained, blind⟩
  | calling time c timeout =>
    rw [phase] at follows
    exact ⟨follows.own, follows.past.trans later, follows.left, follows.deadline, follows.soon⟩
  | failed time error =>
    rw [phase] at follows
    cases error <;> exact follows

theorem Sound.loop (sound : s.Sound late) {a : ClientLoop.Action} {loop : ClientLoop}
    (taken : s.loop.step a = some loop) :
    ({ s with
      loop := loop
      connectedAt := if loop.conn = s.loop.conn then s.connectedAt else s.clock } : ClientCall).Sound late := by
  obtain ⟨past, follows⟩ := sound
  have deviceId := (ClientLoop.shared_of_step taken).deviceId
  refine ⟨past, ?_⟩
  cases phase : s.phase with
  | idle => trivial
  | waiting round expiry =>
    rw [phase] at follows
    obtain ⟨own, rounds, soon, past, inTime, undrained, blind⟩ := follows
    have running := ClientLoop.running_of_step taken
    refine ⟨own.trans deviceId.symm, rounds, soon, past, fun _ => inTime running, undrained, fun here => ?_⟩
    dsimp only
    split
    · rename_i same
      exact blind fun gone => here (same.trans gone)
    · exact past
  | calling time c timeout =>
    rw [phase] at follows
    exact ⟨follows.own.trans deviceId.symm, follows.past, follows.left, follows.deadline, follows.soon⟩
  | failed time error =>
    rw [phase] at follows
    cases error with
    | invalidState => exact ClientLoop.stopped_of_step taken follows
    | invalidDeviceId => exact ⟨follows.1, fun same => follows.2 (same.trans deviceId)⟩
    | connection => exact follows
    | timeout => exact follows

theorem Sound.drain (sound : s.Sound late) (untimed : s.timer = none) :
    ({ s with drained := true } : ClientCall).Sound late := by
  obtain ⟨past, follows⟩ := sound
  refine ⟨past, ?_⟩
  cases phase : s.phase with
  | idle => trivial
  | waiting round expiry =>
    rw [timer, phase] at untimed
    cases untimed
  | calling time c timeout =>
    rw [phase] at follows
    exact ⟨follows.own, follows.past, follows.left, follows.deadline, follows.soon⟩
  | failed time error =>
    rw [phase] at follows
    cases error <;> exact follows

theorem Sound.step (few : late ≤ 2 ^ 30 * millisecond) (sound : s.Sound late) (timely : s.Timely late a)
    (taken : s.step a = some t) : t.Sound late := by
  cases a with
  | tick n =>
    cases taken
    exact sound.tick timely
  | loop a =>
    obtain ⟨_, taken⟩ := Option.ite_none_left_eq_some.mp taken
    obtain ⟨loop, moved, rfl⟩ := Option.map_eq_some_iff.mp taken
    exact sound.loop moved
  | run =>
    simp only [ClientCall.step] at taken
    split at taken
    · obtain ⟨⟨_, undrained⟩, same⟩ := Option.ite_none_right_eq_some.mp taken
      cases same
      exact begin_sound few sound.past undrained
    · cases taken
  | wake =>
    simp only [ClientCall.step] at taken
    split at taken
    · rename_i round expiry phase
      obtain ⟨⟨⟨running, undrained⟩, expired⟩, same⟩ := Option.ite_none_right_eq_some.mp taken
      cases same
      have follows := sound.follows
      rw [phase] at follows
      have waits : s.Waits late round expiry := follows
      have inTime := waits.inTime running
      have soon := waits.soon
      have rounds := waits.rounds
      exact poll_sound few waits.own sound.past (by omega) undrained (by rw [Nat.add_mul]; omega)
    · cases taken
  | drain =>
    obtain ⟨⟨_, _, untimed⟩, same⟩ := Option.ite_none_right_eq_some.mp taken
    cases same
    exact sound.drain untimed

/-- The client connects while the call waits for its third round. -/
def connects : List Action :=
  [.run, .tick (100 * millisecond), .wake] ++
    [.resumeConnect, .resolved true, .resumeConnect, .connected true, .resumeConnect].map .loop ++
      [.tick (101 * millisecond), .wake]

/-- The client is stopped by force while the call waits. -/
def forced : List Action := [.run, .loop (.stop true), .loop .runStop]

end ClientCall
end Asyncmsg
