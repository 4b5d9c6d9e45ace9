import Asyncmsg.Registry
import Asyncmsg.Sender

namespace Asyncmsg

def defaultTries : UInt32 := 3

/-- One round of the retry loop: the server as the round finds it, and what
comes of the transmission if there is one: the loop swallows every exception. -/
structure Attempt where
  server : Registry
  outcome : Except SendError Packet

/-- How a call of the server's `send_packet_and_wait_rsp` ends. Behind the
largest value of its counter the code has no meaning. -/
inductive RetryResult
  | response (rsp : Packet)
  | invalidState
  | connectionError
  | timeout
  | overflow
  deriving DecidableEq

/-- How often a call has transmitted its packet, and its end. A transmission is
a round that gets as far as the write. -/
structure RetryReport where
  transmissions : Nat
  result : RetryResult
  deriving DecidableEq

/-- The largest value of the loop's counter. -/
def intMax : Nat := 2 ^ 31 - 1

section Retry
variable (pack : Packet) (attempts : Nat → Attempt) (maxTries : UInt32)

/-- The retry loop from a round on. The counter is an `int`, which is compared
with the bound as an unsigned number. -/
def retryLoop (i : Nat) (transmissions : Nat) : RetryReport :=
  if i ≤ maxTries.toNat then
    if (attempts i).server.stopped then ⟨transmissions, .invalidState⟩
    else match (attempts i).server.find pack.deviceId with
      | none => ⟨transmissions, .connectionError⟩
      | some _ => match (attempts i).outcome with
        | .ok rsp => ⟨transmissions + 1, .response rsp⟩
        | .error _ =>
          if _ : i < intMax then retryLoop (i + 1) (transmissions + 1) else ⟨transmissions + 1, .overflow⟩
  else ⟨transmissions, .timeout⟩
termination_by intMax - i

/-- The server's `send_packet_and_wait_rsp`. -/
def sendPacketAndWaitRsp : RetryReport := retryLoop pack attempts maxTries 0 0

end Retry

namespace Attempt
variable (attempt : Attempt) (pack : Packet)

/-- What a round throws before it transmits. -/
def refusal : Option RetryResult :=
  if attempt.server.stopped then some .invalidState
  else if attempt.server.find pack.deviceId = none then some .connectionError
  else none

/-- A round that transmits the packet and gets no response. -/
def Fails : Prop := attempt.refusal pack = none ∧ ∀ rsp, attempt.outcome ≠ .ok rsp

def Answers (rsp : Packet) : Prop := attempt.refusal pack = none ∧ attempt.outcome = .ok rsp

variable {attempt pack}

theorem cases :
    (∃ result, attempt.refusal pack = some result) ∨ (∃ rsp, attempt.Answers pack rsp) ∨ attempt.Fails pack := by
  cases refused : attempt.refusal pack with
  | some result => exact Or.inl ⟨result, rfl⟩
  | none =>
    cases answer : attempt.outcome with
    | ok rsp => exact Or.inr (Or.inl ⟨rsp, refused, answer⟩)
    | error e => exact Or.inr (Or.inr ⟨refused, fun rsp => by simp [answer]⟩)

end Attempt

section Spec
variable {pack : Packet} {attempts : Nat → Attempt} {maxTries : UInt32} {i sent : Nat} {result : RetryResult}
variable {rsp : Packet}

theorem retryLoop_beyond (beyond : maxTries.toNat < i) :
    retryLoop pack attempts maxTries i sent = ⟨sent, .timeout⟩ := by
  rw [retryLoop, if_neg (not_le.mpr beyond)]

theorem retryLoop_refused (within : i ≤ maxTries.toNat) (refused : (attempts i).refusal pack = some result) :
    retryLoop pack attempts maxTries i sent = ⟨sent, result⟩ := by
  rw [retryLoop, if_pos within]
  unfold Attempt.refusal at refused
  split at refused
  · rename_i stopped
    cases refused
    rw [if_pos stopped]
  · rename_i running
    rw [if_neg running]
    split at refused
    · rename_i missing
      cases refused
      rw [missing]
    · cases refused

theorem retryLoop_connected (within : i ≤ maxTries.toNat) (connected : (attempts i).refusal pack = none) :
    retryLoop pack attempts maxTries i sent = match (attempts i).outcome with
      | .ok rsp => ⟨sent + 1, .response rsp⟩
      | .error _ =>
        if i < intMax then retryLoop pack attempts maxTries (i + 1) (sent + 1) else ⟨sent + 1, .overflow⟩ := by
  rw [retryLoop, if_pos within]
  unfold Attempt.refusal at connected
  split at connected
  · cases connected
  · rename_i running
    split at connected
    · cases connected
    · rename_i found
      obtain ⟨c, found⟩ := Option.ne_none_iff_exists'.mp found
      rw [if_neg running, found]
      cases (attempts i).outcome <;> rfl

theorem retryLoop_answered (within : i ≤ maxTries.toNat) (answers : (attempts i).Answers pack rsp) :
    retryLoop pack attempts maxTries i sent = ⟨sent + 1, .response rsp⟩ := by
  rw [retryLoop_connected within answers.1, answers.2]

theorem retryLoop_failed (within : i ≤ maxTries.toNat) (fails : (attempts i).Fails pack) :
    retryLoop pack attempts maxTries i sent =
      if i < intMax then retryLoop pack attempts maxTries (i + 1) (sent + 1) else ⟨sent + 1, .overflow⟩ := by
  rw [retryLoop_connected within fails.1]
  cases outcome : (attempts i).outcome with
  | ok rsp => exact absurd outcome (fails.2 rsp)
  | error => rfl

/-- Behind some failing attempts the loop has transmitted once for each. -/
theorem sendPacketAndWaitRsp_of_fails {n : Nat} (fails : ∀ m < n, (attempts m).Fails pack)
    (within : n ≤ maxTries.toNat + 1) (counted : n ≤ intMax) :
    sendPacketAndWaitRsp pack attempts maxTries = retryLoop pack attempts maxTries n n := by
  induction n with
  | zero => rfl
  | succ n ih =>
    rw [ih (fun m before => fails m (Nat.lt_succ_of_lt before)) (by omega) (by omega),
      retryLoop_failed (by omega) (fails n n.lt_succ_self), if_pos (by omega)]

theorem sendPacketAndWaitRsp_refused {n : Nat} (fails : ∀ m < n, (attempts m).Fails pack)
    (within : n ≤ maxTries.toNat) (counted : n ≤ intMax) (refused : (attempts n).refusal pack = some result) :
    sendPacketAndWaitRsp pack attempts maxTries = ⟨n, result⟩ := by
  rw [sendPacketAndWaitRsp_of_fails fails (by omega) counted, retryLoop_refused within refused]

theorem sendPacketAndWaitRsp_answered {n : Nat} (fails : ∀ m < n, (attempts m).Fails pack)
    (within : n ≤ maxTries.toNat) (counted : n ≤ intMax) (answers : (attempts n).Answers pack rsp) :
    sendPacketAndWaitRsp pack attempts maxTries = ⟨n + 1, .response rsp⟩ := by
  rw [sendPacketAndWaitRsp_of_fails fails (by omega) counted, retryLoop_answered within answers]

/-- Where no round ends the call, it transmits once too often or runs out of
its counter. -/
theorem sendPacketAndWaitRsp_exhausted
    (fails : ∀ m ≤ maxTries.toNat, m ≤ intMax → (attempts m).Fails pack) :
    sendPacketAndWaitRsp pack attempts maxTries =
      if maxTries.toNat < intMax then ⟨maxTries.toNat + 1, .timeout⟩ else ⟨intMax + 1, .overflow⟩ := by
  split
  · rename_i small
    rw [sendPacketAndWaitRsp_of_fails (fun m before => fails m (by omega) (by omega)) le_rfl small]
    exact retryLoop_beyond (Nat.lt_succ_self _)
  · rename_i large
    rw [sendPacketAndWaitRsp_of_fails (fun m before => fails m (by omega) (by omega)) (by omega) le_rfl,
      retryLoop_failed (by omega) (fails intMax (by omega) le_rfl), if_neg (lt_irrefl _)]

end Spec

namespace Attempt
variable {attempt : Attempt} {pack : Packet} {attempts : Nat → Attempt} {result : RetryResult} {rsp : Packet}

theorem refusal_cases (refused : attempt.refusal pack = some result) :
    result = .invalidState ∨ result = .connectionError := by
  unfold refusal at refused
  split at refused
  · cases refused
    exact Or.inl rfl
  · split at refused
    · cases refused
      exact Or.inr rfl
    · cases refused

theorem not_fails_of_refused (refused : attempt.refusal pack = some result) : ¬attempt.Fails pack := fun fails => by
  cases refused.symm.trans fails.1

theorem Answers.not_fails (answers : attempt.Answers pack rsp) : ¬attempt.Fails pack := fun fails =>
  fails.2 rsp answers.2

/-- Only one round is the first that does not fail. -/
theorem first_unique {n k : Nat} (fails : ∀ m < n, (attempts m).Fails pack) (ends : ¬(attempts n).Fails pack)
    (fails' : ∀ m < k, (attempts m).Fails pack) (ends' : ¬(attempts k).Fails pack) : n = k := by
  rcases Nat.lt_trichotomy n k with before | same | behind
  · exact absurd (fails' n before) ends
  · exact same
  · exact absurd (fails k behind) ends'

end Attempt

/-- What a bound on the tries promises of a call. -/
structure RetryBound (pack : Packet) (attempts : Nat → Attempt) (maxTries : UInt32) (report : RetryReport) :
    Prop where
  transmissions_le : report.transmissions ≤ maxTries.toNat
  terminates : report.result ≠ .overflow
  answered : ∀ n < maxTries.toNat, (∀ m < n, (attempts m).Fails pack) →
    ∀ rsp, (attempts n).Answers pack rsp → report = ⟨n + 1, .response rsp⟩
  response : ∀ rsp, report.result = .response rsp →
    ∃ n, report.transmissions = n + 1 ∧ (attempts n).Answers pack rsp
  refused : ∀ n < maxTries.toNat, (∀ m < n, (attempts m).Fails pack) →
    ∀ result, (attempts n).refusal pack = some result → report = ⟨n, result⟩
  timeout : report.result = .timeout →
    maxTries.toNat ≤ report.transmissions ∧ ∀ n < report.transmissions, (attempts n).Fails pack

/-- The call comes to its end before a transmission too many, and before the
counter has no next value. -/
def EndsInTime (pack : Packet) (attempts : Nat → Attempt) (maxTries : UInt32) : Prop :=
  ∃ n ≤ intMax, (∀ m < n, (attempts m).Fails pack) ∧
    ((∃ rsp, (attempts n).Answers pack rsp) ∧ n < maxTries.toNat ∨
      (∃ result, (attempts n).refusal pack = some result) ∧ n ≤ maxTries.toNat)

section Bound
variable {pack : Packet} {attempts : Nat → Attempt} {maxTries : UInt32}

theorem RetryBound.of_answered {n : Nat} {rsp : Packet} (fails : ∀ m < n, (attempts m).Fails pack)
    (answers : (attempts n).Answers pack rsp) (within : n < maxTries.toNat) :
    RetryBound pack attempts maxTries ⟨n + 1, .response rsp⟩ where
  transmissions_le := within
  terminates := nofun
  answered k _ fails' rsp' answers' := by
    cases Attempt.first_unique fails answers.not_fails fails' answers'.not_fails
    cases answers.2.symm.trans answers'.2
    rfl
  response _ same := by
    cases same
    exact ⟨n, rfl, answers⟩
  refused k _ fails' result refused := by
    cases Attempt.first_unique fails answers.not_fails fails' (Attempt.not_fails_of_refused refused)
    cases answers.1.symm.trans refused
  timeout := nofun

theorem RetryBound.of_refused {n : Nat} {result : RetryResult} (fails : ∀ m < n, (attempts m).Fails pack)
    (refused : (attempts n).refusal pack = some result) (within : n ≤ maxTries.toNat) :
    RetryBound pack attempts maxTries ⟨n, result⟩ where
  transmissions_le := within
  terminates := by rcases Attempt.refusal_cases refused with rfl | rfl <;> exact nofun
  answered k _ fails' rsp answers := by
    cases Attempt.first_unique fails (Attempt.not_fails_of_refused refused) fails' answers.not_fails
    cases answers.1.symm.trans refused
  response rsp same := by rcases Attempt.refusal_cases refused with rfl | rfl <;> cases same
  refused k _ fails' result' refused' := by
    cases Attempt.first_unique fails (Attempt.not_fails_of_refused refused) fails'
      (Attempt.not_fails_of_refused refused')
    cases refused.symm.trans refused'
    rfl
  timeout same := by rcases Attempt.refusal_cases refused with rfl | rfl <;> cases same

theorem RetryBound.endsInTime
    (bound : RetryBound pack attempts maxTries (sendPacketAndWaitRsp pack attempts maxTries)) :
    EndsInTime pack attempts maxTries := by
  by_cases fails : ∀ m ≤ maxTries.toNat, m ≤ intMax → (attempts m).Fails pack
  · rw [sendPacketAndWaitRsp_exhausted fails] at bound
    split at bound
    · exact absurd bound.transmissions_le (Nat.not_succ_le_self _)
    · exact absurd rfl bound.terminates
  · classical
    have ends : ∃ m, ¬(attempts m).Fails pack := by
      by_contra never
      exact fails fun m _ _ => not_not.mp (not_exists.mp never m)
    have before : ∀ m < Nat.find ends, (attempts m).Fails pack := fun m earlier =>
      not_not.mp (Nat.find_min ends earlier)
    have within : Nat.find ends ≤ maxTries.toNat ∧ Nat.find ends ≤ intMax := by
      by_contra late
      exact fails fun m small counted => before m (by omega)
    refine ⟨_, within.2, before, ?_⟩
    rcases @Attempt.cases (attempts (Nat.find ends)) pack with refused | ⟨rsp, answers⟩ | continues
    · exact Or.inr ⟨refused, within.1⟩
    · rw [sendPacketAndWaitRsp_answered before within.1 within.2 answers] at bound
      exact Or.inl ⟨⟨rsp, answers⟩, bound.transmissions_le⟩
    · exact absurd continues (Nat.find_spec ends)

end Bound

/-- The retry loop keeps its bound exactly if it is ended by a response within
the tries or by a refusal at the latest behind them. -/
theorem retryBound_iff (pack : Packet) (attempts : Nat → Attempt) (maxTries : UInt32) :
    RetryBound pack attempts maxTries (sendPacketAndWaitRsp pack attempts maxTries) ↔
      EndsInTime pack attempts maxTries := by
  refine ⟨RetryBound.endsInTime, ?_⟩
  rintro ⟨n, counted, fails, ⟨⟨rsp, answers⟩, within⟩ | ⟨⟨result, refused⟩, within⟩⟩
  · rw [sendPacketAndWaitRsp_answered fails within.le counted answers]
    exact .of_answered fails answers within
  · rw [sendPacketAndWaitRsp_refused fails within counted refused]
    exact .of_refused fails refused within

/-- A device that is connected and never answers. -/
def silentAttempt : Attempt where
  server := { Registry.start with
    peers := [⟨[0x61], 0, true, true⟩]
    connectionMap := (∅ : AList fun _ : List UInt8 => Nat).insert [0x61] 0 }
  outcome := .error .timeout

/-- With the default of three tries a silent device is sent the packet four times. -/
theorem silent_transmissions :
    sendPacketAndWaitRsp ⟨1, 1, false, 0, [0x61], .empty⟩ (fun _ => silentAttempt) defaultTries = ⟨4, .timeout⟩ ∧
      ¬RetryBound ⟨1, 1, false, 0, [0x61], .empty⟩ (fun _ => silentAttempt) defaultTries
        (sendPacketAndWaitRsp ⟨1, 1, false, 0, [0x61], .empty⟩ (fun _ => silentAttempt) defaultTries) := by
  have fails : silentAttempt.Fails ⟨1, 1, false, 0, [0x61], .empty⟩ := ⟨by decide, nofun⟩
  rw [sendPacketAndWaitRsp_exhausted fun _ _ _ => fails]
  exact ⟨rfl, fun bound => absurd bound.transmissions_le (by decide)⟩

end Asyncmsg
