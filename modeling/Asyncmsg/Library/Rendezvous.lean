import Mathlib.Data.List.Basic

/-- A channel that holds at most `size` messages for receivers that have not
come yet, or the receivers that wait for messages, in the order of their calls. -/
structure Rendezvous (α ρ : Type*) (size : Nat) where
  buffer : List α
  receivers : List ρ
  bound : buffer.length ≤ size
  idle : receivers ≠ [] → buffer = []

namespace Rendezvous
variable {α ρ : Type*} {size : Nat} (channel : Rendezvous α ρ size) (message : α) (who : ρ)

def empty : Rendezvous α ρ size := ⟨[], [], Nat.zero_le _, fun _ => rfl⟩

/-- Never waits: the first receiver takes the message, or the buffer does, or
it is refused. -/
def trySend : Option (Option ρ × Rendezvous α ρ size) :=
  match channel.receivers with
  | who :: rest => some (some who, ⟨[], rest, Nat.zero_le _, fun _ => rfl⟩)
  | [] =>
    if room : channel.buffer.length < size then
      some (none, ⟨channel.buffer ++ [message], [], by
        rw [List.length_append]
        exact room, fun waiting => absurd rfl waiting⟩)
    else none

/-- The oldest message, or one more waiting receiver. -/
def receive : Option α × Rendezvous α ρ size :=
  match messages : channel.buffer with
  | [] => (none, ⟨[], channel.receivers ++ [who], Nat.zero_le _, fun _ => rfl⟩)
  | message :: rest =>
    (some message, ⟨rest, channel.receivers, by
      have bound := channel.bound
      rw [messages, List.length_cons] at bound
      exact Nat.le_of_succ_le bound, fun waiting => by
      have none := channel.idle waiting
      rw [messages] at none
      cases none⟩)

/-- A receiver gives up. -/
def leave [DecidableEq ρ] : Rendezvous α ρ size :=
  ⟨channel.buffer, channel.receivers.erase who, channel.bound, fun waiting =>
    channel.idle fun none => waiting (by rw [none, List.erase_nil])⟩

/-- All waiting receivers end with an error. -/
def cancel : Rendezvous α ρ size := ⟨channel.buffer, [], channel.bound, fun waiting => absurd rfl waiting⟩

/-- A message can be taken: by a receiver that waits, or into the buffer. -/
def Accepts : Prop := channel.receivers ≠ [] ∨ channel.buffer.length < size

instance : Decidable channel.Accepts :=
  decidable_of_iff (channel.receivers.isEmpty = false ∨ channel.buffer.length < size) (by
    rw [Accepts, List.isEmpty_eq_false_iff])

variable {channel message who}

variable (channel message) in
theorem trySend_isSome_iff : (channel.trySend message).isSome ↔ channel.Accepts := by
  unfold trySend Accepts
  split
  · rename_i waiting
    simp [waiting]
  · rename_i none
    split
    · rename_i room
      simp [room]
    · rename_i full
      simp [none, full]

/-- A message that is not refused goes to the first receiver or behind the buffer. -/
theorem trySend_cases {taker : Option ρ} {next : Rendezvous α ρ size}
    (sent : channel.trySend message = some (taker, next)) :
    (∃ who, taker = some who ∧ channel.receivers = who :: next.receivers ∧ next.buffer = []) ∨
      taker = none ∧ channel.receivers = [] ∧ next.receivers = [] ∧ next.buffer = channel.buffer ++ [message] := by
  unfold trySend at sent
  split at sent
  · rename_i who rest waiting
    cases sent
    exact Or.inl ⟨who, rfl, waiting, rfl⟩
  · rename_i waiting
    split at sent
    · cases sent
      exact Or.inr ⟨rfl, waiting, rfl, rfl⟩
    · cases sent

/-- A receiver gets the first message of the buffer, or waits behind the others. -/
theorem receive_cases (channel : Rendezvous α ρ size) (who : ρ) :
    (∃ message, (channel.receive who).1 = some message ∧ channel.buffer = message :: (channel.receive who).2.buffer ∧
        (channel.receive who).2.receivers = channel.receivers) ∨
      (channel.receive who).1 = none ∧ channel.buffer = [] ∧ (channel.receive who).2.buffer = [] ∧
        (channel.receive who).2.receivers = channel.receivers ++ [who] := by
  unfold receive
  split
  · rename_i none
    exact Or.inr ⟨rfl, none, rfl, rfl⟩
  · rename_i message rest messages
    exact Or.inl ⟨message, rfl, messages, rfl⟩

/-- A message goes behind all that wait to be taken, and to the receiver that
has waited longest. -/
theorem trySend_order {taker : Option ρ} {next : Rendezvous α ρ size}
    (sent : channel.trySend message = some (taker, next)) :
    (taker.toList.map fun _ => message) ++ next.buffer = channel.buffer ++ [message] ∧
      taker.toList ++ next.receivers = channel.receivers := by
  rcases trySend_cases sent with ⟨who, rfl, waiting, empty⟩ | ⟨rfl, none, none', behind⟩
  · have nothing := channel.idle (by simp [waiting])
    simp [nothing, waiting, empty]
  · simp [none, none', behind]

/-- A receiver takes the oldest message, or waits behind all that wait. -/
theorem receive_order (channel : Rendezvous α ρ size) (who : ρ) :
    (channel.receive who).1.toList ++ (channel.receive who).2.buffer = channel.buffer ∧
      ((channel.receive who).1.toList.map fun _ => who) ++ (channel.receive who).2.receivers =
        channel.receivers ++ [who] := by
  rcases receive_cases channel who with ⟨message, given, messages, same⟩ | ⟨given, none, empty, behind⟩
  · have nobody : channel.receivers = [] := by
      by_contra waiting
      simp [channel.idle waiting] at messages
    simp [given, messages, same, nobody]
  · simp [given, none, empty, behind]

end Rendezvous
