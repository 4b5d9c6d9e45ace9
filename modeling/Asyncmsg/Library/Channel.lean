import Mathlib.Data.List.Basic

/-- A channel that holds at most `size` messages for receivers that have not
come yet, or the receivers that wait for messages. -/
structure Channel (α : Type*) (size : Nat) where
  buffer : List α
  waiters : Nat
  bound : buffer.length ≤ size
  idle : 0 < waiters → buffer = []

namespace Channel
variable {α : Type*} {size : Nat} (channel : Channel α size) (message : α)

def empty : Channel α size := ⟨[], 0, Nat.zero_le _, fun waiting => absurd waiting (Nat.lt_irrefl 0)⟩

/-- A message can be taken: by a receiver that waits, or into the buffer. -/
def Accepts : Prop := 0 < channel.waiters ∨ channel.buffer.length < size

instance : Decidable channel.Accepts := inferInstanceAs (Decidable (_ ∨ _))

/-- Never waits: a message that cannot be taken is refused. -/
def trySend : Option (Channel α size) :=
  if waiting : 0 < channel.waiters then
    some ⟨[], channel.waiters - 1, Nat.zero_le _, fun _ => rfl⟩
  else if room : channel.buffer.length < size then
    some ⟨channel.buffer ++ [message], channel.waiters, by
      rw [List.length_append]
      exact room, fun later => absurd later waiting⟩
  else none

/-- The oldest message, or one more waiting receiver. -/
def receive : Option α × Channel α size :=
  match messages : channel.buffer with
  | [] => (none, ⟨[], channel.waiters + 1, Nat.zero_le _, fun _ => rfl⟩)
  | message :: rest =>
    (some message, ⟨rest, channel.waiters, by
      have bound := channel.bound
      rw [messages, List.length_cons] at bound
      exact Nat.le_of_succ_le bound, fun waiting => by
      have none := channel.idle waiting
      rw [messages] at none
      cases none⟩)

/-- A receiver gives up. -/
def leave : Channel α size :=
  ⟨channel.buffer, channel.waiters - 1, channel.bound, fun waiting =>
    channel.idle (Nat.lt_of_lt_of_le waiting (Nat.sub_le _ _))⟩

/-- All waiting receivers end with an error. -/
def cancel : Channel α size := ⟨channel.buffer, 0, channel.bound, fun waiting => absurd waiting (Nat.lt_irrefl 0)⟩

variable {channel message}

theorem trySend_isSome_iff : (channel.trySend message).isSome ↔ channel.Accepts := by
  unfold trySend Accepts
  split
  · rename_i waiting
    simp [waiting]
  · rename_i waiting
    split
    · rename_i room
      simp [room]
    · rename_i full
      simp [waiting, full]

/-- The message goes to a receiver that waits, or behind those in the buffer. -/
theorem trySend_handed {next : Channel α size} (sent : channel.trySend message = some next) :
    (if 0 < channel.waiters then [message] else []) ++ next.buffer = channel.buffer ++ [message] := by
  unfold trySend at sent
  split at sent
  · rename_i waiting
    cases sent
    rw [if_pos waiting, channel.idle waiting]
    rfl
  · rename_i none
    split at sent
    · cases sent
      rw [if_neg none]
      rfl
    · cases sent

/-- Sending wakes receivers and makes none wait. -/
theorem trySend_waiters {next : Channel α size} (sent : channel.trySend message = some next) :
    next.waiters ≤ channel.waiters := by
  unfold trySend at sent
  split at sent
  · cases sent
    exact Nat.sub_le _ _
  · split at sent
    · cases sent
      exact Nat.le_refl _
    · cases sent

/-- A receiver gets the oldest message, if there is one. -/
theorem receive_handed (channel : Channel α size) :
    channel.receive.1.toList ++ channel.receive.2.buffer = channel.buffer := by
  unfold receive
  split
  · rename_i none
    exact none.symm
  · rename_i messages
    exact messages.symm

/-- A receiver waits exactly if there is no message for it. -/
theorem receive_waiters (channel : Channel α size) :
    channel.receive.2.waiters = if channel.buffer = [] then channel.waiters + 1 else channel.waiters := by
  unfold receive
  split
  · rename_i none
    rw [if_pos none]
  · rename_i messages
    rw [if_neg (by simp [messages])]

end Channel
