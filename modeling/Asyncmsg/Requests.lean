import Asyncmsg.CallProgress

namespace Asyncmsg
open Transition

/-- The call has its write behind it. -/
def Phase.Written : Phase → Prop
  | .queued | .writing _ => False
  | _ => True

theorem Phase.Next.written {a : Sender.Action} {frame : List UInt8} {phase next : Phase}
    (step : Next a frame phase next) (written : phase.Written) : next.Written := by
  cases step <;> simp_all [Phase.Written]

namespace Sender
variable {s t : Sender} {a : Action}

/-- The call whose channel stands under this key. -/
def owner (s : Sender) (id : UInt64) : Option Nat := (s.requests id).map PacketChannel.owner

theorem owner_congr (same : t.requests = s.requests) (id : UInt64) : t.owner id = s.owner id := by
  rw [owner, same, owner]

theorem owner_setRequest (id key : UInt64) (channel : Option PacketChannel) :
    (s.setRequest id channel).owner key = if key = id then channel.map PacketChannel.owner else s.owner key := by
  rw [owner, setRequest_requests, Function.update_apply]
  split <;> rfl

theorem owner_lookUp (pack : Packet) (key : UInt64) : (s.lookUp pack).owner key = s.owner key := by
  rcases s.lookUp_cases pack with same | ⟨_, _, _, _, _, same⟩ | ⟨channel, entry, same⟩ <;> rw [same]
  · rfl
  · rw [owner_setRequest]
    split
    · rename_i here
      rw [owner, here, entry]
      rfl
    · rfl

theorem owner_register (i : Nat) (id key : UInt64) :
    (s.register i id).owner key = if key = id then some i else s.owner key := by
  rw [register, owner_congr (setPhase_requests _ _), owner_setRequest]
  split
  · rfl
  · exact owner_congr (dropChannel_requests _) key

theorem owner_erase (id key : UInt64) : (s.erase id).owner key = if key = id then none else s.owner key := by
  rw [erase, owner_setRequest]
  split
  · rfl
  · exact owner_congr (dropChannel_requests _) key

theorem register_found {i : Nat} {call : Call} (id : UInt64) (found : s.calls[i]? = some call)
    (done : call.phase = .writing []) : (s.register i id).calls[i]? = some (call.setPhase (.waiting .pending)) := by
  have kept : (s.dropChannel id).calls[i]? = some call := dropChannel_found found (by simp [done])
  rw [register, getElem?_setPhase, if_pos rfl, setRequest_calls, kept]
  rfl

theorem erase_found {i : Nat} {call : Call} {rsp : Packet} (id : UInt64) (found : s.calls[i]? = some call)
    (received : call.phase = .waiting (.received rsp)) :
    ((s.erase id).setPhase i (.returned (some rsp))).calls[i]? = some (call.setPhase (.returned (some rsp))) := by
  have kept : (s.dropChannel id).calls[i]? = some call := dropChannel_found found (by simp [received])
  rw [getElem?_setPhase, if_pos rfl, erase, setRequest_calls, kept]
  rfl

/-- What a step does to the table of the waiting requests. -/
theorem Moves.owner (moves : Moves s a t) :
    (∀ id, t.owner id = s.owner id) ∨
      (∃ i call, a = .writeDone i ∧ s.calls[i]? = some call ∧ call.kind = .waitRsp ∧ s.alive = true ∧
        t.calls[i]? = some (call.setPhase (.waiting .pending)) ∧
        ∀ id, t.owner id = if id = call.pack.id then some i else s.owner id) ∨
      (∃ i call rsp, a = .resume i ∧ s.calls[i]? = some call ∧ call.phase = .waiting (.received rsp) ∧
        s.alive = true ∧ t.calls[i]? = some (call.setPhase (.returned (some rsp))) ∧
        ∀ id, t.owner id = if id = call.pack.id then none else s.owner id) ∨
      a = .destroy ∧ t.alive = false ∧ ∀ id, t.owner id = none := by
  cases moves with
  | @writeDone i call found done =>
    rcases s.afterWrite_cases i call with same | same | ⟨kind, alive, same⟩ <;> rw [same]
    · exact Or.inl fun id => rfl
    · exact Or.inl fun id => rfl
    · exact Or.inr (Or.inl ⟨i, call, rfl, found, kind, alive, register_found _ found done, owner_register i _⟩)
  | response => exact Or.inl (owner_lookUp _)
  | @resume i call outcome t found phase after =>
    rcases afterWait_cases after with ⟨rsp, rfl, alive, rfl⟩ | ⟨next, rfl, _⟩
    · exact Or.inr (Or.inr (Or.inl ⟨i, call, rsp, rfl, found, phase, alive, erase_found _ found phase,
        owner_erase _⟩))
    · exact Or.inl fun id => rfl
  | destroy => exact Or.inr (Or.inr (Or.inr ⟨rfl, rfl, fun id => rfl⟩))
  | _ => exact Or.inl fun id => rfl

/-- A call that waits after a channel was dropped waited before, and on another channel. -/
theorem pending_of_dropChannel {id : UInt64} {j : Nat} {call : Call}
    (found : (s.dropChannel id).calls[j]? = some call) (pending : call.phase = .waiting .pending) :
    s.calls[j]? = some call ∧ s.owner id ≠ some j := by
  rcases s.dropChannel_cases id with ⟨empty, same⟩ | ⟨channel, entry, same⟩
  · rw [same] at found
    exact ⟨found, by simp [owner, empty]⟩
  · rw [same, getElem?_cancelWait] at found
    split at found
    · obtain ⟨old, _, rfl⟩ := Option.map_eq_some_iff.mp found
      exact absurd pending (cancelWait_ne_pending _)
    · rename_i other
      exact ⟨found, by simpa [owner, entry] using other⟩

/-- A call that still waits waits for its own channel. -/
def PendingOwned (s : Sender) : Prop :=
  ∀ (i : Nat) (call : Call), s.calls[i]? = some call → call.phase = .waiting .pending →
    s.alive = true ∧ call.kind = .waitRsp ∧ s.owner call.pack.id = some i

theorem PendingOwned.setPhase (pendingOwned : s.PendingOwned) (i : Nat) {phase : Phase}
    (ended : phase ≠ .waiting .pending) : (s.setPhase i phase).PendingOwned := by
  intro j call found pending
  rcases of_getElem?_setPhase found with ⟨_, old, _, rfl⟩ | ⟨_, before⟩
  · exact absurd pending ended
  · exact pendingOwned j call before pending

theorem PendingOwned.erase (pendingOwned : s.PendingOwned) (id : UInt64) : (s.erase id).PendingOwned := by
  intro j call found pending
  obtain ⟨before, other⟩ := pending_of_dropChannel found pending
  obtain ⟨alive, kind, own⟩ := pendingOwned j call before pending
  have apart : call.pack.id ≠ id := fun same => other (same ▸ own)
  exact ⟨(dropChannel_alive id).trans alive, kind, by rw [owner_erase, if_neg apart, own]⟩

theorem PendingOwned.register (pendingOwned : s.PendingOwned) {i : Nat} {call : Call}
    (found : s.calls[i]? = some call) (alive : s.alive = true) (kind : call.kind = .waitRsp) :
    (s.register i call.pack.id).PendingOwned := by
  intro j later found' pending
  have aliveAfter : (s.register i call.pack.id).alive = true := by simp [Sender.register, alive]
  rcases of_getElem?_setPhase found' with ⟨rfl, old, before, rfl⟩ | ⟨_, before⟩
  · obtain ⟨later, there, advances⟩ := Advances.dropChannel (a := .destroy) s call.pack.id i call found
    cases before.symm.trans there
    obtain ⟨sameKind, samePack⟩ := advances.same
    have key : (old.setPhase (.waiting .pending)).pack.id = call.pack.id := congrArg Packet.id samePack
    exact ⟨aliveAfter, sameKind.trans kind, by rw [owner_register, if_pos key]⟩
  · obtain ⟨before, other⟩ := pending_of_dropChannel before pending
    obtain ⟨_, kind, own⟩ := pendingOwned j later before pending
    have apart : later.pack.id ≠ call.pack.id := fun same => other (same ▸ own)
    exact ⟨aliveAfter, kind, by rw [owner_register, if_neg apart, own]⟩

theorem Moves.pendingOwned (moves : Moves s a t) (pendingOwned : s.PendingOwned) : t.PendingOwned := by
  cases moves with
  | @send kind pack frame encoded alive =>
    intro j call found pending
    rw [List.getElem?_append] at found
    split at found
    · exact pendingOwned j call found pending
    · rw [List.getElem?_singleton] at found
      split at found
      · cases found
        dsimp only at pending
        split at pending <;> cases pending
      · cases found
  | runDetached => exact pendingOwned.setPhase _ (by split <;> simp)
  | transfer => exact pendingOwned.setPhase _ (by simp)
  | failWrite => exact pendingOwned.setPhase _ (by simp)
  | @writeDone i call found done =>
    rcases s.afterWrite_cases i call with same | same | ⟨kind, alive, same⟩ <;> rw [same]
    · exact pendingOwned.setPhase _ (by simp)
    · exact pendingOwned.setPhase _ (by simp)
    · exact pendingOwned.register found alive kind
  | @response pack =>
    rcases s.lookUp_cases pack with same | ⟨_, _, _, _, _, same⟩ | ⟨channel, entry, same⟩
    · rwa [same]
    · rw [same]
      exact pendingOwned.setPhase _ (by simp)
    · intro j call found pending
      have own := owner_lookUp (s := s) pack
      rw [same] at found own ⊢
      rw [own]
      exact pendingOwned j call found pending
  | timeout => exact pendingOwned.setPhase _ (by simp)
  | cancel => exact pendingOwned.setPhase _ (by simp)
  | @resume i call outcome t found phase after =>
    rcases afterWait_cases after with ⟨rsp, _, _, rfl⟩ | ⟨next, rfl, ended, _⟩
    · exact (pendingOwned.erase _).setPhase _ (by simp)
    · exact pendingOwned.setPhase _ ended
  | destroy alive =>
    intro j call found pending
    rw [List.getElem?_map] at found
    obtain ⟨old, _, rfl⟩ := Option.map_eq_some_iff.mp found
    exact absurd pending (cancelWait_ne_pending _)

/-- Every channel belongs to a call that has made it under its own key. -/
def Owned (s : Sender) : Prop :=
  ∀ id i, s.owner id = some i →
    ∃ call, s.calls[i]? = some call ∧ call.kind = .waitRsp ∧ call.pack.id = id ∧ call.phase.Written

theorem Moves.owned (moves : Moves s a t) (owned : s.Owned) : t.Owned := by
  intro id i own
  have old (before : s.owner id = some i) :
      ∃ call, t.calls[i]? = some call ∧ call.kind = .waitRsp ∧ call.pack.id = id ∧ call.phase.Written := by
    obtain ⟨call, found, kind, key, written⟩ := owned id i before
    obtain ⟨later, found', advances⟩ := moves.advances i call found
    obtain ⟨sameKind, samePack⟩ := advances.same
    exact ⟨later, found', sameKind.trans kind, samePack ▸ key,
      advances.preserves (P := fun _ phase => phase.Written) (fun _ _ _ step => step.written) written⟩
  rcases moves.owner with same | ⟨j, call, _, found, kind, _, after, table⟩ |
    ⟨_, call, _, _, _, _, _, _, table⟩ | ⟨_, _, table⟩
  · exact old ((same id).symm.trans own)
  · rw [table] at own
    split at own
    · rename_i key
      cases own
      exact ⟨_, after, kind, key.symm, trivial⟩
    · exact old own
  · rw [table] at own
    split at own
    · cases own
    · exact old own
  · rw [table] at own
    cases own

/-- The table of the waiting requests fits the calls. -/
structure Consistent (s : Sender) : Prop where
  owned : s.Owned
  pending : s.PendingOwned

theorem start_consistent : start.Consistent where
  owned _ _ own := by cases own
  pending _ _ found := by cases found

theorem run_consistent {guard : Sender → Action → Prop} {labels : List Action}
    (run : Run step guard start labels s) : s.Consistent :=
  run.invariant start_consistent fun _ _ _ consistent _ taken =>
    ⟨(moves_of_step taken).owned consistent.owned, (moves_of_step taken).pendingOwned consistent.pending⟩

/-- The call has got the response, whether it has returned it yet or not. -/
def Answered (s : Sender) (i : Nat) (rsp : Packet) : Prop :=
  ∃ call, s.calls[i]? = some call ∧ (call.phase = .waiting (.received rsp) ∨ call.phase = .returned (some rsp))

theorem Moves.answered (moves : Moves s a t) {i : Nat} {rsp : Packet} (answered : s.Answered i rsp) :
    t.Answered i rsp := by
  obtain ⟨call, found, phase⟩ := answered
  obtain ⟨later, found', advances⟩ := moves.advances i call found
  refine ⟨later, found', advances.preserves
    (P := fun _ phase => phase = .waiting (.received rsp) ∨ phase = .returned (some rsp))
    (fun _ _ _ step phase => ?_) phase⟩
  rcases phase with rfl | rfl
  · cases step
    exact Or.inr rfl
  · cases step

def ReturnedWith (s : Sender) (i : Nat) (rsp : Packet) : Prop :=
  ∃ call, s.calls[i]? = some call ∧ call.phase = .returned (some rsp)

/-- The call has returned the response, or does so as soon as it is resumed. -/
def Returns (s : Sender) (i : Nat) (rsp : Packet) : Prop :=
  s.ReturnedWith i rsp ∨ ∃ t, s.step (.resume i) = some t ∧ t.ReturnedWith i rsp

theorem Answered.returns {i : Nat} {rsp : Packet} (answered : s.Answered i rsp) : s.Returns i rsp := by
  obtain ⟨call, found, waiting | returned⟩ := answered
  · refine Or.inr ⟨(if s.alive then s.erase call.pack.id else s).setPhase i (.returned (some rsp)), ?_, ?_⟩
    · simp [step, found, waiting, afterWait]
    · have kept : (if s.alive then s.erase call.pack.id else s).calls[i]? = some call := by
        split
        · exact dropChannel_found found (by simp [waiting])
        · exact found
      refine ⟨call.setPhase (.returned (some rsp)), ?_, rfl⟩
      rw [getElem?_setPhase, if_pos rfl, kept]
      rfl
  · exact Or.inl ⟨call, found, returned⟩

end Sender
end Asyncmsg
