import Mathlib.Data.List.Basic
import Asyncmsg.Sender

namespace Asyncmsg

namespace Sender
variable {s t : Sender}

/-- What a step does, by the action that names it. -/
inductive Moves (s : Sender) : Action → Sender → Prop
  | send {kind pack frame} (encoded : encodePacket pack = some frame) : s.alive = true →
      Moves s (.send kind pack) { s with
        calls := s.calls ++ [⟨kind, pack, frame, encoded, if kind = .detach then .queued else .writing frame⟩] }
  | runDetached {i call} : s.calls[i]? = some call → call.phase = .queued →
      Moves s (.runDetached i) (s.setPhase i (if s.alive then .writing call.frame else .dropped))
  | transfer {i n call rest} : s.calls[i]? = some call → call.phase = .writing rest → s.alive = true →
      0 < n → n ≤ rest.length →
      Moves s (.transfer i n) { s.setPhase i (.writing (rest.drop n)) with wire := s.wire ++ rest.take n }
  | failWrite {i call rest} : s.calls[i]? = some call → call.phase = .writing rest → rest ≠ [] →
      Moves s (.failWrite i) (s.setPhase i (.threw .write))
  | writeDone {i call} : s.calls[i]? = some call → call.phase = .writing [] →
      Moves s (.writeDone i) (s.afterWrite i call)
  | response {pack} : s.alive = true → pack.deviceId ≠ [] → pack.rsp = true → Moves s (.response pack) (s.lookUp pack)
  | timeout {i call} : s.calls[i]? = some call → call.phase = .waiting .pending →
      Moves s (.timeout i) (s.setPhase i (.waiting .expired))
  | cancel {i call} : s.calls[i]? = some call → call.phase = .waiting .pending →
      Moves s (.cancel i) (s.setPhase i (.waiting .cancelled))
  | resume {i call outcome t} : s.calls[i]? = some call → call.phase = .waiting outcome →
      s.afterWait i call outcome = some t → Moves s (.resume i) t
  | destroy : s.alive = true → Moves s .destroy
      ⟨false, s.wire, s.calls.map fun call => call.setPhase call.phase.cancelWait, fun _ => none⟩

theorem moves_of_step {a : Action} (taken : s.step a = some t) : Moves s a t := by
  cases a with
  | send kind pack =>
    simp only [step] at taken
    split at taken
    · cases taken
    · obtain ⟨alive, same⟩ := Option.ite_none_right_eq_some.mp taken
      cases same
      exact .send ‹_› alive
  | runDetached i =>
    obtain ⟨call, found, taken⟩ := Option.bind_eq_some_iff.mp taken
    obtain ⟨queued, same⟩ := Option.ite_none_right_eq_some.mp taken
    cases same
    exact .runDetached found queued
  | transfer i n =>
    obtain ⟨call, found, taken⟩ := Option.bind_eq_some_iff.mp taken
    split at taken
    · obtain ⟨⟨alive, positive, within⟩, same⟩ := Option.ite_none_right_eq_some.mp taken
      cases same
      exact .transfer found ‹_› alive positive within
    · cases taken
  | failWrite i =>
    obtain ⟨call, found, taken⟩ := Option.bind_eq_some_iff.mp taken
    split at taken
    · obtain ⟨unfinished, same⟩ := Option.ite_none_right_eq_some.mp taken
      cases same
      exact .failWrite found ‹_› unfinished
    · cases taken
  | writeDone i =>
    obtain ⟨call, found, taken⟩ := Option.bind_eq_some_iff.mp taken
    obtain ⟨done, same⟩ := Option.ite_none_right_eq_some.mp taken
    cases same
    exact .writeDone found done
  | response pack =>
    obtain ⟨⟨alive, named, rsp⟩, same⟩ := Option.ite_none_right_eq_some.mp taken
    cases same
    exact .response alive named rsp
  | timeout i =>
    obtain ⟨call, found, taken⟩ := Option.bind_eq_some_iff.mp taken
    obtain ⟨waiting, same⟩ := Option.ite_none_right_eq_some.mp taken
    cases same
    exact .timeout found waiting
  | cancel i =>
    obtain ⟨call, found, taken⟩ := Option.bind_eq_some_iff.mp taken
    obtain ⟨waiting, same⟩ := Option.ite_none_right_eq_some.mp taken
    cases same
    exact .cancel found waiting
  | resume i =>
    obtain ⟨call, found, taken⟩ := Option.bind_eq_some_iff.mp taken
    split at taken
    · exact .resume found ‹_› taken
    · cases taken
  | destroy =>
    obtain ⟨alive, same⟩ := Option.ite_none_right_eq_some.mp taken
    cases same
    exact .destroy alive

@[simp] theorem setRequest_calls (id : UInt64) (channel : Option PacketChannel) :
    (s.setRequest id channel).calls = s.calls := rfl

@[simp] theorem setRequest_alive (id : UInt64) (channel : Option PacketChannel) :
    (s.setRequest id channel).alive = s.alive := rfl

@[simp] theorem setRequest_requests (id : UInt64) (channel : Option PacketChannel) :
    (s.setRequest id channel).requests = Function.update s.requests id channel := rfl

@[simp] theorem setPhase_requests (i : Nat) (phase : Phase) : (s.setPhase i phase).requests = s.requests := rfl

@[simp] theorem setPhase_alive (i : Nat) (phase : Phase) : (s.setPhase i phase).alive = s.alive := rfl

theorem dropChannel_cases (s : Sender) (id : UInt64) :
    s.requests id = none ∧ s.dropChannel id = s ∨
      ∃ channel, s.requests id = some channel ∧ s.dropChannel id = s.cancelWait channel.owner := by
  unfold dropChannel
  split
  · exact Or.inr ⟨_, ‹_›, rfl⟩
  · exact Or.inl ⟨‹_›, rfl⟩

@[simp] theorem dropChannel_requests (id : UInt64) : (s.dropChannel id).requests = s.requests := by
  unfold dropChannel
  split <;> rfl

@[simp] theorem dropChannel_alive (id : UInt64) : (s.dropChannel id).alive = s.alive := by
  unfold dropChannel
  split <;> rfl

@[simp] theorem dropChannel_wire (id : UInt64) : (s.dropChannel id).wire = s.wire := by
  unfold dropChannel
  split <;> rfl

theorem cancelWait_ne_pending (phase : Phase) : phase.cancelWait ≠ .waiting .pending := by
  unfold Phase.cancelWait
  split
  · exact nofun
  · rename_i other
    exact fun waiting => other waiting

/-- What `try_send` can do. -/
theorem lookUp_cases (s : Sender) (pack : Packet) :
    s.lookUp pack = s ∨
      (∃ channel call, s.requests pack.id = some channel ∧ s.calls[channel.owner]? = some call ∧
        call.phase = .waiting .pending ∧
        s.lookUp pack = s.setPhase channel.owner (.waiting (.received pack))) ∨
      ∃ channel, s.requests pack.id = some channel ∧
        s.lookUp pack = s.setRequest pack.id (some { channel with buffered := some pack }) := by
  unfold lookUp
  split
  · exact Or.inl rfl
  · rename_i channel entry
    split
    · rename_i waiting
      obtain ⟨call, found, pending⟩ := Option.map_eq_some_iff.mp waiting
      exact Or.inr (Or.inl ⟨channel, call, entry, found, pending, rfl⟩)
    · split
      · exact Or.inr (Or.inr ⟨channel, entry, rfl⟩)
      · exact Or.inl rfl

theorem getElem?_setPhase {i j : Nat} {phase : Phase} :
    (s.setPhase i phase).calls[j]? = if i = j then (s.calls[j]?).map (·.setPhase phase) else s.calls[j]? := by
  rw [setPhase, List.getElem?_modify]
  split
  · rfl
  · exact Option.map_id'

theorem getElem?_cancelWait {i j : Nat} :
    (s.cancelWait i).calls[j]? =
      if i = j then (s.calls[j]?).map (fun call => call.setPhase call.phase.cancelWait) else s.calls[j]? := by
  rw [cancelWait, List.getElem?_modify]
  split
  · rfl
  · exact Option.map_id'

/-- Where the phase of one call is set, a call found afterwards is that one or
was there before. -/
theorem of_getElem?_setPhase {i j : Nat} {phase : Phase} {call : Call}
    (found : (s.setPhase i phase).calls[j]? = some call) :
    i = j ∧ (∃ old, s.calls[j]? = some old ∧ old.setPhase phase = call) ∨ i ≠ j ∧ s.calls[j]? = some call := by
  rw [getElem?_setPhase] at found
  split at found
  · exact Or.inl ⟨‹_›, Option.map_eq_some_iff.mp found⟩
  · exact Or.inr ⟨‹_›, found⟩

end Sender
end Asyncmsg
