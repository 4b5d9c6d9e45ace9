import Mathlib.Logic.Relation
import Asyncmsg.SenderSteps

namespace Asyncmsg

/-- What an action can do to a sending coroutine. -/
inductive Phase.Next (a : Sender.Action) (frame : List UInt8) : Phase → Phase → Prop
  | run : Next a frame .queued (.writing frame)
  | drop : Next a frame .queued .dropped
  | wrote {i n : Nat} {rest : List UInt8} : a = .transfer i n → Next a frame (.writing rest) (.writing (rest.drop n))
  | failed {i : Nat} {rest : List UInt8} : a = .failWrite i → Next a frame (.writing rest) (.threw .write)
  | sent : Next a frame (.writing []) (.returned none)
  | gone : Next a frame (.writing []) (.threw .invalidState)
  | registered : Next a frame (.writing []) (.waiting .pending)
  | received {rsp : Packet} : a = .response rsp → Next a frame (.waiting .pending) (.waiting (.received rsp))
  | expiring : Next a frame (.waiting .pending) (.waiting .expired)
  | cancelling : Next a frame (.waiting .pending) (.waiting .cancelled)
  | answered {rsp : Packet} : Next a frame (.waiting (.received rsp)) (.returned (some rsp))
  | expired : Next a frame (.waiting .expired) (.threw .timeout)
  | cancelled : Next a frame (.waiting .cancelled) (.threw .cancelled)

variable {a : Sender.Action}

/-- The same call, at most one step later. -/
def Call.Advances (a : Sender.Action) (call later : Call) : Prop :=
  ∃ phase, later = call.setPhase phase ∧ Relation.ReflGen (Phase.Next a call.frame) call.phase phase

namespace Call.Advances

theorem refl (call : Call) : call.Advances a call := ⟨call.phase, rfl, .refl⟩

theorem single {call : Call} {phase : Phase} (next : Phase.Next a call.frame call.phase phase) :
    call.Advances a (call.setPhase phase) := ⟨phase, rfl, .single next⟩

theorem cancelWait (call : Call) : call.Advances a (call.setPhase call.phase.cancelWait) := by
  unfold Phase.cancelWait
  split
  · rename_i pending
    exact single (pending ▸ .cancelling)
  · exact refl call

theorem same {call later : Call} (advances : call.Advances a later) :
    later.kind = call.kind ∧ later.pack = call.pack := by
  obtain ⟨_, rfl, _⟩ := advances
  exact ⟨rfl, rfl⟩

/-- What every step of a coroutine keeps stays true of the call. -/
theorem preserves {P : List UInt8 → Phase → Prop}
    (keep : ∀ frame phase next, Phase.Next a frame phase next → P frame phase → P frame next)
    {call later : Call} (advances : call.Advances a later) (first : P call.frame call.phase) :
    P later.frame later.phase := by
  obtain ⟨phase, rfl, steps⟩ := advances
  cases steps with
  | refl => exact first
  | single step => exact keep _ _ _ step first

end Call.Advances

namespace Sender
variable {s t : Sender}

/-- Every call of `s` is still there in `t`, at most one step later. -/
def Advances (a : Action) (s t : Sender) : Prop :=
  ∀ (j : Nat) (call : Call), s.calls[j]? = some call →
    ∃ later, t.calls[j]? = some later ∧ call.Advances a later

theorem Advances.refl (s : Sender) : s.Advances a s := fun _ call found => ⟨call, found, .refl call⟩

/-- A call that the step has left alone so far goes on. -/
theorem Advances.then_setPhase (first : s.Advances a t) {i : Nat} {phase : Phase} {call : Call}
    (found : s.calls[i]? = some call) (still : t.calls[i]? = some call)
    (next : Phase.Next a call.frame call.phase phase) : s.Advances a (t.setPhase i phase) :=
  fun j other there => by
    rw [getElem?_setPhase]
    split
    · subst j
      cases found.symm.trans there
      exact ⟨_, by rw [still]; rfl, .single next⟩
    · exact first j other there

theorem Advances.setPhase {i : Nat} {phase : Phase} {call : Call} (found : s.calls[i]? = some call)
    (next : Phase.Next a call.frame call.phase phase) : s.Advances a (s.setPhase i phase) :=
  (Advances.refl s).then_setPhase found found next

theorem Advances.cancelWait (s : Sender) (i : Nat) : s.Advances a (s.cancelWait i) := fun j call found => by
  rw [getElem?_cancelWait]
  split
  · exact ⟨_, by rw [found]; rfl, .cancelWait call⟩
  · exact ⟨call, found, .refl call⟩

theorem Advances.dropChannel (s : Sender) (id : UInt64) : s.Advances a (s.dropChannel id) := by
  rcases s.dropChannel_cases id with ⟨_, same⟩ | ⟨channel, _, same⟩ <;> rw [same]
  · exact .refl s
  · exact .cancelWait s _

/-- Dropping a channel ends nothing but the wait on it. -/
theorem dropChannel_found {id : UInt64} {i : Nat} {call : Call} (found : s.calls[i]? = some call)
    (other : call.phase ≠ .waiting .pending) : (s.dropChannel id).calls[i]? = some call := by
  rcases s.dropChannel_cases id with ⟨_, same⟩ | ⟨channel, _, same⟩ <;> rw [same]
  · exact found
  · rw [getElem?_cancelWait]
    split
    · have kept : call.phase.cancelWait = call.phase := by
        unfold Phase.cancelWait
        split
        · exact absurd ‹_› other
        · rfl
      rw [found, Option.map_some, kept]
      rfl
    · exact found

theorem afterWrite_cases (s : Sender) (i : Nat) (call : Call) :
    s.afterWrite i call = s.setPhase i (.returned none) ∨
      s.afterWrite i call = s.setPhase i (.threw .invalidState) ∨
      call.kind = .waitRsp ∧ s.alive = true ∧ s.afterWrite i call = s.register i call.pack.id := by
  unfold afterWrite
  split
  · split
    · exact Or.inr (Or.inr ⟨‹_›, ‹_›, rfl⟩)
    · exact Or.inr (Or.inl rfl)
  · exact Or.inl rfl

/-- A waiting coroutine that goes on ends its call. Only one that has its response
erases its entry. -/
theorem afterWait_cases {i : Nat} {call : Call} {outcome : Outcome} (after : s.afterWait i call outcome = some t) :
    (∃ rsp, outcome = .received rsp ∧ s.alive = true ∧
        t = (s.erase call.pack.id).setPhase i (.returned (some rsp))) ∨
      ∃ phase, t = s.setPhase i phase ∧ phase ≠ .waiting .pending ∧
        ∀ a, Phase.Next a call.frame (.waiting outcome) phase := by
  cases outcome with
  | pending => cases after
  | received rsp =>
    cases after
    split
    · exact Or.inl ⟨rsp, rfl, ‹_›, rfl⟩
    · exact Or.inr ⟨_, rfl, by simp, fun _ => .answered⟩
  | expired =>
    cases after
    exact Or.inr ⟨_, rfl, by simp, fun _ => .expired⟩
  | cancelled =>
    cases after
    exact Or.inr ⟨_, rfl, by simp, fun _ => .cancelled⟩

theorem Advances.register {i : Nat} {call : Call} (id : UInt64) (found : s.calls[i]? = some call)
    (done : call.phase = .writing []) : s.Advances a (s.register i id) := by
  have other : call.phase ≠ .waiting .pending := by simp [done]
  have dropped : s.Advances a ((s.dropChannel id).setRequest id (some ⟨i, none⟩)) := Advances.dropChannel s id
  exact dropped.then_setPhase found (dropChannel_found found other) (done ▸ .registered)

/-- Every step takes every call on, or leaves it where it is. -/
theorem Moves.advances (moves : Moves s a t) : s.Advances a t := by
  cases moves with
  | send encoded alive =>
    exact fun j call found => ⟨call, (List.getElem?_append_left (List.getElem?_eq_some_iff.mp found).1).trans found,
      .refl call⟩
  | @runDetached i call found queued =>
    refine Advances.setPhase found ?_
    rw [queued]
    split
    · exact .run
    · exact .drop
  | transfer found writing => exact Advances.setPhase found (writing ▸ .wrote rfl)
  | failWrite found writing => exact Advances.setPhase found (writing ▸ .failed rfl)
  | @writeDone i call found done =>
    rcases s.afterWrite_cases i call with same | same | ⟨_, _, same⟩ <;> rw [same]
    · exact Advances.setPhase found (done ▸ .sent)
    · exact Advances.setPhase found (done ▸ .gone)
    · exact Advances.register _ found done
  | @response pack =>
    rcases s.lookUp_cases pack with same | ⟨channel, call, _, found, pending, same⟩ | ⟨channel, _, same⟩ <;>
      rw [same]
    · exact .refl s
    · exact Advances.setPhase found (pending ▸ .received rfl)
    · exact .refl s
  | timeout found pending => exact Advances.setPhase found (pending ▸ .expiring)
  | cancel found pending => exact Advances.setPhase found (pending ▸ .cancelling)
  | @resume i call outcome t found phase after =>
    rcases afterWait_cases after with ⟨rsp, rfl, _, rfl⟩ | ⟨next, rfl, _, step⟩
    · have erased : s.Advances (.resume i) (s.erase call.pack.id) := Advances.dropChannel s call.pack.id
      exact erased.then_setPhase found (dropChannel_found found (by simp [phase])) (phase ▸ .answered)
    · exact Advances.setPhase found (phase ▸ step _)
  | destroy alive =>
    refine fun j call found => ⟨_, ?_, .cancelWait call⟩
    rw [List.getElem?_map, found]
    rfl

@[simp] theorem setPhase_length (i : Nat) (phase : Phase) : (s.setPhase i phase).calls.length = s.calls.length :=
  List.length_modify _ _ _

@[simp] theorem dropChannel_length (id : UInt64) : (s.dropChannel id).calls.length = s.calls.length := by
  unfold dropChannel
  split
  · exact List.length_modify _ _ _
  · rfl

/-- Calls are never forgotten, and only a start adds one. -/
theorem Moves.length (moves : Moves s a t) :
    t.calls.length = s.calls.length ∨
      ∃ call : Call, a = .send call.kind call.pack ∧ t.calls = s.calls ++ [call] ∧
        (call.phase = .queued ∨ call.phase = .writing call.frame) := by
  cases moves with
  | send encoded alive =>
    refine Or.inr ⟨_, rfl, rfl, ?_⟩
    dsimp only
    split
    · exact Or.inl rfl
    · exact Or.inr rfl
  | @writeDone i call =>
    rcases s.afterWrite_cases i call with same | same | ⟨_, _, same⟩ <;> rw [same] <;> left
    · simp
    · simp
    · simp [register]
  | @response pack =>
    rcases s.lookUp_cases pack with same | ⟨_, _, _, _, _, same⟩ | ⟨_, _, same⟩ <;> rw [same] <;> left <;> simp
  | @resume i call outcome t _ _ after =>
    rcases afterWait_cases after with ⟨rsp, _, _, rfl⟩ | ⟨phase, rfl, _⟩ <;> left
    · simp [erase]
    · simp
  | _ => simp

/-- A call found after a step was there before it, or has just been started. -/
theorem Moves.found (moves : Moves s a t) {j : Nat} {later : Call} (found : t.calls[j]? = some later) :
    (∃ call, s.calls[j]? = some call ∧ call.Advances a later) ∨
      a = .send later.kind later.pack ∧ j = s.calls.length ∧
        (later.phase = .queued ∨ later.phase = .writing later.frame) := by
  cases before : s.calls[j]? with
  | some call =>
    obtain ⟨same, found', advances⟩ := moves.advances j call before
    cases found.symm.trans found'
    exact Or.inl ⟨call, rfl, advances⟩
  | none =>
    have beyond := List.getElem?_eq_none_iff.mp before
    have inside := (List.getElem?_eq_some_iff.mp found).1
    rcases moves.length with same | ⟨call, isSend, grown, fresh⟩
    · omega
    · rw [grown, List.getElem?_append_right beyond, List.getElem?_singleton] at found
      split at found
      · cases found
        exact Or.inr ⟨isSend, by omega, fresh⟩
      · cases found

/-- No two calls that wait for a response carry related packets. -/
def Apart (R : Packet → Packet → Prop) (s : Sender) : Prop :=
  ∀ (i j : Nat) (first second : Call), s.calls[i]? = some first → s.calls[j]? = some second →
    first.kind = .waitRsp → second.kind = .waitRsp → R first.pack second.pack → i = j

/-- Calls stay apart if every new one is apart from the old ones. -/
theorem Moves.apart (moves : Moves s a t) {R : Packet → Packet → Prop}
    (symm : ∀ pack other, R pack other → R other pack)
    (fresh : ∀ pack, a = .send .waitRsp pack → ∀ call ∈ s.calls, call.kind = .waitRsp → ¬R pack call.pack)
    (apart : s.Apart R) : t.Apart R := by
  intro i j first second found found' kind kind' related
  rcases moves.found found with ⟨call, before, advances⟩ | ⟨new, at_end, _⟩
  · rw [advances.same.2] at related
    rcases moves.found found' with ⟨call', before', advances'⟩ | ⟨new, _⟩
    · rw [advances'.same.2] at related
      exact apart i j call call' before before' (advances.same.1 ▸ kind) (advances'.same.1 ▸ kind') related
    · exact absurd (symm _ _ related)
        (fresh _ (kind' ▸ new) call (List.mem_of_getElem? before) (advances.same.1 ▸ kind))
  · rcases moves.found found' with ⟨call', before', advances'⟩ | ⟨_, at_end', _⟩
    · rw [advances'.same.2] at related
      exact absurd related (fresh _ (kind ▸ new) call' (List.mem_of_getElem? before') (advances'.same.1 ▸ kind'))
    · exact at_end.trans at_end'.symm

theorem Moves.alive (moves : Moves s a t) (alive : t.alive = true) : s.alive = true := by
  cases moves with
  | @writeDone i call =>
    rcases s.afterWrite_cases i call with same | same | ⟨_, alive, _⟩
    · rwa [same] at alive
    · rwa [same] at alive
    · exact alive
  | response there => exact there
  | @resume i call outcome t _ _ after =>
    rcases afterWait_cases after with ⟨rsp, _, there, _⟩ | ⟨phase, rfl, _⟩
    · exact there
    · exact alive
  | destroy => cases alive
  | _ => exact alive

/-- The two actions that have to do with the socket. -/
def Action.usesSocket : Action → Bool
  | .transfer _ _ | .failWrite _ => true
  | _ => false

/-- Only they change what is on the wire. -/
theorem Moves.wire (moves : Moves s a t) (silent : a.usesSocket = false) : t.wire = s.wire := by
  cases moves with
  | transfer => cases silent
  | failWrite => cases silent
  | @writeDone i call =>
    rcases s.afterWrite_cases i call with same | same | ⟨_, _, same⟩ <;> rw [same]
    · rfl
    · rfl
    · exact dropChannel_wire _
  | @response pack =>
    rcases s.lookUp_cases pack with same | ⟨_, _, _, _, _, same⟩ | ⟨_, _, same⟩ <;> rw [same] <;> rfl
  | @resume i call outcome t _ _ after =>
    rcases afterWait_cases after with ⟨rsp, _, _, rfl⟩ | ⟨phase, rfl, _⟩
    · exact dropChannel_wire _
    · rfl
  | _ => rfl

end Sender
end Asyncmsg
