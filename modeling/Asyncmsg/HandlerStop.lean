import Asyncmsg.ReceiverStop
import Asyncmsg.RpcHandlers

namespace Asyncmsg
open Transition

/-- How many steps a handler takes at most to the end of its coroutine, once
`wait_request` throws. -/
def HandlerPhase.rank {Req : Type} : HandlerPhase Req → Nat
  | .ended => 0
  | .calling => 1
  | .writing => 2
  | .sending _ => 3
  | .handling _ _ => 4
  | .fetched _ => 5
  | .waiting => 6

/-- The handler awaits a task that it has for the `io_context` of the server. -/
def HandlerPhase.Awaits {Req : Type} : HandlerPhase Req → Prop
  | .calling | .sending _ => True
  | _ => False

namespace RpcServer
variable {Handler : Type*} {service : Service Handler} {Conn : Type} [DecidableEq Handler]
  {hasher : List UInt8 → UInt64} {s t u : RpcServer service Conn} {a : Action service Conn}

/-- The handler whose coroutine takes the step. -/
def Action.handler : Action service Conn → Option Handler
  | .call h | .resume h | .finish h _ _ | .send h | .written h => some h
  | _ => none

/-- An `io_context` does not run out of work while a response is being written. -/
def Works (s : RpcServer service Conn) : Action service Conn → Prop
  | .drain => ∀ h, (s.tasks h).phase ≠ .writing
  | _ => True

/-- The stop handler has run without force. -/
structure Closing (s : RpcServer service Conn) : Prop where
  running : s.requests.running = true
  stopped : s.requests.stopped = true
  handled : s.requests.stopHandler = none
  quiet : s.requests.Quiet
  nobody : ∀ h, (s.tasks h).phase ≠ .waiting
  written : s.drained = true → ∀ h, (s.tasks h).phase ≠ .writing

/-- On a stopped server no request is handed over, and nobody waits. -/
theorem Closing.request (closing : s.Closing) {b : ServerRequests.Action Handler} {next : ServerRequests Handler}
    (taken : s.requests.step b = some next) :
    next.taken = s.requests.taken ∧ ({ s with requests := next } : RpcServer service Conn).Closing := by
  obtain ⟨quiet, stopped⟩ := closing.quiet.step closing.stopped taken
  have go (same : next.taken = s.requests.taken) (running : next.running = s.requests.running)
      (handled : next.stopHandler = s.requests.stopHandler) :
      next.taken = s.requests.taken ∧ ({ s with requests := next } : RpcServer service Conn).Closing :=
    ⟨same, running.trans closing.running, stopped, handled.trans closing.handled, quiet, closing.nobody, closing.written⟩
  cases ServerRequests.moves_of_step taken with
  | handed found waiting => cases (closing.quiet _ _ found).symm.trans waiting
  | fetched accepting => cases accepting.symm.trans closing.stopped
  | waits accepting => cases accepting.symm.trans closing.stopped
  | stop accepting => cases accepting.symm.trans closing.stopped
  | runStop handler => cases closing.handled.symm.trans handler
  | _ => exact go rfl rfl rfl

theorem Closing.setTask (closing : s.Closing) (h : Handler) (task : HandlerTask (service.Req h) (service.Rsp h) Conn)
    (busy : task.phase ≠ .waiting) (unwritten : task.phase ≠ .writing) : (s.setTask h task).Closing where
  running := closing.running
  stopped := closing.stopped
  handled := closing.handled
  quiet := closing.quiet
  nobody other := by
    by_cases same : other = h
    · subst same
      rwa [setTask_self]
    · rw [setTask_tasks h other task same]
      exact closing.nobody other
  written drained other := by
    by_cases same : other = h
    · subst same
      rwa [setTask_self]
    · rw [setTask_tasks h other task same]
      exact closing.written drained other

/-- The handler has come nearer to its end, and the others are where they were. -/
def Nearer (s t : RpcServer service Conn) (a : Action service Conn) : Prop :=
  ∀ h, (t.tasks h).phase.rank + (if a.handler = some h then 1 else 0) ≤ (s.tasks h).phase.rank

theorem nearer_setTask {h : Handler} {task : HandlerTask (service.Req h) (service.Rsp h) Conn}
    {phase : HandlerPhase (service.Req h)} (own : a.handler = some h) (was : (s.tasks h).phase = phase)
    (lower : task.phase.rank < phase.rank) : s.Nearer (s.setTask h task) a := by
  intro other
  by_cases same : other = h
  · subst same
    rw [setTask_self, if_pos own, was]
    exact lower
  · rw [setTask_tasks h other task same, if_neg (by simpa [own] using Ne.symm same), Nat.add_zero]

theorem nearer_of_tasks (none : a.handler = none) (same : t.tasks = s.tasks) : s.Nearer t a := by
  intro h
  rw [same, none, if_neg (by simp), Nat.add_zero]

/-- Behind the stop handler a step takes no request, and brings the handler that
takes it nearer to its end. -/
theorem Closing.step (closing : s.Closing) (works : s.Works a) (taken : s.step hasher a = some t) :
    t.Closing ∧ t.requests.taken = s.requests.taken ∧ s.Nearer t a := by
  have go {h : Handler} {task : HandlerTask (service.Req h) (service.Rsp h) Conn}
      {phase : HandlerPhase (service.Req h)} (own : a.handler = some h) (was : (s.tasks h).phase = phase)
      (busy : task.phase ≠ .waiting) (unwritten : task.phase ≠ .writing) (lower : task.phase.rank < phase.rank) :
      (s.setTask h task).Closing ∧ (s.setTask h task).requests.taken = s.requests.taken ∧
        s.Nearer (s.setTask h task) a :=
    ⟨closing.setTask h task busy unwritten, rfl, nearer_setTask own was lower⟩
  cases moves_of_step taken with
  | @arrive pack next received =>
    obtain ⟨same, closing'⟩ := closing.request received
    have unfolded : s.wake next = { s with requests := next } := by rw [wake, same, List.drop_length]
    rw [unfolded]
    exact ⟨closing', same, nearer_of_tasks rfl rfl⟩
  | mapped => exact ⟨{ closing with }, rfl, nearer_of_tasks rfl rfl⟩
  | call _ accepting => cases accepting.symm.trans closing.stopped
  | refused calling => exact go rfl calling (by simp) (by simp) (by simp [HandlerPhase.rank])
  | unparsed fetched => exact go rfl fetched (by simp) (by simp) (by simp [HandlerPhase.rank])
  | parsed fetched => exact go rfl fetched (by simp) (by simp) (by simp [HandlerPhase.rank])
  | failed handling ended =>
    rcases ended with rfl | rfl
    · exact go rfl handling (by simp) (by simp) (by simp [HandlerPhase.rank])
    · exact go rfl handling (by simp) (by simp) (by simp [HandlerPhase.rank])
  | answered handling => exact go rfl handling (by simp) (by simp) (by simp [HandlerPhase.rank])
  | unsent sending => exact go rfl sending (by simp) (by simp) (by simp [HandlerPhase.rank])
  | sent _ accepting => cases accepting.symm.trans closing.stopped
  | written writing => exact go rfl writing (by simp) (by simp) (by simp [HandlerPhase.rank])
  | stop stopped =>
    obtain ⟨same, closing'⟩ := closing.request stopped
    exact ⟨closing', same, nearer_of_tasks rfl rfl⟩
  | runStop stopped =>
    cases ServerRequests.moves_of_step stopped with
    | runStop handler => cases closing.handled.symm.trans handler
  | drain => exact ⟨{ closing with written := fun _ => works }, rfl, nearer_of_tasks rfl rfl⟩

/-- A handler that has not ended can take a step: `wait_request` throws, and
whatever else it is at comes to an end, but for what an `io_context` that has run
out of work would have to run. -/
theorem Closing.enabled (closing : s.Closing) {h : Handler} (unfinished : (s.tasks h).phase ≠ .ended) :
    (∃ a t, a.handler = some h ∧ s.step hasher a = some t) ∨ s.drained = true ∧ (s.tasks h).phase.Awaits := by
  have go (a : Action service Conn) (own : a.handler = some h) (runs : a.onContext = true → s.drained = false)
      (enabled : (s.act hasher a).isSome) : ∃ a t, a.handler = some h ∧ s.step hasher a = some t := by
    obtain ⟨t, acts⟩ := Option.isSome_iff_exists.mp enabled
    refine ⟨a, t, own, (if_neg ?_).trans acts⟩
    rintro ⟨inside, stopped | drained⟩
    · exact stopped closing.running
    · cases (runs inside).symm.trans drained
  have context (a : Action service Conn) (own : a.handler = some h) (awaits : (s.tasks h).phase.Awaits)
      (enabled : (s.act hasher a).isSome) : (∃ a t, a.handler = some h ∧ s.step hasher a = some t) ∨
        s.drained = true ∧ (s.tasks h).phase.Awaits := by
    cases drained : s.drained with
    | true => exact Or.inr ⟨rfl, awaits⟩
    | false => exact Or.inl (go a own (fun _ => drained) enabled)
  cases phase : (s.tasks h).phase with
  | calling =>
    have waits : s.requests.step (.waitRequest h (rpcId hasher (service.rpcName h))) =
        some (s.requests.waitRequest h (rpcId hasher (service.rpcName h))) := if_pos closing.running
    rw [← phase]
    exact context (.call h) rfl (by rw [phase]; trivial) (by simp [act, phase, waits])
  | waiting => exact absurd phase (closing.nobody h)
  | fetched req =>
    cases parsed : (service.reqProto h).parseBody req with
    | error ec => exact Or.inl (go (.resume h) rfl (by simp [Action.onContext]) (by simp [act, phase, parsed]))
    | ok message => exact Or.inl (go (.resume h) rfl (by simp [Action.onContext]) (by simp [act, phase, parsed]))
  | handling req message => exact Or.inl (go (.finish h 0 .threw) rfl (by simp [Action.onContext]) (by simp [act, phase]))
  | sending rsp =>
    rw [← phase]
    exact context (.send h) rfl (by rw [phase]; trivial) (by simp [act, phase])
  | writing =>
    refine Or.inl (go (.written h) rfl (fun _ => ?_) (by simp [act, phase]))
    exact Bool.eq_false_iff.mpr fun drained => closing.written drained h phase
  | ended => exact absurd phase unfinished

end RpcServer
end Asyncmsg
