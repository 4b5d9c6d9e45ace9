import Asyncmsg.Routing

namespace Asyncmsg
open Transition

/-- The call has put its channel into the table and not gone on since. -/
def Phase.Waits : Phase → Prop
  | .waiting _ => True
  | _ => False

instance (phase : Phase) : Decidable phase.Waits :=
  match phase with
  | .waiting _ => inferInstanceAs (Decidable True)
  | .queued | .writing _ | .dropped | .returned _ | .threw _ => inferInstanceAs (Decidable False)

theorem Phase.waits_cancelWait (phase : Phase) : phase.cancelWait.Waits ↔ phase.Waits := by
  unfold Phase.cancelWait
  split
  · exact Iff.rfl
  · exact Iff.rfl

namespace Sender
variable {s t : Sender} {a : Action}

/-- The call with this index has registered under this key and is not finished yet. -/
def Registered (s : Sender) (id : UInt64) (i : Nat) : Prop :=
  ∃ call, s.calls[i]? = some call ∧ call.phase.Waits ∧ call.pack.id = id

/-- The keys of the table are exactly the packet ids of the calls that have
registered and not yet finished. -/
def TableExact (s : Sender) : Prop := ∀ id, s.requests id ≠ none ↔ ∃ i, s.Registered id i

/-- The calls that wait for a response have pairwise distinct packet ids. -/
def DistinctIds (s : Sender) : Action → Prop
  | .send kind pack => kind = .waitRsp → ∀ call ∈ s.calls, call.kind = .waitRsp → pack.id ≠ call.pack.id
  | _ => True

/-- A call that goes on after its wait, with the connection still there, has its response. -/
def EndsAnswered (s : Sender) : Action → Prop
  | .resume i => s.alive = true → ∀ call ∈ s.calls[i]?,
      call.phase ≠ .waiting .expired ∧ call.phase ≠ .waiting .cancelled
  | _ => True

theorem registered_congr (same : t.calls = s.calls) (id : UInt64) (i : Nat) :
    t.Registered id i ↔ s.Registered id i := by
  rw [Registered, same, Registered]

theorem registered_setPhase {i : Nat} {call : Call} (found : s.calls[i]? = some call) (phase : Phase) (id : UInt64)
    (j : Nat) : (s.setPhase i phase).Registered id j ↔
      if j = i then phase.Waits ∧ call.pack.id = id else s.Registered id j := by
  rw [Registered, getElem?_setPhase]
  by_cases here : j = i
  · subst here
    rw [if_pos rfl, if_pos rfl, found]
    constructor
    · rintro ⟨_, there, registered⟩
      cases there
      exact registered
    · rintro ⟨waits, key⟩
      exact ⟨_, rfl, waits, key⟩
  · rw [if_neg (Ne.symm here), if_neg here, Registered]

/-- A call that neither starts nor ends its wait stays as registered as it was. -/
theorem registered_setPhase_same {i : Nat} {call : Call} (found : s.calls[i]? = some call) {phase : Phase}
    (same : phase.Waits ↔ call.phase.Waits) (id : UInt64) (j : Nat) :
    (s.setPhase i phase).Registered id j ↔ s.Registered id j := by
  rw [registered_setPhase found]
  split
  · rename_i here
    rw [here, Registered, found, same]
    constructor
    · exact fun waits => ⟨call, rfl, waits⟩
    · rintro ⟨_, there, waits⟩
      cases there
      exact waits
  · rfl

theorem registered_cancelWait (i : Nat) (id : UInt64) (j : Nat) :
    (s.cancelWait i).Registered id j ↔ s.Registered id j := by
  rw [Registered, getElem?_cancelWait, Registered]
  split
  · simp only [Option.map_eq_some_iff, exists_exists_and_eq_and]
    exact exists_congr fun call => and_congr_right fun _ => and_congr_left fun _ => call.phase.waits_cancelWait
  · rfl

theorem registered_dropChannel (key id : UInt64) (j : Nat) :
    (s.dropChannel key).Registered id j ↔ s.Registered id j := by
  rcases s.dropChannel_cases key with ⟨_, same⟩ | ⟨channel, _, same⟩ <;> rw [same]
  exact registered_cancelWait _ id j

/-- A call that has just been started has not registered. -/
theorem registered_append {call : Call} (grown : t.calls = s.calls ++ [call]) (fresh : ¬call.phase.Waits)
    (id : UInt64) (i : Nat) : t.Registered id i ↔ s.Registered id i := by
  rw [Registered, grown]
  constructor
  · rintro ⟨later, found, waits, key⟩
    rw [List.getElem?_append] at found
    split at found
    · exact ⟨later, found, waits, key⟩
    · rw [List.getElem?_singleton] at found
      split at found
      · cases found
        exact absurd waits fresh
      · cases found
  · rintro ⟨later, found, registered⟩
    exact ⟨later, (List.getElem?_append_left (List.getElem?_eq_some_iff.mp found).1).trans found, registered⟩

/-- The entries of the table belong to the calls that have registered and not
yet finished, to each of them its own. -/
def OwnersWait (s : Sender) : Prop := ∀ id i, s.owner id = some i ↔ s.Registered id i

theorem OwnersWait.tableExact (ownersWait : s.OwnersWait) : s.TableExact := by
  intro id
  rw [← Option.isSome_iff_ne_none, Option.isSome_iff_exists]
  constructor
  · rintro ⟨channel, entry⟩
    exact ⟨channel.owner, (ownersWait id _).mp (by rw [owner, entry]; rfl)⟩
  · rintro ⟨i, registered⟩
    obtain ⟨channel, entry, _⟩ := Option.map_eq_some_iff.mp ((ownersWait id i).mpr registered)
    exact ⟨channel, entry⟩

theorem OwnersWait.congr (ownersWait : s.OwnersWait) (requests : t.requests = s.requests)
    (registered : ∀ id i, t.Registered id i ↔ s.Registered id i) : t.OwnersWait := fun id i => by
  rw [owner_congr requests, registered]
  exact ownersWait id i

theorem OwnersWait.setPhase (ownersWait : s.OwnersWait) {i : Nat} {call : Call} (found : s.calls[i]? = some call)
    {phase : Phase} (same : phase.Waits ↔ call.phase.Waits) : (s.setPhase i phase).OwnersWait :=
  ownersWait.congr rfl (registered_setPhase_same found same)

/-- A written request registers under a key that no other call has. -/
theorem OwnersWait.register (ownersWait : s.OwnersWait) (owned : s.Owned)
    (apart : s.Apart fun pack other => pack.id = other.id) {i : Nat} {call : Call} (found : s.calls[i]? = some call)
    (kind : call.kind = .waitRsp) (done : call.phase = .writing []) : (s.register i call.pack.id).OwnersWait := by
  intro id j
  have kept : (s.dropChannel call.pack.id).calls[i]? = some call := dropChannel_found found (by simp [done])
  rw [owner_register, Sender.register, registered_setPhase (by rwa [setRequest_calls]),
    registered_congr (setRequest_calls _ _), registered_dropChannel]
  -- The call itself has no entry yet: every owner has its write behind it.
  have other (own : s.owner id = some j) : j ≠ i := fun here => by
    obtain ⟨later, found', _, _, written⟩ := owned id j own
    cases (here ▸ found').symm.trans found
    rw [done] at written
    exact written
  split
  · rename_i key
    split
    · rename_i here
      simp [here, key, Phase.Waits]
    · rename_i elsewhere
      refine iff_of_false (fun same => elsewhere (Option.some.inj same).symm) fun registered => ?_
      obtain ⟨later, found', kind', key', _⟩ := owned id j ((ownersWait id j).mpr registered)
      exact elsewhere (apart j i later call found' found kind' kind (key'.trans key))
  · rename_i key
    split
    · rename_i here
      exact iff_of_false (fun own => other own here) fun registered => key registered.2.symm
    · exact ownersWait id j

/-- The call that has its response takes its entry along. -/
theorem OwnersWait.erase (ownersWait : s.OwnersWait) {i : Nat} {call : Call} {rsp : Packet}
    (found : s.calls[i]? = some call) (received : call.phase = .waiting (.received rsp)) :
    ((s.erase call.pack.id).setPhase i (.returned (some rsp))).OwnersWait := by
  intro id j
  have kept : (s.dropChannel call.pack.id).calls[i]? = some call := dropChannel_found found (by simp [received])
  have own : s.owner call.pack.id = some i := (ownersWait _ i).mpr ⟨call, found, by rw [received]; trivial, rfl⟩
  rw [owner_congr (setPhase_requests _ _), owner_erase, Sender.erase,
    registered_setPhase (by rwa [setRequest_calls]), registered_congr (setRequest_calls _ _), registered_dropChannel]
  split
  · rename_i key
    subst key
    refine iff_of_false (by simp) ?_
    split
    · exact fun waits => waits.1
    · rename_i elsewhere
      intro registered
      exact elsewhere (Option.some.inj (((ownersWait _ j).mpr registered).symm.trans own))
  · rename_i key
    split
    · rename_i here
      refine iff_of_false (fun own => ?_) fun waits => waits.1
      obtain ⟨_, found', _, key'⟩ := (ownersWait id j).mp own
      cases (here ▸ found').symm.trans found
      exact key key'.symm
    · exact ownersWait id j

/-- A call that ends without its response leaves its entry behind. -/
theorem OwnersWait.not_tableExact (ownersWait : s.OwnersWait) {i : Nat} {call : Call}
    (found : s.calls[i]? = some call) (waits : call.phase.Waits) {phase : Phase} (ended : ¬phase.Waits) : ¬(s.setPhase i phase).TableExact := by
  intro tableExact
  have own : s.owner call.pack.id = some i := (ownersWait _ i).mpr ⟨call, found, waits, rfl⟩
  obtain ⟨channel, entry, _⟩ := Option.map_eq_some_iff.mp own
  obtain ⟨j, registered⟩ := (tableExact call.pack.id).mp (by simp [entry])
  rw [registered_setPhase found] at registered
  split at registered
  · exact ended registered.1
  · rename_i elsewhere
    exact elsewhere (Option.some.inj (((ownersWait _ j).mpr registered).symm.trans own))

theorem Moves.ownersWait (moves : Moves s a t) (consistent : s.Consistent)
    (apart : s.Apart fun pack other => pack.id = other.id) (answered : s.EndsAnswered a) (ownersWait : s.OwnersWait)
    (alive : t.alive = true) : t.OwnersWait := by
  cases moves with
  | @send kind pack frame encoded there =>
    refine ownersWait.congr rfl (registered_append rfl ?_)
    dsimp only
    split <;> exact id
  | @runDetached i call found queued =>
    refine ownersWait.setPhase found ?_
    rw [queued]
    split <;> exact Iff.rfl
  | transfer found writing =>
    exact ownersWait.congr rfl (registered_setPhase_same found (by rw [writing]; exact Iff.rfl))
  | failWrite found writing => exact ownersWait.setPhase found (by rw [writing]; rfl)
  | @writeDone i call found done =>
    rcases s.afterWrite_cases i call with same | same | ⟨kind, _, same⟩ <;> rw [same]
    · exact ownersWait.setPhase found (by rw [done]; rfl)
    · exact ownersWait.setPhase found (by rw [done]; rfl)
    · exact ownersWait.register consistent.owned apart found kind done
  | @response pack =>
    have own := owner_lookUp (s := s) pack
    rcases s.lookUp_cases pack with same | ⟨channel, call, _, found, pending, same⟩ | ⟨channel, _, same⟩ <;>
      rw [same] at own ⊢
    · exact ownersWait
    · exact ownersWait.setPhase found (by rw [pending]; rfl)
    · exact fun id i => (own id ▸ ownersWait id i)
  | timeout found pending => exact ownersWait.setPhase found (by rw [pending]; rfl)
  | cancel found pending => exact ownersWait.setPhase found (by rw [pending]; rfl)
  | @resume i call outcome t found phase after =>
    cases outcome with
    | pending => cases after
    | received rsp =>
      cases after
      split
      · exact ownersWait.erase found phase
      · rename_i dead
        exact absurd alive (by simp [dead])
    | expired =>
      cases after
      exact absurd phase (answered alive call found).1
    | cancelled =>
      cases after
      exact absurd phase (answered alive call found).2
  | destroy => cases alive

theorem Moves.answered_of_tableExact (moves : Moves s a t) (ownersWait : s.alive = true → s.OwnersWait)
    (tableExact : t.TableExact) : s.EndsAnswered a := by
  cases moves with
  | @resume i call outcome t found phase after =>
    intro alive later there
    cases found.symm.trans there
    have waits : call.phase.Waits := by rw [phase]; trivial
    constructor <;> intro ended <;> cases phase.symm.trans ended <;> cases after
    · exact (ownersWait alive).not_tableExact found waits id tableExact
    · exact (ownersWait alive).not_tableExact found waits id tableExact
  | _ => trivial

/-- What the runs keep of the table and the calls. -/
structure Tabled (s : Sender) : Prop where
  consistent : s.Consistent
  apart : s.Apart fun pack other => pack.id = other.id
  ownersWait : s.alive = true → s.OwnersWait

theorem start_tabled : start.Tabled where
  consistent := start_consistent
  apart _ _ _ _ found := by cases found
  ownersWait _ _ _ := iff_of_false (by simp [owner, start]) fun ⟨_, found, _⟩ => by cases found

theorem Moves.tabled (moves : Moves s a t) (distinct : s.DistinctIds a) (answered : s.EndsAnswered a)
    (tabled : s.Tabled) : t.Tabled where
  consistent := ⟨moves.owned tabled.consistent.owned, moves.pendingOwned tabled.consistent.pending⟩
  apart := moves.apart (fun _ _ => Eq.symm) (fun pack send => by subst send; exact distinct rfl) tabled.apart
  ownersWait alive :=
    moves.ownersWait tabled.consistent tabled.apart answered (tabled.ownersWait (moves.alive alive)) alive

/-- The table of the waiting requests: as long as every call that has registered
ends with its response, the keys are exactly the packet ids of the calls that
are registered and not finished, and a further step keeps this exactly when it
ends no such call otherwise. -/
theorem requests_exact {labels : List Action}
    (run : Run step (fun s a => s.DistinctIds a ∧ s.EndsAnswered a) start labels s) :
    (s.alive = true → s.TableExact) ∧
      ∀ a t, s.DistinctIds a → s.step a = some t → t.alive = true → (t.TableExact ↔ s.EndsAnswered a) := by
  have tabled : s.Tabled := run.invariant start_tabled fun _ _ _ tabled guard taken =>
    (moves_of_step taken).tabled guard.1 guard.2 tabled
  refine ⟨fun alive => (tabled.ownersWait alive).tableExact, fun a t distinct taken alive => ⟨?_, ?_⟩⟩
  · exact (moves_of_step taken).answered_of_tableExact tabled.ownersWait
  · exact fun answered => (((moves_of_step taken).tabled distinct answered tabled).ownersWait alive).tableExact

instance (s : Sender) (a : Action) : Decidable (s.DistinctIds a) :=
  match a with
  | .send kind pack => inferInstanceAs (Decidable (kind = .waitRsp →
      ∀ call ∈ s.calls, call.kind = .waitRsp → pack.id ≠ call.pack.id))
  | .transfer _ _ | .runDetached _ | .failWrite _ | .writeDone _ | .response _ | .timeout _ | .cancel _ | .resume _
  | .destroy => inferInstanceAs (Decidable True)

instance (s : Sender) (a : Action) : Decidable (s.EndsAnswered a) :=
  match a with
  | .resume i => inferInstanceAs (Decidable (s.alive = true → ∀ call ∈ s.calls[i]?,
      call.phase ≠ .waiting .expired ∧ call.phase ≠ .waiting .cancelled))
  | .send _ _ | .transfer _ _ | .runDetached _ | .failWrite _ | .writeDone _ | .response _ | .timeout _ | .cancel _
  | .destroy => inferInstanceAs (Decidable True)

/-- `ping` is answered while a call with another key times out. -/
def expiring : List Action :=
  [.send .waitRsp odd, .send .waitRsp ping, .transfer 0 87, .transfer 1 88, .writeDone 1,
    .writeDone 0, .response { odd with rsp := true }, .timeout 1, .resume 0]

theorem requests_exact_expiring :
    ∃ s, exec step (fun s a => s.DistinctIds a ∧ s.EndsAnswered a) start expiring = some s ∧
      (s.alive = true → s.TableExact) ∧
      ∀ a t, s.DistinctIds a → s.step a = some t → t.alive = true → (t.TableExact ↔ s.EndsAnswered a) := by
  have trace : (exec step (fun s a => s.DistinctIds a ∧ s.EndsAnswered a) start expiring).isSome := by decide +kernel
  obtain ⟨s, done⟩ := Option.isSome_iff_exists.mp trace
  exact ⟨s, done, requests_exact (exec_run done)⟩

/-- `ping` times out. -/
def timedOut : List Action := registered ++ [.timeout 0, .resume 0]

/-- Its entry stays behind. -/
theorem requests_leak :
    ¬∀ labels s, Run step DistinctIds start labels s → s.alive = true → s.TableExact := by
  intro claim
  have trace : (exec step DistinctIds start timedOut).map (fun s =>
      (s.alive, s.calls.map Call.phase, s.requests ping.id)) =
      some (true, [.threw .timeout], some ⟨0, none⟩) := by decide +kernel
  obtain ⟨s, done, view⟩ := Option.map_eq_some_iff.mp trace
  obtain ⟨alive, rest⟩ := Prod.mk.inj view
  obtain ⟨phases, entry⟩ := Prod.mk.inj rest
  obtain ⟨call, only, threw⟩ := List.map_eq_singleton_iff.mp phases
  obtain ⟨i, other, found, waits, _⟩ := (claim _ s (exec_run done) alive ping.id).mp (by simp [entry])
  have same : other = call := List.mem_singleton.mp (only ▸ List.mem_of_getElem? found)
  rw [same, threw] at waits
  exact waits

end Sender
end Asyncmsg
