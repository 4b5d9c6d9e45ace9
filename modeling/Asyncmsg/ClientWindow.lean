import Asyncmsg.ClientDelivery
import Asyncmsg.LruOrder

namespace Asyncmsg
open Transition Recency

namespace Client
variable {c t : Client} {a : Client.Action} {seqGenerator : UInt32} {i : Nat} {pack : Packet}

/-- The packet ids of the requests received so far, one for each acknowledgement. -/
def receivedIds (c : Client) : List UInt64 :=
  c.acks.filterMap fun ack => (c.pushes[ack.request]?).map Packet.id

/-- This step hands a request with this packet id to the `try_send` of a channel. -/
def TrySends (c t : Client) (id : UInt64) : Prop :=
  ∃ i pack, t.tried = c.tried ++ [i] ∧ c.pushes[i]? = some pack ∧ pack.id = id

/-- Behind the first `n` receptions a request with this packet id comes again
only before as many other packet ids have come as the table holds. -/
def RepeatedWithin (c : Client) (n : Nat) (id : UInt64) : Prop :=
  ∀ earlier since later, c.receivedIds = earlier ++ id :: since ++ id :: later → n ≤ earlier.length → id ∉ since →
    since.toFinset.card < recentlyReceivedRequestCap

/-- The table holds the most recent ones of the packet ids received. -/
structure Windowed (c : Client) : Prop where
  wellFormed : c.recentlyReceivedRequest.WellFormed
  cap : c.recentlyReceivedRequest.cap = recentlyReceivedRequestCap
  acked : ∀ ack ∈ c.acks, ack.request < c.pushes.length
  recent : c.recentlyReceivedRequest.values = (recency c.receivedIds).take recentlyReceivedRequestCap

theorem start_windowed : (start seqGenerator).Windowed where
  wellFormed := Lru.ofCap_wellFormed _
  cap := rfl
  acked _ member := by cases member
  recent := rfl

/-- Requests that are only built are not received. -/
theorem receivedIds_pushes (acked : ∀ ack ∈ c.acks, ack.request < c.pushes.length) (acks : t.acks = c.acks)
    {more : List Packet} (pushes : t.pushes = c.pushes ++ more) : t.receivedIds = c.receivedIds := by
  rw [receivedIds, receivedIds, acks, pushes]
  refine List.filterMap_congr fun ack member => ?_
  rw [List.getElem?_append_left (acked ack member)]

theorem receivedIds_arrive (found : c.pushes[i]? = some pack) (deviceId : List UInt8) :
    (c.onReceiveRequest i pack deviceId).receivedIds = c.receivedIds ++ [pack.id] := by
  rw [receivedIds, (c.onReceiveRequest_recent i pack deviceId).1, onReceiveRequest_acks_eq, List.filterMap_append,
    receivedIds]
  simp [found]

theorem Windowed.arrive (windowed : c.Windowed) (found : c.pushes[i]? = some pack) (deviceId : List UInt8) :
    (c.onReceiveRequest i pack deviceId).Windowed := by
  obtain ⟨pushes, recent⟩ := c.onReceiveRequest_recent i pack deviceId
  obtain ⟨wellFormed, values⟩ := windowed.wellFormed.touched pack.id
  rw [← recent] at wellFormed values
  refine ⟨wellFormed, ?_, fun ack member => ?_, ?_⟩
  · rw [recent]
    split <;> simp [windowed.cap]
  · rw [pushes]
    rw [onReceiveRequest_acks_eq] at member
    rcases List.mem_append.mp member with old | new
    · exact windowed.acked ack old
    · cases List.mem_singleton.mp new
      exact (List.getElem?_eq_some_iff.mp found).1
  · rw [values, windowed.cap, windowed.recent, take_touch_take, receivedIds_arrive found, recency_append]

theorem Windowed.step (windowed : c.Windowed) (taken : c.step a = some t) : t.Windowed := by
  rcases step_quiet taken with ⟨i, pack, deviceId, rfl, found, rfl⟩ | ⟨acks, _, _, recent, pushes, _⟩
  · exact windowed.arrive found deviceId
  · have ids := receivedIds_pushes windowed.acked acks pushes
    refine ⟨recent ▸ windowed.wellFormed, recent ▸ windowed.cap, fun ack member => ?_, ?_⟩
    · rw [pushes, List.length_append]
      exact Nat.lt_add_right _ (windowed.acked ack (acks ▸ member))
    · rw [recent, ids, windowed.recent]

theorem run_windowed {guard : Client → Action → Prop} {labels : List Action}
    (run : Run Client.step guard (start seqGenerator) labels c) : c.Windowed :=
  run.invariant start_windowed fun _ _ _ windowed _ taken => windowed.step taken

theorem Windowed.known_iff (windowed : c.Windowed) {id : UInt64} :
    id ∈ c.recentlyReceivedRequest.m ↔ id ∈ (recency c.receivedIds).take recentlyReceivedRequestCap := by
  rw [windowed.wellFormed.mem, windowed.recent]

/-- What is known has been received. -/
theorem Windowed.acked_of_known (windowed : c.Windowed) {id : UInt64} (known : id ∈ c.recentlyReceivedRequest.m) :
    ∃ ack ∈ c.acks, ∃ pack, c.pushes[ack.request]? = some pack ∧ pack.id = id := by
  have received := mem_recency.mp (List.mem_of_mem_take (windowed.known_iff.mp known))
  obtain ⟨ack, member, key⟩ := List.mem_filterMap.mp received
  exact ⟨ack, member, Option.map_eq_some_iff.mp key⟩

/-- Nothing that has been received is forgotten. -/
theorem receivedIds_of_step (windowed : c.Windowed) (taken : c.step a = some t) :
    ∃ more, t.receivedIds = c.receivedIds ++ more := by
  rcases step_quiet taken with ⟨i, pack, deviceId, rfl, found, rfl⟩ | ⟨acks, _, _, _, pushes, _⟩
  · exact ⟨_, receivedIds_arrive found deviceId⟩
  · exact ⟨[], by rw [receivedIds_pushes windowed.acked acks pushes, List.append_nil]⟩

theorem receivedIds_of_run (windowed : c.Windowed) {labels : List Action} (run : Run Client.step free c labels t) :
    t.Windowed ∧ ∃ more, t.receivedIds = c.receivedIds ++ more := by
  refine run.invariant (I := fun t => t.Windowed ∧ ∃ more, t.receivedIds = c.receivedIds ++ more)
    ⟨windowed, [], (List.append_nil _).symm⟩ fun s a t ⟨before, more, ids⟩ _ taken => ⟨before.step taken, ?_⟩
  obtain ⟨last, grown⟩ := receivedIds_of_step before taken
  exact ⟨more ++ last, by rw [grown, ids, List.append_assoc]⟩

/-- A packet id is forgotten exactly if as many others as the table holds have
come since it came last, if it has come at all. -/
theorem Windowed.unknown_iff (windowed : c.Windowed) {id : UInt64} :
    id ∉ c.recentlyReceivedRequest.m ↔
      ∀ earlier since, c.receivedIds = earlier ++ id :: since → id ∉ since →
        recentlyReceivedRequestCap ≤ since.toFinset.card := by
  rw [windowed.known_iff]
  constructor
  · intro forgotten earlier since split last
    rw [split, mem_take_recency earlier last] at forgotten
    exact not_lt.mp forgotten
  · intro apart known
    obtain ⟨earlier, since, split, last⟩ := exists_last (mem_recency.mp (List.mem_of_mem_take known))
    rw [split, mem_take_recency earlier last] at known
    exact absurd known (not_lt.mpr (apart earlier since split last))

/-- A step calls `try_send` at most once, for a request that arrives and is not
in the table; only what it is called with is put into a channel. -/
theorem tried_of_step (taken : c.step a = some t) :
    t.tried = c.tried ∧ t.accepted = c.accepted ∨
      ∃ i pack deviceId, c.pushes[i]? = some pack ∧ pack.id ∉ c.recentlyReceivedRequest.m ∧
        t = c.onReceiveRequest i pack deviceId ∧ t.tried = c.tried ++ [i] ∧
        ∃ more, t.accepted = c.accepted ++ more ∧ more.Sublist [i] := by
  rcases step_quiet taken with ⟨i, pack, deviceId, _, found, rfl⟩ | ⟨_, tried, accepted, _⟩
  · cases receives_onReceiveRequest c i pack deviceId with
    | known _ _ _ accepted tried => exact Or.inl ⟨tried, accepted⟩
    | broke _ _ _ accepted tried => exact Or.inl ⟨tried, accepted⟩
    | refused unknown _ _ _ _ accepted tried =>
      exact Or.inr ⟨i, pack, deviceId, found, unknown, rfl, tried, [], accepted.trans (List.append_nil _).symm,
        List.nil_sublist _⟩
    | took unknown _ _ _ _ accepted tried =>
      exact Or.inr ⟨i, pack, deviceId, found, unknown, rfl, tried, [i], accepted, List.Sublist.refl _⟩
  · exact Or.inl ⟨tried, accepted⟩

/-- A step that calls `try_send` for a packet id receives it, and has not found
it in the table. -/
theorem TrySends.received {id : UInt64} (sends : TrySends c t id) (taken : c.step a = some t) :
    id ∉ c.recentlyReceivedRequest.m ∧ t.receivedIds = c.receivedIds ++ [id] := by
  obtain ⟨i, pack, tried, found, rfl⟩ := sends
  rcases tried_of_step taken with ⟨same, _⟩ | ⟨j, other, deviceId, there, unknown, rfl, tried', _⟩
  · exact absurd (List.self_eq_append_right.mp (same.symm.trans tried)) (List.cons_ne_nil i [])
  · cases List.append_cancel_left (tried.symm.trans tried')
    cases found.symm.trans there
    exact ⟨unknown, receivedIds_arrive found deviceId⟩

/-- A second call of `try_send` for a packet id comes behind enough receptions. -/
theorem Windowed.apart (windowed : c.Windowed) {id : UInt64} {labels : List Action} {e u : Client} {b : Action}
    (taken : c.step a = some t) (first : TrySends c t id) (later : Run Client.step free t labels e)
    (taken' : e.step b = some u) (second : TrySends e u id) :
    ∃ earlier since, e.receivedIds = earlier ++ id :: since ∧ id ∉ since ∧
      c.receivedIds.length ≤ earlier.length ∧ recentlyReceivedRequestCap ≤ since.toFinset.card := by
  obtain ⟨windowed', after, grown⟩ := receivedIds_of_run (windowed.step taken) later
  -- The last reception of the id is the first of the two events or comes after it.
  obtain ⟨between, since, split, last⟩ := exists_last (List.mem_cons_self (a := id) (l := after))
  have ids : e.receivedIds = (c.receivedIds ++ between) ++ id :: since := by
    rw [grown, (first.received taken).2, List.append_assoc, List.singleton_append, split, List.append_assoc]
  refine ⟨_, since, ids, last, ?_, windowed'.unknown_iff.mp (second.received taken').1 _ since ids last⟩
  rw [List.length_append]
  exact Nat.le_add_right _ _

/-- The requests that have been built stay what they are. -/
theorem pushes_of_step (taken : c.step a = some t) (found : c.pushes[i]? = some pack) : t.pushes[i]? = some pack := by
  rcases step_quiet taken with ⟨j, other, deviceId, _, _, rfl⟩ | ⟨_, _, _, _, pushes, _⟩
  · rw [(c.onReceiveRequest_recent j other deviceId).1]
    exact found
  · rw [pushes, List.getElem?_append_left (List.getElem?_eq_some_iff.mp found).1]
    exact found

/-- A retransmission that comes within the window is not tried again. -/
theorem Windowed.tried_once (windowed : c.Windowed) {id : UInt64} {labels : List Action} {e : Client}
    (taken : c.step a = some t) (first : TrySends c t id) (later : Run Client.step free t labels e)
    (repeated : e.RepeatedWithin c.receivedIds.length id) :
    ∃ tried accepted, e.tried = t.tried ++ tried ∧ e.accepted = t.accepted ++ accepted ∧ accepted.Sublist tried ∧
      ∀ i ∈ tried, ∃ pack, e.pushes[i]? = some pack ∧ pack.id ≠ id := by
  induction later with
  | nil =>
    exact ⟨[], [], (List.append_nil _).symm, (List.append_nil _).symm, List.nil_sublist _,
      fun _ member => by cases member⟩
  | @snoc labels e b u later _ taken' ih =>
    obtain ⟨_, last⟩ := receivedIds_of_step (receivedIds_of_run (windowed.step taken) later).1 taken'
    have repeated' : e.RepeatedWithin c.receivedIds.length id := fun earlier since rest split =>
      repeated earlier since (rest ++ _) (by rw [last, split, List.append_assoc, List.cons_append])
    obtain ⟨tried, accepted, triedEq, acceptedEq, within, others⟩ := ih repeated'
    have still : ∀ i ∈ tried, ∃ pack, u.pushes[i]? = some pack ∧ pack.id ≠ id := fun i member => by
      obtain ⟨pack, found, other⟩ := others i member
      exact ⟨pack, pushes_of_step taken' found, other⟩
    rcases tried_of_step taken' with ⟨same, same'⟩ | ⟨i, pack, deviceId, found, _, _, tries, taking, accepts, inside⟩
    · exact ⟨tried, accepted, same.trans triedEq, same'.trans acceptedEq, within, still⟩
    · -- A call for the id itself would come behind more receptions than a repetition within the window may.
      have other : pack.id ≠ id := fun same => by
        have second : TrySends e u id := ⟨i, pack, tries, found, same⟩
        obtain ⟨earlier, since, split, fresh, below, apart⟩ := windowed.apart taken first later taken' second
        have received := (second.received taken').2
        rw [split] at received
        exact absurd (repeated earlier since [] received below fresh) (not_lt.mpr apart)
      refine ⟨tried ++ [i], accepted ++ taking, ?_, ?_, within.append inside, fun j member => ?_⟩
      · rw [tries, triedEq, List.append_assoc]
      · rw [accepts, acceptedEq, List.append_assoc]
      · rcases List.mem_append.mp member with old | new
        · exact still j old
        · rw [List.mem_singleton.mp new]
          exact ⟨pack, pushes_of_step taken' found, other⟩

/-- At most once in a window: between two calls of `try_send` for one packet id
at least as many other packet ids as the table holds have been received since
the id itself was received last. While it comes again sooner than that, no
request with it is tried or put into a channel again, however often it comes. -/
theorem trySends_apart {labels : List Action} (run : Run Client.step free (start seqGenerator) labels c)
    {id : UInt64} (taken : c.step a = some t) (first : TrySends c t id) :
    (∀ more e b u, Run Client.step free t more e → e.step b = some u → TrySends e u id →
      ∃ earlier since, e.receivedIds = earlier ++ id :: since ∧ id ∉ since ∧
        c.receivedIds.length ≤ earlier.length ∧ recentlyReceivedRequestCap ≤ since.toFinset.card) ∧
    ∀ more e, Run Client.step free t more e → e.RepeatedWithin c.receivedIds.length id →
      ∃ tried accepted, e.tried = t.tried ++ tried ∧ e.accepted = t.accepted ++ accepted ∧ accepted.Sublist tried ∧
        ∀ i ∈ tried, ∃ pack, e.pushes[i]? = some pack ∧ pack.id ≠ id :=
  ⟨fun _ _ _ _ later taken' second => (run_windowed run).apart taken first later taken' second,
    fun _ _ later repeated => (run_windowed run).tried_once taken first later repeated⟩

/-- A request that is waited for. -/
def awaited : List Action := [.push ping, .waitRequest 1]

/-- It comes and is tried, and comes once more. -/
theorem trySends_apart_awaited :
    ∃ c t e, exec Client.step free (start 0) awaited = some c ∧ c.step (.arrive 0 [0x61]) = some t ∧
      TrySends c t ping.id ∧ exec Client.step free t [.arrive 0 [0x61]] = some e ∧
      (∀ more e b u, Run Client.step free t more e → e.step b = some u → TrySends e u ping.id →
        ∃ earlier since, e.receivedIds = earlier ++ ping.id :: since ∧ ping.id ∉ since ∧
          c.receivedIds.length ≤ earlier.length ∧ recentlyReceivedRequestCap ≤ since.toFinset.card) ∧
      ∃ tried accepted, e.tried = t.tried ++ tried ∧ e.accepted = t.accepted ++ accepted ∧ accepted.Sublist tried ∧
        ∀ i ∈ tried, ∃ pack, e.pushes[i]? = some pack ∧ pack.id ≠ ping.id := by
  have trace : (exec Client.step free (start 0) awaited).map (fun c => (c.tried, (c.pushes[0]?).map Packet.id,
      (c.step (.arrive 0 [0x61])).map fun t => (t.tried,
        decide ((exec Client.step free t [.arrive 0 [0x61]]).map receivedIds = some [ping.id, ping.id])))) =
      some ([], some ping.id, some ([0], true)) := by
    decide +kernel
  obtain ⟨c, done, view⟩ := Option.map_eq_some_iff.mp trace
  obtain ⟨before, rest⟩ := Prod.mk.inj view
  obtain ⟨pushed, rest⟩ := Prod.mk.inj rest
  obtain ⟨pack, found, own⟩ := Option.map_eq_some_iff.mp pushed
  obtain ⟨t, taken, view⟩ := Option.map_eq_some_iff.mp rest
  obtain ⟨tried, rest⟩ := Prod.mk.inj view
  obtain ⟨e, again, received⟩ := Option.map_eq_some_iff.mp (of_decide_eq_true rest)
  have first : TrySends c t ping.id := ⟨0, pack, by rw [tried, before]; rfl, found, own⟩
  obtain ⟨apart, once⟩ := trySends_apart (exec_run done) taken first
  refine ⟨c, t, e, done, taken, first, again, apart, once _ e (exec_run again) fun earlier since later split _ _ => ?_⟩
  have short := congrArg List.length (received.symm.trans split)
  simp only [List.length_append, List.length_cons, List.length_nil] at short
  refine (List.toFinset_card_le since).trans_lt ?_
  simp only [recentlyReceivedRequestCap]
  omega

end Client
end Asyncmsg
