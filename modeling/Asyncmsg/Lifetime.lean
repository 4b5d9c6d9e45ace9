import Asyncmsg.Listing

namespace Asyncmsg
open Transition

namespace Registry
variable {r t : Registry} {a : Registry.Action} {c d : Nat}

/-- A call that has not returned yet holds the connection. -/
def HeldBy (r : Registry) (c : Nat) : Prop := ∃ peer ∈ r.peers[c]?, 0 < peer.holders

instance (r : Registry) (c : Nat) : Decidable (r.HeldBy c) := inferInstanceAs (Decidable (∃ peer ∈ r.peers[c]?, _))

/-- A `shared_ptr` is left when `on_disconnected` has been called: a call holds
the connection, or it is the last of those that have not announced a device id,
where `remove_if` alone leaves it. -/
def Outlives (r : Registry) (c : Nat) : Prop := r.HeldBy c ∨ r.connections.getLast? = some (some c)

instance (r : Registry) (c : Nat) : Decidable (r.Outlives c) := inferInstanceAs (Decidable (_ ∨ _))

theorem heldBy_setPeer {peer later : Peer} (found : r.peers[c]? = some peer)
    (same : later.holders = peer.holders) : (r.setPeer c later).HeldBy d ↔ r.HeldBy d := by
  have inside := (List.getElem?_eq_some_iff.mp found).1
  rw [HeldBy, HeldBy, setPeer, List.getElem?_set]
  by_cases here : c = d
  · subst here
    rw [if_pos rfl, if_pos inside, found]
    simp [same]
  · rw [if_neg here]

theorem alive_setPeer {peer later : Peer} (found : r.peers[c]? = some peer)
    (same : later.holders = peer.holders) : (r.setPeer c later).Alive d ↔ r.Alive d := by
  have holders := heldBy_setPeer (d := d) found same
  exact or_congr Iff.rfl (or_congr Iff.rfl holders)

theorem Reachable.alive_onDisconnected_iff (reachable : r.Reachable) {peer later : Peer}
    (found : r.peers[c]? = some peer) (same : later.holders = peer.holders) :
    ((r.setPeer c later).onDisconnected c peer.deviceId).Alive c ↔ r.Outlives c := by
  have own : r.deviceIdOf c = some peer.deviceId := by rw [deviceIdOf, found]; rfl
  have listed : some c ∈ RemoveIf.removeIf (· == some c) none r.connections ↔
      r.connections.getLast? = some (some c) :=
    RemoveIf.mem_removeIf_self_iff (Option.some_ne_none c) (reachable.once c)
  have unmapped : ¬∃ entry ∈ (r.connectionMap.erase peer.deviceId).entries, entry.2 = c := by
    rintro ⟨⟨id, _⟩, member, rfl⟩
    have entry := AList.mem_lookup_iff.mpr member
    by_cases here : id = peer.deviceId
    · rw [here, AList.lookup_erase] at entry
      cases entry
    · rw [AList.lookup_erase_ne here] at entry
      cases (reachable.mapped id _ entry).1.symm.trans own
      exact here rfl
  have holders := heldBy_setPeer (d := c) found same
  constructor
  · rintro (member | mapped | held)
    · exact Or.inr (listed.mp member)
    · exact absurd mapped unmapped
    · exact Or.inl (holders.mp held)
  · rintro (held | last)
    · exact Or.inr (Or.inr (holders.mpr held))
    · exact Or.inl (listed.mpr last)

theorem alive_of_onDisconnected (id : List UInt8) (alive : (r.onDisconnected c id).Alive d) : r.Alive d := by
  rcases alive with member | ⟨⟨key, _⟩, member, rfl⟩ | held
  · have count : 0 < r.connections.count (some d) :=
      (List.count_pos_iff.mpr member).trans_le (RemoveIf.count_removeIf_le (Option.some_ne_none d))
    exact Or.inl (List.count_pos_iff.mp count)
  · have entry := AList.mem_lookup_iff.mpr member
    by_cases here : key = id
    · rw [here, onDisconnected, AList.lookup_erase] at entry
      cases entry
    · rw [onDisconnected, AList.lookup_erase_ne here] at entry
      exact Or.inr (Or.inl ⟨_, AList.mem_lookup_iff.mp entry, rfl⟩)
  · exact Or.inr (Or.inr held)

theorem alive_of_onGotDeviceId {id : List UInt8} (alive : (r.onGotDeviceId c id).Alive d) : r.Alive d := by
  unfold onGotDeviceId at alive
  split at alive
  · rename_i listed
    rcases alive with member | ⟨⟨key, _⟩, member, rfl⟩ | held
    · exact Or.inl (List.mem_of_mem_erase member)
    · have entry := AList.mem_lookup_iff.mpr member
      by_cases here : key = id
      · rw [here, AList.lookup_insert] at entry
        cases entry
        exact Or.inl listed
      · rw [AList.lookup_insert_ne here] at entry
        exact Or.inr (Or.inl ⟨_, AList.mem_lookup_iff.mp entry, rfl⟩)
    · exact Or.inr (Or.inr held)
  · exact alive

theorem alive_onGotDeviceId {id : List UInt8} (alive : r.Alive c) : (r.onGotDeviceId c id).Alive c := by
  unfold onGotDeviceId
  split
  · exact Or.inr (Or.inl ⟨⟨id, c⟩, AList.mem_lookup_iff.mp (AList.lookup_insert _), rfl⟩)
  · exact alive

/-- Nothing brings back a connection that no `shared_ptr` points to. -/
theorem alive_of_step (taken : r.step a = some t) (alive : t.Alive c) (known : c < r.peers.length) : r.Alive c := by
  cases moves_of_step taken with
  | incoming => exact alive
  | accept =>
    rcases alive with member | mapped | ⟨peer, found, some⟩
    · rcases List.mem_append.mp member with before | new
      · exact Or.inl before
      · cases List.mem_singleton.mp new
        exact absurd known (lt_irrefl _)
    · exact Or.inr (Or.inl mapped)
    · rw [List.getElem?_append_left known] at found
      exact Or.inr (Or.inr ⟨peer, found, some⟩)
  | packet found receiving _ =>
    rcases r.process_cases receiving _ with ⟨_, same⟩ | ⟨_, _, same⟩ | ⟨_, same⟩ <;> rw [same] at alive
    · exact (alive_setPeer found rfl).mp alive
    · exact (alive_setPeer found (by rfl)).mp (alive_of_onGotDeviceId alive)
    · exact (alive_setPeer found (by rfl)).mp (alive_of_onDisconnected _ alive)
  | lost _ found _ _ holders => exact (alive_setPeer found holders).mp (alive_of_onDisconnected _ alive)
  | @send d id peer mapped found =>
    by_cases here : d = c
    · subst here
      exact Or.inr (Or.inl ⟨⟨id, d⟩, AList.mem_lookup_iff.mp mapped, rfl⟩)
    · rcases alive with member | mapped' | ⟨other, found', some⟩
      · exact Or.inl member
      · exact Or.inr (Or.inl mapped')
      · rw [setPeer, List.getElem?_set_ne here] at found'
        exact Or.inr (Or.inr ⟨other, found', some⟩)
  | @leave _ d peer later _ found _ fewer =>
    rcases alive with member | mapped | ⟨other, found', some⟩
    · exact Or.inl member
    · exact Or.inr (Or.inl mapped)
    · rw [setPeer, List.getElem?_set] at found'
      split at found'
      · rename_i here
        obtain ⟨_, same⟩ := Option.ite_none_right_eq_some.mp found'
        cases same
        exact Or.inr (Or.inr ⟨peer, here ▸ found, some.trans_le fewer⟩)
      · exact Or.inr (Or.inr ⟨other, found', some⟩)
  | stop => exact alive
  | runStop =>
    rcases alive with member | ⟨_, member, _⟩ | held
    · cases member
    · cases member
    · exact Or.inr (Or.inr held)

@[simp] theorem peers_onGotDeviceId (id : List UInt8) : (r.onGotDeviceId c id).peers = r.peers := by
  unfold onGotDeviceId
  split <;> rfl

@[simp] theorem peers_onDisconnected (id : List UInt8) : (r.onDisconnected c id).peers = r.peers := rfl

@[simp] theorem length_peers_setPeer (peer : Peer) : (r.setPeer c peer).peers.length = r.peers.length :=
  List.length_set

/-- Connections are never forgotten. -/
theorem length_peers_le_of_step (taken : r.step a = some t) : r.peers.length ≤ t.peers.length := by
  cases moves_of_step taken with
  | accept => simp
  | packet found receiving =>
    rcases r.process_cases receiving _ with ⟨_, same⟩ | ⟨_, _, same⟩ | ⟨_, same⟩ <;> rw [same] <;> simp
  | incoming | stop | runStop => exact le_rfl
  | lost | send | leave => simp

/-- What is dead stays dead, over any run. -/
theorem alive_of_run {start : Registry} {labels : List Action} (run : Run step free start labels r)
    (alive : r.Alive c) (known : c < start.peers.length) : start.Alive c := by
  induction run with
  | nil => exact alive
  | snoc before _ taken ih =>
    have grown := before.invariant (I := fun s => start.peers.length ≤ s.peers.length) le_rfl
      fun _ _ _ bound _ taken => bound.trans (length_peers_le_of_step taken)
    exact ih (alive_of_step taken alive (known.trans_le grown))

end Registry
end Asyncmsg
