import Mathlib.Data.List.ReduceOption
import Asyncmsg.Isolation

namespace Asyncmsg
open Transition

namespace Registry
variable {r t : Registry} {a : Registry.Action}

/-- Calls keep only connections alive that have announced a device id. -/
def Held (r : Registry) : Prop :=
  ∀ (c : Nat) (peer : Peer), r.peers[c]? = some peer → 0 < peer.holders → peer.deviceId ≠ []

theorem start_held : start.Held := fun _ _ found => by cases found

theorem Held.setPeer (held : r.Held) (c : Nat) {later : Peer} (named : 0 < later.holders → later.deviceId ≠ []) :
    (r.setPeer c later).Held := by
  intro d peer found
  rw [Registry.setPeer, List.getElem?_set] at found
  split at found
  · obtain ⟨_, same⟩ := Option.ite_none_right_eq_some.mp found
    cases same
    exact named
  · exact held d peer found

theorem Held.onGotDeviceId (held : r.Held) (c : Nat) (id : List UInt8) : (r.onGotDeviceId c id).Held := by
  unfold Registry.onGotDeviceId
  split <;> exact held

theorem Held.process (held : r.Held) {c : Nat} {peer : Peer} (found : r.peers[c]? = some peer)
    (receiving : peer.receiving = true) (pack : Packet) : (r.process c peer pack).Held := by
  have own := held c peer found
  rcases r.process_cases receiving pack with ⟨_, same⟩ | ⟨_, named, same⟩ | ⟨_, same⟩ <;> rw [same]
  · exact held.setPeer c own
  · exact (held.setPeer c fun _ => named).onGotDeviceId c _
  · exact held.setPeer c own

theorem Held.step (held : r.Held) (sound : r.Sound) (taken : r.step a = some t) : t.Held := by
  cases moves_of_step taken with
  | accept =>
    intro c peer found some
    rw [List.getElem?_append] at found
    split at found
    · exact held c peer found some
    · rw [List.getElem?_singleton] at found
      obtain ⟨_, same⟩ := Option.ite_none_right_eq_some.mp found
      cases same
      exact absurd some (lt_irrefl 0)
  | packet found receiving => exact held.process found receiving _
  | @lost _ c peer later _ found _ same holders =>
    exact held.setPeer c fun some => same ▸ held c peer found (holders ▸ some)
  | @send c id peer mapped found =>
    obtain ⟨own, named⟩ := sound.mapped id c mapped
    rw [deviceIdOf, found] at own
    exact held.setPeer c fun _ => Option.some.inj own ▸ named
  | @leave _ c peer later _ found same fewer =>
    exact held.setPeer c fun some => same ▸ held c peer found (some.trans_le fewer)
  | _ => exact held

/-- The invariants of every reachable registry. -/
structure Reachable (r : Registry) : Prop extends r.Sound where
  held : r.Held

theorem run_reachable {guard : Registry → Action → Prop} {labels : List Action}
    (run : Run step guard start labels r) : r.Reachable :=
  run.invariant ⟨start_sound, start_held⟩ fun _ _ _ reachable _ taken =>
    ⟨(effect_of_step taken).sound reachable.toSound, reachable.held.step reachable.toSound taken⟩

/-- A connection that is alive and has no device id yet stands in the list. -/
theorem Reachable.listed_of_alive (reachable : r.Reachable) {c : Nat} (alive : r.Alive c)
    (unnamed : r.deviceIdOf c = some []) : some c ∈ r.connections := by
  rcases alive with listed | ⟨⟨id, _⟩, member, rfl⟩ | ⟨peer, found, some⟩
  · exact listed
  · obtain ⟨own, named⟩ := reachable.mapped id _ (AList.mem_lookup_iff.mpr member)
    cases own.symm.trans unnamed
    exact absurd rfl named
  · have named := reachable.held c peer found some
    rw [deviceIdOf, found] at unnamed
    exact absurd (Option.some.inj unnamed) named

/-- No connection stands in the list twice. -/
theorem Sound.nodup (sound : r.Sound) : r.connections.reduceOption.Nodup := by
  refine List.nodup_iff_count_le_one.mpr fun c => ?_
  rw [List.reduceOption, List.count_filterMap]
  exact sound.once c

/-- No connection occurs twice across the list and the map. -/
theorem Sound.nodup_append (sound : r.Sound) :
    (r.connections.reduceOption ++ r.connectionMap.entries.map Sigma.snd).Nodup := by
  refine List.nodup_append.mpr ⟨sound.nodup, ?_, ?_⟩
  · refine List.Nodup.map_on ?_ r.connectionMap.nodupKeys.nodup
    rintro ⟨id, c⟩ member ⟨key, d⟩ other rfl
    have own := (sound.mapped id c (AList.mem_lookup_iff.mpr member)).1
    have same := (sound.mapped key c (AList.mem_lookup_iff.mpr other)).1
    cases own.symm.trans same
    rfl
  · rintro c listed _ mapped rfl
    obtain ⟨⟨id, _⟩, member, rfl⟩ := List.mem_map.mp mapped
    obtain ⟨own, named⟩ := sound.mapped id _ (AList.mem_lookup_iff.mpr member)
    have unnamed := sound.listed _ (List.reduceOption_mem_iff.mp listed)
    exact named (Option.some.inj (own.symm.trans unnamed))

end Registry
end Asyncmsg
