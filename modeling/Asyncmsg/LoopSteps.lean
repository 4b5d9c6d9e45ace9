import Asyncmsg.Loops
import Asyncmsg.Binding

namespace Asyncmsg
open Transition

/-- A round of `process_packet` on a connection with this device id. -/
inductive Handles (deviceId : List UInt8) (pack : Packet) : Receiver × Bool → Prop
  | anonymous : pack.deviceId = [] → Handles deviceId pack (⟨0, deviceId, [.decoded pack]⟩, true)
  | announces : pack.deviceId ≠ [] → deviceId = [] → Handles deviceId pack
      (⟨0, pack.deviceId, [.decoded pack, .gotDeviceId pack.deviceId, .refreshed, pack.delivery]⟩, true)
  | delivers : pack.deviceId ≠ [] → deviceId = pack.deviceId → Handles deviceId pack
      (⟨0, deviceId, [.decoded pack, .refreshed, pack.delivery]⟩, true)
  | refuses : pack.deviceId ≠ [] → deviceId ≠ [] → Handles deviceId pack (⟨0, deviceId, [.decoded pack]⟩, false)

theorem handles (deviceId : List UInt8) (pack : Packet) :
    Handles deviceId pack ((⟨0, deviceId, []⟩ : Receiver).handle pack) := by
  rcases Receiver.handle_cases ⟨0, deviceId, []⟩ pack with ⟨anonymous, same⟩ | ⟨named, first, same⟩ |
    ⟨named, own, same⟩ | ⟨named, known, _, same⟩ <;> rw [same]
  · exact .anonymous anonymous
  · exact .announces named first
  · exact .delivers named own
  · exact .refuses named known

/-- `process_packet` itself calls no `on_disconnected`. -/
theorem Handles.kept {deviceId : List UInt8} {pack : Packet} {result : Receiver × Bool}
    (handles : Handles deviceId pack result) (id : List UInt8) : .disconnected id ∉ result.1.events := by
  cases handles <;> simp

namespace Registry
variable {r : Registry} {c : Nat} {peer : Peer} {e : Event} {events : List Event}

theorem callback_setPeer (c : Nat) (r : Registry) (peer : Peer) (e : Event) :
    callback c (r.setPeer c peer) e = (callback c r e).setPeer c peer := by
  cases e with
  | gotDeviceId id =>
    by_cases listed : some c ∈ r.connections <;> simp [callback, onGotDeviceId, setPeer, listed]
  | _ => rfl

theorem foldl_callback_setPeer (c : Nat) (r : Registry) (peer : Peer) (events : List Event) :
    events.foldl (callback c) (r.setPeer c peer) = (events.foldl (callback c) r).setPeer c peer := by
  induction events generalizing r with
  | nil => rfl
  | cons e events ih => rw [List.foldl_cons, List.foldl_cons, callback_setPeer, ih]

theorem setPeer_setPeer (r : Registry) (c : Nat) (peer later : Peer) :
    (r.setPeer c peer).setPeer c later = r.setPeer c later := by
  simp only [setPeer, List.set_set]

/-- Two stretches of a coroutine, one behind the other. -/
theorem follow_follow (r : Registry) (c : Nat) (peer later : Peer) (events more : List Event) :
    (r.follow c peer events).follow c later more = r.follow c later (events ++ more) := by
  rw [follow, follow, follow, foldl_callback_setPeer c r peer, setPeer_setPeer, List.foldl_append,
    foldl_callback_setPeer c r later]

theorem setPeer_self (found : r.peers[c]? = some peer) : r.setPeer c peer = r := by
  obtain ⟨inside, rfl⟩ := List.getElem?_eq_some_iff.mp found
  rw [setPeer, List.set_getElem_self]

theorem callback_running (c : Nat) (r : Registry) (e : Event) : (callback c r e).running = r.running := by
  cases e with
  | gotDeviceId id =>
    by_cases listed : some c ∈ r.connections <;> simp [callback, onGotDeviceId, listed]
  | _ => rfl

theorem callback_peers (c : Nat) (r : Registry) (e : Event) : (callback c r e).peers = r.peers := by
  cases e with
  | gotDeviceId id => exact peers_onGotDeviceId id
  | _ => rfl

theorem foldl_callback_running (c : Nat) (r : Registry) (events : List Event) :
    (events.foldl (callback c) r).running = r.running := by
  induction events generalizing r with
  | nil => rfl
  | cons e events ih => rw [List.foldl_cons, ih, callback_running]

theorem foldl_callback_peers (c : Nat) (r : Registry) (events : List Event) :
    (events.foldl (callback c) r).peers = r.peers := by
  induction events generalizing r with
  | nil => rfl
  | cons e events ih => rw [List.foldl_cons, ih, callback_peers]

@[simp] theorem follow_running (r : Registry) (c : Nat) (peer : Peer) (events : List Event) :
    (r.follow c peer events).running = r.running := foldl_callback_running c _ events

@[simp] theorem follow_peers (r : Registry) (c : Nat) (peer : Peer) (events : List Event) :
    (r.follow c peer events).peers = r.peers.set c peer := foldl_callback_peers c _ events

theorem heldBy_follow {later : Peer} (found : r.peers[c]? = some peer) (same : later.holders = peer.holders)
    (events : List Event) : (r.follow c later events).HeldBy c ↔ r.HeldBy c := by
  rw [← heldBy_setPeer (d := c) found same, HeldBy, HeldBy, follow_peers, setPeer]

/-- What a round does to the registry when it leaves the connection open. -/
theorem process_eq_follow (receiving : peer.receiving = true) {pack : Packet} {receiver : Receiver} {live : Bool}
    (round : (⟨0, peer.deviceId, []⟩ : Receiver).handle pack = (receiver, live)) :
    r.process c peer pack = r.follow c { peer with deviceId := receiver.deviceId, receiving := live }
      (receiver.events ++ if live then [] else [.disconnected receiver.deviceId]) := by
  have handled := handles peer.deviceId pack
  rw [round] at handled
  rcases peer with ⟨deviceId, holders, _, checking⟩
  cases receiving
  dsimp only at round handled ⊢
  rw [process, round]
  cases handled with
  | anonymous => rfl
  | announces =>
    unfold Packet.delivery
    cases pack.rsp <;> rfl
  | delivers =>
    unfold Packet.delivery
    cases pack.rsp <;> rfl
  | refuses => rfl

theorem alive_callback (alive : r.Alive c) {e : Event} (kept : ∀ id, e ≠ .disconnected id) :
    (callback c r e).Alive c := by
  cases e with
  | gotDeviceId id => exact alive_onGotDeviceId alive
  | disconnected id => exact absurd rfl (kept id)
  | _ => exact alive

theorem alive_follow {later : Peer} (found : r.peers[c]? = some peer) (same : later.holders = peer.holders)
    (alive : r.Alive c) (kept : ∀ id, .disconnected id ∉ events) : (r.follow c later events).Alive c := by
  have started := (alive_setPeer (d := c) found same).mpr alive
  rw [follow]
  generalize r.setPeer c later = s at started
  induction events generalizing s with
  | nil => exact started
  | cons e events ih =>
    refine ih (fun id member => kept id (List.mem_cons_of_mem e member)) _ (alive_callback started fun id here => ?_)
    exact kept id (here ▸ List.mem_cons_self)

/-- The packets of one call of `process_packet` are so many rounds of the registry. -/
theorem processPackets_run (running : r.running = true) (found : r.peers[c]? = some peer)
    (receiving : peer.receiving = true) (alive : r.Alive c) {packs : List Packet} {id : List UInt8} {live : Bool}
    (processed : processPackets peer.deviceId packs = (events, id, live)) :
    ∃ labels, Run step free r labels (r.follow c { peer with deviceId := id, receiving := live }
      (events ++ if live then [] else [.disconnected id])) := by
  induction packs generalizing r peer events with
  | nil =>
    cases processed
    refine ⟨[], ?_⟩
    have same : ({ peer with deviceId := peer.deviceId, receiving := true } : Peer) = peer := by
      rw [← receiving]
    rw [same, follow]
    simp only [if_true, List.append_nil, List.foldl_nil, setPeer_self found]
    exact .nil
  | cons pack packs ih =>
    rw [processPackets] at processed
    rcases round : (⟨0, peer.deviceId, []⟩ : Receiver).handle pack with ⟨receiver, _ | _⟩
    · rw [round] at processed
      cases processed
      refine ⟨[.packet c pack], .single trivial ?_⟩
      rw [← process_eq_follow receiving round]
      simp [step, running, found, receiving, alive]
    · rcases rest : processPackets receiver.deviceId packs with ⟨more, id', live'⟩
      simp only [round, rest] at processed
      cases processed
      have stepped : r.step (.packet c pack) =
          some (r.follow c { peer with deviceId := receiver.deviceId, receiving := true } receiver.events) := by
        have same := process_eq_follow (r := r) (c := c) receiving round
        rw [if_pos rfl, List.append_nil] at same
        rw [← same]
        simp [step, running, found, receiving, alive]
      have kept := (handles peer.deviceId pack).kept
      rw [round] at kept
      obtain ⟨later, same⟩ : ∃ later : Peer, later = { peer with deviceId := receiver.deviceId, receiving := true } :=
        ⟨_, rfl⟩
      rw [← same] at stepped
      have found' : (r.follow c later receiver.events).peers[c]? = some later := by
        rw [follow_peers, List.getElem?_set_self (List.getElem?_eq_some_iff.mp found).1]
      obtain ⟨labels, run⟩ := ih (by rw [follow_running, running]) found' (by rw [same])
        (alive_follow found (by rw [same]) alive kept) (by rw [same]; exact rest)
      rw [follow_follow, ← List.append_assoc] at run
      subst same
      exact ⟨_, run.cons trivial stepped⟩

/-- What an outside step does to the connections: it adds one, or changes how
many calls hold one. -/
theorem peers_of_outside {r t : Registry} {a : Action} (outside : a.outside = true) (taken : r.step a = some t) :
    t.peers = r.peers ++ [⟨[], 0, true, true⟩] ∨ t.peers = r.peers ∨
      ∃ c peer holders, r.peers[c]? = some peer ∧ t.peers = r.peers.set c { peer with holders := holders } := by
  obtain ⟨_, taken⟩ := Option.ite_none_right_eq_some.mp taken
  cases a with
  | incoming =>
    obtain ⟨_, same⟩ := Option.ite_none_right_eq_some.mp taken
    cases same
    exact Or.inr (Or.inl rfl)
  | accept =>
    obtain ⟨_, same⟩ := Option.ite_none_right_eq_some.mp taken
    cases same
    exact Or.inl rfl
  | send id =>
    obtain ⟨_, taken⟩ := Option.ite_none_left_eq_some.mp taken
    obtain ⟨c, _, taken⟩ := Option.bind_eq_some_iff.mp taken
    obtain ⟨peer, found, same⟩ := Option.bind_eq_some_iff.mp taken
    cases same
    exact Or.inr (Or.inr ⟨c, peer, _, found, rfl⟩)
  | sendEnds c =>
    obtain ⟨peer, found, taken⟩ := Option.bind_eq_some_iff.mp taken
    obtain ⟨_, same⟩ := Option.ite_none_right_eq_some.mp taken
    cases same
    exact Or.inr (Or.inr ⟨c, peer, _, found, rfl⟩)
  | stop force =>
    obtain ⟨_, same⟩ := Option.ite_none_left_eq_some.mp taken
    cases same
    exact Or.inr (Or.inl rfl)
  | runStop =>
    obtain ⟨_, _, same⟩ := Option.bind_eq_some_iff.mp taken
    cases same
    exact Or.inr (Or.inl rfl)
  | _ => cases outside

end Registry

namespace PeerLoops
variable {s t : PeerLoops} {a : Action} {c : Nat} {l next : Loops} {peer : Peer} {w : Resumption}

/-- The flags of the registry follow the coroutines: while one has not ended its
flag is up, and `check` is left alone only when `receive_packet` is over. -/
structure Synced (l : Loops) (peer : Peer) : Prop where
  reading : l.read ≠ .ended → peer.receiving = true
  checking : l.timer ≠ .ended → peer.checking = true
  cancelled : l.cancelled = true → l.timer ≠ .ended → peer.receiving = false
  aborted : l.timer = .aborted → peer.receiving = false

theorem Queues.synced (queues : Queues l c a next) (synced : Synced l peer) : Synced next peer := by
  have reading := synced.reading
  have checking := synced.checking
  cases queues with
  | arrives pending =>
    exact ⟨fun _ => reading (by simp [pending]), checking, synced.cancelled, synced.aborted⟩
  | breaks pending =>
    exact ⟨fun _ => reading (by simp [pending]), checking, synced.cancelled, synced.aborted⟩
  | expires pending =>
    exact ⟨reading, fun _ => checking (by simp [pending]), fun both _ => synced.cancelled both (by simp [pending]),
      nofun⟩

theorem Synced.endRead (synced : Synced l peer) (id : List UInt8) :
    Synced l.endRead { peer with deviceId := id, receiving := false } where
  reading ended := absurd rfl ended
  checking running := synced.checking fun ended => running (by simp [Loops.endRead, ended])
  cancelled _ _ := rfl
  aborted _ := rfl

theorem Synced.endTimer (synced : Synced l peer) : Synced l.endTimer { peer with checking := false } where
  reading running := synced.reading fun ended => running (by simp [Loops.endTimer, ended])
  checking ended := absurd rfl ended
  cancelled _ ended := absurd rfl ended
  aborted := nofun

theorem Receives.synced {alive : Bool} (receives : Receives l peer alive w) (synced : Synced l peer) :
    Synced w.loops w.peer := by
  cases receives with
  | expires => exact synced.endRead peer.deviceId
  | fails => exact synced.endRead peer.deviceId
  | refuses => exact synced.endRead _
  | reads _ read =>
    have reading := synced.reading (by simp [read])
    dsimp only
    split
    · rename_i cancelled
      have past : l.timer = .ended := by
        by_contra running
        cases reading.symm.trans (synced.cancelled cancelled running)
      refine ⟨fun ended => absurd rfl ended, fun running => ?_, fun _ running => ?_, fun aborted => ?_⟩
      · exact absurd (by simp [Loops.endRead, past]) running
      · exact absurd (by simp [Loops.endRead, past]) running
      · simp [Loops.endRead, past] at aborted
    · rename_i running
      refine ⟨fun _ => rfl, synced.checking, fun cancelled => absurd cancelled running, fun aborted => ?_⟩
      cases reading.symm.trans (synced.aborted aborted)

theorem Checks.synced {alive inactive : Bool} (checks : Checks l peer alive inactive w) (synced : Synced l peer) :
    Synced w.loops w.peer := by
  cases checks with
  | ends => exact synced.endTimer
  | reports => exact synced.endTimer
  | waits timer _ _ running =>
    refine ⟨synced.reading, fun _ => synced.checking (by simp [timer]), fun cancelled => ?_, nofun⟩
    exact absurd cancelled (by simp [running])

/-- A resumption of `receive_packet` is a run of the registry. -/
theorem Receives.run {r : Registry} (receives : Receives l peer (r.Alive c) w) (synced : Synced l peer)
    (running : r.running = true) (found : r.peers[c]? = some peer) :
    ∃ labels, Run Registry.step free r labels (r.follow c w.peer w.events) := by
  cases receives with
  | expires dead unfinished =>
    refine ⟨[.readExpires c], .single trivial ?_⟩
    simp [Registry.step, running, found, synced.reading unfinished, of_decide_eq_false dead, Registry.follow]
  | fails alive read =>
    refine ⟨[.readFails c], .single trivial ?_⟩
    simp [Registry.step, running, found, synced.reading (by simp [read]), of_decide_eq_true alive, Registry.follow,
      Registry.callback]
  | refuses alive read processed =>
    have run := Registry.processPackets_run running found (synced.reading (by simp [read]))
      (of_decide_eq_true alive) processed
    exact run
  | reads alive read processed =>
    have run := Registry.processPackets_run running found (synced.reading (by simp [read]))
      (of_decide_eq_true alive) processed
    rwa [if_pos rfl, List.append_nil] at run

/-- A resumption of `check` is a run of the registry. -/
theorem Checks.run {r : Registry} {inactive : Bool} (checks : Checks l peer (r.Alive c) inactive w)
    (synced : Synced l peer) (running : r.running = true) (found : r.peers[c]? = some peer) :
    ∃ labels, Run Registry.step free r labels (r.follow c w.peer w.events) := by
  cases checks with
  | ends reason =>
    have checking : peer.checking = true := synced.checking fun ended => by simp [ended] at reason
    have past : peer.receiving = false ∨ ¬r.Alive c := by
      rcases reason with aborted | ⟨expired, dead | ⟨_, cancelled⟩⟩
      · exact Or.inl (synced.aborted aborted)
      · exact Or.inr (of_decide_eq_false dead)
      · exact Or.inl (synced.cancelled cancelled (by simp [expired]))
    refine ⟨[.checkEnds c], .single trivial ?_⟩
    simp [Registry.step, running, found, checking, past, Registry.follow]
  | reports expired alive =>
    refine ⟨[.inactive c], .single trivial ?_⟩
    simp [Registry.step, running, found, synced.checking (by simp [expired]), of_decide_eq_true alive,
      Registry.follow, Registry.callback]
  | waits =>
    refine ⟨[], ?_⟩
    rw [Registry.follow, List.foldl_nil, Registry.setPeer_self found]
    exact .nil

theorem Resumes.synced {alive : Bool} (resumes : Resumes l peer alive c a w) (synced : Synced l peer) :
    Synced w.loops w.peer := by
  cases resumes with
  | receive receives => exact receives.synced synced
  | check checks => exact checks.synced synced

theorem Resumes.run {r : Registry} (resumes : Resumes l peer (r.Alive c) c a w) (synced : Synced l peer)
    (running : r.running = true) (found : r.peers[c]? = some peer) :
    ∃ labels, Run Registry.step free r labels (r.follow c w.peer w.events) := by
  cases resumes with
  | receive receives => exact receives.run synced running found
  | check checks => exact checks.run synced running found

/-- What holds of the coroutines in every reachable state. -/
structure Tracks (s : PeerLoops) : Prop where
  registry : ∃ labels, Run Registry.step free .start labels s.registry
  length : s.loops.length = s.registry.peers.length
  synced : ∀ (c : Nat) (l : Loops) (peer : Peer), s.loops[c]? = some l → s.registry.peers[c]? = some peer →
    Synced l peer
  known : ∀ c e, (c, e) ∈ s.log → c < s.registry.peers.length

theorem start_tracks : start.Tracks where
  registry := ⟨[], .nil⟩
  length := rfl
  synced _ _ _ found := by cases found
  known _ _ member := by cases member

theorem Tracks.outer (tracks : s.Tracks) {b : Registry.Action} {r : Registry} (outside : b.outside = true)
    (stepped : s.registry.step b = some r) : (s.outer r).Tracks := by
  obtain ⟨labels, run⟩ := tracks.registry
  have grown := Registry.length_peers_le_of_step stepped
  refine ⟨⟨_, run.snoc trivial stepped⟩, ?_, fun c l peer found accepted => ?_, fun c e member =>
    (tracks.known c e member).trans_le grown⟩
  · rw [PeerLoops.outer, List.length_append, List.length_replicate, tracks.length]
    exact Nat.add_sub_cancel' grown
  · rw [PeerLoops.outer] at found accepted
    dsimp only at found accepted
    rcases Registry.peers_of_outside outside stepped with added | same | ⟨d, other, holders, before, changed⟩
    · rw [added] at accepted
      rw [List.getElem?_append] at found accepted
      rw [tracks.length] at found
      split at accepted
      · rename_i earlier
        rw [if_pos earlier] at found
        exact tracks.synced c l peer found accepted
      · rename_i new
        rw [if_neg new] at found
        cases List.eq_of_mem_replicate (List.mem_of_getElem? found)
        cases List.mem_singleton.mp (List.mem_of_getElem? accepted)
        exact ⟨fun _ => rfl, fun _ => rfl, nofun, nofun⟩
    · rw [same] at accepted
      rw [same, Nat.sub_self, List.replicate_zero, List.append_nil] at found
      exact tracks.synced c l peer found accepted
    · rw [changed] at accepted
      rw [changed, List.length_set, Nat.sub_self, List.replicate_zero, List.append_nil] at found
      rw [List.getElem?_set] at accepted
      split at accepted
      · rename_i here
        obtain ⟨_, same⟩ := Option.ite_none_right_eq_some.mp accepted
        cases same
        have synced := tracks.synced c l other found (here ▸ before)
        exact ⟨synced.reading, synced.checking, synced.cancelled, synced.aborted⟩
      · exact tracks.synced c l peer found accepted

theorem Tracks.setLoops (tracks : s.Tracks) (found : s.loops[c]? = some l) (queues : Queues l c a next) :
    (s.setLoops c next).Tracks := by
  refine ⟨tracks.registry, (List.length_set).trans tracks.length, fun d other peer found' accepted => ?_,
    tracks.known⟩
  rw [PeerLoops.setLoops, List.getElem?_set] at found'
  split at found'
  · rename_i here
    obtain ⟨_, same⟩ := Option.ite_none_right_eq_some.mp found'
    cases same
    exact queues.synced (tracks.synced c l peer found (here ▸ accepted))
  · exact tracks.synced d other peer found' accepted

theorem Tracks.apply (tracks : s.Tracks) (running : s.registry.running = true) (found : s.loops[c]? = some l)
    (accepted : s.registry.peers[c]? = some peer) (resumes : Resumes l peer (s.registry.Alive c) c a w) :
    (s.apply c w).Tracks := by
  have synced := tracks.synced c l peer found accepted
  obtain ⟨labels, run⟩ := tracks.registry
  obtain ⟨more, run'⟩ := resumes.run synced running accepted
  refine ⟨⟨_, run.trans run'⟩, ?_, fun d other later found' accepted' => ?_, fun d e member => ?_⟩
  · rw [PeerLoops.apply, Registry.follow_peers, List.length_set, List.length_set, tracks.length]
  · rw [PeerLoops.apply] at found' accepted'
    dsimp only at found' accepted'
    rw [Registry.follow_peers, List.getElem?_set] at accepted'
    rw [List.getElem?_set] at found'
    split at found'
    · rename_i here
      rw [if_pos here] at accepted'
      obtain ⟨_, same⟩ := Option.ite_none_right_eq_some.mp found'
      obtain ⟨_, same'⟩ := Option.ite_none_right_eq_some.mp accepted'
      cases same
      cases same'
      exact resumes.synced synced
    · rename_i other'
      rw [if_neg other'] at accepted'
      exact tracks.synced d other later found' accepted'
  · rw [PeerLoops.apply, Registry.follow_peers, List.length_set]
    rcases List.mem_append.mp member with before | new
    · exact tracks.known d e before
    · obtain ⟨_, _, same⟩ := List.mem_map.mp new
      cases same
      exact (List.getElem?_eq_some_iff.mp accepted).1

theorem Tracks.step (tracks : s.Tracks) (taken : s.step a = some t) : t.Tracks := by
  obtain ⟨running, moves⟩ := moves_of_step taken
  cases moves with
  | outside outside stepped => exact tracks.outer outside stepped
  | queues found queues => exact tracks.setLoops found queues
  | resumes found accepted resumes => exact tracks.apply running found accepted resumes

/-- The registry of the coroutines takes the steps of a registry. -/
theorem Tracks.reachable (tracks : s.Tracks) : s.registry.Reachable :=
  tracks.registry.elim fun _ run => Registry.run_reachable run

end PeerLoops
end Asyncmsg
