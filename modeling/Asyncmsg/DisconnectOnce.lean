import Asyncmsg.LoopSteps

namespace Asyncmsg
open Transition

def Event.isReport : Event → Bool
  | .disconnected _ => true
  | _ => false

/-- A disconnect is reported, or a packet is handed on: to the owner of the
connection or to the calls that wait for a response. -/
def Event.isOutward : Event → Bool
  | .disconnected _ | .request _ _ | .response _ => true
  | _ => false

/-- Behind the report of its disconnect a connection reports and delivers nothing. -/
def ReportedOnce (log : List (Nat × Event)) : Prop :=
  log.Pairwise fun e later => e.1 = later.1 → e.2.isReport = true → later.2.isOutward = false

instance (log : List (Nat × Event)) : Decidable (ReportedOnce log) :=
  inferInstanceAs (Decidable (List.Pairwise _ log))

/-- Nothing comes of the read any more: `receive_packet` has ended, or the read
has brought no packet with a device id. -/
def ReadOp.Harmless : ReadOp → Prop
  | .ended => True
  | .arrived packs => ∀ pack ∈ packs, pack.deviceId = []
  | .pending | .failed => False

instance (read : ReadOp) : Decidable read.Harmless := by
  cases read <;> unfold ReadOp.Harmless <;> infer_instance

def TimerOp.Harmless (timer : TimerOp) : Prop := timer = .ended ∨ timer = .aborted

/-- One of the coroutines has ended and nothing comes of the other. -/
structure Loops.Spent (l : Loops) : Prop where
  cancelled : l.cancelled = true
  read : l.read.Harmless
  timer : l.timer.Harmless

theorem delivery_isOutward (pack : Packet) : pack.delivery.isOutward = true := by
  unfold Packet.delivery
  split <;> rfl

section Packets
variable {deviceId id : List UInt8} {packs : List Packet} {events : List Event} {live : Bool}

theorem processPackets_cons (deviceId : List UInt8) (pack : Packet) (packs : List Packet) :
    ∃ receiver goes, Handles deviceId pack (receiver, goes) ∧
      processPackets deviceId (pack :: packs) =
        if goes then (receiver.events ++ (processPackets receiver.deviceId packs).1,
          (processPackets receiver.deviceId packs).2.1, (processPackets receiver.deviceId packs).2.2)
        else (receiver.events, receiver.deviceId, false) := by
  have handled := handles deviceId pack
  rw [processPackets]
  rcases round : (⟨0, deviceId, []⟩ : Receiver).handle pack with ⟨receiver, _ | _⟩ <;> rw [round] at handled
  · exact ⟨receiver, false, handled, rfl⟩
  · exact ⟨receiver, true, handled, rfl⟩

/-- `process_packet` itself reports nothing. -/
theorem processPackets_isReport (deviceId : List UInt8) (packs : List Packet) :
    ∀ e ∈ (processPackets deviceId packs).1, e.isReport = false := by
  induction packs generalizing deviceId with
  | nil => exact fun e member => by cases member
  | cons pack packs ih =>
    obtain ⟨receiver, goes, handled, same⟩ := processPackets_cons deviceId pack packs
    have head : ∀ e ∈ receiver.events, e.isReport = false := fun e member => by
      cases e with
      | disconnected id => exact absurd member (handled.kept id)
      | _ => rfl
    rw [same]
    split
    · intro e member
      rcases List.mem_append.mp member with first | rest
      · exact head e first
      · exact ih _ e rest
    · exact head

/-- Packets without a device id change nothing. -/
theorem processPackets_anonymous (deviceId : List UInt8) (anonymous : ∀ pack ∈ packs, pack.deviceId = []) :
    (∀ e ∈ (processPackets deviceId packs).1, e.isOutward = false) ∧
      (processPackets deviceId packs).2 = (deviceId, true) := by
  induction packs with
  | nil => exact ⟨by simp [processPackets], rfl⟩
  | cons pack packs ih =>
    obtain ⟨receiver, goes, handled, same⟩ := processPackets_cons deviceId pack packs
    obtain ⟨quiet, unchanged⟩ := ih fun other member => anonymous other (List.mem_cons_of_mem pack member)
    have unnamed := anonymous pack List.mem_cons_self
    rw [same]
    cases handled with
    | anonymous =>
      rw [if_pos rfl]
      refine ⟨fun e member => ?_, unchanged⟩
      rcases List.mem_append.mp member with first | rest
      · cases List.mem_singleton.mp first
        rfl
      · exact quiet e rest
    | announces named => exact absurd unnamed named
    | delivers named => exact absurd unnamed named
    | refuses named => exact absurd unnamed named

/-- A packet with a device id is handed on or closes the connection. -/
theorem processPackets_named (deviceId : List UInt8) (named : ∃ pack ∈ packs, pack.deviceId ≠ []) :
    (∃ e ∈ (processPackets deviceId packs).1, e.isOutward = true) ∨ (processPackets deviceId packs).2.2 = false := by
  induction packs generalizing deviceId with
  | nil => exact absurd named (by simp)
  | cons pack packs ih =>
    obtain ⟨receiver, goes, handled, same⟩ := processPackets_cons deviceId pack packs
    rw [same]
    cases handled with
    | anonymous unnamed =>
      rw [if_pos rfl]
      have later : ∃ pack ∈ packs, pack.deviceId ≠ [] := by
        obtain ⟨other, member, named⟩ := named
        rcases List.mem_cons.mp member with rfl | member
        · exact absurd unnamed named
        · exact ⟨other, member, named⟩
      exact (ih _ later).imp_left fun ⟨e, member, outward⟩ => ⟨e, List.mem_append_right _ member, outward⟩
    | announces =>
      exact Or.inl ⟨_, List.mem_append_left _ (by simp), delivery_isOutward pack⟩
    | delivers =>
      exact Or.inl ⟨_, List.mem_append_left _ (by simp), delivery_isOutward pack⟩
    | refuses => exact Or.inr rfl

/-- Only a connection that has a device id is closed for another one. -/
theorem processPackets_refused (deviceId : List UInt8) (refused : (processPackets deviceId packs).2.2 = false) :
    (processPackets deviceId packs).2.1 ≠ [] := by
  induction packs generalizing deviceId with
  | nil => cases refused
  | cons pack packs ih =>
    obtain ⟨receiver, goes, handled, same⟩ := processPackets_cons deviceId pack packs
    rw [same] at refused ⊢
    cases handled with
    | refuses _ known => exact known
    | _ => exact ih _ refused

end Packets
namespace PeerLoops
variable {s t : PeerLoops} {a : Action} {c : Nat} {l : Loops} {peer : Peer} {alive : Bool} {w : Resumption}

def Reported (s : PeerLoops) (c : Nat) : Prop := ∃ id, (c, .disconnected id) ∈ s.log

/-- What `receive_packet` makes of its read leaves no `shared_ptr` behind where
it reports the disconnect. -/
def Frees (r : Registry) (c : Nat) (peer : Peer) : ReadOp → Prop
  | .failed => ¬r.Outlives c
  | .arrived packs => (processPackets peer.deviceId packs).2.2 = false → ¬r.HeldBy c
  | .pending | .ended => True

instance (r : Registry) (c : Nat) (peer : Peer) (read : ReadOp) : Decidable (Frees r c peer read) := by
  cases read <;> unfold Frees <;> infer_instance

/-- The step reports no disconnect, or one that is the last thing the connection
does: no `shared_ptr` is left behind, or nothing comes of the other coroutine. -/
def LastCall (s : PeerLoops) : Action → Prop
  | .resumeReceive c => ∀ l ∈ s.loops[c]?, ∀ peer ∈ s.registry.peers[c]?, s.registry.Alive c →
      l.timer = .expired → Frees s.registry c peer l.read
  | .resumeCheck c inactive => ∀ l ∈ s.loops[c]?, s.registry.Alive c → l.timer = .expired → inactive = true →
      s.registry.Outlives c → l.read.Harmless
  | _ => True

instance (s : PeerLoops) (a : Action) : Decidable (s.LastCall a) := by
  cases a <;> unfold LastCall <;> infer_instance

section Quiet

theorem Receives.dead (receives : Receives l peer alive w) (dead : alive = false) : w.events = [] := by
  cases receives with
  | expires => rfl
  | fails alive => cases dead.symm.trans alive
  | refuses alive => cases dead.symm.trans alive
  | reads alive => cases dead.symm.trans alive

theorem Checks.dead {inactive : Bool} (checks : Checks l peer alive inactive w) (dead : alive = false) :
    w.events = [] := by
  cases checks with
  | ends => rfl
  | reports _ alive => cases dead.symm.trans alive
  | waits => rfl

theorem Resumes.dead (resumes : Resumes l peer alive c a w) (dead : alive = false) : w.events = [] := by
  cases resumes with
  | receive receives => exact receives.dead dead
  | check checks => exact checks.dead dead

theorem endRead_timer (harmless : l.timer.Harmless) : l.endRead.timer.Harmless := by
  rcases harmless with ended | aborted
  · exact Or.inl (by simp [Loops.endRead, ended])
  · exact Or.inr (by simp [Loops.endRead, aborted])

theorem endTimer_read (harmless : l.read.Harmless) : l.endTimer.read.Harmless := by
  have finished : l.read ≠ .pending := fun pending => by simp [pending, ReadOp.Harmless] at harmless
  rwa [Loops.endTimer, if_neg finished]

theorem endTimer_finished : l.endTimer.read ≠ .pending := by
  dsimp only [Loops.endTimer]
  split
  · exact nofun
  · assumption

theorem read_of_endTimer (harmless : l.endTimer.read.Harmless) : l.read.Harmless := by
  dsimp only [Loops.endTimer] at harmless
  split at harmless
  · cases harmless
  · exact harmless

theorem Receives.spent (receives : Receives l peer alive w) (spent : l.Spent) :
    (∀ e ∈ w.events, e.isOutward = false) ∧ w.loops.Spent := by
  have past : l.endRead.Spent := ⟨rfl, trivial, endRead_timer spent.timer⟩
  have harmless := spent.read
  cases receives with
  | expires => exact ⟨nofun, past⟩
  | fails _ read => simp [read, ReadOp.Harmless] at harmless
  | refuses _ read processed =>
    rw [read] at harmless
    have same := (processPackets_anonymous peer.deviceId harmless).2
    rw [processed] at same
    cases same
  | reads _ read processed =>
    rw [read] at harmless
    have quiet := (processPackets_anonymous peer.deviceId harmless).1
    rw [processed] at quiet
    exact ⟨quiet, by rwa [if_pos spent.cancelled]⟩

theorem Checks.spent {inactive : Bool} (checks : Checks l peer alive inactive w) (spent : l.Spent) :
    (∀ e ∈ w.events, e.isOutward = false) ∧ w.loops.Spent := by
  have unexpired : l.timer ≠ .expired := fun expired => by
    have harmless := spent.timer
    rw [expired] at harmless
    rcases harmless with same | same <;> cases same
  cases checks with
  | ends => exact ⟨nofun, rfl, endTimer_read spent.read, Or.inl rfl⟩
  | reports expired => exact absurd expired unexpired
  | waits expired => exact absurd expired unexpired

theorem Resumes.spent (resumes : Resumes l peer alive c a w) (spent : l.Spent) :
    (∀ e ∈ w.events, e.isOutward = false) ∧ w.loops.Spent := by
  cases resumes with
  | receive receives => exact receives.spent spent
  | check checks => exact checks.spent spent

/-- A resumption reports a disconnect at most at its very end. -/
theorem Resumes.pairwise (resumes : Resumes l peer alive c a w) :
    w.events.Pairwise fun e later => e.isReport = true → later.isOutward = false := by
  have silent (packs : List Packet) : (processPackets peer.deviceId packs).1.Pairwise
      fun e later => e.isReport = true → later.isOutward = false :=
    List.pairwise_of_forall_mem_list fun e member _ _ report => by
      cases (processPackets_isReport peer.deviceId packs e member).symm.trans report
  cases resumes with
  | receive receives =>
    cases receives with
    | expires => exact .nil
    | fails => exact List.pairwise_singleton _ _
    | @refuses packs _ _ _ _ processed =>
      have quiet := processPackets_isReport peer.deviceId packs
      have first := silent packs
      rw [processed] at quiet first
      refine List.pairwise_append.mpr ⟨first, List.pairwise_singleton _ _, fun e member _ _ report => ?_⟩
      cases (quiet e member).symm.trans report
    | @reads packs _ _ _ _ processed =>
      have first := silent packs
      rwa [processed] at first
  | check checks =>
    cases checks with
    | ends => exact .nil
    | reports => exact List.pairwise_singleton _ _
    | waits => exact .nil

end Quiet

theorem follow_failed {r : Registry} (reachable : r.Reachable) (found : r.peers[c]? = some peer) {later : Peer}
    (same : later.holders = peer.holders) :
    (r.follow c later [.disconnected peer.deviceId]).Alive c ↔ r.Outlives c :=
  reachable.alive_onDisconnected_iff found same

/-- A connection that is closed behind its device id is kept alive by calls alone. -/
theorem follow_refused {r : Registry} (found : r.peers[c]? = some peer) {later : Peer} {id : List UInt8}
    {events : List Event} (reachable : (r.follow c later (events ++ [.disconnected id])).Reachable)
    (same : later.holders = peer.holders) (named : id ≠ []) (own : later.deviceId = id) :
    (r.follow c later (events ++ [.disconnected id])).Alive c ↔ r.HeldBy c := by
  have held := Registry.heldBy_follow found same (events ++ [.disconnected id])
  have inside := (List.getElem?_eq_some_iff.mp found).1
  have mine : (r.follow c later (events ++ [.disconnected id])).deviceIdOf c = some id := by
    rw [Registry.deviceIdOf, Registry.follow_peers, List.getElem?_set_self inside, ← own]
    rfl
  refine ⟨?_, fun some => Or.inr (Or.inr (held.mpr some))⟩
  rintro (listed | ⟨⟨key, _⟩, member, rfl⟩ | some)
  · cases (reachable.listed c listed).symm.trans mine
    exact absurd rfl named
  · have entry := AList.mem_lookup_iff.mpr member
    cases (reachable.mapped key _ entry).1.symm.trans mine
    rw [Registry.follow, List.foldl_append, List.foldl_cons, List.foldl_nil, Registry.callback,
      Registry.onDisconnected, AList.lookup_erase] at entry
    cases entry
  · exact held.mp some

/-- What a run whose reports are all last calls keeps: whatever is left of a
connection that has reported its disconnect is dead or spent. -/
structure Settled (s : PeerLoops) : Prop extends s.Tracks where
  once : ReportedOnce s.log
  spent : ∀ (c : Nat) (l : Loops), s.Reported c → s.loops[c]? = some l → s.registry.Alive c → l.Spent

theorem start_settled : start.Settled where
  toTracks := start_tracks
  once := .nil
  spent _ _ reported := by
    obtain ⟨_, member⟩ := reported
    cases member

theorem Settled.outer (settled : s.Settled) {b : Registry.Action} {r : Registry} (outside : b.outside = true)
    (stepped : s.registry.step b = some r) : (s.outer r).Settled where
  toTracks := settled.toTracks.outer outside stepped
  once := settled.once
  spent c l reported found alive := by
    have known : c < s.registry.peers.length := reported.elim fun id member => settled.known c _ member
    rw [PeerLoops.outer, List.getElem?_append_left (settled.length ▸ known)] at found
    exact settled.spent c l reported found (Registry.alive_of_step stepped alive known)

theorem Settled.setLoops {next : Loops} (settled : s.Settled) (found : s.loops[c]? = some l)
    (queues : Queues l c a next) : (s.setLoops c next).Settled where
  toTracks := settled.toTracks.setLoops found queues
  once := settled.once
  spent d other reported found' alive := by
    rw [PeerLoops.setLoops, List.getElem?_set] at found'
    split at found'
    · rename_i here
      subst here
      have spent := settled.spent c l reported found alive
      have read := spent.read
      have timer := spent.timer
      cases queues with
      | arrives pending => simp [pending, ReadOp.Harmless] at read
      | breaks pending => simp [pending, ReadOp.Harmless] at read
      | expires pending => simp [pending, TimerOp.Harmless] at timer
    · exact settled.spent d other reported found' alive

/-- Behind a last call nothing is left of the connection. -/
theorem Resumes.spent_of_lastCall (resumes : Resumes l peer (s.registry.Alive c) c a w) (tracks : s.Tracks)
    (after : (s.apply c w).Tracks) (found : s.loops[c]? = some l) (accepted : s.registry.peers[c]? = some peer)
    (last : s.LastCall a) {id : List UInt8} (reports : .disconnected id ∈ w.events)
    (alive : (s.apply c w).registry.Alive c) : w.loops.Spent := by
  cases resumes with
  | receive receives =>
    have timer (unexpired : l.timer ≠ .expired) : l.endRead.Spent := by
      refine ⟨rfl, trivial, ?_⟩
      cases timer : l.timer with
      | expired => exact absurd timer unexpired
      | pending => exact Or.inr (by simp [Loops.endRead, timer])
      | aborted => exact endRead_timer (Or.inr timer)
      | ended => exact endRead_timer (Or.inl timer)
    cases receives with
    | expires => cases reports
    | fails before read =>
      refine timer fun expired => ?_
      have outlives := (follow_failed tracks.reachable accepted (by rfl)).mp alive
      have freed := last l found peer accepted (of_decide_eq_true before) expired
      rw [read] at freed
      exact freed outlives
    | @refuses packs events own before read processed =>
      refine timer fun expired => ?_
      have named := @processPackets_refused packs peer.deviceId (by rw [processed])
      rw [processed] at named
      have held := (follow_refused accepted after.reachable rfl named rfl).mp alive
      have freed := last l found peer accepted (of_decide_eq_true before) expired
      rw [read] at freed
      exact freed (by rw [processed]) held
    | @reads packs _ _ _ _ processed =>
      have quiet := processPackets_isReport peer.deviceId packs
      rw [processed] at quiet
      cases quiet _ reports
  | check checks =>
    cases checks with
    | ends => cases reports
    | reports expired before inactive =>
      have outlives := (follow_failed tracks.reachable accepted (by rfl)).mp alive
      have harmless := last l found (of_decide_eq_true before) expired inactive outlives
      exact ⟨rfl, endTimer_read harmless, Or.inl rfl⟩
    | waits => cases reports

theorem Settled.apply (settled : s.Settled) (running : s.registry.running = true) (found : s.loops[c]? = some l)
    (accepted : s.registry.peers[c]? = some peer) (resumes : Resumes l peer (s.registry.Alive c) c a w)
    (last : s.LastCall a) : (s.apply c w).Settled := by
  have tracks := settled.toTracks.apply running found accepted resumes
  have synced := settled.synced c l peer found accepted
  obtain ⟨labels, run⟩ := resumes.run synced running accepted
  have alive_of (d : Nat) (known : d < s.registry.peers.length) (alive : (s.apply c w).registry.Alive d) :
      s.registry.Alive d := Registry.alive_of_run run alive known
  refine ⟨tracks, ?_, fun d other reported found' alive => ?_⟩
  · refine List.pairwise_append.mpr ⟨settled.once, ?_, ?_⟩
    · rw [List.pairwise_map]
      exact resumes.pairwise.imp fun quiet => fun _ => quiet
    · rintro ⟨d, e⟩ member x new same report
      obtain ⟨later, member', rfl⟩ := List.mem_map.mp new
      cases same
      cases e with
      | disconnected id =>
        by_cases alive : s.registry.Alive c
        · exact (resumes.spent (settled.spent c l ⟨id, member⟩ found alive)).1 later member'
        · rw [resumes.dead (decide_eq_false alive)] at member'
          cases member'
      | _ => cases report
  · have known : d < s.registry.peers.length := by
      obtain ⟨id, member⟩ := reported
      have inside := tracks.known d _ member
      rwa [PeerLoops.apply, Registry.follow_peers, List.length_set] at inside
    obtain ⟨id, member⟩ := reported
    rw [PeerLoops.apply, List.getElem?_set] at found'
    split at found'
    · rename_i here
      subst here
      obtain ⟨_, same⟩ := Option.ite_none_right_eq_some.mp found'
      cases same
      rcases List.mem_append.mp member with before | new
      · exact (resumes.spent (settled.spent c l ⟨id, before⟩ found (alive_of c known alive))).2
      · obtain ⟨_, reports, same⟩ := List.mem_map.mp new
        cases same
        exact resumes.spent_of_lastCall settled.toTracks tracks found accepted last reports alive
    · rename_i apart
      rcases List.mem_append.mp member with before | new
      · exact settled.spent d other ⟨id, before⟩ found' (alive_of d known alive)
      · obtain ⟨_, _, same⟩ := List.mem_map.mp new
        cases same
        exact absurd rfl apart

theorem Settled.step (settled : s.Settled) (last : s.LastCall a) (taken : s.step a = some t) : t.Settled := by
  obtain ⟨running, moves⟩ := moves_of_step taken
  cases moves with
  | outside outside stepped => exact settled.outer outside stepped
  | queues found queues => exact settled.setLoops found queues
  | resumes found accepted resumes => exact settled.apply running found accepted resumes last

theorem not_reportedOnce {log : List (Nat × Event)} {events : List Event} {id : List UInt8} {e : Event}
    (reported : (c, .disconnected id) ∈ log) (member : e ∈ events) (outward : e.isOutward = true) :
    ¬ReportedOnce (log ++ events.map fun e => (c, e)) := fun once => by
  have quiet := (List.pairwise_append.mp once).2.2 _ reported (c, e) (List.mem_map_of_mem member) rfl rfl
  cases quiet.symm.trans outward

/-- A timer that has expired in time reports the disconnect once more. -/
theorem exists_check (running : s.registry.running = true) (found : s.loops[c]? = some l)
    (accepted : s.registry.peers[c]? = some peer) (reported : s.Reported c) (alive : s.registry.Alive c)
    (expired : l.timer = .expired) : ∃ b t, s.step b = some t ∧ ¬ReportedOnce t.log := by
  obtain ⟨id, member⟩ := reported
  have resumed : l.resumeCheck peer (decide (s.registry.Alive c)) true =
      some ⟨l.endTimer, { peer with checking := false }, [.disconnected peer.deviceId]⟩ := by
    simp [Loops.resumeCheck, expired, alive]
  refine ⟨.resumeCheck c true,
    s.apply c ⟨l.endTimer, { peer with checking := false }, [.disconnected peer.deviceId]⟩, ?_, ?_⟩
  · rw [step, if_pos running]
    simp only [found, accepted, resumed, Option.bind_some, Option.map_some]
  · exact not_reportedOnce member List.mem_cons_self rfl

theorem resumeReceive_outward (peer : Peer) (finished : l.read ≠ .pending) (harmful : ¬l.read.Harmless) :
    ∃ w, l.resumeReceive peer true = some w ∧ ∃ e ∈ w.events, e.isOutward = true := by
  unfold Loops.resumeReceive
  cases read : l.read with
  | pending => exact absurd read finished
  | ended => exact absurd (by rw [read]; trivial) harmful
  | failed => exact ⟨_, rfl, _, List.mem_cons_self, rfl⟩
  | arrived packs =>
    rw [read] at harmful
    have named : ∃ pack ∈ packs, pack.deviceId ≠ [] := by
      by_contra none
      exact harmful fun pack member => not_not.mp fun named => none ⟨pack, member, named⟩
    refine ⟨_, rfl, ?_⟩
    rcases processPackets_named peer.deviceId named with ⟨e, member, outward⟩ | refused
    · exact ⟨e, List.mem_append_left _ member, outward⟩
    · refine ⟨.disconnected (processPackets peer.deviceId packs).2.1, List.mem_append_right _ ?_, rfl⟩
      rw [refused]
      exact List.mem_cons_self

/-- A read that has failed, or has brought a packet in time, is noticed behind
the report. -/
theorem exists_receive (running : s.registry.running = true) (found : s.loops[c]? = some l)
    (accepted : s.registry.peers[c]? = some peer) (reported : s.Reported c) (alive : s.registry.Alive c)
    (finished : l.read ≠ .pending) (harmful : ¬l.read.Harmless) :
    ∃ b t, s.step b = some t ∧ ¬ReportedOnce t.log := by
  obtain ⟨id, member⟩ := reported
  obtain ⟨w, resumed, e, new, outward⟩ := resumeReceive_outward peer finished harmful
  refine ⟨.resumeReceive c, s.apply c w, ?_, not_reportedOnce member new outward⟩
  rw [step, if_pos running]
  simp only [found, accepted, decide_eq_true alive, resumed, Option.bind_some, Option.map_some]

/-- A report that is not a last call may be followed by another one or by a
delivery. -/
theorem Settled.exists_second (settled : s.Settled) (taken : s.step a = some t) (more : ¬s.LastCall a) :
    ∃ b u, t.step b = some u ∧ ¬ReportedOnce u.log := by
  have tracks := settled.toTracks.step taken
  obtain ⟨running, moves⟩ := moves_of_step taken
  cases moves with
  | outside => exact absurd trivial more
  | queues _ queues => cases queues <;> exact absurd trivial more
  | @resumes _ c l peer w found accepted resumes =>
    have inside := (List.getElem?_eq_some_iff.mp accepted).1
    have still : (s.apply c w).registry.running = true := (Registry.follow_running ..).trans running
    have accepted' : (s.apply c w).registry.peers[c]? = some w.peer := by
      rw [PeerLoops.apply, Registry.follow_peers, List.getElem?_set_self inside]
    have found' : (s.apply c w).loops[c]? = some w.loops := by
      rw [PeerLoops.apply, List.getElem?_set_self (settled.length ▸ inside)]
    have reported {id : List UInt8} (reports : .disconnected id ∈ w.events) : (s.apply c w).Reported c :=
      ⟨id, List.mem_append_right _ (List.mem_map_of_mem reports)⟩
    cases resumes with
    | receive receives =>
      simp only [LastCall, not_forall] at more
      obtain ⟨l', same, peer', same', alive, expired, kept⟩ := more
      cases found.symm.trans same
      cases accepted.symm.trans same'
      have timer : l.endRead.timer = .expired := by simp [Loops.endRead, expired]
      cases receives with
      | expires dead => exact absurd alive (of_decide_eq_false dead)
      | fails _ read =>
        refine exists_check still found' accepted' (reported List.mem_cons_self) ?_ timer
        rw [read] at kept
        exact (follow_failed settled.toTracks.reachable accepted (by rfl)).mpr (not_not.mp kept)
      | @refuses packs events id _ read processed =>
        have named := @processPackets_refused packs peer.deviceId (by rw [processed])
        rw [processed] at named
        refine exists_check still found' accepted' (reported (List.mem_append_right _ List.mem_cons_self)) ?_ timer
        rw [read] at kept
        refine (follow_refused accepted tracks.reachable rfl named rfl).mpr ?_
        by_contra freed
        exact kept fun _ => freed
      | @reads packs events id _ read processed =>
        rw [read] at kept
        refine absurd (fun refused => ?_) kept
        rw [processed] at refused
        cases refused
    | @check inactive _ checks =>
      simp only [LastCall, not_forall] at more
      obtain ⟨l', same, alive, expired, rfl, outlives, harmful⟩ := more
      cases found.symm.trans same
      cases checks with
      | ends reason =>
        rcases reason with aborted | ⟨_, dead | ⟨active, _⟩⟩
        · cases expired.symm.trans aborted
        · exact absurd alive (of_decide_eq_false dead)
        · cases active
      | reports =>
        refine exists_receive still found' accepted' (reported List.mem_cons_self) ?_ ?_ ?_
        · exact (follow_failed settled.toTracks.reachable accepted (by rfl)).mpr outlives
        · exact endTimer_finished
        · exact fun harmless => harmful (read_of_endTimer harmless)
      | waits _ _ active => cases active

/-- A disconnect is reported once, and nothing is delivered behind it, in every
run whose reports are all last calls; behind a report that is not, a second one
or a delivery may follow at once. -/
theorem reportedOnce_of_lastCalls {labels : List Action} (run : Run step LastCall start labels s) :
    ReportedOnce s.log ∧
      ∀ a t, s.step a = some t → ¬s.LastCall a → ∃ b u, t.step b = some u ∧ ¬ReportedOnce u.log := by
  have settled : s.Settled := run.invariant start_settled fun _ _ _ settled last taken => settled.step last taken
  exact ⟨settled.once, fun _ _ taken more => settled.exists_second taken more⟩

/-- A device that announces itself and breaks off while the timer expires. -/
def brokenOff : List Action := [.server .incoming, .server .accept, .arrives 0 [ping], .resumeReceive 0, .breaks 0,
  .expires 0, .resumeReceive 0, .resumeCheck 0 true]

theorem reportedOnce_of_lastCalls_brokenOff :
    ∃ s, exec step LastCall start brokenOff = some s ∧ s.Reported 0 ∧ ReportedOnce s.log := by
  have trace : ((exec step LastCall start brokenOff).map fun s => decide ((0, .disconnected [0x61]) ∈ s.log)) =
      some true := by decide +kernel
  obtain ⟨s, done, member⟩ := Option.map_eq_some_iff.mp trace
  exact ⟨s, done, ⟨_, of_decide_eq_true member⟩, (reportedOnce_of_lastCalls (exec_run done)).1⟩

/-- A connection that never sends is reported by `check`, stays in the list and
is reported by its cancelled read again. -/
theorem silent_reported_twice :
    ¬∀ labels s, Run step free start labels s → ReportedOnce s.log := by
  intro claim
  have trace : ((exec step free start [.server .incoming, .server .accept, .expires 0, .resumeCheck 0 true,
      .resumeReceive 0]).map PeerLoops.log) = some [(0, .disconnected []), (0, .disconnected [])] := by
    decide +kernel
  obtain ⟨s, done, log⟩ := Option.map_eq_some_iff.mp trace
  have once := claim _ s (exec_run done)
  rw [log] at once
  exact absurd once (by decide)

end PeerLoops
end Asyncmsg
