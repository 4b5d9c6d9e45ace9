import Mathlib.Data.List.Chain
import Asyncmsg.Heartbeat

namespace Asyncmsg
open Transition

/-- Times in a row of which none is more than `gap` behind the one before. -/
def Spaced (gap first : Nat) (times : List Nat) : Prop := (first :: times).IsChain fun one next => next ≤ one + gap

namespace Spaced
variable {gap first next : Nat} {times : List Nat}

theorem nil : Spaced gap first [] := List.isChain_singleton first

theorem cons_iff : Spaced gap first (next :: times) ↔ next ≤ first + gap ∧ Spaced gap next times :=
  List.isChain_cons_cons

/-- One more time behind the last. -/
theorem snoc (spaced : Spaced gap first times) (soon : next ≤ times.getLastD first + gap) :
    Spaced gap first (times ++ [next]) := by
  induction times generalizing first with
  | nil => exact cons_iff.mpr ⟨soon, nil⟩
  | cons second times ih =>
    obtain ⟨step, rest⟩ := cons_iff.mp spaced
    rw [List.getLastD_cons] at soon
    exact cons_iff.mpr ⟨step, ih rest soon⟩

end Spaced

/-- Where the coroutine `heartbeat` of a connected client stands: the timer
expires at some time, or it has been writing since one. -/
inductive HeartbeatTurn
  | waiting (expiry : Nat)
  | writing (since : Nat)

/-- A client with its device id and a server that are connected. On their way are
the frames of the heartbeats and of the answers, each with the time at which it
has been sent. -/
structure Keepalive where
  clock : Nat
  deviceId : List UInt8
  client : Endpoint
  server : Endpoint
  heartbeat : HeartbeatTurn
  up : List (Nat × List UInt8)
  down : List (Nat × List UInt8)

namespace Keepalive

/-- `clientHears` and `serverHears` are packets of other traffic. -/
inductive Action
  | tick (n : Nat)
  | heartbeat
  | written
  | toServer
  | toClient
  | clientCheck
  | serverCheck
  | clientHears (pack : Packet)
  | serverHears (pack : Packet)

/-- `tcp_server::on_receive_request` answers a heartbeat on the connection that
it has come in on. -/
def answer (s : Keepalive) : Event → Option Keepalive
  | .request _ pack =>
    if pack.cmd = heartbeatCmd then
      let (rsp, seqGenerator) := heartbeatResponse s.server.seqGenerator pack
      (encodePacket rsp).map fun bs =>
        { s with server := { s.server with seqGenerator := seqGenerator }, down := s.down ++ [(s.clock, bs)] }
    else some s
  | _ => some s

def serve (s : Keepalive) (heard : Endpoint × List Event) : Option Keepalive :=
  heard.2.foldlM answer { s with server := heard.1 }

def step (s : Keepalive) : Action → Option Keepalive
  | .tick n => some { s with clock := s.clock + n }
  | .heartbeat =>
    match s.heartbeat with
    | .waiting expiry =>
      if expiry ≤ s.clock then
        let (pack, seqGenerator) := buildReqPacket s.client.seqGenerator heartbeatCmd .empty s.deviceId
        (encodePacket pack).map fun bs =>
          { s with
            client := { s.client with seqGenerator := seqGenerator }
            heartbeat := .writing s.clock
            up := s.up ++ [(s.clock, bs)] }
      else none
    | .writing _ => none
  | .written =>
    match s.heartbeat with
    | .waiting _ => none
    | .writing _ =>
      some { s with heartbeat := .waiting (s.clock + activeConnectionHeartbeatIntervalSeconds * second) }
  | .toServer =>
    match s.up with
    | [] => none
    | (_, bs) :: up => ((s.server.read s.clock bs).bind s.serve).map fun t => { t with up := up }
  | .toClient =>
    match s.down with
    | [] => none
    | (_, bs) :: down => (s.client.read s.clock bs).map fun heard => { s with client := heard.1, down := down }
  | .clientCheck => (s.client.check s.clock).map fun client => { s with client := client }
  | .serverCheck => (s.server.check s.clock).map fun server => { s with server := server }
  | .clientHears pack => if s.client.live then some { s with client := (s.client.hear s.clock pack).1 } else none
  | .serverHears pack => if s.server.live then s.serve (s.server.hear s.clock pack) else none

variable (late write transit : Nat)

/-- Nothing takes longer than it may: the wait for a timer behind its expiry, a
write, and the way of a frame. -/
structure InTime (s : Keepalive) (clock : Nat) : Prop where
  waiting : ∀ expiry, s.heartbeat = .waiting expiry → clock ≤ expiry + late
  writing : ∀ since, s.heartbeat = .writing since → clock ≤ since + write
  up : ∀ frame ∈ s.up, clock ≤ frame.1 + transit
  down : ∀ frame ∈ s.down, clock ≤ frame.1 + transit

instance (s : Keepalive) (clock : Nat) : Decidable (s.InTime late write transit clock) :=
  match phase : s.heartbeat with
  | .waiting expiry => decidable_of_iff
      (clock ≤ expiry + late ∧ (∀ frame ∈ s.up, clock ≤ frame.1 + transit) ∧
        ∀ frame ∈ s.down, clock ≤ frame.1 + transit) <| by
    refine ⟨fun ⟨waits, up, down⟩ => ⟨fun _ same => ?_, fun _ same => ?_, up, down⟩,
      fun inTime => ⟨inTime.waiting expiry phase, inTime.up, inTime.down⟩⟩
    · cases phase.symm.trans same
      exact waits
    · cases phase.symm.trans same
  | .writing since => decidable_of_iff
      (clock ≤ since + write ∧ (∀ frame ∈ s.up, clock ≤ frame.1 + transit) ∧
        ∀ frame ∈ s.down, clock ≤ frame.1 + transit) <| by
    refine ⟨fun ⟨writes, up, down⟩ => ⟨fun _ same => ?_, fun _ same => ?_, up, down⟩,
      fun inTime => ⟨inTime.writing since phase, inTime.up, inTime.down⟩⟩
    · cases phase.symm.trans same
    · cases phase.symm.trans same
      exact writes

/-- The packet of other traffic is of the device, or has no device id. -/
def Timely (s : Keepalive) : Action → Prop
  | .tick n => s.InTime late write transit (s.clock + n)
  | .clientHears pack | .serverHears pack => pack.deviceId = [] ∨ pack.deviceId = s.deviceId
  | _ => True

instance (s : Keepalive) (a : Action) : Decidable (s.Timely late write transit a) :=
  match a with
  | .tick n => inferInstanceAs (Decidable (s.InTime late write transit (s.clock + n)))
  | .clientHears pack | .serverHears pack =>
    inferInstanceAs (Decidable (pack.deviceId = [] ∨ pack.deviceId = s.deviceId))
  | .heartbeat | .written | .toServer | .toClient | .clientCheck | .serverCheck => inferInstanceAs (Decidable True)

variable {s t : Keepalive} {now : Nat}

/-- Nothing but a request is answered. -/
theorem foldlM_answer_quiet {events : List Event} (quiet : ∀ event ∈ events, event.handed = none) (more : List Event) :
    (events ++ more).foldlM answer s = more.foldlM answer s := by
  induction events with
  | nil => rfl
  | cons event events ih =>
    have first : s.answer event = some s := by
      have none := quiet event List.mem_cons_self
      cases event <;> first | rfl | cases none
    rw [List.cons_append, List.foldlM_cons, first]
    exact ih fun event member => quiet event (List.mem_cons_of_mem _ member)

theorem serve_delivery {events : List Event} (quiet : ∀ event ∈ events, event.handed = none) (server : Endpoint)
    (pack : Packet) :
    s.serve (server, events ++ [pack.delivery]) = ({ s with server := server } : Keepalive).answer pack.delivery := by
  rw [serve, foldlM_answer_quiet quiet, List.foldlM_cons]
  exact bind_pure _

/-- A packet of the device that the server has read is answered if it is a
heartbeat, and otherwise not. -/
theorem answer_delivery (device : Device s.deviceId) {pack : Packet} (own : pack.deviceId = s.deviceId) :
    ¬(pack.rsp = false ∧ pack.cmd = heartbeatCmd) ∧ s.answer pack.delivery = some s ∨
      ∃ seqGenerator bs, IsBeat s.deviceId true bs ∧ s.answer pack.delivery =
        some { s with
          server := { s.server with seqGenerator := seqGenerator }
          down := s.down ++ [(s.clock, bs)] } := by
  by_cases request : pack.rsp = false ∧ pack.cmd = heartbeatCmd
  · obtain ⟨asks, heartbeat⟩ := request
    obtain ⟨seq, fresh, same⟩ := heartbeatResponse_beat s.server.seqGenerator heartbeat
    rw [own] at same
    obtain ⟨bs, encoded, frame⟩ := device.encodes true fresh
    exact .inr ⟨_, bs, frame, by simp [Packet.delivery, asks, answer, heartbeat, same, encoded]; rfl⟩
  · refine .inl ⟨request, ?_⟩
    cases rsp : pack.rsp with
    | true => simp [Packet.delivery, rsp, answer]
    | false =>
      have other : pack.cmd ≠ heartbeatCmd := fun same => request ⟨rsp, same⟩
      simp [Packet.delivery, rsp, answer, other]

/-- The longest time between two heartbeats. -/
def gap : Nat := activeConnectionHeartbeatIntervalSeconds * second + late + write

/-- The connection is one of the device, both its coroutines run, and the check
has found it alive. -/
structure Kept (p : Endpoint) (deviceId : List UInt8) : Prop where
  live : p.live = true
  own : p.Of deviceId
  going : p.watch.Going

/-- The two sides have been constructed no longer ago than a write may take, and
the heartbeat timer is running. -/
structure Connected (s : Keepalive) : Prop where
  client : s.client.watch.lastRecvTime ≤ s.clock ∧ s.clock ≤ s.client.watch.lastRecvTime + write
  server : s.server.watch.lastRecvTime ≤ s.clock ∧ s.clock ≤ s.server.watch.lastRecvTime + write
  kept : Kept s.client s.deviceId ∧ Kept s.server s.deviceId
  heartbeat : ∃ expiry, s.heartbeat = .waiting expiry ∧ s.clock ≤ expiry + late ∧
    expiry ≤ s.clock + activeConnectionHeartbeatIntervalSeconds * second
  empty : s.up = [] ∧ s.down = []

/-- The heartbeats are sent in time after `sent`, the last one that has arrived,
and answered in time after `answered`, the last answer that has arrived. -/
structure Beats (s : Keepalive) (sent answered : Nat) : Prop where
  inTime : s.InTime late write transit s.clock
  past : (∀ frame ∈ s.up, frame.1 ≤ s.clock) ∧ ∀ frame ∈ s.down, frame.1 ≤ s.clock
  frames : (∀ frame ∈ s.up, IsBeat s.deviceId false frame.2) ∧ ∀ frame ∈ s.down, IsBeat s.deviceId true frame.2
  sends : Spaced (gap late write) sent (s.up.map Prod.fst)
  answers : Spaced (gap late write + transit) answered (s.down.map Prod.fst)
  client : answered ≤ s.client.watch.lastRecvTime
  heard : sent ≤ (s.down.map Prod.fst).getLastD answered
  server : (s.down.map Prod.fst).getLastD answered ≤ s.server.watch.lastRecvTime
  clocks : s.client.watch.lastRecvTime ≤ s.clock ∧ s.server.watch.lastRecvTime ≤ s.clock
  waiting : ∀ expiry, s.heartbeat = .waiting expiry →
    expiry + late ≤ (s.up.map Prod.fst).getLastD sent + gap late write
  writing : ∀ since, s.heartbeat = .writing since → since = (s.up.map Prod.fst).getLastD sent
  device : Device s.deviceId
  kept : Kept s.client s.deviceId ∧ Kept s.server s.deviceId

variable {late write transit} {a : Action} {sent answered : Nat}

/-- The next heartbeat is on its way to the server. -/
theorem Beats.server_bound (beats : s.Beats late write transit sent answered) :
    s.clock ≤ sent + gap late write + transit := by
  have sends := beats.sends
  have inTime := beats.inTime
  cases up : s.up with
  | cons first rest =>
    rw [up] at sends
    have soon := (Spaced.cons_iff.mp sends).1
    have arrives := inTime.up first (by rw [up]; exact List.mem_cons_self)
    omega
  | nil =>
    cases phase : s.heartbeat with
    | waiting expiry =>
      have wakes := inTime.waiting expiry phase
      have soon := beats.waiting expiry phase
      rw [up, List.map_nil, List.getLastD_nil] at soon
      omega
    | writing since =>
      have written := inTime.writing since phase
      have same := beats.writing since phase
      rw [up, List.map_nil, List.getLastD_nil] at same
      simp only [gap]
      omega

/-- The next answer is on its way to the client. -/
theorem Beats.client_bound (beats : s.Beats late write transit sent answered) :
    s.clock ≤ answered + gap late write + 2 * transit := by
  have answers := beats.answers
  have inTime := beats.inTime
  cases down : s.down with
  | cons first rest =>
    rw [down] at answers
    have soon := (Spaced.cons_iff.mp answers).1
    have arrives := inTime.down first (by rw [down]; exact List.mem_cons_self)
    omega
  | nil =>
    have bound := beats.server_bound
    have heard := beats.heard
    rw [down, List.map_nil, List.getLastD_nil] at heard
    omega

/-- A check that comes in time finds the connection alive. -/
theorem Kept.check {p next : Endpoint} {deviceId : List UInt8} (kept : Kept p deviceId)
    (alive : now < p.watch.lastRecvTime + 61 * second) (checked : p.check now = some next) :
    next.watch.lastRecvTime = p.watch.lastRecvTime ∧ Kept next deviceId := by
  rw [Endpoint.check, if_pos kept.live] at checked
  obtain ⟨watch, found, rfl⟩ := Option.map_eq_some_iff.mp checked
  obtain ⟨expiry, _, _, ⟨beyond, _⟩ | ⟨_, rfl⟩⟩ := Watch.check_eq_some.mp found
  · omega
  · exact ⟨rfl, rfl, kept.own, Option.some_ne_none _, kept.going.2⟩

/-- A packet that is passed over changes nothing, and any other of the device
sets `last_recv_time`. -/
theorem Kept.hear {p : Endpoint} {deviceId : List UInt8} (kept : Kept p deviceId) (device : Device deviceId)
    {pack : Packet} (named : pack.deviceId = [] ∨ pack.deviceId = deviceId) :
    Kept (p.hear now pack).1 deviceId ∧
      ((p.hear now pack).1.watch = p.watch ∨ (p.hear now pack).1.watch = p.watch.receive now) := by
  obtain nameless | own := named
  · rw [Endpoint.hear_nameless now nameless]
    exact ⟨⟨rfl, kept.own, kept.going⟩, .inl rfl⟩
  · obtain ⟨events, heard, _⟩ := Endpoint.hear_named now kept.own (own ▸ device.named) own
    rw [heard]
    exact ⟨⟨rfl, .inr rfl, kept.going⟩, .inr rfl⟩

namespace Beats

/-- The server has heard a packet at this moment, or a check has found it alive. -/
theorem served (beats : s.Beats late write transit sent answered) {server : Endpoint} (kept : Kept server s.deviceId)
    (heard : server.watch.lastRecvTime = s.server.watch.lastRecvTime ∨ server.watch.lastRecvTime = s.clock) :
    Beats late write transit { s with server := server } sent answered := by
  have last := beats.server
  have past := beats.clocks.2
  exact { beats with
    inTime := ⟨beats.inTime.waiting, beats.inTime.writing, beats.inTime.up, beats.inTime.down⟩
    server := by dsimp only; omega
    clocks := ⟨beats.clocks.1, by dsimp only; omega⟩
    kept := ⟨beats.kept.1, kept⟩ }

/-- The server has answered at this moment a heartbeat that has been sent no
earlier than the last one that has arrived before. -/
theorem answer (beats : s.Beats late write transit sent answered) (heard : s.server.watch.lastRecvTime = s.clock)
    {bs : List UInt8} (frame : IsBeat s.deviceId true bs) :
    Beats late write transit { s with down := s.down ++ [(s.clock, bs)] } sent answered := by
  have bound := beats.server_bound
  have before := beats.heard
  have past := beats.clocks.2
  have last := beats.server
  have soon : s.clock ≤ (s.down.map Prod.fst).getLastD answered + (gap late write + transit) := by omega
  have behind : ((s.down ++ [(s.clock, bs)]).map Prod.fst).getLastD answered = s.clock := by
    rw [List.map_append]
    exact List.getLastD_concat
  exact { beats with
    inTime := ⟨beats.inTime.waiting, beats.inTime.writing, beats.inTime.up,
      List.forall_mem_append.mpr ⟨beats.inTime.down, List.forall_mem_singleton.mpr (Nat.le_add_right _ _)⟩⟩
    past := ⟨beats.past.1, List.forall_mem_append.mpr ⟨beats.past.2, List.forall_mem_singleton.mpr (Nat.le_refl _)⟩⟩
    frames := ⟨beats.frames.1, List.forall_mem_append.mpr ⟨beats.frames.2, List.forall_mem_singleton.mpr frame⟩⟩
    answers := by rw [List.map_append]; exact beats.answers.snoc soon
    heard := by dsimp only; omega
    server := by dsimp only; omega }

/-- A heartbeat has arrived, and the answer to it is on its way. -/
theorem arrived (beats : s.Beats late write transit sent answered) {first : Nat × List UInt8}
    {rest : List (Nat × List UInt8)} (up : s.up = first :: rest)
    (heard : first.1 ≤ (s.down.map Prod.fst).getLastD answered) :
    Beats late write transit { s with up := rest } first.1 answered := by
  have kept : ∀ frame ∈ rest, frame ∈ s.up := fun frame member => by
    rw [up]
    exact List.mem_cons_of_mem _ member
  have last : (s.up.map Prod.fst).getLastD sent = (rest.map Prod.fst).getLastD first.1 := by
    rw [up, List.map_cons, List.getLastD_cons]
  have sends := beats.sends
  rw [up, List.map_cons] at sends
  exact { beats with
    inTime := ⟨beats.inTime.waiting, beats.inTime.writing, fun frame member => beats.inTime.up frame (kept frame member),
      beats.inTime.down⟩
    past := ⟨fun frame member => beats.past.1 frame (kept frame member), beats.past.2⟩
    frames := ⟨fun frame member => beats.frames.1 frame (kept frame member), beats.frames.2⟩
    sends := (Spaced.cons_iff.mp sends).2
    heard := heard
    waiting := fun expiry phase => (beats.waiting expiry phase).trans_eq (by rw [last])
    writing := fun since phase => (beats.writing since phase).trans last }

/-- A heartbeat is on its way. -/
theorem sends_beat (beats : s.Beats late write transit sent answered)
    (soon : s.clock ≤ (s.up.map Prod.fst).getLastD sent + gap late write) (seqGenerator : UInt32) {bs : List UInt8}
    (frame : IsBeat s.deviceId false bs) :
    Beats late write transit
      { s with
        client := { s.client with seqGenerator := seqGenerator }
        heartbeat := .writing s.clock
        up := s.up ++ [(s.clock, bs)] } sent answered := by
  refine { beats with
    inTime := ⟨nofun, fun since same => ?_,
      List.forall_mem_append.mpr ⟨beats.inTime.up, List.forall_mem_singleton.mpr (Nat.le_add_right _ _)⟩,
      beats.inTime.down⟩
    past := ⟨List.forall_mem_append.mpr ⟨beats.past.1, List.forall_mem_singleton.mpr (Nat.le_refl _)⟩, beats.past.2⟩
    frames := ⟨List.forall_mem_append.mpr ⟨beats.frames.1, List.forall_mem_singleton.mpr frame⟩, beats.frames.2⟩
    sends := by rw [List.map_append]; exact beats.sends.snoc soon
    waiting := nofun
    writing := fun since same => ?_
    kept := ⟨⟨beats.kept.1.live, beats.kept.1.own, beats.kept.1.going⟩, beats.kept.2⟩ }
  · cases same
    exact Nat.le_add_right _ _
  · cases same
    rw [List.map_append]
    exact List.getLastD_concat.symm

/-- The client has heard a packet at this moment, or a check has found it alive. -/
theorem heard_client (beats : s.Beats late write transit sent answered) {client : Endpoint}
    (kept : Kept client s.deviceId)
    (heard : client.watch.lastRecvTime = s.client.watch.lastRecvTime ∨ client.watch.lastRecvTime = s.clock) :
    Beats late write transit { s with client := client } sent answered := by
  have last := beats.client
  have past := beats.clocks.1
  exact { beats with
    inTime := ⟨beats.inTime.waiting, beats.inTime.writing, beats.inTime.up, beats.inTime.down⟩
    client := by dsimp only; omega
    clocks := ⟨by dsimp only; omega, beats.clocks.2⟩
    kept := ⟨kept, beats.kept.2⟩ }

/-- An answer has arrived that the client has heard at this moment. -/
theorem heard_answer (beats : s.Beats late write transit sent answered) {first : Nat × List UInt8}
    {rest : List (Nat × List UInt8)} (down : s.down = first :: rest)
    (heard : s.client.watch.lastRecvTime = s.clock) :
    Beats late write transit { s with down := rest } sent first.1 := by
  have kept : ∀ frame ∈ rest, frame ∈ s.down := fun frame member => by
    rw [down]
    exact List.mem_cons_of_mem _ member
  have last : (s.down.map Prod.fst).getLastD answered = (rest.map Prod.fst).getLastD first.1 := by
    rw [down, List.map_cons, List.getLastD_cons]
  have answers := beats.answers
  rw [down, List.map_cons] at answers
  have past := beats.past.2 first (by rw [down]; exact List.mem_cons_self)
  exact { beats with
    inTime := ⟨beats.inTime.waiting, beats.inTime.writing, beats.inTime.up,
      fun frame member => beats.inTime.down frame (kept frame member)⟩
    past := ⟨beats.past.1, fun frame member => beats.past.2 frame (kept frame member)⟩
    frames := ⟨beats.frames.1, fun frame member => beats.frames.2 frame (kept frame member)⟩
    answers := (Spaced.cons_iff.mp answers).2
    client := past.trans_eq heard.symm
    heard := beats.heard.trans_eq last
    server := last.symm.trans_le beats.server }

/-- The server has read a packet of the device that is no heartbeat, or one that
it has answered. -/
theorem serve (beats : s.Beats late write transit sent answered) {pack : Packet} (own : pack.deviceId = s.deviceId)
    {events : List Event} (quiet : ∀ event ∈ events, event.handed = none) {seqGenerator : UInt32}
    (taken : s.serve (⟨seqGenerator, s.deviceId, true, s.server.watch.receive s.clock⟩,
      events ++ [pack.delivery]) = some t) :
    t.Beats late write transit sent answered ∧ t.clock = s.clock ∧ t.up = s.up ∧
      (pack.rsp = false → pack.cmd = heartbeatCmd → (t.down.map Prod.fst).getLastD answered = s.clock) := by
  rw [serve_delivery quiet] at taken
  have kept : Kept ⟨seqGenerator, s.deviceId, true, s.server.watch.receive s.clock⟩ s.deviceId :=
    ⟨rfl, .inr rfl, beats.kept.2.going⟩
  have served := beats.served kept (.inr rfl)
  obtain ⟨silent, same⟩ | ⟨seqGenerator', bs, frame, same⟩ := answer_delivery served.device own
  · cases same.symm.trans taken
    exact ⟨served, rfl, rfl, fun asks heartbeat => absurd ⟨asks, heartbeat⟩ silent⟩
  · cases same.symm.trans taken
    have kept' : Kept ⟨seqGenerator', s.deviceId, true, s.server.watch.receive s.clock⟩ s.deviceId :=
      ⟨rfl, .inr rfl, beats.kept.2.going⟩
    refine ⟨(beats.served kept' (.inr rfl)).answer rfl frame, rfl, rfl, fun _ _ => ?_⟩
    rw [List.map_append]
    exact List.getLastD_concat

end Beats

theorem Beats.step (beats : s.Beats late write transit sent answered)
    (enough : gap late write + 2 * transit < 61 * second) (timely : s.Timely late write transit a)
    (taken : s.step a = some t) : ∃ sent answered, t.Beats late write transit sent answered := by
  have toServer := beats.server_bound
  have toClient := beats.client_bound
  cases a with
  | tick n =>
    cases taken
    have inTime : s.InTime late write transit (s.clock + n) := timely
    have later : s.clock ≤ s.clock + n := Nat.le_add_right s.clock n
    exact ⟨sent, answered, { beats with
      inTime := ⟨inTime.waiting, inTime.writing, inTime.up, inTime.down⟩
      past := ⟨fun frame member => (beats.past.1 frame member).trans later,
        fun frame member => (beats.past.2 frame member).trans later⟩
      clocks := ⟨beats.clocks.1.trans later, beats.clocks.2.trans later⟩ }⟩
  | heartbeat =>
    simp only [Keepalive.step, buildReqPacket_beat] at taken
    split at taken
    · rename_i expiry phase
      obtain ⟨expired, built⟩ := Option.ite_none_right_eq_some.mp taken
      obtain ⟨bs, encoded, rfl⟩ := Option.map_eq_some_iff.mp built
      have soon := beats.waiting expiry phase
      have wakes := beats.inTime.waiting expiry phase
      exact ⟨sent, answered, beats.sends_beat (wakes.trans soon) _ ⟨_, nextSeq_ne_zero _, encoded⟩⟩
    · cases taken
  | written =>
    simp only [Keepalive.step] at taken
    split at taken
    · cases taken
    · rename_i since phase
      cases taken
      have same := beats.writing since phase
      have written := beats.inTime.writing since phase
      refine ⟨sent, answered, { beats with
        inTime := ⟨fun expiry waits => ?_, nofun, beats.inTime.up, beats.inTime.down⟩
        waiting := fun expiry waits => ?_
        writing := nofun }⟩
      · cases waits
        dsimp only
        omega
      · cases waits
        simp only [gap] at *
        omega
  | toServer =>
    simp only [Keepalive.step] at taken
    split at taken
    · cases taken
    · rename_i first bs rest up
      obtain ⟨u, served, rfl⟩ := Option.map_eq_some_iff.mp taken
      have member : (first, bs) ∈ s.up := by
        rw [up]
        exact List.mem_cons_self
      obtain ⟨seq, events, read, quiet⟩ := beats.device.read_beat (beats.frames.1 _ member) beats.kept.2.live
        beats.kept.2.own s.clock
      rw [read, Option.bind_some] at served
      obtain ⟨kept, clock, same, behind⟩ := beats.serve rfl quiet served
      exact ⟨first, answered, kept.arrived (same.trans up) ((beats.past.1 _ member).trans_eq (behind rfl rfl).symm)⟩
  | toClient =>
    simp only [Keepalive.step] at taken
    split at taken
    · cases taken
    · rename_i first bs rest down
      obtain ⟨heard, read, rfl⟩ := Option.map_eq_some_iff.mp taken
      have member : (first, bs) ∈ s.down := by
        rw [down]
        exact List.mem_cons_self
      obtain ⟨seq, events, read', quiet⟩ := beats.device.read_beat (beats.frames.2 _ member) beats.kept.1.live
        beats.kept.1.own s.clock
      cases read'.symm.trans read
      have kept : Kept ⟨s.client.seqGenerator, s.deviceId, true, s.client.watch.receive s.clock⟩ s.deviceId :=
        ⟨rfl, .inr rfl, beats.kept.1.going⟩
      exact ⟨sent, first, (beats.heard_client kept (.inr rfl)).heard_answer down rfl⟩
  | clientCheck =>
    obtain ⟨next, checked, rfl⟩ := Option.map_eq_some_iff.mp taken
    have alive := beats.client
    obtain ⟨same, kept⟩ := beats.kept.1.check (by omega) checked
    exact ⟨sent, answered, beats.heard_client kept (.inl same)⟩
  | serverCheck =>
    obtain ⟨next, checked, rfl⟩ := Option.map_eq_some_iff.mp taken
    have alive := beats.heard.trans beats.server
    obtain ⟨same, kept⟩ := beats.kept.2.check (by omega) checked
    exact ⟨sent, answered, beats.served kept (.inl same)⟩
  | clientHears pack =>
    obtain ⟨live, same⟩ := Option.ite_none_right_eq_some.mp taken
    cases same
    obtain ⟨kept, same | same⟩ := beats.kept.1.hear beats.device timely
    · exact ⟨sent, answered, beats.heard_client kept (.inl (by rw [same]))⟩
    · exact ⟨sent, answered, beats.heard_client kept (.inr (by rw [same]; rfl))⟩
  | serverHears pack =>
    obtain ⟨live, served⟩ := Option.ite_none_right_eq_some.mp taken
    obtain nameless | own := timely
    · rw [Endpoint.hear_nameless s.clock nameless] at served
      cases served
      exact ⟨sent, answered, beats.served ⟨rfl, beats.kept.2.own, beats.kept.2.going⟩ (.inl rfl)⟩
    · obtain ⟨events, heard, quiet⟩ := Endpoint.hear_named s.clock beats.kept.2.own (own ▸ beats.device.named) own
      rw [heard] at served
      exact ⟨sent, answered, (beats.serve own quiet served).1⟩

theorem Connected.beats (connected : s.Connected late write) (device : Device s.deviceId) :
    ∃ sent answered, s.Beats late write transit sent answered := by
  obtain ⟨⟨pastClient, client⟩, ⟨pastServer, server⟩, kept, ⟨expiry, phase, wakes, soon⟩, up, down⟩ := connected
  -- the older of the two packets stands for a heartbeat and its answer
  have older := Nat.min_le_left s.client.watch.lastRecvTime s.server.watch.lastRecvTime
  have older' := Nat.min_le_right s.client.watch.lastRecvTime s.server.watch.lastRecvTime
  have recent : s.clock ≤ min s.client.watch.lastRecvTime s.server.watch.lastRecvTime + write := by omega
  generalize min s.client.watch.lastRecvTime s.server.watch.lastRecvTime = first at older older' recent
  refine ⟨first, first, ⟨fun _ same => ?_, fun _ same => ?_, by rw [up]; nofun, by rw [down]; nofun⟩,
    ⟨by rw [up]; nofun, by rw [down]; nofun⟩, ⟨by rw [up]; nofun, by rw [down]; nofun⟩, by rw [up]; exact Spaced.nil,
    by rw [down]; exact Spaced.nil, older, by rw [down]; exact Nat.le_refl first, by rw [down]; exact older',
    ⟨pastClient, pastServer⟩, fun _ same => ?_, fun _ same => ?_, device, kept⟩
  · rw [phase] at same
    cases same
    exact wakes
  · rw [phase] at same
    cases same
  · rw [phase] at same
    cases same
    rw [up, List.map_nil, List.getLastD_nil, gap]
    omega
  · rw [phase] at same
    cases same

/-- Eighty seconds with nothing but heartbeats. -/
def idle : List Action :=
  (List.replicate 4 ([.heartbeat, .written, .toServer, .toClient] ++
    (List.replicate 20 [.tick second, .clientCheck, .serverCheck]).flatten)).flatten

end Keepalive
end Asyncmsg
