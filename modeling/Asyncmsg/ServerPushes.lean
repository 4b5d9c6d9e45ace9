import Asyncmsg.ClientWindow

namespace Asyncmsg
open Transition

/-- The numbers that a process draws from its generator one after the other. -/
def drawnSeq : Nat → UInt32
  | 0 => 0
  | n + 1 => nextSeq (drawnSeq n)

theorem drawnSeq_eq (n : Nat) : drawnSeq n = nextSeq^[n] 0 := by
  induction n with
  | zero => rfl
  | succ n ih => rw [drawnSeq, ih, Function.iterate_succ_apply']

theorem toNat_drawnSeq (n : Nat) : (drawnSeq (n + 1)).toNat = n % 4294967295 + 1 := by
  rw [drawnSeq_eq, toNat_iterate_nextSeq, UInt32.toNat_zero, Nat.zero_add]

/-- Numbers drawn close enough differ in their low 31 bits, also where they go round. -/
theorem drawnSeq_inj_of_near {m n : Nat} (drawn : 0 < m) (drawn' : 0 < n) (below : m < n + (2 ^ 31 - 1))
    (above : n < m + (2 ^ 31 - 1)) (same : (drawnSeq m).toNat % 2 ^ 31 = (drawnSeq n).toNat % 2 ^ 31) : m = n := by
  obtain ⟨m, rfl⟩ := Nat.exists_eq_add_one_of_ne_zero drawn.ne'
  obtain ⟨n, rfl⟩ := Nat.exists_eq_add_one_of_ne_zero drawn'.ne'
  rw [toNat_drawnSeq, toNat_drawnSeq] at same
  -- The generator has gone round at most once between the two draws.
  have turns : n / 4294967295 = m / 4294967295 ∨ n / 4294967295 = m / 4294967295 + 1 ∨
      m / 4294967295 = n / 4294967295 + 1 := by omega
  rcases turns with _ | _ | _ <;> omega

/-- No larger bound would do: bit 31 of the first number falls on the lowest bit
of an odd command. -/
theorem packetId_drawnSeq_collide {cmd : UInt32} (odd : cmd.toNat % 2 = 1) :
    packetId cmd (drawnSeq (2 ^ 31 + 1)) = packetId cmd (drawnSeq (2 ^ 31 + 1 + (2 ^ 31 - 1))) := by
  have first := toNat_drawnSeq (2 ^ 31)
  have second := toNat_drawnSeq (2 ^ 31 + (2 ^ 31 - 1))
  rw [packetId_eq_iff]
  refine ⟨rfl, ?_, iff_of_true (Or.inl odd) (Or.inl odd)⟩
  have order : 2 ^ 31 + 1 + (2 ^ 31 - 1) = 2 ^ 31 + (2 ^ 31 - 1) + 1 := by omega
  rw [first, order, second]
  omega

/-- Which process has built a request, and how many numbers it had drawn by then. -/
structure Origin where
  process : Nat
  number : Nat
  deriving DecidableEq

/-- Built by one process within fewer than 2^31 - 1 numbers. -/
def Origin.Near (origin other : Origin) : Prop :=
  origin.process = other.process ∧ origin.number < other.number + (2 ^ 31 - 1) ∧
    other.number < origin.number + (2 ^ 31 - 1)

/-- A client and the server processes that send to it, one after the other. The
client keeps its state over all connections. `origins` belong to the requests
that the processes have built for it. -/
structure ServedClient where
  seqGenerator : UInt32
  process : Nat
  drawn : Nat
  origins : List Origin
  client : Client

namespace ServedClient

def start (seqGenerator : UInt32) : ServedClient := ⟨0, 0, 0, [], .start seqGenerator⟩

/-- A new server process starts, the process draws a number for another packet,
it builds a request for the client, or something happens at the client. -/
inductive Action
  | restart
  | draw
  | push (cmd : UInt32) (body : Ibuffer) (deviceId : List UInt8)
  | client (a : Client.Action)

def step (s : ServedClient) : Action → Option ServedClient
  | .restart => some { s with seqGenerator := 0, process := s.process + 1, drawn := 0 }
  | .draw => some { s with seqGenerator := nextSeq s.seqGenerator, drawn := s.drawn + 1 }
  | .push cmd body deviceId =>
    let (pack, seqGenerator) := buildReqPacket s.seqGenerator cmd body deviceId
    (s.client.step (.push pack)).map fun client =>
      ⟨seqGenerator, s.process, s.drawn + 1, s.origins ++ [⟨s.process, s.drawn + 1⟩], client⟩
  | .client (.push _) => none
  | .client a => (s.client.step a).map fun client => { s with client := client }

variable {s t : ServedClient} {a : Action} {seqGenerator : UInt32}

/-- A copy of this request that comes next is dropped as a duplicate. -/
def Suppresses (s : ServedClient) (i : Nat) : Prop :=
  ∃ pack deviceId, s.client.pushes[i]? = some pack ∧
    (s.client.onReceiveRequest i pack deviceId).duplicates = s.client.duplicates ++ [i]

/-- Every request carries the number that its process had just drawn, and no
process draws one twice. -/
structure Sourced (s : ServedClient) : Prop where
  windowed : s.client.Windowed
  generator : s.seqGenerator = drawnSeq s.drawn
  length : s.origins.length = s.client.pushes.length
  built : ∀ pair ∈ s.origins.zip s.client.pushes, 0 < pair.1.number ∧ pair.2.seq = drawnSeq pair.1.number
  past : ∀ origin ∈ s.origins, origin.process ≤ s.process ∧ (origin.process = s.process → origin.number ≤ s.drawn)
  nodup : s.origins.Nodup

theorem start_sourced : (start seqGenerator).Sourced where
  windowed := Client.start_windowed
  generator := rfl
  length := rfl
  built _ member := by cases member
  past _ member := by cases member
  nodup := List.nodup_nil

theorem Sourced.push (sourced : s.Sourced) {cmd : UInt32} {body : Ibuffer} {deviceId : List UInt8}
    (taken : s.step (.push cmd body deviceId) = some t) : t.Sourced := by
  have generator : nextSeq s.seqGenerator = drawnSeq (s.drawn + 1) := congrArg nextSeq sourced.generator
  obtain ⟨seq, next⟩ : (buildReqPacket s.seqGenerator cmd body deviceId).1.seq = nextSeq s.seqGenerator ∧
    (buildReqPacket s.seqGenerator cmd body deviceId).2 = nextSeq s.seqGenerator := ⟨rfl, rfl⟩
  rw [ServedClient.step] at taken
  generalize buildReqPacket s.seqGenerator cmd body deviceId = built at seq next taken
  obtain ⟨client, done, rfl⟩ := Option.map_eq_some_iff.mp taken
  have pushes : client.pushes = s.client.pushes ++ [built.1] := by
    rcases Client.step_quiet done with ⟨_, _, _, wrong, _⟩ | ⟨_, _, _, _, pushes, _⟩
    · cases wrong
    · exact pushes
  refine ⟨sourced.windowed.step done, next.trans generator, ?_, fun pair member => ?_,
    fun origin member => ?_, ?_⟩
  · simp [pushes, sourced.length]
  · dsimp only at member
    rw [pushes, List.zip_append sourced.length] at member
    rcases List.mem_append.mp member with old | new
    · exact sourced.built pair old
    · cases List.mem_singleton.mp new
      exact ⟨Nat.succ_pos _, seq.trans generator⟩
  · rcases List.mem_append.mp member with old | new
    · obtain ⟨earlier, fewer⟩ := sourced.past origin old
      exact ⟨earlier, fun same => (fewer same).trans (Nat.le_succ _)⟩
    · cases List.mem_singleton.mp new
      exact ⟨le_rfl, fun _ => le_rfl⟩
  · have fresh : ⟨s.process, s.drawn + 1⟩ ∉ s.origins := fun old =>
      Nat.not_succ_le_self _ ((sourced.past _ old).2 rfl)
    simpa only [List.concat_eq_append] using sourced.nodup.concat fresh

theorem Sourced.client (sourced : s.Sourced) {a : Client.Action} {client : Client} (other : a.built = [])
    (taken : s.client.step a = some client) : ({ s with client := client } : ServedClient).Sourced := by
  have pushes : client.pushes = s.client.pushes := by
    rcases Client.step_quiet taken with ⟨i, pack, deviceId, _, _, rfl⟩ | ⟨_, _, _, _, pushes, _⟩
    · exact (s.client.onReceiveRequest_recent i pack deviceId).1
    · rw [pushes, other, List.append_nil]
  exact ⟨sourced.windowed.step taken, sourced.generator, pushes ▸ sourced.length, pushes ▸ sourced.built,
    sourced.past, sourced.nodup⟩

theorem Sourced.step (sourced : s.Sourced) (taken : s.step a = some t) : t.Sourced := by
  cases a with
  | restart =>
    cases taken
    refine ⟨sourced.windowed, rfl, sourced.length, sourced.built, fun origin member => ?_, sourced.nodup⟩
    have earlier := (sourced.past origin member).1
    exact ⟨earlier.trans (Nat.le_succ _), fun same => absurd (same ▸ earlier) (Nat.not_succ_le_self _)⟩
  | draw =>
    cases taken
    refine ⟨sourced.windowed, congrArg nextSeq sourced.generator, sourced.length, sourced.built,
      fun origin member => ?_, sourced.nodup⟩
    obtain ⟨earlier, fewer⟩ := sourced.past origin member
    exact ⟨earlier, fun same => (fewer same).trans (Nat.le_succ _)⟩
  | push cmd body deviceId => exact sourced.push taken
  | client a =>
    cases a with
    | push pack => cases taken
    | _ =>
      obtain ⟨client, done, rfl⟩ := Option.map_eq_some_iff.mp taken
      exact sourced.client rfl done

theorem run_sourced {guard : ServedClient → Action → Prop} {labels : List Action}
    (run : Run ServedClient.step guard (start seqGenerator) labels s) : s.Sourced :=
  run.invariant start_sourced fun _ _ _ sourced _ taken => sourced.step taken

/-- Two requests with one key are one if their process has built them close enough. -/
theorem Sourced.eq_of_near (sourced : s.Sourced) {i j : Nat} {pack other : Packet} {origin origin' : Origin}
    (found : s.client.pushes[i]? = some pack) (there : s.client.pushes[j]? = some other)
    (built : s.origins[i]? = some origin) (built' : s.origins[j]? = some origin') (near : origin.Near origin')
    (same : other.id = pack.id) : j = i := by
  obtain ⟨process, below, above⟩ := near
  have pair : (origin, pack) ∈ s.origins.zip s.client.pushes :=
    List.mem_of_getElem? (List.getElem?_zip_eq_some.mpr ⟨built, found⟩)
  have pair' : (origin', other) ∈ s.origins.zip s.client.pushes :=
    List.mem_of_getElem? (List.getElem?_zip_eq_some.mpr ⟨built', there⟩)
  obtain ⟨drawn, seq⟩ := sourced.built _ pair
  obtain ⟨drawn', seq'⟩ := sourced.built _ pair'
  have low := ((packetId_eq_iff _ _ _ _).mp same).2.1
  rw [seq, seq'] at low
  have number := drawnSeq_inj_of_near drawn drawn' below above low.symm
  have same : origin' = origin := by
    cases origin
    cases origin'
    cases process
    cases number
    rfl
  obtain ⟨at_i, here⟩ := List.getElem?_eq_some_iff.mp built
  obtain ⟨at_j, here'⟩ := List.getElem?_eq_some_iff.mp built'
  exact (List.Nodup.getElem_inj_iff sourced.nodup).mp (here'.trans (same.trans here.symm))

/-- Fresh requests: one is taken for a duplicate only if one with its packet id
has come before, and that was a copy of it if one process has built both within
fewer than 2^31 - 1 numbers. -/
theorem suppressed_origin {labels : List Action} (run : Run ServedClient.step free (start seqGenerator) labels s)
    {i : Nat} (suppresses : s.Suppresses i) :
    ∃ ack ∈ s.client.acks, ∃ pack other origin origin',
      s.client.pushes[i]? = some pack ∧ s.client.pushes[ack.request]? = some other ∧ other.id = pack.id ∧
        s.origins[i]? = some origin ∧ s.origins[ack.request]? = some origin' ∧
        (origin.Near origin' → ack.request = i) := by
  have sourced := run_sourced run
  obtain ⟨pack, deviceId, found, dropped⟩ := suppresses
  obtain ⟨ack, member, other, there, same⟩ :=
    sourced.windowed.acked_of_known ((Client.onReceiveRequest_duplicates_iff _ i pack deviceId).mp dropped)
  have inside (j : Nat) (pack : Packet) (found : s.client.pushes[j]? = some pack) :
      ∃ origin, s.origins[j]? = some origin :=
    ⟨_, List.getElem?_eq_getElem (sourced.length ▸ (List.getElem?_eq_some_iff.mp found).1)⟩
  obtain ⟨origin, built⟩ := inside i pack found
  obtain ⟨origin', built'⟩ := inside ack.request other there
  exact ⟨ack, member, pack, other, origin, origin', found, there, same, built, built',
    fun near => sourced.eq_of_near found there built built' near same⟩

/-- A request that is waited for and comes. -/
def pushed : List Action := [.push 1 ping.body [0x61], .client (.waitRequest 1), .client (.arrive 0 [0x61])]

theorem suppressed_origin_pushed :
    ∃ s, exec ServedClient.step free (start 0) pushed = some s ∧ s.Suppresses 0 ∧
      ∃ ack ∈ s.client.acks, ∃ pack other origin origin',
        s.client.pushes[0]? = some pack ∧ s.client.pushes[ack.request]? = some other ∧ other.id = pack.id ∧
          s.origins[0]? = some origin ∧ s.origins[ack.request]? = some origin' ∧
          (origin.Near origin' → ack.request = 0) := by
  have trace : (exec ServedClient.step free (start 0) pushed).map (fun s =>
      (s.client.duplicates, (s.client.pushes[0]?).map fun pack =>
        (s.client.onReceiveRequest 0 pack [0x61]).duplicates)) = some ([], some [0]) := by decide +kernel
  obtain ⟨s, done, view⟩ := Option.map_eq_some_iff.mp trace
  obtain ⟨before, view⟩ := Prod.mk.inj view
  obtain ⟨pack, found, dropped⟩ := Option.map_eq_some_iff.mp view
  have suppresses : s.Suppresses 0 := ⟨pack, [0x61], found, by rw [dropped, before]; rfl⟩
  exact ⟨s, done, suppresses, suppressed_origin (exec_run done) suppresses⟩

/-- The server process is restarted and builds its first request again, without a body. -/
def restarted : List Action := pushed ++ [.restart, .push 1 .empty [0x61]]

/-- The new request has the packet id of the old one. -/
theorem suppressed_restarted :
    ¬∀ seqGenerator labels s i, Run ServedClient.step free (start seqGenerator) labels s → s.Suppresses i →
      ∃ ack ∈ s.client.acks, ack.request = i := by
  intro claim
  have trace : (exec ServedClient.step free (start 0) restarted).map (fun s =>
      (s.client.duplicates, (s.client.pushes[1]?).map fun pack =>
        (s.client.onReceiveRequest 1 pack [0x61]).duplicates, s.client.acks.map Ack.request)) =
      some ([], some [1], [0]) := by decide +kernel
  obtain ⟨s, done, view⟩ := Option.map_eq_some_iff.mp trace
  obtain ⟨before, view⟩ := Prod.mk.inj view
  obtain ⟨known, arrived⟩ := Prod.mk.inj view
  obtain ⟨pack, found, dropped⟩ := Option.map_eq_some_iff.mp known
  have suppresses : s.Suppresses 1 := ⟨pack, [0x61], found, by rw [dropped, before]; rfl⟩
  obtain ⟨ack, member, request⟩ := claim 0 restarted s 1 (exec_run done) suppresses
  have other : ack.request ∈ s.client.acks.map Ack.request := List.mem_map_of_mem member
  rw [arrived, request] at other
  exact absurd other (by decide)

end ServedClient
end Asyncmsg
