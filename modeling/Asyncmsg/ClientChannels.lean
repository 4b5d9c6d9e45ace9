import Asyncmsg.Client
import Asyncmsg.RoundTrip

namespace Asyncmsg
open Transition

namespace Client
variable {c t : Client} {a : Client.Action} {seqGenerator : UInt32}

/-- What `on_receive_request` can do: nothing more than acknowledge, drop a
retransmission, follow a null pointer, or hand the request to its channel, which
refuses or takes it. -/
inductive Receives (c : Client) (i : Nat) (pack : Packet) (t : Client) : Prop
  | known : pack.id ∈ c.recentlyReceivedRequest.m → t.broken = c.broken → t.channels = c.channels →
      t.accepted = c.accepted → t.tried = c.tried → t.duplicates = c.duplicates ++ [i] → Receives c i pack t
  | broke : pack.id ∉ c.recentlyReceivedRequest.m → c.channelAt pack.cmd = none → t.broken = true →
      t.accepted = c.accepted → t.tried = c.tried → t.duplicates = c.duplicates → Receives c i pack t
  | refused {channel : RequestChannel} : pack.id ∉ c.recentlyReceivedRequest.m →
      c.channelAt pack.cmd = some channel → ¬channel.Accepts → t.broken = c.broken → t.channels = c.channels →
      t.accepted = c.accepted → t.tried = c.tried ++ [i] → t.duplicates = c.duplicates → Receives c i pack t
  | took {channel next : RequestChannel} : pack.id ∉ c.recentlyReceivedRequest.m →
      c.channelAt pack.cmd = some channel → channel.Accepts → t.broken = c.broken →
      t.channels = c.channels.insert pack.cmd (some next) → t.accepted = c.accepted ++ [i] →
      t.tried = c.tried ++ [i] → t.duplicates = c.duplicates → Receives c i pack t

theorem receives_onReceiveRequest (c : Client) (i : Nat) (pack : Packet) (deviceId : List UInt8) :
    Receives c i pack (c.onReceiveRequest i pack deviceId) := by
  unfold onReceiveRequest
  dsimp only
  split
  · exact .known (Lru.exist_iff.mp ‹_›) rfl rfl rfl rfl rfl
  · rename_i unknown
    have fresh : pack.id ∉ c.recentlyReceivedRequest.m := fun known => unknown (Lru.exist_iff.mpr known)
    unfold trySend
    split
    · exact .broke fresh ‹_› rfl rfl rfl rfl
    · rename_i channel found
      split
      · rename_i refused
        refine .refused fresh found (fun accepts => ?_) rfl rfl rfl rfl rfl
        rw [← Channel.trySend_isSome_iff, refused] at accepts
        cases accepts
      · rename_i next sent
        refine .took fresh found ?_ rfl rfl rfl rfl rfl
        rw [← Channel.trySend_isSome_iff, sent]
        rfl

/-- An arriving request is dropped as a retransmission exactly if its packet id
is in the table of recent ones. -/
theorem onReceiveRequest_duplicates_iff (c : Client) (i : Nat) (pack : Packet) (deviceId : List UInt8) :
    (c.onReceiveRequest i pack deviceId).duplicates = c.duplicates ++ [i] ↔
      pack.id ∈ c.recentlyReceivedRequest.m := by
  have passed {t : Client} (same : t.duplicates = c.duplicates) : t.duplicates ≠ c.duplicates ++ [i] := fun dropped =>
    List.cons_ne_nil i [] (List.self_eq_append_right.mp (same.symm.trans dropped))
  cases receives_onReceiveRequest c i pack deviceId with
  | known known _ _ _ _ dropped => exact iff_of_true dropped known
  | broke unknown _ _ _ _ same => exact iff_of_false (passed same) unknown
  | refused unknown _ _ _ _ _ _ same => exact iff_of_false (passed same) unknown
  | took unknown _ _ _ _ _ _ same => exact iff_of_false (passed same) unknown

/-- No entry of the channel table holds a null pointer, and none has been followed. -/
structure Safe (c : Client) : Prop where
  whole : c.broken = false
  nonnull : ∀ entry ∈ c.channels.entries, entry.2.isSome = true

/-- A request that is not taken for a retransmission has a command for which
the table has an entry. -/
def Awaited (c : Client) : Action → Prop
  | .arrive i _ => ∀ pack ∈ c.pushes[i]?, pack.id ∈ c.recentlyReceivedRequest.m ∨ pack.cmd ∈ c.channels
  | _ => True

theorem start_safe : (start seqGenerator).Safe := ⟨rfl, fun _ member => by cases member⟩

theorem nonnull_insert (nonnull : ∀ entry ∈ c.channels.entries, entry.2.isSome = true) (cmd : UInt32)
    (channel : RequestChannel) :
    ∀ entry ∈ (c.channels.insert cmd (some channel)).entries, entry.2.isSome = true := by
  intro entry member
  rw [AList.entries_insert] at member
  rcases List.mem_cons.mp member with rfl | before
  · rfl
  · exact nonnull entry ((List.kerase_sublist _ _).subset before)

/-- Where there are no null pointers, a missing channel is a missing entry. -/
theorem Safe.channelAt_isSome_iff (safe : c.Safe) {cmd : UInt32} : (c.channelAt cmd).isSome ↔ cmd ∈ c.channels := by
  rw [← AList.lookup_isSome, channelAt]
  cases entry : c.channels.lookup cmd with
  | none => exact Iff.rfl
  | some channel =>
    have some := safe.nonnull ⟨cmd, channel⟩ (AList.mem_lookup_iff.mp entry)
    simpa using some

theorem Safe.receives (safe : c.Safe) {i : Nat} {pack : Packet} (receives : Receives c i pack t) :
    t.Safe ↔ pack.id ∈ c.recentlyReceivedRequest.m ∨ pack.cmd ∈ c.channels := by
  cases receives with
  | known known broken channels => exact iff_of_true ⟨broken.trans safe.whole, channels ▸ safe.nonnull⟩ (Or.inl known)
  | broke unknown missing broken =>
    refine iff_of_false (fun after => by cases broken.symm.trans after.whole) (not_or.mpr ⟨unknown, ?_⟩)
    rw [← safe.channelAt_isSome_iff, missing]
    exact Bool.false_ne_true
  | refused _ found _ broken channels =>
    refine iff_of_true ⟨broken.trans safe.whole, channels ▸ safe.nonnull⟩ (Or.inr ?_)
    rw [← safe.channelAt_isSome_iff, found]
    rfl
  | took _ found _ broken channels =>
    refine iff_of_true ⟨broken.trans safe.whole, channels ▸ nonnull_insert safe.nonnull _ _⟩ (Or.inr ?_)
    rw [← safe.channelAt_isSome_iff, found]
    rfl

theorem Safe.waitRequest (safe : c.Safe) (cmd : UInt32) : (c.waitRequest cmd).Safe := by
  have ensured : (if (c.channels.lookup cmd).isNone then c.setChannel cmd (some .empty) else c).Safe := by
    split
    · exact ⟨safe.whole, nonnull_insert safe.nonnull _ _⟩
    · exact safe
  have present : cmd ∈ (if (c.channels.lookup cmd).isNone then c.setChannel cmd (some .empty) else c).channels := by
    split
    · exact AList.mem_insert _ |>.mpr (Or.inl rfl)
    · rename_i some
      rw [← AList.lookup_isSome]
      simpa [Option.isSome_iff_ne_none] using some
  unfold Client.waitRequest
  generalize (if (c.channels.lookup cmd).isNone then c.setChannel cmd (some .empty) else c) = ready at ensured present
  dsimp only
  split
  · rename_i missing
    have some := ensured.channelAt_isSome_iff.mpr present
    rw [missing] at some
    cases some
  · exact ⟨ensured.whole, nonnull_insert ensured.nonnull _ _⟩

theorem Safe.cancelAll (safe : c.Safe) : c.cancelAll.Safe where
  whole := by
    simp only [Client.cancelAll, List.any_eq_false]
    intro entry member
    have some := safe.nonnull entry member
    simp [Option.isSome_iff_ne_none.mp some]
  nonnull entry member := by
    obtain ⟨old, before, rfl⟩ := List.mem_map.mp member
    simpa using safe.nonnull old before

/-- One step: the table stays without null pointers exactly when a request that
is not taken for a retransmission finds an entry. -/
theorem Safe.step (safe : c.Safe) (taken : c.step a = some t) : t.Safe ↔ c.Awaited a := by
  obtain ⟨_, taken⟩ := Option.ite_none_right_eq_some.mp taken
  cases a with
  | push pack =>
    cases taken
    exact iff_of_true ⟨safe.whole, safe.nonnull⟩ trivial
  | arrive i deviceId =>
    obtain ⟨pack, found, rfl⟩ := Option.map_eq_some_iff.mp taken
    rw [safe.receives (receives_onReceiveRequest c i pack deviceId), Awaited, found]
    simp
  | waitRequest cmd =>
    cases taken
    exact iff_of_true (safe.waitRequest cmd) trivial
  | leave cmd =>
    obtain ⟨channel, _, taken⟩ := Option.bind_eq_some_iff.mp taken
    obtain ⟨_, same⟩ := Option.ite_none_right_eq_some.mp taken
    cases same
    exact iff_of_true ⟨safe.whole, nonnull_insert safe.nonnull _ _⟩ trivial
  | stop force =>
    obtain ⟨_, same⟩ := Option.ite_none_left_eq_some.mp taken
    cases same
    exact iff_of_true ⟨safe.whole, safe.nonnull⟩ trivial
  | runStop =>
    obtain ⟨_, _, same⟩ := Option.bind_eq_some_iff.mp taken
    cases same
    exact iff_of_true ⟨safe.cancelAll.whole, safe.cancelAll.nonnull⟩ trivial

/-- The channel table: on every run that meets the condition no entry is null
and no null pointer is followed, and a further step keeps this exactly when it
meets the condition too. -/
theorem channels_nonnull {labels : List Action} (run : Run Client.step Awaited (start seqGenerator) labels c) :
    c.Safe ∧ ∀ a t, c.step a = some t → (t.Safe ↔ c.Awaited a) := by
  have safe : c.Safe := run.invariant start_safe fun _ _ _ safe awaited taken => (safe.step taken).mpr awaited
  exact ⟨safe, fun _ _ taken => safe.step taken⟩

instance (c : Client) (a : Action) : Decidable (c.Awaited a) :=
  match a with
  | .arrive i _ => inferInstanceAs (Decidable (∀ pack ∈ c.pushes[i]?,
      pack.id ∈ c.recentlyReceivedRequest.m ∨ pack.cmd ∈ c.channels))
  | .push _ | .waitRequest _ | .leave _ | .stop _ | .runStop => inferInstanceAs (Decidable True)

/-- A request that is waited for and comes twice. -/
def repeated : List Action := [.push ping, .waitRequest 1, .arrive 0 [0x61], .arrive 0 [0x61]]

theorem channels_nonnull_repeated :
    ∃ c, exec Client.step Awaited (start 0) repeated = some c ∧
      c.Safe ∧ ∀ a t, c.step a = some t → (t.Safe ↔ c.Awaited a) := by
  have trace : (exec Client.step Awaited (start 0) repeated).isSome := by decide +kernel
  obtain ⟨c, done⟩ := Option.isSome_iff_exists.mp trace
  exact ⟨c, done, channels_nonnull (exec_run done)⟩

/-- A request with a command that nobody has ever waited for. -/
def unawaited : List Action := [.push ping, .arrive 0 [0x61]]

theorem channels_null :
    ¬∀ seqGenerator labels c, Run Client.step free (start seqGenerator) labels c → c.Safe := by
  intro claim
  have trace : (exec Client.step free (start 0) unawaited).map broken = some true := by decide +kernel
  obtain ⟨c, done, broken⟩ := Option.map_eq_some_iff.mp trace
  cases broken.symm.trans (claim _ _ _ (exec_run done)).whole

end Client
end Asyncmsg
