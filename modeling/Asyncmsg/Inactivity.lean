import Mathlib.Tactic.Common
import Asyncmsg.Library.Transition

namespace Asyncmsg
open Transition

/-- The steady clock counts nanoseconds. -/
def second : Nat := 1000000000
def activeConnectionLifetimeSeconds : Nat := 60
def activeConnectionLifetimeCheckIntervalSeconds : Nat := 1
def activeConnectionHeartbeatIntervalSeconds : Nat := 20

/-- A connection as its coroutine `check` sees it: when it has last received a
packet, when the timer of the coroutine expires, unless it has ended, and when,
after which packet, it has called `on_disconnected`. -/
structure Watch where
  lastRecvTime : Nat
  checkTimer : Option Nat
  disconnects : List (Nat × Nat)

namespace Watch

/-- The connection has been constructed, and `check` begins. -/
def start (constructed begun : Nat) : Watch :=
  ⟨constructed, some (begun + activeConnectionLifetimeCheckIntervalSeconds * second), []⟩

variable (w : Watch)

/-- A packet with the device id of the connection. -/
def receive (now : Nat) : Watch := { w with lastRecvTime := now }

/-- `duration_cast<seconds>` cuts. -/
def elapse (now : Nat) : Nat := (now - w.lastRecvTime) / second

/-- The timer has expired, be it some time ago, and the connection is still there. -/
def check (now : Nat) : Option Watch := w.checkTimer.bind fun expiry =>
  if expiry ≤ now then
    if w.elapse now > activeConnectionLifetimeSeconds then
      some { w with checkTimer := none, disconnects := w.disconnects ++ [(now, w.lastRecvTime)] }
    else some { w with checkTimer := some (now + activeConnectionLifetimeCheckIntervalSeconds * second) }
  else none

/-- The check comes when the connection has gone: it ends. -/
def release (now : Nat) : Option Watch := w.checkTimer.bind fun expiry =>
  if expiry ≤ now then some { w with checkTimer := none } else none

/-- The check goes on, and has not called `on_disconnected`. -/
def Going : Prop := w.checkTimer ≠ none ∧ w.disconnects = []

variable {w}

/-- The lifetime is over a second later than the constant says. -/
theorem elapse_gt_iff {now : Nat} :
    w.elapse now > activeConnectionLifetimeSeconds ↔ w.lastRecvTime + 61 * second ≤ now := by
  simp only [elapse, activeConnectionLifetimeSeconds, second]
  omega

theorem check_eq_some {now : Nat} {next : Watch} :
    w.check now = some next ↔ ∃ expiry, w.checkTimer = some expiry ∧ expiry ≤ now ∧
      (w.lastRecvTime + 61 * second ≤ now ∧
          next = { w with checkTimer := none, disconnects := w.disconnects ++ [(now, w.lastRecvTime)] } ∨
        now < w.lastRecvTime + 61 * second ∧ next = { w with checkTimer := some (now + second) }) := by
  unfold check
  rw [Option.bind_eq_some_iff]
  refine exists_congr fun expiry => and_congr_right fun _ => ?_
  rw [Option.ite_none_right_eq_some]
  refine and_congr_right fun _ => ?_
  by_cases beyond : w.elapse now > activeConnectionLifetimeSeconds
  · have late := elapse_gt_iff.mp beyond
    rw [if_pos beyond]
    constructor
    · intro same
      cases same
      exact Or.inl ⟨late, rfl⟩
    · rintro (⟨_, rfl⟩ | ⟨early, _⟩)
      · rfl
      · omega
  · have early : now < w.lastRecvTime + 61 * second := Nat.lt_of_not_le fun late => beyond (elapse_gt_iff.mpr late)
    rw [if_neg beyond]
    constructor
    · intro same
      cases same
      exact Or.inr ⟨early, rfl⟩
    · rintro (⟨late, _⟩ | ⟨_, rfl⟩)
      · omega
      · rfl

end Watch

/-- A connection in time. -/
structure Watched where
  clock : Nat
  watch : Watch

namespace Watched

inductive Action
  | tick (n : Nat)
  | receive
  | check
  | release

def step (s : Watched) : Action → Option Watched
  | .tick n => some { s with clock := s.clock + n }
  | .receive => some { s with watch := s.watch.receive s.clock }
  | .check => (s.watch.check s.clock).map fun watch => { s with watch := watch }
  | .release => (s.watch.release s.clock).map fun watch => { s with watch := watch }

/-- The wait for the timer is over at most so long after it has expired. -/
def Timely (late : Nat) (s : Watched) : Action → Prop
  | .tick n => ∀ expiry ∈ s.watch.checkTimer, s.clock + n ≤ expiry + late
  | _ => True

instance (late : Nat) (s : Watched) (a : Action) : Decidable (Timely late s a) :=
  match a with
  | .tick n => inferInstanceAs (Decidable (∀ expiry ∈ s.watch.checkTimer, s.clock + n ≤ expiry + late))
  | .receive | .check | .release => inferInstanceAs (Decidable True)

/-- The timer leaves no more than a second between two checks, and the last
check has found the connection alive. -/
structure Vigilant (late : Nat) (s : Watched) : Prop where
  past : s.watch.lastRecvTime ≤ s.clock
  timer : ∀ expiry ∈ s.watch.checkTimer, s.clock ≤ expiry + late ∧ expiry < s.watch.lastRecvTime + 62 * second ∧
    s.watch.disconnects = []
  once : s.watch.disconnects.length ≤ 1
  exact : ∀ entry ∈ s.watch.disconnects, entry.2 + 61 * second ≤ entry.1 ∧ entry.1 < entry.2 + 62 * second + late

variable {late : Nat} {s t : Watched} {a : Action}

theorem Vigilant.step (vigilant : s.Vigilant late) (timely : s.Timely late a) (taken : s.step a = some t) :
    t.Vigilant late := by
  obtain ⟨past, timer, once, exact⟩ := vigilant
  cases a with
  | tick n =>
    cases taken
    refine ⟨Nat.le_trans past (Nat.le_add_right _ _), fun expiry set => ?_, once, exact⟩
    exact ⟨timely expiry set, (timer expiry set).2⟩
  | receive =>
    cases taken
    refine ⟨Nat.le_refl _, fun expiry set => ?_, once, exact⟩
    obtain ⟨inTime, soon, none⟩ := timer expiry set
    exact ⟨inTime, by simp only [Watch.receive]; omega, none⟩
  | check =>
    obtain ⟨watch, checked, rfl⟩ := Option.map_eq_some_iff.mp taken
    obtain ⟨expiry, set, expired, ⟨beyond, rfl⟩ | ⟨alive, rfl⟩⟩ := Watch.check_eq_some.mp checked
    · obtain ⟨inTime, soon, none⟩ := timer expiry set
      refine ⟨past, nofun, by simp [none], fun entry member => ?_⟩
      rw [none] at member
      cases List.mem_singleton.mp member
      exact ⟨beyond, by dsimp only; omega⟩
    · obtain ⟨_, _, none⟩ := timer expiry set
      refine ⟨past, fun expiry' set' => ?_, once, exact⟩
      cases set'
      exact ⟨by dsimp only; omega, by dsimp only; omega, none⟩
  | release =>
    obtain ⟨watch, released, rfl⟩ := Option.map_eq_some_iff.mp taken
    obtain ⟨expiry, _, done⟩ := Option.bind_eq_some_iff.mp released
    obtain ⟨_, same⟩ := Option.ite_none_right_eq_some.mp done
    cases same
    exact ⟨past, nofun, once, exact⟩

/-- Silence is detected in time and nothing else is: whenever packets come,
`check` calls `on_disconnected` at most once, no less than 61 seconds after the
last packet, and within one further second and the lateness of its timer. As
long as it goes on the last packet is not older than that. -/
theorem silence_detected {constructed begun : Nat} (after : constructed ≤ begun)
    (soon : begun < constructed + 61 * second) {labels : List Action}
    (run : Run step (Timely late) ⟨begun, .start constructed begun⟩ labels s) :
    s.watch.disconnects.length ≤ 1 ∧
      (∀ entry ∈ s.watch.disconnects, entry.2 + 61 * second ≤ entry.1 ∧ entry.1 < entry.2 + 62 * second + late) ∧
      (s.watch.checkTimer ≠ none → s.clock < s.watch.lastRecvTime + 62 * second + late) := by
  have first : Vigilant late ⟨begun, .start constructed begun⟩ := by
    refine ⟨after, fun expiry set => ?_, Nat.zero_le _, nofun⟩
    cases set
    have interval : activeConnectionLifetimeCheckIntervalSeconds * second = second := Nat.one_mul second
    rw [interval]
    exact ⟨by dsimp only; omega, by simp only [Watch.start]; omega, rfl⟩
  have vigilant : s.Vigilant late := run.invariant first fun _ _ _ vigilant timely taken => vigilant.step timely taken
  refine ⟨vigilant.once, vigilant.exact, fun running => ?_⟩
  obtain ⟨expiry, set⟩ := Option.ne_none_iff_exists'.mp running
  obtain ⟨inTime, soon, _⟩ := vigilant.timer expiry set
  omega

/-- One packet after two seconds, then sixty-two checks, each a millisecond late. -/
def fallsSilent : List Action :=
  [.tick second, .check, .tick second, .receive, .check] ++
    (List.replicate 61 [.tick (second + 1000000), .check]).flatten

theorem silence_detected_fallsSilent :
    ∃ s, Run step (Timely 1000000) ⟨0, .start 0 0⟩ fallsSilent s ∧
      s.watch.disconnects = [(63 * second + 61000000, 2 * second)] ∧ s.watch.disconnects.length ≤ 1 ∧
      (∀ entry ∈ s.watch.disconnects, entry.2 + 61 * second ≤ entry.1 ∧
        entry.1 < entry.2 + 62 * second + 1000000) ∧
      (s.watch.checkTimer ≠ none → s.clock < s.watch.lastRecvTime + 62 * second + 1000000) := by
  have trace : (exec step (Timely 1000000) ⟨0, .start 0 0⟩ fallsSilent).map (·.watch.disconnects) =
      some [(63 * second + 61000000, 2 * second)] := by decide +kernel
  obtain ⟨s, done, disconnects⟩ := Option.map_eq_some_iff.mp trace
  exact ⟨s, exec_run done, disconnects, silence_detected (by decide) (by decide) (exec_run done)⟩

end Watched
end Asyncmsg
