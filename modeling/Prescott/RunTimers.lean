import Mathlib.Data.Rat.Floor
import Prescott.TaskCommand
import Prescott.TaskService
import Prescott.TransitionSystem

namespace Prescott

/-!
# The time to live of a run

`runEnv` arms a timer for a container with a time to live, which kills it.  The
clock counts milliseconds; timers that are due may expire at any time.
-/

/-- The largest delay of a timer, `2^31 - 1`. -/
def TIMEOUT_MAX : Nat :=
  2147483647

/-- The delay that `setTimeout` waits for; one it cannot wait for is replaced. -/
def timeoutDelay (after : Rat) : Nat :=
  if 1 ≤ after ∧ after ≤ TIMEOUT_MAX then ⌊after⌋₊ else 1

/-- A timer that calls `envHandle.stop({ signal: 'timeout' })`. -/
structure StopTimer where
  envHandle : EnvHandle
  due : Nat
  deriving Repr, DecidableEq

/-- The command of `killImpl`. -/
def killCommand (envHandle : EnvHandle) (signal : Nat) : String :=
  (((CommandBuilder.init "docker kill").param "signal" (some (toString signal))).withParam
    envHandle.container).build

/-- The command of `stop` with the signal `timeout`. -/
def timeoutCommand (envHandle : EnvHandle) : String :=
  killCommand envHandle 9

/-- The end of `runEnv`, when docker has run the container. -/
def armTimer
    (now : Nat)
    (envHandle : EnvHandle)
    (limitations : Option Limitations) :
    List StopTimer :=
  match limitations.bind Limitations.ttl with
  | some ttl => if ttl ≠ 0 then [⟨envHandle, now + timeoutDelay ttl⟩] else []
  | none => []

/-- A container that docker has started for a call of `runEnv`. -/
structure StartedContainer where
  envHandle : EnvHandle
  limitations : Option Limitations
  startedAt : Nat
  deriving DecidableEq

/-- A command that has been sent to docker. -/
structure SentCommand where
  command : String
  sentAt : Nat
  deriving Repr, DecidableEq

/-- The containers of the runner, and the timers that it has set. -/
structure RunnerState where
  clock : Nat := 0
  containers : List StartedContainer := []
  /-- The containers whose `runEnv` has not gone on after `docker run`. -/
  awaiting : List StartedContainer := []
  timers : List StopTimer := []
  sent : List SentCommand := []
  deriving DecidableEq

/-- What happens to the runner. -/
inductive RunnerEvent where
  | tick
  /-- `docker run` starts a container under a new random name. -/
  | start (name : String) (limitations : Option Limitations)
  /-- `docker run` has succeeded, and `runEnv` goes on. -/
  | goOn (container : StartedContainer)
  | expire (timer : StopTimer)
  deriving DecidableEq

namespace RunnerState

/-- Let an event happen, where it is possible. -/
def step? (state : RunnerState) : RunnerEvent → Option RunnerState
  | .tick => some { state with clock := state.clock + 1 }
  | .start name limitations =>
      if ∃ container ∈ state.containers, container.envHandle = ⟨name⟩ then
        none
      else
        let container := ⟨⟨name⟩, limitations, state.clock⟩
        some
          { state with
            containers := container :: state.containers
            awaiting := container :: state.awaiting }
  | .goOn container =>
      if container ∈ state.awaiting then
        some
          { state with
            awaiting := state.awaiting.erase container
            timers :=
              armTimer state.clock container.envHandle container.limitations ++
                state.timers }
      else
        none
  | .expire timer =>
      if timer ∈ state.timers ∧ timer.due ≤ state.clock then
        some
          { state with
            timers := state.timers.erase timer
            sent := ⟨timeoutCommand timer.envHandle, state.clock⟩ :: state.sent }
      else
        none

/-- An event that happens. -/
def Step (before : RunnerState) (event : RunnerEvent) (after : RunnerState) : Prop :=
  before.step? event = some after

end RunnerState

namespace StartedContainer

/-- The earliest time at which the timer of a container can be due. -/
def DueBy (container : StartedContainer) (time : Nat) : Prop :=
  ∃ ttl,
    container.limitations.bind Limitations.ttl = some ttl ∧
      container.startedAt + timeoutDelay ttl ≤ time

end StartedContainer

theorem StartedContainer.DueBy.mono
    {container : StartedContainer}
    {earlier later : Nat}
    (due : container.DueBy earlier)
    (ordered : earlier ≤ later) :
    container.DueBy later := by
  obtain ⟨ttl, limited, isDue⟩ := due
  exact ⟨ttl, limited, isDue.trans ordered⟩

/-- A timer is armed when its container has been started. -/
theorem dueBy_of_armTimer
    {container : StartedContainer}
    {now : Nat}
    {timer : StopTimer}
    (started : container.startedAt ≤ now)
    (armed : timer ∈ armTimer now container.envHandle container.limitations) :
    container.envHandle = timer.envHandle ∧ container.DueBy timer.due := by
  unfold armTimer at armed
  split at armed
  · rename_i ttl limited
    split at armed
    · cases List.mem_singleton.mp armed
      exact ⟨rfl, ttl, limited, Nat.add_le_add_right started _⟩
    · cases armed
  · cases armed

/-- A command to kill a container names it. -/
theorem timeoutCommand_injective : Function.Injective timeoutCommand := by
  intro left right same
  have texts := congrArg String.toList same
  simp only [timeoutCommand, killCommand, CommandBuilder.build, CommandBuilder.withParam,
    String.toList_append, List.append_cancel_left_eq] at texts
  cases left
  cases right
  exact congrArg EnvHandle.mk (String.toList_inj.mp texts)

namespace RunnerState

variable {before after : RunnerState}
variable {event : RunnerEvent}

/-- Timers and commands belong to containers, and come no earlier than due. -/
structure Timely (state : RunnerState) : Prop where
  named : (state.containers.map StartedContainer.envHandle).Nodup
  started : ∀ container ∈ state.containers, container.startedAt ≤ state.clock
  awaiting : ∀ container ∈ state.awaiting, container ∈ state.containers
  timers :
    ∀ timer ∈ state.timers,
      ∃ container ∈ state.containers,
        container.envHandle = timer.envHandle ∧ container.DueBy timer.due
  sent :
    ∀ command ∈ state.sent,
      ∃ container ∈ state.containers,
        timeoutCommand container.envHandle = command.command ∧
          container.DueBy command.sentAt

theorem Timely.step
    (timely : before.Timely)
    (taken : Step before event after) :
    after.Timely := by
  unfold Step at taken
  cases event with
  | tick =>
      cases taken
      exact
        { timely with
          started := fun container member =>
            (timely.started container member).trans (Nat.le_succ _) }
  | start name limitations =>
      simp only [step?] at taken
      split at taken
      · cases taken
      · rename_i isNew
        cases taken
        constructor
        · refine List.nodup_cons.mpr ⟨fun member => ?_, timely.named⟩
          obtain ⟨container, present, same⟩ := List.mem_map.mp member
          exact isNew ⟨container, present, same⟩
        · exact List.forall_mem_cons.mpr ⟨Nat.le_refl _, timely.started⟩
        · refine List.forall_mem_cons.mpr ⟨List.mem_cons_self, fun container member => ?_⟩
          exact List.mem_cons_of_mem _ (timely.awaiting container member)
        · intro timer member
          obtain ⟨container, present, due⟩ := timely.timers timer member
          exact ⟨container, List.mem_cons_of_mem _ present, due⟩
        · intro command member
          obtain ⟨container, present, due⟩ := timely.sent command member
          exact ⟨container, List.mem_cons_of_mem _ present, due⟩
  | goOn container =>
      simp only [step?] at taken
      split at taken
      · rename_i waits
        cases taken
        have present := timely.awaiting container waits
        refine
          { timely with
            awaiting := fun other member =>
              timely.awaiting other (List.mem_of_mem_erase member)
            timers := fun timer member => ?_ }
        rcases List.mem_append.mp member with armed | earlier
        · exact ⟨container, present,
            dueBy_of_armTimer (timely.started container present) armed⟩
        · exact timely.timers timer earlier
      · cases taken
  | expire timer =>
      simp only [step?] at taken
      split at taken
      · rename_i isDue
        cases taken
        obtain ⟨container, present, same, due⟩ := timely.timers timer isDue.1
        refine
          { timely with
            timers := fun other member =>
              timely.timers other (List.mem_of_mem_erase member)
            sent := List.forall_mem_cons.mpr ⟨?_, timely.sent⟩ }
        exact ⟨container, present, congrArg timeoutCommand same, due.mono isDue.2⟩
      · cases taken

theorem Timely.of_run
    {events : List RunnerEvent}
    {final : RunnerState}
    (run : Run Step {} events final) :
    final.Timely := by
  refine run.invariant Timely (fun _ _ _ timely taken => timely.step taken) ?_
  constructor <;> simp

/-- No container with a time to live is killed before it has lived for so long. -/
def KillsInTime (state : RunnerState) (ttl : Rat) : Prop :=
  ∀ container ∈ state.containers,
    container.limitations.bind Limitations.ttl = some ttl →
    ∀ command ∈ state.sent,
      command.command = timeoutCommand container.envHandle →
      container.startedAt + ⌊ttl⌋₊ ≤ command.sentAt

/-- A command of a container is sent after the delay of its timer. -/
theorem Timely.delay_le
    {state : RunnerState}
    (timely : state.Timely)
    {container : StartedContainer}
    {ttl : Rat}
    {command : SentCommand}
    (present : container ∈ state.containers)
    (limited : container.limitations.bind Limitations.ttl = some ttl)
    (isSent : command ∈ state.sent)
    (kills : command.command = timeoutCommand container.envHandle) :
    container.startedAt + timeoutDelay ttl ≤ command.sentAt := by
  obtain ⟨other, otherPresent, sameCommand, otherTtl, otherLimited, due⟩ :=
    timely.sent command isSent
  have sameName : other.envHandle = container.envHandle :=
    timeoutCommand_injective (sameCommand.trans kills)
  obtain rfl : other = container :=
    List.inj_on_of_nodup_map timely.named otherPresent present sameName
  rw [limited] at otherLimited
  cases otherLimited
  exact due

end RunnerState

theorem floor_le_timeoutDelay
    {ttl : Rat}
    (short : ttl ≤ TIMEOUT_MAX) :
    ⌊ttl⌋₊ ≤ timeoutDelay ttl := by
  unfold timeoutDelay
  split
  · exact Nat.le_refl _
  · rename_i outside
    have below : ttl < 1 := by
      by_contra atLeast
      exact outside ⟨not_lt.mp atLeast, short⟩
    rw [Nat.floor_eq_zero.mpr below]
    exact Nat.zero_le _

theorem timeoutDelay_of_long
    {ttl : Rat}
    (long : TIMEOUT_MAX < ttl) :
    timeoutDelay ttl = 1 :=
  if_neg fun fits => absurd fits.2 (not_le.mpr long)

/-- A container is started, and a millisecond later its timer has expired. -/
def shortLife (limitations : Limitations) : List RunnerEvent :=
  [.start "worker" (some limitations), .goOn ⟨⟨"worker"⟩, some limitations, 0⟩, .tick,
    .expire ⟨⟨"worker"⟩, 1⟩]

/-- The states after it. -/
def shortLived (limitations : Limitations) : RunnerState where
  clock := 1
  containers := [⟨⟨"worker"⟩, some limitations, 0⟩]
  sent := [⟨timeoutCommand ⟨"worker"⟩, 1⟩]

/-- A time to live that is too long for a timer ends after a millisecond. -/
theorem run_shortLife
    {limitations : Limitations}
    {ttl : Rat}
    (limited : limitations.ttl = some ttl)
    (long : TIMEOUT_MAX < ttl) :
    Run RunnerState.Step {} (shortLife limitations) (shortLived limitations) := by
  have nonzero : ttl ≠ 0 := by
    rintro rfl
    exact absurd long (by norm_num [TIMEOUT_MAX])
  refine @Run.of_foldlM _ _ RunnerState.step? _ _ _ ?_
  simp [shortLife, RunnerState.step?, armTimer, limited, nonzero, timeoutDelay_of_long long,
    shortLived]

theorem not_killsInTime_shortLived
    {limitations : Limitations}
    {ttl : Rat}
    (limited : limitations.ttl = some ttl)
    (long : TIMEOUT_MAX < ttl) :
    ¬(shortLived limitations).KillsInTime ttl := by
  intro inTime
  have early : 0 + ⌊ttl⌋₊ ≤ 1 :=
    inTime _ List.mem_cons_self limited _ List.mem_cons_self rfl
  have whole : TIMEOUT_MAX ≤ ⌊ttl⌋₊ :=
    Nat.le_floor long.le
  unfold TIMEOUT_MAX at whole
  omega

/--
In every run the containers with a time to live are killed in time exactly if
a timer can wait for so long.
-/
theorem timeToLive_inTime_iff
    (ttl : Rat) :
    (∀ events final,
        Run RunnerState.Step {} events final →
        final.KillsInTime ttl) ↔
      ttl ≤ TIMEOUT_MAX := by
  constructor
  · intro inTime
    by_contra long
    let limitations : Limitations := { ttl := some ttl }
    have limited : limitations.ttl = some ttl := rfl
    have run := run_shortLife limited (not_le.mp long)
    exact not_killsInTime_shortLived limited (not_le.mp long) (inTime _ _ run)
  · intro short events final run container present limited command isSent kills
    have delayed :=
      (RunnerState.Timely.of_run run).delay_le present limited isSent kills
    exact (Nat.add_le_add_left (floor_le_timeoutDelay short) _).trans delayed

/-- A container that may live for 25 days is killed after a millisecond. -/
theorem timeToLive_cutShort :
    ∃ final,
      Run RunnerState.Step {} (shortLife { ttl := some 2160000000 }) final ∧
        final.sent = [⟨"docker kill --signal=9 worker", 1⟩] ∧
        ¬final.KillsInTime 2160000000 := by
  have long : (TIMEOUT_MAX : Rat) < 2160000000 := by
    norm_num [TIMEOUT_MAX]
  exact ⟨_, run_shortLife rfl long, rfl, not_killsInTime_shortLived rfl long⟩

end Prescott
