import Mathlib.Data.List.Nodup
import Prescott.TaskQueue

namespace Prescott.QueueState

/-!
# Runs of the task queue

Bound, order, exactly-once and work conservation are carried by one invariant.
While `executeNext` is on top of the call stack at most one start is owed; as
soon as it is not, no slot is idle while an executor waits.
-/

/-- No slot is idle while an executor waits. -/
def Busy (maxConcurrency : Int) (state : QueueState) : Prop :=
  state.queue = [] ∨ state.running = maxConcurrency

/-- One start is enough to make the queue busy. -/
def OwesOneStart (maxConcurrency : Int) (state : QueueState) : Prop :=
  state.queue.length ≤ 1 ∨ maxConcurrency ≤ state.running + 1

/-- What the top of the call stack says about the slots. -/
def Balanced (maxConcurrency : Int) (state : QueueState) : Prop :=
  match state.stack with
  | .executeNext :: _ => state.OwesOneStart maxConcurrency
  | _ => state.Busy maxConcurrency

/-- The invariant of the queue module. -/
structure Sound (maxConcurrency : Int) (state : QueueState) : Prop where
  ticketed :
    state.enqueued.map Executor.ticket = List.range state.enqueued.length
  ordered : state.started ++ state.queue = state.enqueued
  finishedNodup : state.finished.Nodup
  finishedStarted : ∀ executor ∈ state.finished, executor ∈ state.started
  counted : state.running = state.active.length
  bounded : state.running ≤ maxConcurrency
  callers : ∀ frame ∈ state.stack.tail, frame ≠ .executeNext
  balanced : state.Balanced maxConcurrency

/-- Outside `executeNext` the queue is busy. -/
theorem busy_of_balanced
    {maxConcurrency : Int}
    {state : QueueState}
    (balanced : state.Balanced maxConcurrency)
    (notEntered : ∀ rest, state.stack ≠ .executeNext :: rest) :
    state.Busy maxConcurrency := by
  unfold Balanced at balanced
  split at balanced
  · rename_i rest shape
    exact (notEntered rest shape).elim
  · exact balanced

/-- A state whose stack is not headed by `executeNext` has to be busy. -/
theorem balanced_of_busy
    {maxConcurrency : Int}
    {state : QueueState}
    (busy : state.Busy maxConcurrency)
    (notEntered : ∀ rest, state.stack ≠ .executeNext :: rest) :
    state.Balanced maxConcurrency := by
  unfold Balanced
  split
  · rename_i rest shape
    exact (notEntered rest shape).elim
  · exact busy

namespace Sound

variable {maxConcurrency : Int}
variable {state : QueueState}

theorem enqueuedNodup (sound : state.Sound maxConcurrency) :
    state.enqueued.Nodup := by
  apply List.Nodup.of_map Executor.ticket
  rw [sound.ticketed]
  exact List.nodup_range

theorem startedNodup (sound : state.Sound maxConcurrency) :
    state.started.Nodup := by
  have nodup := sound.enqueuedNodup
  rw [← sound.ordered] at nodup
  exact (List.nodup_append.mp nodup).1

/-- The module starts with empty lists and a free slot. -/
theorem initially
    (atLeastOne : 1 ≤ maxConcurrency) :
    Sound maxConcurrency {} where
  ticketed := rfl
  ordered := rfl
  finishedNodup := List.nodup_nil
  finishedStarted := by simp
  counted := rfl
  bounded := Int.le_trans (by decide) atLeastOne
  callers := by simp
  balanced := Or.inl rfl

/-- `enqueue` owes at most the start of the executor it pushed. -/
theorem enqueue
    (sound : state.Sound maxConcurrency)
    (accepts : state.acceptsCall = true)
    (taskId : Nat) :
    (state.enqueue taskId).Sound maxConcurrency := by
  have notEntered : ∀ rest, state.stack ≠ .executeNext :: rest := by
    intro rest shape
    rw [acceptsCall, shape] at accepts
    cases accepts
  have busy := busy_of_balanced sound.balanced notEntered
  exact {
    ticketed := by
      simp [QueueState.enqueue, sound.ticketed, List.range_succ]
    ordered := by
      simp only [QueueState.enqueue, ← List.append_assoc, sound.ordered]
    finishedNodup := sound.finishedNodup
    finishedStarted := sound.finishedStarted
    counted := sound.counted
    bounded := sound.bounded
    callers := by
      intro frame member entered
      subst entered
      change _ ∈ state.stack at member
      cases shape : state.stack with
      | nil =>
          rw [shape] at member
          cases member
      | cons top rest =>
          rw [shape] at member
          rcases List.mem_cons.mp member with isTop | deeper
          · exact notEntered rest (by rw [shape, isTop])
          · have tail : .executeNext ∈ state.stack.tail := by
              rw [shape]
              exact deeper
            exact sound.callers _ tail rfl
    balanced := by
      change OwesOneStart maxConcurrency (state.enqueue taskId)
      rcases busy with empty | full
      · left
        simp [QueueState.enqueue, empty]
      · right
        change maxConcurrency ≤ state.running + 1
        rw [full]
        exact Int.le_add_one (Int.le_refl _) }

/-- `executeNext` pays the start that is owed. -/
theorem executeNext
    (sound : state.Sound maxConcurrency)
    {rest : List QueueFrame}
    (entered : state.stack = .executeNext :: rest) :
    (state.executeNext maxConcurrency rest).Sound maxConcurrency := by
  have owes : state.OwesOneStart maxConcurrency := by
    have balanced := sound.balanced
    rw [Balanced, entered] at balanced
    exact balanced
  have callers : ∀ frame ∈ rest, frame ≠ .executeNext := by
    have callers := sound.callers
    rw [entered] at callers
    exact callers
  have notEntered : ∀ deeper, rest ≠ .executeNext :: deeper := by
    intro deeper shape
    exact callers .executeNext (by simp [shape]) rfl
  have deeperCallers : ∀ frame ∈ rest.tail, frame ≠ .executeNext :=
    fun frame member => callers frame (List.mem_of_mem_tail member)
  unfold QueueState.executeNext
  split
  · rename_i full
    exact { sound with
      callers := deeperCallers
      balanced :=
        balanced_of_busy
          (Or.inr (Int.le_antisymm sound.bounded full))
          notEntered }
  · rename_i free
    split
    · rename_i empty
      exact { sound with
        callers := deeperCallers
        balanced := balanced_of_busy (Or.inl empty) notEntered }
    · rename_i nextTask queue shape
      have slotFree : state.running + 1 ≤ maxConcurrency :=
        Int.not_le.mp free
      have notStarted : nextTask ∉ state.started := by
        have nodup := sound.enqueuedNodup
        rw [← sound.ordered, shape] at nodup
        intro member
        exact (List.nodup_append.mp nodup).2.2 _ member _
          List.mem_cons_self rfl
      have notFinished : nextTask ∉ state.finished :=
        fun member => notStarted (sound.finishedStarted _ member)
      exact {
        ticketed := sound.ticketed
        ordered := by
          rw [← sound.ordered, shape]
          simp
        finishedNodup := sound.finishedNodup
        finishedStarted := fun executor member =>
          List.mem_append_left _ (sound.finishedStarted executor member)
        counted := by
          change state.running + 1 = _
          simp [sound.counted, active, List.filter_append, notFinished]
        bounded := slotFree
        callers := callers
        balanced := by
          apply balanced_of_busy
          · rcases owes with atMostOne | almostFull
            · left
              rw [shape] at atMostOne
              exact List.length_eq_zero_iff.mp
                (Nat.le_zero.mp (Nat.le_of_succ_le_succ atMostOne))
            · right
              exact Int.le_antisymm slotFree almostFull
          · simp }

/-- Returning to the caller of an executor changes no slot. -/
theorem suspend
    (sound : state.Sound maxConcurrency)
    {executor : Executor}
    {rest : List QueueFrame}
    (executing : state.stack = .executing executor :: rest) :
    Sound maxConcurrency { state with stack := rest } := by
  have callers : ∀ frame ∈ rest, frame ≠ .executeNext := by
    have callers := sound.callers
    rw [executing] at callers
    exact callers
  have busy :=
    busy_of_balanced sound.balanced (by simp [executing])
  exact { sound with
    callers := fun frame member =>
      callers frame (List.mem_of_mem_tail member)
    balanced := by
      apply balanced_of_busy
      · exact busy
      · rintro deeper rfl
        exact callers .executeNext List.mem_cons_self rfl }

/-- A finished executor leaves the active ones and frees its slot. -/
theorem settle_active
    (sound : state.Sound maxConcurrency)
    {executor : Executor}
    (settlement : Settlement)
    (isActive : executor ∈ state.active) :
    (state.settle executor settlement).active.length + 1 =
      state.active.length := by
  have removed :
      (state.settle executor settlement).active =
        state.active.erase executor := by
    have nodup : state.active.Nodup := sound.startedNodup.filter _
    rw [nodup.erase_eq_filter]
    simp only [active, settle, List.filter_filter]
    congr 1
    funext other
    simp [and_comm, bne]
    rfl
  rw [removed, List.length_erase_of_mem isActive]
  exact Nat.sub_add_cancel (List.length_pos_of_mem isActive)

/-- The `finally` block of a resolved or rejected executor owes one start. -/
theorem settle
    (sound : state.Sound maxConcurrency)
    {executor : Executor}
    (settlement : Settlement)
    (idle : state.stack = [])
    (isActive : executor ∈ state.active) :
    (state.settle executor settlement).Sound maxConcurrency := by
  have busy := busy_of_balanced sound.balanced (by simp [idle])
  have wasActive := List.mem_filter.mp isActive
  have notFinished : executor ∉ state.finished := by
    simpa using wasActive.2
  have freed := sound.settle_active settlement isActive
  have counted := sound.counted
  exact {
    ticketed := sound.ticketed
    ordered := sound.ordered
    finishedNodup := by
      change (state.finished ++ [executor]).Nodup
      rw [List.nodup_append]
      refine ⟨sound.finishedNodup, List.nodup_singleton _, ?_⟩
      intro other member last isLast same
      rw [List.mem_singleton.mp isLast] at same
      exact notFinished (same ▸ member)
    finishedStarted := by
      intro other member
      rcases List.mem_append.mp member with earlier | last
      · exact sound.finishedStarted other earlier
      · rw [List.mem_singleton.mp last]
        exact wasActive.1
    counted := by
      change state.running - 1 = _
      omega
    bounded := by
      change state.running - 1 ≤ maxConcurrency
      have bounded := sound.bounded
      omega
    callers := by simp [QueueState.settle]
    balanced := by
      change OwesOneStart maxConcurrency (state.settle executor settlement)
      rcases busy with empty | full
      · left
        change state.queue.length ≤ 1
        simp [empty]
      · right
        change maxConcurrency ≤ state.running - 1 + 1
        omega }

/-- Every stretch of synchronous code keeps the queue sound. -/
theorem step
    {before after : QueueState}
    {action : QueueAction}
    (sound : before.Sound maxConcurrency)
    (taken : Step maxConcurrency before action after) :
    after.Sound maxConcurrency := by
  rcases step_cases taken with
      ⟨taskId, accepts, rfl⟩ | ⟨rest, entered, rfl⟩ |
      ⟨executor, rest, executing, rfl⟩ |
      ⟨executor, settlement, idle, isActive, rfl⟩
  · exact sound.enqueue accepts taskId
  · exact sound.executeNext entered
  · exact sound.suspend executing
  · exact sound.settle settlement idle isActive

/-- Every run from the loaded module keeps the queue sound. -/
theorem run
    (atLeastOne : 1 ≤ maxConcurrency)
    {actions : List QueueAction}
    {final : QueueState}
    (run : Run (Step maxConcurrency) {} actions final) :
    final.Sound maxConcurrency :=
  run.invariant (Sound maxConcurrency)
    (fun _ _ _ sound taken => sound.step taken)
    (initially atLeastOne)

/--
Work conservation: between events as many executors have been started as the
slots and the completions so far allow.
-/
theorem started_length_of_idle
    (sound : state.Sound maxConcurrency)
    (idle : state.Idle) :
    (state.started.length : Int) =
      min (state.enqueued.length : Int)
        (state.finished.length + maxConcurrency) := by
  have busy := busy_of_balanced sound.balanced (by simp [show _ = _ from idle])
  have split :
      state.finished.length + state.active.length =
        state.started.length := by
    have finishedOnes :
        (state.started.filter (· ∈ state.finished)).Perm
          state.finished := by
      rw [List.perm_ext_iff_of_nodup
        (sound.startedNodup.filter _) sound.finishedNodup]
      intro executor
      simp only [List.mem_filter, decide_eq_true_eq]
      exact ⟨And.right, fun member =>
        ⟨sound.finishedStarted _ member, member⟩⟩
    rw [← finishedOnes.length_eq, active]
    have counted :
        state.started.length =
          (state.started.filter (· ∈ state.finished)).length +
            state.active.length := by
      rw [active, List.length_eq_length_filter_add (· ∈ state.finished)]
      simp
    exact counted.symm
  have counted := sound.counted
  have bounded := sound.bounded
  have ordered := congrArg List.length sound.ordered
  rw [List.length_append] at ordered
  rcases busy with empty | full
  · rw [empty, List.length_nil] at ordered
    omega
  · omega

end Sound

/--
Queue correctness, for every run of enqueues and completions: executors start
in the order they were enqueued and each once, `running` counts the started
and unfinished ones and never exceeds the limit, and between events an
executor waits only when all slots are taken.
-/
theorem taskQueue_correct
    (maxConcurrency : Int)
    (atLeastOne : 1 ≤ maxConcurrency)
    (actions : List QueueAction)
    (final : QueueState)
    (run : Run (Step maxConcurrency) {} actions final) :
    final.started <+: final.enqueued ∧
      final.started ++ final.queue = final.enqueued ∧
      final.enqueued.Nodup ∧
      final.running = final.active.length ∧
      final.running ≤ maxConcurrency ∧
      (final.Idle → final.queue ≠ [] → final.running = maxConcurrency) ∧
      (final.Idle →
        (final.started.length : Int) =
          min (final.enqueued.length : Int)
            (final.finished.length + maxConcurrency)) := by
  have sound := Sound.run atLeastOne run
  refine ⟨⟨final.queue, sound.ordered⟩, sound.ordered,
    sound.enqueuedNodup, sound.counted, sound.bounded, ?_,
    sound.started_length_of_idle⟩
  intro idle waiting
  have busy :=
    busy_of_balanced sound.balanced (by simp [show _ = _ from idle])
  exact busy.resolve_left waiting

/--
With one slot, the second of two executors starts from the `finally` block of
the first one although that one is rejected.
-/
theorem taskQueue_correct_rejection :
    ∃ final,
      Run (Step 1) {}
        [.enqueue 7, .executeNext, .suspend, .enqueue 7, .executeNext,
          .settle ⟨7, 0⟩ (.rejected (.text "no image")), .executeNext,
          .suspend]
        final ∧
      final.started = [⟨7, 0⟩, ⟨7, 1⟩] ∧
      final.running ≤ 1 := by
  have run :=
    @Run.of_foldlM _ _ (step? 1) {} _
      [.enqueue 7, .executeNext, .suspend, .enqueue 7, .executeNext,
        .settle ⟨7, 0⟩ (.rejected (.text "no image")), .executeNext,
        .suspend]
      rfl
  exact ⟨_, run, rfl,
    (taskQueue_correct 1 (Int.le_refl 1) _ _ run).2.2.2.2.1⟩

end Prescott.QueueState
