import Prescott.RunConsumers

namespace Prescott

/-!
# The entries of the runs

The file of a run holds what the one consumer of its kind has written, in this
order, unless the task has been flushed.
-/

/-- What an event writes of the entries of a consumer. -/
def FileEvent.entryBy (kind : EntryKind) (position : Nat) :
    FileEvent → Option kind.Entry
  | .write writer writtenKind entry =>
      if same : writtenKind = kind ∧ writer = position then
        some (same.1 ▸ entry)
      else
        none
  | _ => none

@[simp] theorem FileEvent.entryBy_self
    {kind : EntryKind}
    (position : Nat)
    (entry : kind.Entry) :
    (FileEvent.write position kind entry).entryBy kind position = some entry :=
  dif_pos ⟨rfl, rfl⟩

theorem FileEvent.entryBy_of_ne
    {kind own : EntryKind}
    {position other : Nat}
    (entry : kind.Entry)
    (isOther : ¬(kind = own ∧ position = other)) :
    (FileEvent.write position kind entry).entryBy own other = none :=
  dif_neg isOther

/-- What a consumer has written in the course of the events. -/
def writtenBy (kind : EntryKind) (position : Nat) (events : List FileEvent) :
    List kind.Entry :=
  events.filterMap (FileEvent.entryBy kind position)

namespace RunFiles

variable {config : TaskServerConfig}
variable {mayFail : TaskOp → Bool}
variable {before after files : RunFiles}
variable {events : List FileEvent}

/-- A consumer after a turn is one from before it, or it is new. -/
theorem consumer_of_turn
    {files : RunFiles}
    {removed : Option (EntryKind × Nat)}
    {dispatched : List Consumer}
    {position : Nat}
    {consumer : Consumer}
    (present :
      (files.consumers.map (RunFiles.unlink removed) ++ dispatched)[position]? =
        some consumer) :
    (∃ earlier,
        files.consumers[position]? = some earlier ∧
          consumer = RunFiles.unlink removed earlier) ∨
      (files.consumers.length ≤ position ∧ consumer ∈ dispatched) := by
  rw [List.getElem?_append] at present
  split at present
  next =>
    rw [List.getElem?_map] at present
    obtain ⟨earlier, isEarlier, rfl⟩ := Option.map_eq_some_iff.mp present
    exact .inl ⟨earlier, isEarlier, rfl⟩
  next isNew =>
    exact .inr ⟨by simpa using isNew, List.mem_of_getElem? present⟩

theorem consumer_kept
    {files : RunFiles}
    {removed : Option (EntryKind × Nat)}
    {dispatched : List Consumer}
    {position : Nat}
    {consumer : Consumer}
    (present : files.consumers[position]? = some consumer) :
    (files.consumers.map (RunFiles.unlink removed) ++ dispatched)[position]? =
      some (RunFiles.unlink removed consumer) := by
  obtain ⟨inRange, _⟩ := List.getElem?_eq_some_iff.mp present
  rw [List.getElem?_append_left (by simpa using inRange), List.getElem?_map, present]
  rfl

theorem unlink_none
    (consumer : Consumer) :
    RunFiles.unlink none consumer = consumer := by
  simp [RunFiles.unlink]

/-- A consumer keeps its kind and its run. -/
theorem unlink_shape
    (removed : Option (EntryKind × Nat))
    (consumer : Consumer) :
    ∃ stage, RunFiles.unlink removed consumer = { consumer with stage } := by
  unfold RunFiles.unlink
  split
  · exact ⟨.unlinked, rfl⟩
  · exact ⟨consumer.stage, rfl⟩

/-- A consumer that still writes after a removal has not lost its file. -/
theorem writing_of_unlink
    {removed : EntryKind × Nat}
    {consumer : Consumer}
    (isWriting : (RunFiles.unlink (some removed) consumer).stage = .writing) :
    RunFiles.unlink (some removed) consumer = consumer ∧ consumer.stage = .writing ∧
      removed ≠ (consumer.kind, consumer.runHandle.taskId) := by
  unfold RunFiles.unlink at isWriting ⊢
  split at isWriting
  next => cases isWriting
  next kept =>
    rw [if_neg kept]
    exact ⟨rfl, isWriting, fun same => kept ⟨isWriting, congrArg some same⟩⟩

theorem stage_of_registered
    {files : RunFiles}
    {turn : Turn TaskCall (TaskInput ⊕ AppError)}
    {consumer : Consumer}
    (dispatched : consumer ∈ files.registered turn) :
    consumer.stage = .ensuring := by
  unfold RunFiles.registered at dispatched
  split at dispatched
  · split at dispatched
    · split at dispatched
      · rcases List.mem_pair.mp dispatched with rfl | rfl <;> rfl
      · cases dispatched
    · cases dispatched
  · cases dispatched

theorem place_cases
    {files : RunFiles}
    {position other : Nat}
    {consumer otherConsumer : Consumer}
    {stage : ConsumerStage}
    (present :
      (files.place position consumer stage).consumers[other]? = some otherConsumer) :
    (other = position ∧ otherConsumer = { consumer with stage }) ∨
      (other ≠ position ∧ files.consumers[other]? = some otherConsumer) := by
  change (files.consumers.set position _)[other]? = _ at present
  rw [List.getElem?_set] at present
  split at present
  next same =>
    split at present
    · exact .inl ⟨same.symm, (Option.some.inj present).symm⟩
    · cases present
  next different => exact .inr ⟨Ne.symm different, present⟩

theorem place_other
    {files : RunFiles}
    {position other : Nat}
    (different : other ≠ position)
    (consumer : Consumer)
    (stage : ConsumerStage) :
    (files.place position consumer stage).consumers[other]? = files.consumers[other]? :=
  List.getElem?_set_ne (Ne.symm different)

theorem place_self
    {files : RunFiles}
    {position : Nat}
    {consumer : Consumer}
    (present : files.consumers[position]? = some consumer)
    (stage : ConsumerStage) :
    (files.place position consumer stage).consumers[position]? =
      some { consumer with stage } :=
  List.getElem?_set_self (List.getElem?_eq_some_iff.mp present).1

/-- What may be stored for a consumer that has written these entries. -/
def KeptAt {Entry : Type} (written : List Entry) (stored : Option (List Entry)) :
    ConsumerStage → Prop
  | .ensuring => stored = none ∧ written = []
  | .opening => stored = none ∧ written = []
  | .writing => stored = some written
  | .unlinked => stored = none
  | .finished => stored = none ∨ stored = some written

/-- Nothing is kept but what a consumer has written. -/
theorem KeptAt.eq_written
    {Entry : Type}
    {written entries : List Entry}
    {stored : Option (List Entry)}
    {stage : ConsumerStage}
    (kept : KeptAt written stored stage)
    (isStored : stored = some entries) :
    entries = written := by
  subst isStored
  cases stage with
  | ensuring => cases kept.1
  | opening => cases kept.1
  | writing => exact Option.some.inj kept
  | unlinked => cases kept
  | finished =>
      rcases kept with isNone | isSome
      · cases isNone
      · exact Option.some.inj isSome

theorem KeptAt.finished
    {Entry : Type}
    {written : List Entry}
    {stored : Option (List Entry)}
    {stage : ConsumerStage}
    (kept : KeptAt written stored stage) :
    KeptAt written stored .finished := by
  cases stage with
  | ensuring => exact .inl kept.1
  | opening => exact .inl kept.1
  | writing => exact .inr kept
  | unlinked => exact .inl kept
  | finished => exact kept

/-- After a removal nothing is stored, whatever has been written. -/
theorem KeptAt.unlink
    {Entry : Type}
    {written : List Entry}
    {stored : Option (List Entry)}
    {consumer : Consumer}
    (kept : KeptAt written stored consumer.stage)
    (removed : EntryKind × Nat)
    (isOwn : removed = (consumer.kind, consumer.runHandle.taskId)) :
    KeptAt written none (RunFiles.unlink (some removed) consumer).stage := by
  subst isOwn
  obtain ⟨kind, runHandle, stage⟩ := consumer
  cases stage with
  | ensuring => exact ⟨rfl, kept.2⟩
  | opening => exact ⟨rfl, kept.2⟩
  | writing => simp [RunFiles.unlink, KeptAt]
  | unlinked => simp [RunFiles.unlink, KeptAt]
  | finished => exact .inl rfl

/-- Every entry that is stored goes back to a write of the consumer of its run. -/
structure WritesKept (events : List FileEvent) (files : RunFiles) : Prop where
  sole : files.SoleConsumers
  kept :
    ∀ position consumer,
      files.consumers[position]? = some consumer →
      KeptAt (writtenBy consumer.kind position events)
        (files.calls.shared.entries? consumer.kind consumer.runHandle.taskId
          consumer.runHandle.runId)
        consumer.stage
  consumed :
    ∀ kind taskId runId,
      files.calls.shared.entries? kind taskId runId ≠ none →
      ∃ (position : Nat) (consumer : Consumer),
        files.consumers[position]? = some consumer ∧ consumer.kind = kind ∧
          consumer.runHandle.taskId = taskId ∧ consumer.runHandle.runId = runId
  unwritten :
    ∀ kind position,
      files.consumers.length ≤ position → writtenBy kind position events = []

@[simp] theorem writtenBy_snoc
    (kind : EntryKind)
    (position : Nat)
    (event : FileEvent) :
    writtenBy kind position (events ++ [event]) =
      writtenBy kind position events ++ (event.entryBy kind position).toList := by
  rw [writtenBy, List.filterMap_append, writtenBy]
  cases written : event.entryBy kind position <;> simp [written]

theorem set_same
    {consumers : List Consumer}
    {position : Nat}
    {consumer : Consumer}
    (present : consumers[position]? = some consumer) :
    consumers.set position consumer = consumers := by
  obtain ⟨inRange, rfl⟩ := List.getElem?_eq_some_iff.mp present
  exact List.set_getElem_self inRange

/-- What a turn leaves of the entries, and what it dispatches. -/
theorem WritesKept.turned
    {turn : Turn TaskCall (TaskInput ⊕ AppError)}
    {calls : Interleaving TaskState taskProtocol}
    (writes : WritesKept events before)
    (stepped :
      before.calls.step? ((taskServices config).failing mayFail) turn = some calls) :
    WritesKept (events ++ [.turn turn])
      { calls
        directories :=
          before.directories.filter fun directory =>
            before.flushed turn ≠ some directory
        consumers :=
          before.consumers.map (unlink (before.flushed turn)) ++
            before.registered turn } := by
  have sole := writes.sole.turned stepped
  have stored := entries_of_turn stepped
  have sameWrites (kind : EntryKind) (position : Nat) :
      writtenBy kind position (events ++ [.turn turn]) =
        writtenBy kind position events := by
    rw [writtenBy_snoc]
    exact List.append_nil _
  have storedBefore {kind : EntryKind} {taskId runId : Nat}
      (isStored : calls.shared.entries? kind taskId runId ≠ none) :
      before.calls.shared.entries? kind taskId runId ≠ none := by
    rw [stored] at isStored
    split at isStored
    · exact (isStored rfl).elim
    · exact isStored
  refine ⟨sole, ?_, ?_, ?_⟩
  · intro position consumer present
    rw [sameWrites]
    rcases consumer_of_turn present with
        ⟨earlier, isEarlier, rfl⟩ | ⟨isNew, dispatched⟩
    · have keptBefore := writes.kept position earlier isEarlier
      obtain ⟨stage, shape⟩ := unlink_shape (before.flushed turn) earlier
      rw [shape]
      change KeptAt _ (calls.shared.entries? earlier.kind earlier.runHandle.taskId
        earlier.runHandle.runId) stage
      rw [stored]
      split
      next isOwn =>
        have unlinked := keptBefore.unlink _ rfl
        rw [← isOwn, shape] at unlinked
        exact unlinked
      next isOther =>
        have same : RunFiles.unlink (before.flushed turn) earlier = earlier :=
          if_neg fun lost => isOther lost.2
        rw [same] at shape
        rw [shape] at keptBefore
        exact keptBefore
    · rw [writes.unwritten consumer.kind position isNew, stage_of_registered dispatched]
      refine ⟨?_, rfl⟩
      by_contra isStored
      obtain ⟨earlierPosition, earlier, isEarlier, sameKind, _, sameRun⟩ :=
        writes.consumed _ _ _ (storedBefore isStored)
      have same :=
        sole.eq_of_file (consumer_kept isEarlier) present
          (by obtain ⟨stage, shape⟩ := unlink_shape (before.flushed turn) earlier
              rw [shape]
              exact sameKind)
          (by obtain ⟨stage, shape⟩ := unlink_shape (before.flushed turn) earlier
              rw [shape]
              exact sameRun)
      obtain ⟨inRange, _⟩ := List.getElem?_eq_some_iff.mp isEarlier
      omega
  · intro kind taskId runId isStored
    obtain ⟨position, consumer, present, isKind, isTask, isRun⟩ :=
      writes.consumed kind taskId runId (storedBefore isStored)
    obtain ⟨stage, shape⟩ := unlink_shape (before.flushed turn) consumer
    refine ⟨position, _, consumer_kept present, ?_⟩
    rw [shape]
    exact ⟨isKind, isTask, isRun⟩
  · intro kind position isNew
    rw [sameWrites]
    refine writes.unwritten kind position ?_
    rw [List.length_append, List.length_map] at isNew
    omega

/-- One consumer goes on, and only its own entries change. -/
theorem WritesKept.advance
    {event : FileEvent}
    {position : Nat}
    {consumer : Consumer}
    {stage : ConsumerStage}
    (writes : WritesKept events before)
    (sole : after.SoleConsumers)
    (present : before.consumers[position]? = some consumer)
    (consumers :
      after.consumers = before.consumers.set position { consumer with stage })
    (own :
      KeptAt (writtenBy consumer.kind position (events ++ [event]))
        (after.calls.shared.entries? consumer.kind consumer.runHandle.taskId
          consumer.runHandle.runId)
        stage)
    (others :
      ∀ kind taskId runId,
        ¬(kind = consumer.kind ∧ taskId = consumer.runHandle.taskId ∧
          runId = consumer.runHandle.runId) →
        after.calls.shared.entries? kind taskId runId =
          before.calls.shared.entries? kind taskId runId)
    (notWritten : ∀ kind other, other ≠ position → event.entryBy kind other = none) :
    WritesKept (events ++ [event]) after := by
  have sameWrites {kind : EntryKind} {other : Nat} (isOther : other ≠ position) :
      writtenBy kind other (events ++ [event]) = writtenBy kind other events := by
    rw [writtenBy_snoc, notWritten kind other isOther]
    exact List.append_nil _
  have inRange := (List.getElem?_eq_some_iff.mp present).1
  have atPosition : after.consumers[position]? = some { consumer with stage } := by
    rw [consumers, List.getElem?_set_self inRange]
  have elsewhere {other : Nat} (isOther : other ≠ position) :
      after.consumers[other]? = before.consumers[other]? := by
    rw [consumers, List.getElem?_set_ne (Ne.symm isOther)]
  refine ⟨sole, ?_, ?_, ?_⟩
  · intro other otherConsumer otherPresent
    by_cases isPosition : other = position
    · subst isPosition
      rw [atPosition] at otherPresent
      cases otherPresent
      exact own
    · have otherFile :
          ¬(otherConsumer.kind = consumer.kind ∧
            otherConsumer.runHandle.taskId = consumer.runHandle.taskId ∧
            otherConsumer.runHandle.runId = consumer.runHandle.runId) :=
        fun ⟨sameKind, _, sameRun⟩ =>
          isPosition (sole.eq_of_file otherPresent atPosition sameKind sameRun)
      rw [others _ _ _ otherFile, sameWrites isPosition]
      rw [elsewhere isPosition] at otherPresent
      exact writes.kept other otherConsumer otherPresent
  · intro kind taskId runId isStored
    by_cases isOwn :
        kind = consumer.kind ∧ taskId = consumer.runHandle.taskId ∧
          runId = consumer.runHandle.runId
    · exact ⟨position, _, atPosition, isOwn.1.symm, isOwn.2.1.symm, isOwn.2.2.symm⟩
    · rw [others _ _ _ isOwn] at isStored
      obtain ⟨other, otherConsumer, otherPresent, owner⟩ :=
        writes.consumed kind taskId runId isStored
      refine ⟨other, otherConsumer, ?_, owner⟩
      rw [elsewhere, otherPresent]
      rintro rfl
      rw [present] at otherPresent
      cases otherPresent
      exact isOwn ⟨owner.1.symm, owner.2.1.symm, owner.2.2.symm⟩
  · intro kind other isNew
    rw [consumers, List.length_set] at isNew
    rw [sameWrites (by omega)]
    exact writes.unwritten kind other isNew

/-- Whatever happens, the entries are those that their consumers have written. -/
theorem WritesKept.step
    {event : FileEvent}
    (writes : WritesKept events before)
    (stepped : before.step? config mayFail event = some after) :
    WritesKept (events ++ [event]) after := by
  have sole := writes.sole.step stepped
  cases event with
  | turn turn =>
      obtain ⟨calls, turned, rfl⟩ := Option.map_eq_some_iff.mp stepped
      exact writes.turned turned
  | ensureDirectory position =>
      simp only [step?] at stepped
      split at stepped
      next consumer present =>
        split at stepped <;> cases stepped
        next isEnsuring =>
          have keptBefore := writes.kept position consumer present
          rw [isEnsuring] at keptBefore
          refine writes.advance sole present rfl ⟨keptBefore.1, ?_⟩
            (fun _ _ _ _ => rfl) fun _ _ _ => rfl
          rw [writtenBy_snoc, keptBefore.2]
          rfl
      next => cases stepped
  | openFile position =>
      simp only [step?] at stepped
      split at stepped
      next consumer present =>
        split at stepped
        next isOpening =>
          have keptBefore := writes.kept position consumer present
          rw [isOpening] at keptBefore
          split at stepped <;> cases stepped
          · refine writes.advance sole present rfl ?_ (fun _ _ _ isOther => ?_)
              fun _ _ _ => rfl
            · rw [writtenBy_snoc, keptBefore.2]
              exact TaskState.entries?_writeEntries_self _ _
            · exact TaskState.entries?_writeEntries_of_ne _ _ isOther
          · exact writes.advance sole present rfl (.inl keptBefore.1)
              (fun _ _ _ _ => rfl) fun _ _ _ => rfl
        next => cases stepped
      next => cases stepped
  | write position kind entry =>
      have notWritten (own : EntryKind) (other : Nat) (isOther : other ≠ position) :
          (FileEvent.write position kind entry).entryBy own other = none :=
        FileEvent.entryBy_of_ne entry fun same => isOther same.2.symm
      simp only [step?] at stepped
      split at stepped
      next ownKind runHandle present =>
        split at stepped
        next sameKind =>
          subst sameKind
          obtain ⟨entries, isStored, rfl⟩ := Option.map_eq_some_iff.mp stepped
          have keptBefore := writes.kept position _ present
          change TaskState.entries? _ _ _ _ = _ at keptBefore
          rw [isStored] at keptBefore
          refine writes.advance sole present (set_same present).symm ?_
            (fun _ _ _ isOther => TaskState.entries?_writeEntries_of_ne _ _ isOther)
            notWritten
          rw [writtenBy_snoc, FileEvent.entryBy_self, ← Option.some.inj keptBefore]
          exact TaskState.entries?_writeEntries_self _ _
        next => cases stepped
      next ownKind runHandle present =>
        cases stepped
        have keptBefore := writes.kept position _ present
        exact writes.advance sole present (set_same present).symm keptBefore
          (fun _ _ _ _ => rfl) notWritten
      next => cases stepped
  | finish position =>
      simp only [step?] at stepped
      split at stepped
      next consumer present =>
        cases stepped
        have keptBefore := writes.kept position consumer present
        refine writes.advance sole present rfl ?_ (fun _ _ _ _ => rfl) fun _ _ _ => rfl
        rw [writtenBy_snoc]
        exact (List.append_nil (writtenBy consumer.kind position events)).symm ▸
          keptBefore.finished
      next => cases stepped

/-- A consumer stays at its position, and keeps its kind and its run. -/
theorem consumer_of_step
    {event : FileEvent}
    {position : Nat}
    {consumer : Consumer}
    (stepped : before.step? config mayFail event = some after)
    (present : before.consumers[position]? = some consumer) :
    ∃ stage, after.consumers[position]? = some { consumer with stage } := by
  have placed (other : Nat) (otherConsumer : Consumer) (stage : ConsumerStage)
      (otherPresent : before.consumers[other]? = some otherConsumer) :
      ∃ stage',
        (before.place other otherConsumer stage).consumers[position]? =
          some { consumer with stage := stage' } := by
    by_cases same : position = other
    · subst same
      rw [present] at otherPresent
      cases otherPresent
      exact ⟨stage, place_self present stage⟩
    · rw [place_other same, present]
      exact ⟨consumer.stage, rfl⟩
  cases event with
  | turn turn =>
      obtain ⟨calls, _, rfl⟩ := Option.map_eq_some_iff.mp stepped
      obtain ⟨stage, shape⟩ := unlink_shape (before.flushed turn) consumer
      exact ⟨stage, (consumer_kept present).trans (congrArg some shape)⟩
  | ensureDirectory other =>
      simp only [step?] at stepped
      split at stepped
      next otherPresent =>
        split at stepped <;> cases stepped
        exact placed other _ .opening otherPresent
      next => cases stepped
  | openFile other =>
      simp only [step?] at stepped
      split at stepped
      next otherPresent =>
        split at stepped
        next =>
          split at stepped <;> cases stepped
          · exact placed other _ .writing otherPresent
          · exact placed other _ .finished otherPresent
        next => cases stepped
      next => cases stepped
  | write other kind entry =>
      simp only [step?] at stepped
      split at stepped
      next =>
        split at stepped
        next =>
          obtain ⟨entries, _, rfl⟩ := Option.map_eq_some_iff.mp stepped
          exact ⟨consumer.stage, present⟩
        next => cases stepped
      next =>
        cases stepped
        exact ⟨consumer.stage, present⟩
      next => cases stepped
  | finish other =>
      simp only [step?] at stepped
      split at stepped
      next otherPresent =>
        cases stepped
        exact placed other _ .finished otherPresent
      next => cases stepped

theorem writesKept_initial : WritesKept [] initial where
  sole := soleConsumers_initial
  kept := by
    intro position consumer present
    cases present
  consumed := by
    intro kind taskId runId isStored
    cases kind <;> exact (isStored rfl).elim
  unwritten := fun _ _ _ => rfl

end RunFiles

end Prescott
