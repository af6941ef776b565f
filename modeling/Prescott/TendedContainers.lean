import Prescott.RunContainers
import Prescott.RunEndings

namespace Prescott

/-!
# The executors of running containers

A container that runs has an executor that waits for it: the one that has
launched it.  So it is as long as no executor goes on before its container has
terminated, which an executor can only do by the inspection that it falls back
to when the wait is refused.
-/

namespace Docker

variable {docker : Docker}
variable {container : Container}
variable {name tag : String}
variable {image : Image}

/-- Containers are told apart by their names, and images by their numbers. -/
structure Sound (docker : Docker) : Prop where
  names : (docker.containers.map Container.name).Nodup
  below : ∀ tag image, docker.images tag = some image → image.id < docker.nextImageId
  tags :
    ∀ tag other image otherImage,
      docker.images tag = some image →
      docker.images other = some otherImage →
      image.id = otherImage.id →
      tag = other
  built : ∀ container ∈ docker.containers, container.imageId < docker.nextImageId

theorem images_build
    {envInfo : EnvInfo}
    {steps : List TaskStep}
    {built : String}
    (isImage : (docker.build built envInfo steps).images tag = some image) :
    (tag = built ∧ image.id = docker.nextImageId) ∨ docker.images tag = some image := by
  by_cases same : tag = built
  · subst same
    simp only [build, Function.update_self, Option.some.injEq] at isImage
    exact .inl ⟨rfl, isImage ▸ rfl⟩
  · simp only [build, Function.update_of_ne same] at isImage
    exact .inr isImage

theorem images_removeImage
    {removed : String}
    (isImage : (docker.removeImage removed).images tag = some image) :
    docker.images tag = some image := by
  by_cases same : tag = removed
  · subst same
    simp [removeImage] at isImage
  · simpa [removeImage, Function.update_of_ne same] using isImage

theorem exists_of_mem_exit
    {exitCode : Int}
    (member : container ∈ (docker.exit name exitCode).containers) :
    ∃ old ∈ docker.containers,
      old.name = container.name ∧ old.imageId = container.imageId ∧
        (container.running = true → container = old ∧ old.name ≠ name) := by
  obtain ⟨old, oldMember, rfl⟩ := List.mem_map.mp member
  refine ⟨old, oldMember, ?_⟩
  split
  · exact ⟨rfl, rfl, nofun⟩
  · rename_i stays
    refine ⟨rfl, rfl, fun running => ⟨rfl, ?_⟩⟩
    rintro rfl
    simp [running] at stays

theorem Sound.build
    (sound : docker.Sound)
    (built : String)
    (envInfo : EnvInfo)
    (steps : List TaskStep) :
    (docker.build built envInfo steps).Sound where
  names := sound.names
  below := by
    intro tag image isImage
    rcases images_build isImage with ⟨_, isNew⟩ | old
    · rw [isNew]
      exact Nat.lt_succ_self _
    · exact Nat.lt_succ_of_lt (sound.below tag image old)
  tags := by
    intro tag other image otherImage isImage isOther same
    rcases images_build isImage with ⟨rfl, isNew⟩ | old
    · rcases images_build isOther with ⟨rfl, _⟩ | otherOld
      · rfl
      · exact absurd (same.symm.trans isNew) (Nat.ne_of_lt (sound.below _ _ otherOld))
    · rcases images_build isOther with ⟨rfl, isNew⟩ | otherOld
      · exact absurd (same.trans isNew) (Nat.ne_of_lt (sound.below _ _ old))
      · exact sound.tags tag other image otherImage old otherOld same
  built := fun container member => Nat.lt_succ_of_lt (sound.built container member)

theorem Sound.removeImage
    (sound : docker.Sound)
    (removed : String) :
    (docker.removeImage removed).Sound where
  names := sound.names
  below := fun tag image isImage => sound.below tag image (images_removeImage isImage)
  tags := fun tag other image otherImage isImage isOther =>
    sound.tags tag other image otherImage (images_removeImage isImage)
      (images_removeImage isOther)
  built := sound.built

theorem Sound.run
    (sound : docker.Sound)
    (isImage : docker.images tag = some image)
    (fresh : docker.containerOf name = none) :
    (docker.run image name).Sound where
  names := by
    simp only [Docker.run, List.map_append, List.map_singleton]
    refine sound.names.append (List.nodup_singleton _) ?_
    rw [List.disjoint_singleton]
    intro listed
    obtain ⟨container, member, sameName⟩ := List.mem_map.mp listed
    have absent := List.find?_eq_none.mp fresh container member
    simp [sameName] at absent
  below := sound.below
  tags := sound.tags
  built := by
    intro container member
    rcases List.mem_append.mp member with old | isNew
    · exact sound.built container old
    · rw [List.mem_singleton.mp isNew]
      exact sound.below tag image isImage

theorem Sound.exit
    (sound : docker.Sound)
    (name : String)
    (exitCode : Int) :
    (docker.exit name exitCode).Sound where
  names := by
    have sameNames :
        (docker.exit name exitCode).containers.map Container.name =
          docker.containers.map Container.name := by
      simp only [Docker.exit, List.map_map]
      refine List.map_congr_left fun container _ => ?_
      simp only [Function.comp_apply]
      split <;> rfl
    rw [sameNames]
    exact sound.names
  below := sound.below
  tags := sound.tags
  built := by
    intro container member
    obtain ⟨old, oldMember, _, sameImage, _⟩ := exists_of_mem_exit member
    rw [← sameImage]
    exact sound.built old oldMember

theorem Sound.removeContainer
    (sound : docker.Sound)
    (name : String) :
    (docker.removeContainer name).Sound where
  names := sound.names.sublist (List.filter_sublist.map _)
  below := sound.below
  tags := sound.tags
  built := fun container member => sound.built container (List.mem_filter.mp member).1

theorem Sound.empty : Docker.empty.Sound where
  names := List.nodup_nil
  below := nofun
  tags := nofun
  built := nofun

/-- The container that is found under a name is the only one of this name. -/
theorem Sound.containerOf_eq
    (sound : docker.Sound)
    (member : container ∈ docker.containers) :
    docker.containerOf container.name = some container := by
  have isThere : (docker.containerOf container.name).isSome = true := by
    simpa [containerOf] using ⟨container, member, rfl⟩
  obtain ⟨found, isFound⟩ := Option.isSome_iff_exists.mp isThere
  unfold containerOf at isFound ⊢
  have sameName : found.name = container.name := by simpa using List.find?_some isFound
  rw [isFound,
    List.inj_on_of_nodup_map sound.names (List.mem_of_find?_eq_some isFound) member
      sameName]

end Docker

/-- Where a running container and an image of docker come from. -/
structure Docker.Runs (op : TaskOp) (input : TaskInput) (before after : Docker) : Prop where
  container :
    ∀ container ∈ after.containers,
      container.running = true →
      container ∈ before.containers ∨
        ∃ envId limitations image,
          op = .runEnv envId limitations ∧
            input = .container container.name ∧
            before.images envId = some image ∧
            container.imageId = image.id
  image :
    ∀ tag image,
      after.images tag = some image →
      before.images tag = some image ∨ image.id = before.nextImageId

theorem dockerRuns_of_answered
    {config : TaskServerConfig}
    {op : TaskOp}
    {input : TaskInput}
    {before after : TaskState}
    {answer : Except AppError op.Result}
    (sound : before.docker.Sound)
    (answered : taskHost config op input before = some (answer, after)) :
    after.docker.Sound ∧ Docker.Runs op input before.docker after.docker := by
  have step := TaskState.dockerStep_of_answered answered
  generalize after.docker = docker at step ⊢
  cases step with
  | same =>
      exact ⟨sound, fun _ member _ => .inl member, fun _ _ isImage => .inl isImage⟩
  | build =>
      refine ⟨sound.build _ _ _, fun _ member _ => .inl member, fun tag image isImage => ?_⟩
      exact (Docker.images_build isImage).symm.imp_right And.right
  | removeImage =>
      exact ⟨sound.removeImage _, fun _ member _ => .inl member,
        fun _ _ isImage => .inl (Docker.images_removeImage isImage)⟩
  | run given isImage fresh =>
      refine ⟨sound.run isImage fresh, fun container member _ => ?_,
        fun _ _ isImage => .inl isImage⟩
      rcases List.mem_append.mp member with old | isNew
      · exact .inl old
      · rw [List.mem_singleton.mp isNew]
        exact .inr ⟨_, _, _, rfl, given, isImage, rfl⟩
  | exit =>
      refine ⟨sound.exit _ _, fun container member running => .inl ?_,
        fun _ _ isImage => .inl isImage⟩
      obtain ⟨old, oldMember, _, _, stays⟩ := Docker.exists_of_mem_exit member
      rw [(stays running).1]
      exact oldMember
  | removeContainer =>
      exact ⟨sound.removeContainer _,
        fun _ member _ => .inl (List.mem_filter.mp member).1,
        fun _ _ isImage => .inl isImage⟩

/-- The container that an executor waits for. -/
def TaskPhase.tends? : TaskPhase → Option String
  | .marking container _ | .waiting container _ => some container
  | _ => none

namespace TaskView

/-- An executor of the task of a container waits for it. -/
def IsTended (view : TaskView) (container : Container) : Prop :=
  ∃ pid runHandle phase,
    view.progress pid = some ⟨.executor runHandle, phase⟩ ∧
      phase.tends? = some container.name ∧
        ∀ tag image,
          view.shared.docker.images tag = some image →
          image.id = container.imageId →
          tag = buildTaskIdentifier runHandle.taskId

/-- Every running container is tended. -/
structure Tends (view : TaskView) : Prop where
  sound : view.shared.docker.Sound
  tended :
    ∀ container ∈ view.shared.docker.containers,
      container.running = true → view.IsTended container

/-- The container whose exit code is inspected has terminated. -/
def InspectsTerminated (docker : Docker) (op : TaskOp) : Prop :=
  ∀ name,
    op = .dockerInspectExitCode name →
    ∀ container ∈ docker.containers,
      container.name = name → container.running = false

variable {config : TaskServerConfig}
variable {view : TaskView}
variable {pid : Nat}
variable {call : TaskCall}
variable {phase : TaskPhase}
variable {op : TaskOp}
variable {input : TaskInput}
variable {answer : Except AppError op.Result}
variable {shared : TaskState}
variable {runHandle : TaskRunHandle}
variable {container : Container}

/-- An executor goes on waiting while its container runs. -/
theorem tends_advance
    (sound : view.shared.docker.Sound)
    (inspects : InspectsTerminated view.shared.docker op)
    (permitted : phase.permits (.executor runHandle) op)
    (answered : taskHost config op input view.shared = some (answer, shared))
    (member : container ∈ view.shared.docker.containers)
    (running : container.running = true)
    (tends : phase.tends? = some container.name) :
    (phase.advance (.executor runHandle) op answer).tends? = some container.name := by
  cases phase with
  | marking name times =>
      obtain ⟨_, _, rfl⟩ := permitted
      cases answered
      exact tends
  | waiting name times =>
      cases tends
      rcases permitted with rfl | rfl
      · rcases answer with reason | exitCode
        · rfl
        · -- the wait only returns once the container has terminated
          rcases TaskState.command_cases answered with ⟨⟨_, _, failed⟩, _⟩ | ⟨_, _, done, _, _⟩
          · cases failed
          · simp [sound.containerOf_eq member, running] at done
      · rw [inspects _ rfl container member rfl] at running
        cases running
  | _ => cases tends

/-- A container is given to the executor that launches it. -/
theorem tends_launched
    {envId : String}
    {limitations : Option Limitations}
    {name : String}
    (permitted : phase.permits call (.runEnv envId limitations))
    (given : input = .container name)
    {answer : Except AppError (TaskOp.runEnv envId limitations).Result}
    (answered :
      taskHost config (.runEnv envId limitations) input view.shared =
        some (answer, shared)) :
    ∃ runHandle,
      call = .executor runHandle ∧
        envId = buildTaskIdentifier runHandle.taskId ∧
        (phase.advance call (.runEnv envId limitations) answer).tends? = some name := by
  obtain ⟨runHandle, taskConfig, rfl, rfl, isTask⟩ :=
    TaskPhase.launching_of_permits permitted
  refine ⟨runHandle, rfl, isTask, ?_⟩
  have served : input.refuses = false := by
    rw [given]
    rfl
  obtain ⟨launched, rfl⟩ := TaskState.resolved_of_command answered served
  cases given.symm.trans (TaskState.container_of_run answered).1
  rfl

/-- A move in which an operation is answered. -/
theorem Tends.answered
    (tends : view.Tends)
    (inspects :
      ∀ runHandle,
        call = .executor runHandle → InspectsTerminated view.shared.docker op)
    (present : view.progress pid = some ⟨call, phase⟩)
    (permitted : phase.permits call op)
    (answered : taskHost config op input view.shared = some (answer, shared)) :
    TaskView.Tends (view.place pid ⟨call, phase.advance call op answer⟩ shared) := by
  obtain ⟨sound, runs⟩ := dockerRuns_of_answered tends.sound answered
  refine ⟨sound, fun container member running => ?_⟩
  change container ∈ shared.docker.containers at member
  rcases runs.container container member running with
      old | ⟨envId, limitations, image, rfl, given, isImage, sameId⟩
  · obtain ⟨other, runHandle, otherPhase, found, isTended, tags⟩ :=
      tends.tended container old running
    have sameTags :
        ∀ tag image,
          shared.docker.images tag = some image →
          image.id = container.imageId →
          tag = buildTaskIdentifier runHandle.taskId := by
      intro tag image isImage same
      rcases runs.image tag image isImage with before | isNew
      · exact tags tag image before same
      · exact absurd (same.symm.trans isNew)
          (Nat.ne_of_lt (tends.sound.built container old))
    by_cases isPid : other = pid
    · subst isPid
      rw [present] at found
      cases found
      exact ⟨other, runHandle, _, Function.update_self ..,
        tends_advance tends.sound (inspects runHandle rfl) permitted answered old running
          isTended,
        sameTags⟩
    · exact ⟨other, runHandle, otherPhase,
        (Function.update_of_ne isPid ..).trans found, isTended, sameTags⟩
  · obtain ⟨runHandle, rfl, rfl, isTended⟩ := tends_launched permitted given answered
    refine ⟨pid, runHandle, _, Function.update_self .., isTended,
      fun tag other isOther same => ?_⟩
    change shared.docker.images tag = some other at isOther
    rcases runs.image tag other isOther with before | isNew
    · exact tends.sound.tags tag _ other image before isImage (same.trans sameId)
    · exact absurd (isNew.symm.trans (same.trans sameId))
        (Nat.ne_of_gt (tends.sound.below _ image isImage))

/-- A container may terminate at any time; no other call begins with one. -/
theorem Tends.begun
    (tends : view.Tends)
    (fresh : view.progress pid = none)
    (begun : beginTaskCall config call view.shared = some shared) :
    TaskView.Tends (view.place pid ⟨call, taskProtocol.start call⟩ shared) := by
  have stays
      (sound : shared.docker.Sound)
      (images : shared.docker.images = view.shared.docker.images)
      (running :
        ∀ container ∈ shared.docker.containers,
          container.running = true → container ∈ view.shared.docker.containers) :
      TaskView.Tends (view.place pid ⟨call, taskProtocol.start call⟩ shared) := by
    refine ⟨sound, fun container member isRunning => ?_⟩
    obtain ⟨other, runHandle, phase, found, isTended, tags⟩ :=
      tends.tended container (running container member isRunning) isRunning
    have isOther : other ≠ pid := by
      rintro rfl
      rw [fresh] at found
      cases found
    refine ⟨other, runHandle, phase, (Function.update_of_ne isOther ..).trans found,
      isTended, ?_⟩
    change ∀ tag image, shared.docker.images tag = some image → _
    rw [images]
    exact tags
  cases begins_of_begun begun with
  | exit =>
      refine stays (tends.sound.exit _ _) rfl fun container member isRunning => ?_
      obtain ⟨old, oldMember, _, _, same⟩ := Docker.exists_of_mem_exit member
      rw [(same isRunning).1]
      exact oldMember
  | _ => exact stays tends.sound rfl fun _ member _ => member

theorem Tends.initially :
    TaskView.Tends (.initial taskProtocol .initial) where
  sound := .empty
  tended := by
    rintro container ⟨⟩

end TaskView

end Prescott
