import Prescott.FileTree
import Prescott.PosixPaths
import Prescott.RunEntries

namespace Prescott

/-!
# The data on disk

The consumers and the flushes work on paths below the directory of the server.
Here they work on a tree of files, and the text that stands at the path of a run
is always the one of the entries that are stored for it.
-/

/-- The directory of the entries of a kind. -/
def EntryKind.directoryName : EntryKind → String
  | .log => "log"
  | .metric => "metric"

/-- The directory of a task, and the file of a run in it. -/
def buildFilePath
    (workDir : List Char)
    (kind : EntryKind)
    (taskId runId : Nat) :
    List Char × List Char :=
  let directory :=
    PosixPath.join
      [workDir, "data".toList, kind.directoryName.toList, taskId.repr.toList]
  (directory, PosixPath.join [directory, (runId.repr ++ ".json").toList])

/-- The directory and the file of the logs of a run. -/
def buildLogFilePath (workDir : List Char) (runHandle : TaskRunHandle) :
    List Char × List Char :=
  buildFilePath workDir .log runHandle.taskId runHandle.runId

/-- The directory and the file of the metrics of a run. -/
def buildMetricFilePath (workDir : List Char) (runHandle : TaskRunHandle) :
    List Char × List Char :=
  buildFilePath workDir .metric runHandle.taskId runHandle.runId

/-- Where the server keeps its data, and how it writes an entry. -/
structure DataLayout where
  cwd : List Char
  workDir : List Char
  /-- `JSON.stringify(entry) + '\n'` -/
  line : (kind : EntryKind) → kind.Entry → List Char

namespace DataLayout

/-- The location of the data of a kind. -/
def kindDirectory (layout : DataLayout) (kind : EntryKind) : List PosixPath.Segment :=
  [kind.directoryName.toList, "data".toList] ++
    PosixPath.resolved layout.cwd layout.workDir

/-- Where the directory of a task leads to. -/
def directory (layout : DataLayout) (kind : EntryKind) (taskId : Nat) :
    List PosixPath.Segment :=
  PosixPath.resolved layout.cwd (buildFilePath layout.workDir kind taskId 0).1

/-- Where the file of a run leads to. -/
def file (layout : DataLayout) (kind : EntryKind) (taskId runId : Nat) :
    List PosixPath.Segment :=
  PosixPath.resolved layout.cwd (buildFilePath layout.workDir kind taskId runId).2

/-- The text of the entries that are stored for a run. -/
def stored
    (layout : DataLayout)
    (state : TaskState)
    (kind : EntryKind)
    (taskId runId : Nat) :
    Option (List Char) :=
  (state.entries? kind taskId runId).map fun entries =>
    entries.flatMap (layout.line kind)

theorem isName_of_isDigit
    {name : PosixPath.Segment}
    (nonempty : name ≠ [])
    (areDigits : ∀ char ∈ name, char.isDigit = true) :
    PosixPath.IsName name := by
  refine ⟨nonempty, ?_, ?_⟩
  · rintro rfl
    cases areDigits '.' (by simp)
  · rintro rfl
    cases areDigits '.' (by simp [PosixPath.parentSegment])

theorem isDigit_of_mem_repr
    {number : Nat}
    {char : Char}
    (member : char ∈ number.repr.toList) :
    char.isDigit = true := by
  rw [Nat.toList_repr] at member
  exact Nat.isDigit_of_mem_toDigits (by decide) (by decide) member

theorem isName_repr
    (number : Nat) :
    PosixPath.IsName number.repr.toList :=
  isName_of_isDigit (by simp [Nat.toDigits_ne_nil]) fun _ => isDigit_of_mem_repr

theorem slash_notMem_repr
    (number : Nat) :
    '/' ∉ number.repr.toList :=
  fun member => by cases isDigit_of_mem_repr member

theorem directory_eq
    (layout : DataLayout)
    (kind : EntryKind)
    (taskId : Nat) :
    layout.directory kind taskId = taskId.repr.toList :: layout.kindDirectory kind := by
  have areNames :
      ∀ segment ∈ ["data".toList, kind.directoryName.toList, taskId.repr.toList],
        PosixPath.IsName segment ∧ '/' ∉ segment := by
    simp only [List.forall_mem_cons]
    refine ⟨?_, ?_, ⟨isName_repr taskId, slash_notMem_repr taskId⟩, by simp⟩
    · simp [PosixPath.IsName, PosixPath.parentSegment]
    · cases kind <;>
        simp [EntryKind.directoryName, PosixPath.IsName, PosixPath.parentSegment]
  exact PosixPath.resolved_join_names layout.cwd layout.workDir (by simp)
    (fun segment listed => (areNames segment listed).1)
    fun segment listed => (areNames segment listed).2

theorem file_eq
    (layout : DataLayout)
    (kind : EntryKind)
    (taskId runId : Nat) :
    layout.file kind taskId runId =
      (runId.repr ++ ".json").toList :: layout.directory kind taskId := by
  have isName : PosixPath.IsName (runId.repr ++ ".json").toList := by
    refine ⟨by simp, ?_, ?_⟩ <;>
      · intro short
        have long := congrArg List.length short
        simp [PosixPath.parentSegment] at long
  have noSlash : '/' ∉ (runId.repr ++ ".json").toList := by
    rw [String.toList_append, List.mem_append]
    rintro (inNumber | inExtension)
    · exact slash_notMem_repr runId inNumber
    · exact absurd inExtension (by decide)
  exact PosixPath.resolved_join_names layout.cwd _ (by simp)
    (List.forall_mem_singleton.mpr isName) (List.forall_mem_singleton.mpr noSlash)

section Locations

variable {layout : DataLayout}
variable {kind other : EntryKind}
variable {taskId runId otherTask otherRun : Nat}

theorem kindDirectory_injective
    (same : layout.kindDirectory kind = layout.kindDirectory other) :
    kind = other := by
  have names : kind.directoryName.toList = other.directoryName.toList :=
    (List.cons.inj same).1
  cases kind <;> cases other <;> first | rfl | exact absurd names (by decide)

@[simp] theorem directory_eq_iff :
    layout.directory kind taskId = layout.directory other otherTask ↔
      kind = other ∧ taskId = otherTask := by
  constructor
  · intro same
    rw [directory_eq, directory_eq] at same
    obtain ⟨sameName, sameKind⟩ := List.cons.inj same
    exact ⟨kindDirectory_injective sameKind, eq_of_repr_eq (String.toList_inj.mp sameName)⟩
  · rintro ⟨rfl, rfl⟩
    rfl

@[simp] theorem file_eq_iff :
    layout.file kind taskId runId = layout.file other otherTask otherRun ↔
      kind = other ∧ taskId = otherTask ∧ runId = otherRun := by
  constructor
  · intro same
    rw [file_eq, file_eq] at same
    obtain ⟨sameName, sameDirectory⟩ := List.cons.inj same
    obtain ⟨rfl, rfl⟩ := directory_eq_iff.mp sameDirectory
    have sameNumber : runId.repr = otherRun.repr :=
      String.append_left_inj _ |>.mp (String.toList_inj.mp sameName)
    exact ⟨rfl, rfl, eq_of_repr_eq sameNumber⟩
  · rintro ⟨rfl, rfl, rfl⟩
    rfl

theorem length_directory :
    (layout.directory kind taskId).length =
      (PosixPath.resolved layout.cwd layout.workDir).length + 3 := by
  simp [directory_eq, kindDirectory]

/-- The directories of two tasks stand beside each other. -/
theorem directory_suffix_directory_iff :
    layout.directory kind taskId <:+ layout.directory other otherTask ↔
      kind = other ∧ taskId = otherTask := by
  rw [← directory_eq_iff]
  constructor
  · intro isAbove
    exact isAbove.eq_of_length (by rw [length_directory, length_directory])
  · intro same
    rw [same]

/-- A file is below the directory of its own task alone. -/
theorem directory_suffix_file_iff :
    layout.directory kind taskId <:+ layout.file other otherTask otherRun ↔
      kind = other ∧ taskId = otherTask := by
  rw [file_eq, List.suffix_cons_iff, directory_suffix_directory_iff]
  constructor
  · rintro (same | same)
    · have longer := congrArg List.length same
      rw [List.length_cons, length_directory, length_directory] at longer
      omega
    · exact same
  · exact .inr

theorem not_file_suffix_directory :
    ¬layout.file kind taskId runId <:+ layout.directory other otherTask := by
  intro isAbove
  have shorter := isAbove.length_le
  rw [file_eq, List.length_cons, length_directory, length_directory] at shorter
  omega

/-- The location is not among the data of any kind. -/
def Elsewhere (layout : DataLayout) (location : List PosixPath.Segment) : Prop :=
  ∀ kind, ¬layout.kindDirectory kind <:+ location

theorem kindDirectory_suffix_directory :
    layout.kindDirectory kind <:+ layout.directory kind taskId := by
  rw [directory_eq]
  exact List.suffix_cons _ _

theorem Elsewhere.ne_file
    {location : List PosixPath.Segment}
    (elsewhere : layout.Elsewhere location) :
    location ≠ layout.file kind taskId runId := by
  rintro rfl
  have isBelow : layout.directory kind taskId <:+ layout.file kind taskId runId :=
    directory_suffix_file_iff.mpr ⟨rfl, rfl⟩
  exact elsewhere kind (kindDirectory_suffix_directory.trans isBelow)

theorem Elsewhere.not_below
    {location : List PosixPath.Segment}
    (elsewhere : layout.Elsewhere location) :
    ¬layout.directory kind taskId <:+ location :=
  fun isBelow => elsewhere kind (kindDirectory_suffix_directory.trans isBelow)

end Locations

end DataLayout

/-- The runs with their consumers, the tree of files, and the stream of each consumer. -/
structure DataFiles where
  files : RunFiles
  tree : FileTree PosixPath.Segment
  streams : Nat → Option WriteStream

namespace DataFiles

/-- Nothing has been called; the disk is as the server finds it. -/
def initial (tree : FileTree PosixPath.Segment) : DataFiles where
  files := .initial
  tree := tree
  streams := fun _ => none

/-- What an event does on disk, and to the streams. -/
def onDisk (layout : DataLayout) (data : DataFiles) :
    FileEvent → FileTree PosixPath.Segment × (Nat → Option WriteStream)
  | .turn turn =>
      match data.files.flushed turn with
      | some (kind, taskId) => (data.tree.rm (layout.directory kind taskId), data.streams)
      | none => (data.tree, data.streams)
  | .ensureDirectory position =>
      match data.files.consumers[position]? with
      | some ⟨kind, runHandle, _⟩ =>
          ((data.tree.mkdir (layout.directory kind runHandle.taskId)).getD data.tree,
            data.streams)
      | none => (data.tree, data.streams)
  | .openFile position =>
      match data.files.consumers[position]? with
      | some ⟨kind, runHandle, _⟩ =>
          match data.tree.openWrite (layout.file kind runHandle.taskId runHandle.runId) with
          | some (stream, opened) =>
              (opened, Function.update data.streams position (some stream))
          | none => (data.tree, data.streams)
      | none => (data.tree, data.streams)
  | .write position kind entry =>
      match data.streams position with
      | some stream =>
          let text := layout.line kind entry
          (data.tree.write stream text,
            Function.update data.streams position
              (some { stream with position := stream.position + text.length }))
      | none => (data.tree, data.streams)
  | .finish position => (data.tree, Function.update data.streams position none)

/-- An event happens to the runs, and on disk. -/
def Step
    (config : TaskServerConfig)
    (mayFail : TaskOp → Bool)
    (layout : DataLayout)
    (before : DataFiles)
    (event : FileEvent)
    (after : DataFiles) :
    Prop :=
  before.files.step? config mayFail event = some after.files ∧
    (after.tree, after.streams) = before.onDisk layout event

end DataFiles

namespace TaskState

variable {layout : DataLayout}
variable {state : TaskState}
variable {kind other : EntryKind}
variable {taskId runId otherTask otherRun : Nat}

/-- What is stored for a run after entries have been written for some run. -/
theorem stored_writeEntries
    (layout : DataLayout)
    (entries : List other.Entry) :
    layout.stored (state.writeEntries otherTask otherRun other entries) kind taskId runId =
      if other = kind ∧ otherTask = taskId ∧ otherRun = runId then
        some (entries.flatMap (layout.line other))
      else
        layout.stored state kind taskId runId := by
  by_cases same : other = kind ∧ otherTask = taskId ∧ otherRun = runId
  · obtain ⟨rfl, rfl, rfl⟩ := same
    rw [if_pos ⟨rfl, rfl, rfl⟩, DataLayout.stored, entries?_writeEntries_self]
    rfl
  · have isOther : ¬(kind = other ∧ taskId = otherTask ∧ runId = otherRun) := by
      rintro ⟨rfl, rfl, rfl⟩
      exact same ⟨rfl, rfl, rfl⟩
    rw [if_neg same, DataLayout.stored, entries?_writeEntries_of_ne _ _ isOther]
    rfl

end TaskState

namespace RunFiles

variable {config : TaskServerConfig}
variable {mayFail : TaskOp → Bool}

/-- A turn removes the text that is stored for the task that it flushes. -/
theorem stored_of_turn
    {files : RunFiles}
    {turn : Turn TaskCall (TaskInput ⊕ AppError)}
    {calls : Interleaving TaskState taskProtocol}
    (layout : DataLayout)
    (stepped :
      files.calls.step? ((taskServices config).failing mayFail) turn = some calls)
    (kind : EntryKind)
    (taskId runId : Nat) :
    layout.stored calls.shared kind taskId runId =
      if files.flushed turn = some (kind, taskId) then
        none
      else
        layout.stored files.calls.shared kind taskId runId := by
  rw [DataLayout.stored, entries_of_turn stepped]
  split <;> rfl

end RunFiles

namespace DataFiles

open RunFiles
  (consumer_of_turn consumer_kept unlink_none writing_of_unlink stage_of_registered
    place_cases place_other place_self)

/-- The data directories can be made, and nothing is in them. -/
structure Ready (layout : DataLayout) (tree : FileTree PosixPath.Segment) : Prop where
  clear : ∀ kind taskId, tree.Clear (layout.directory kind taskId)
  directories : ∀ kind taskId, tree.directories (layout.directory kind taskId) = false

/-- The tree holds what is stored, and what was found elsewhere. -/
structure Represents
    (layout : DataLayout)
    (found : FileTree PosixPath.Segment)
    (data : DataFiles) :
    Prop where
  sole : data.files.SoleConsumers
  clear : ∀ kind taskId, data.tree.Clear (layout.directory kind taskId)
  directories :
    ∀ kind taskId,
      data.tree.directories (layout.directory kind taskId) =
        data.files.directories.contains (kind, taskId)
  free :
    ∀ kind taskId runId,
      data.tree.directories (layout.file kind taskId runId) = false
  stored :
    ∀ kind taskId runId,
      data.tree.read (layout.file kind taskId runId) =
        layout.stored data.files.calls.shared kind taskId runId
  elsewhere :
    ∀ location,
      layout.Elsewhere location → data.tree.read location = found.read location
  writing :
    ∀ position consumer,
      data.files.consumers[position]? = some consumer →
      consumer.stage = .writing →
      ∃ stream,
        data.streams position = some stream ∧
          data.tree.links
              (layout.file consumer.kind consumer.runHandle.taskId
                consumer.runHandle.runId) =
            some stream.inode ∧
          stream.position = (data.tree.contents stream.inode).length
  streams :
    ∀ position stream,
      data.streams position = some stream →
      stream.inode < data.tree.nextInode ∧
        ∃ consumer,
          data.files.consumers[position]? = some consumer ∧
            (consumer.stage = .writing ∨
              consumer.stage = .unlinked ∧
                ∀ location, data.tree.links location ≠ some stream.inode)

section Events

variable {config : TaskServerConfig}
variable {mayFail : TaskOp → Bool}
variable {layout : DataLayout}
variable {found : FileTree PosixPath.Segment}
variable {before : DataFiles}

/-- What a turn flushes is removed on disk, and its streams are left without a link. -/
theorem Represents.turned
    {turn : Turn TaskCall (TaskInput ⊕ AppError)}
    {calls : Interleaving TaskState taskProtocol}
    (represents : Represents layout found before)
    (stepped :
      before.files.calls.step? ((taskServices config).failing mayFail) turn =
        some calls) :
    Represents layout found
      { files :=
          { calls
            directories :=
              before.files.directories.filter fun directory =>
                before.files.flushed turn ≠ some directory
            consumers :=
              before.files.consumers.map
                  (RunFiles.unlink (before.files.flushed turn)) ++
                before.files.registered turn }
        tree := (before.onDisk layout (.turn turn)).1
        streams := before.streams } := by
  have sole := represents.sole.turned stepped
  have stored := RunFiles.stored_of_turn layout stepped
  have notBusy {consumer : Consumer}
      (dispatched : consumer ∈ before.files.registered turn) :
      consumer.stage ≠ .writing := by
    rw [stage_of_registered dispatched]
    exact ConsumerStage.noConfusion
  cases removed : before.files.flushed turn with
  | none =>
      have sameTree : (before.onDisk layout (.turn turn)).1 = before.tree := by
        simp [onDisk, removed]
      rw [removed] at sole stored
      rw [sameTree]
      refine
        { sole
          clear := represents.clear
          directories := ?_
          free := represents.free
          stored := ?_
          elsewhere := represents.elsewhere
          writing := ?_
          streams := ?_ }
      · intro kind taskId
        simpa using represents.directories kind taskId
      · intro kind taskId runId
        rw [represents.stored, stored, if_neg (by simp)]
      · intro position consumer present isWriting
        rcases consumer_of_turn present with ⟨earlier, isEarlier, rfl⟩ | ⟨_, isNew⟩
        · rw [unlink_none] at isWriting ⊢
          exact represents.writing position earlier isEarlier isWriting
        · exact (notBusy isNew isWriting).elim
      · intro position stream streaming
        obtain ⟨allocated, consumer, present, stage⟩ :=
          represents.streams position stream streaming
        refine ⟨allocated, consumer, ?_, stage⟩
        rw [consumer_kept present, unlink_none]
  | some directory =>
      obtain ⟨kind, taskId⟩ := directory
      have rmTree :
          (before.onDisk layout (.turn turn)).1 =
            before.tree.rm (layout.directory kind taskId) := by
        simp [onDisk, removed]
      have links (location : List PosixPath.Segment) :
          (before.tree.rm (layout.directory kind taskId)).links location =
            if layout.directory kind taskId <:+ location then
              none
            else
              before.tree.links location := by
        simp only [DataLayout.directory_eq]
        exact FileTree.links_rm ..
      have directories (location : List PosixPath.Segment) :
          (before.tree.rm (layout.directory kind taskId)).directories location =
            (before.tree.directories location &&
              !decide (layout.directory kind taskId <:+ location)) := by
        simp only [DataLayout.directory_eq]
        exact FileTree.directories_rm ..
      have others :
          (before.tree.rm (layout.directory kind taskId)).contents = before.tree.contents ∧
            (before.tree.rm (layout.directory kind taskId)).nextInode =
              before.tree.nextInode := by
        simp only [DataLayout.directory_eq]
        exact ⟨rfl, rfl⟩
      obtain ⟨contents, nextInode⟩ := others
      rw [removed] at sole stored
      rw [rmTree]
      generalize before.tree.rm (layout.directory kind taskId) = after
        at links directories contents nextInode ⊢
      have linkedBefore {location : List PosixPath.Segment} {inode : Nat}
          (linked : after.links location = some inode) :
          ¬layout.directory kind taskId <:+ location ∧
            before.tree.links location = some inode := by
        rw [links] at linked
        split at linked
        next => cases linked
        next kept => exact ⟨kept, linked⟩
      refine
        { sole
          clear := ?_
          directories := ?_
          free := ?_
          stored := ?_
          elsewhere := ?_
          writing := ?_
          streams := ?_ }
      · intro other otherTask above isAbove
        rw [links, represents.clear other otherTask above isAbove, ite_self]
      · intro other otherTask
        change after.directories _ = List.contains (List.filter _ _) _
        rw [directories, represents.directories, Bool.eq_iff_iff]
        simp [DataLayout.directory_suffix_directory_iff]
      · intro other otherTask otherRun
        rw [directories, represents.free, Bool.false_and]
      · intro other otherTask otherRun
        rw [stored, ← represents.stored, FileTree.read, links, contents]
        by_cases same : kind = other ∧ taskId = otherTask
        · obtain ⟨rfl, rfl⟩ := same
          rw [if_pos (DataLayout.directory_suffix_file_iff.mpr ⟨rfl, rfl⟩), if_pos rfl]
          rfl
        · rw [if_neg (mt DataLayout.directory_suffix_file_iff.mp same), if_neg]
          · rfl
          · rintro ⟨⟩
            exact same ⟨rfl, rfl⟩
      · intro location elsewhere
        rw [← represents.elsewhere location elsewhere]
        refine FileTree.read_congr ?_ fun _ _ => by rw [contents]
        rw [links, if_neg elsewhere.not_below]
      · intro position consumer present isWriting
        rcases consumer_of_turn present with ⟨earlier, isEarlier, rfl⟩ | ⟨_, isNew⟩
        · obtain ⟨same, wasWriting, notRemoved⟩ := writing_of_unlink isWriting
          obtain ⟨stream, streaming, linked, atEnd⟩ :=
            represents.writing position earlier isEarlier wasWriting
          rw [same]
          refine ⟨stream, streaming, ?_, by rw [contents]; exact atEnd⟩
          rw [links, if_neg, linked]
          intro isBelow
          obtain ⟨rfl, rfl⟩ := DataLayout.directory_suffix_file_iff.mp isBelow
          exact notRemoved rfl
        · exact (notBusy isNew isWriting).elim
      · intro position stream streaming
        obtain ⟨allocated, consumer, present, stage⟩ :=
          represents.streams position stream streaming
        refine ⟨nextInode ▸ allocated, _, consumer_kept present, ?_⟩
        rcases stage with isWriting | ⟨isUnlinked, noLink⟩
        · obtain ⟨own, ownStreaming, ownLinked, _⟩ :=
            represents.writing position consumer present isWriting
          rw [streaming] at ownStreaming
          obtain rfl := Option.some.inj ownStreaming
          unfold RunFiles.unlink
          split
          next lost =>
            refine .inr ⟨rfl, fun location linked => ?_⟩
            -- the link that the stream had is below what has been removed
            obtain ⟨kept, wasLinked⟩ := linkedBefore linked
            obtain rfl := before.tree.unshared _ _ _ wasLinked ownLinked
            obtain ⟨rfl, rfl⟩ := Prod.mk.inj (Option.some.inj lost.2)
            exact kept (DataLayout.directory_suffix_file_iff.mpr ⟨rfl, rfl⟩)
          next => exact .inl isWriting
        · have same : RunFiles.unlink (some (kind, taskId)) consumer = consumer := by
            simp [RunFiles.unlink, isUnlinked]
          rw [same]
          exact .inr ⟨isUnlinked, fun location linked =>
            noLink location (linkedBefore linked).2⟩

/-- A consumer that has not opened its file has no stream. -/
theorem Represents.noStream
    (represents : Represents layout found before)
    {position : Nat}
    {consumer : Consumer}
    (present : before.files.consumers[position]? = some consumer)
    (notWriting : consumer.stage ≠ .writing)
    (notUnlinked : consumer.stage ≠ .unlinked) :
    before.streams position = none := by
  cases streaming : before.streams position with
  | none => rfl
  | some stream =>
      obtain ⟨_, other, otherPresent, stage⟩ :=
        represents.streams position stream streaming
      rw [present] at otherPresent
      obtain rfl := Option.some.inj otherPresent
      rcases stage with isWriting | ⟨isUnlinked, _⟩
      · exact (notWriting isWriting).elim
      · exact (notUnlinked isUnlinked).elim

/-- A directory that is made on disk is one of the data, and the ones above it. -/
theorem Represents.ensured
    {position : Nat}
    {consumer : Consumer}
    (represents : Represents layout found before)
    (present : before.files.consumers[position]? = some consumer)
    (isEnsuring : consumer.stage = .ensuring)
    (sole :
      RunFiles.SoleConsumers
        { before.files.place position consumer .opening with
          directories :=
            (consumer.kind, consumer.runHandle.taskId) :: before.files.directories }) :
    Represents layout found
      { files :=
          { before.files.place position consumer .opening with
            directories :=
              (consumer.kind, consumer.runHandle.taskId) :: before.files.directories }
        tree := (before.onDisk layout (.ensureDirectory position)).1
        streams := before.streams } := by
  have clear := represents.clear consumer.kind consumer.runHandle.taskId
  have made :
      (before.onDisk layout (.ensureDirectory position)).1 =
        before.tree.makeDirectories
          (layout.directory consumer.kind consumer.runHandle.taskId) clear := by
    simp [onDisk, present, FileTree.mkdir_eq clear]
  have noStream :=
    represents.noStream present (by rw [isEnsuring]; exact ConsumerStage.noConfusion)
      (by rw [isEnsuring]; exact ConsumerStage.noConfusion)
  rw [made]
  refine
    { sole
      clear := represents.clear
      directories := ?_
      free := ?_
      stored := represents.stored
      elsewhere := represents.elsewhere
      writing := ?_
      streams := ?_ }
  · intro kind taskId
    change _ = List.contains (_ :: _) _
    rw [FileTree.directories_makeDirectories, represents.directories, Bool.eq_iff_iff]
    simp [DataLayout.directory_suffix_directory_iff, or_comm]
  · intro kind taskId runId
    rw [FileTree.directories_makeDirectories, represents.free,
      decide_eq_false DataLayout.not_file_suffix_directory]
    rfl
  · intro other otherConsumer otherPresent isWriting
    rcases place_cases otherPresent with ⟨_, rfl⟩ | ⟨_, earlier⟩
    · cases isWriting
    · exact represents.writing other otherConsumer earlier isWriting
  · intro other stream streaming
    have different : other ≠ position := by
      rintro rfl
      rw [noStream] at streaming
      cases streaming
    obtain ⟨allocated, otherConsumer, otherPresent, stage⟩ :=
      represents.streams other stream streaming
    exact ⟨allocated, otherConsumer, (place_other different _ _).trans otherPresent, stage⟩

/-- Whether a file can be opened on disk is whether there is a directory for it. -/
theorem Represents.opens_iff
    (represents : Represents layout found before)
    (consumer : Consumer) :
    (before.tree.openWrite
        (layout.file consumer.kind consumer.runHandle.taskId
          consumer.runHandle.runId)).isSome = true ↔
      before.files.hasDirectory consumer = true := by
  have isFree :=
    represents.free consumer.kind consumer.runHandle.taskId consumer.runHandle.runId
  rw [DataLayout.file_eq] at isFree ⊢
  rw [FileTree.openWrite_isSome_iff isFree, represents.directories]
  rfl

/-- A file that is opened is there, and it is empty. -/
theorem Represents.opened
    {position : Nat}
    {consumer : Consumer}
    {stream : WriteStream}
    {after : FileTree PosixPath.Segment}
    (represents : Represents layout found before)
    (present : before.files.consumers[position]? = some consumer)
    (isOpening : consumer.stage = .opening)
    (opens :
      before.tree.openWrite
          (layout.file consumer.kind consumer.runHandle.taskId
            consumer.runHandle.runId) =
        some (stream, after))
    (sole :
      RunFiles.SoleConsumers
        ((before.files.place position consumer .writing).withShared
          (before.files.calls.shared.writeEntries consumer.runHandle.taskId
            consumer.runHandle.runId consumer.kind []))) :
    Represents layout found
      { files :=
          (before.files.place position consumer .writing).withShared
            (before.files.calls.shared.writeEntries consumer.runHandle.taskId
              consumer.runHandle.runId consumer.kind [])
        tree := after
        streams := Function.update before.streams position (some stream) } := by
  obtain ⟨kind, ⟨taskId, runId, runRank⟩, _⟩ := consumer
  change before.tree.openWrite (layout.file kind taskId runId) = _ at opens
  obtain ⟨atStart, directories, links, contents, nextInode, allocated, origin⟩ :=
    FileTree.opened_of_openWrite opens
  have linked : after.links (layout.file kind taskId runId) = some stream.inode := by
    rw [links, Function.update_self]
  -- no other location leads to what has been emptied
  have sameRead {location : List PosixPath.Segment}
      (different : location ≠ layout.file kind taskId runId) :
      after.read location = before.tree.read location := by
    have sameLink : after.links location = before.tree.links location := by
      rw [links, Function.update_of_ne different]
    refine FileTree.read_congr sameLink fun inode isLinked => ?_
    rw [contents, Function.update_of_ne]
    rintro rfl
    exact different (after.unshared _ _ _ (sameLink.trans isLinked) linked)
  refine
    { sole
      clear := ?_
      directories := ?_
      free := ?_
      stored := ?_
      elsewhere := ?_
      writing := ?_
      streams := ?_ }
  · intro other otherTask above isAbove
    rw [links, Function.update_of_ne]
    · exact represents.clear other otherTask above isAbove
    · rintro rfl
      exact DataLayout.not_file_suffix_directory ((List.mem_tails _ _).mp isAbove)
  · intro other otherTask
    rw [directories]
    exact represents.directories other otherTask
  · intro other otherTask otherRun
    rw [directories]
    exact represents.free other otherTask otherRun
  · intro other otherTask otherRun
    refine Eq.trans ?_ (TaskState.stored_writeEntries layout []).symm
    by_cases same : kind = other ∧ taskId = otherTask ∧ runId = otherRun
    · obtain ⟨rfl, rfl, rfl⟩ := same
      rw [if_pos ⟨rfl, rfl, rfl⟩, FileTree.read, linked, contents]
      simp
    · rw [if_neg same, ← represents.stored]
      exact sameRead fun sameFile =>
        same (DataLayout.file_eq_iff.mp sameFile.symm)
  · intro location elsewhere
    rw [sameRead elsewhere.ne_file]
    exact represents.elsewhere location elsewhere
  · intro other otherConsumer otherPresent isWriting
    rcases place_cases otherPresent with ⟨rfl, rfl⟩ | ⟨different, earlier⟩
    · exact ⟨stream, Function.update_self .., linked, by simp [atStart, contents]⟩
    · obtain ⟨own, ownStreaming, ownLinked, atEnd⟩ :=
        represents.writing other otherConsumer earlier isWriting
      have otherFile :
          layout.file otherConsumer.kind otherConsumer.runHandle.taskId
              otherConsumer.runHandle.runId ≠
            layout.file kind taskId runId := by
        intro sameFile
        obtain ⟨sameKind, _, sameRun⟩ := DataLayout.file_eq_iff.mp sameFile
        exact different (represents.sole.eq_of_file earlier present sameKind sameRun)
      have ownLink := (congrFun links _).trans (Function.update_of_ne otherFile _ _)
      refine ⟨own, (Function.update_of_ne different _ _).trans ownStreaming,
        ownLink.trans ownLinked, ?_⟩
      rw [atEnd, contents, Function.update_of_ne]
      intro sameInode
      refine otherFile (after.unshared _ _ _ (ownLink.trans ownLinked) ?_)
      rw [linked, sameInode]
  · intro other otherStream streaming
    change Function.update before.streams position (some stream) other = _ at streaming
    by_cases same : other = position
    · subst same
      rw [Function.update_self] at streaming
      obtain rfl := Option.some.inj streaming
      exact ⟨allocated, _, place_self present .writing, .inl rfl⟩
    · rw [Function.update_of_ne same] at streaming
      obtain ⟨earlierAllocated, otherConsumer, otherPresent, stage⟩ :=
        represents.streams other otherStream streaming
      refine ⟨Nat.lt_of_lt_of_le earlierAllocated nextInode, otherConsumer,
        (place_other same _ _).trans otherPresent, stage.imp_right ?_⟩
      rintro ⟨isUnlinked, noLink⟩
      refine ⟨isUnlinked, fun location isLinked => ?_⟩
      rw [links] at isLinked
      by_cases sameLocation : location = layout.file kind taskId runId
      · rw [sameLocation, Function.update_self] at isLinked
        have sameInode := Option.some.inj isLinked
        rcases origin with wasLinked | ⟨_, isNew⟩
        · exact noLink _ (wasLinked.trans isLinked)
        · rw [← sameInode, isNew] at earlierAllocated
          exact Nat.lt_irrefl _ earlierAllocated
      · rw [Function.update_of_ne sameLocation] at isLinked
        exact noLink location isLinked

/-- Without a stream, a consumer that has ended leaves the disk as it is. -/
theorem Represents.ended
    {position : Nat}
    {consumer : Consumer}
    {streams : Nat → Option WriteStream}
    (represents : Represents layout found before)
    (present : before.files.consumers[position]? = some consumer)
    (noStream : streams position = none)
    (others : ∀ other, other ≠ position → streams other = before.streams other) :
    Represents layout found
      { files := before.files.place position consumer .finished
        tree := before.tree
        streams := streams } := by
  refine
    { sole := represents.sole.place present .finished
      clear := represents.clear
      directories := represents.directories
      free := represents.free
      stored := represents.stored
      elsewhere := represents.elsewhere
      writing := ?_
      streams := ?_ }
  · intro other otherConsumer otherPresent isWriting
    rcases place_cases otherPresent with ⟨_, rfl⟩ | ⟨different, earlier⟩
    · cases isWriting
    · obtain ⟨stream, streaming, rest⟩ :=
        represents.writing other otherConsumer earlier isWriting
      exact ⟨stream, (others other different).trans streaming, rest⟩
  · intro other stream streaming
    change streams other = some stream at streaming
    have different : other ≠ position := by
      rintro rfl
      rw [noStream] at streaming
      cases streaming
    obtain ⟨allocated, otherConsumer, otherPresent, stage⟩ :=
      represents.streams other stream ((others other different).symm.trans streaming)
    exact ⟨allocated, otherConsumer, (place_other different _ _).trans otherPresent, stage⟩

/-- An entry that is written to a file stands at its end. -/
theorem Represents.wrote
    {position : Nat}
    {kind : EntryKind}
    {runHandle : TaskRunHandle}
    {entries : List kind.Entry}
    {entry : kind.Entry}
    (represents : Represents layout found before)
    (present : before.files.consumers[position]? = some ⟨kind, runHandle, .writing⟩)
    (isStored :
      before.files.calls.shared.entries? kind runHandle.taskId runHandle.runId =
        some entries)
    (sole :
      RunFiles.SoleConsumers
        (before.files.withShared
          (before.files.calls.shared.writeEntries runHandle.taskId runHandle.runId kind
            (entries ++ [entry])))) :
    Represents layout found
      { files :=
          before.files.withShared
            (before.files.calls.shared.writeEntries runHandle.taskId runHandle.runId kind
              (entries ++ [entry]))
        tree := (before.onDisk layout (.write position kind entry)).1
        streams := (before.onDisk layout (.write position kind entry)).2 } := by
  obtain ⟨stream, streaming, linked, atEnd⟩ := represents.writing position _ present rfl
  change before.tree.links (layout.file kind runHandle.taskId runHandle.runId) = _ at linked
  have written :
      before.onDisk layout (.write position kind entry) =
        (before.tree.write stream (layout.line kind entry),
          Function.update before.streams position
            (some
              { stream with
                position := stream.position + (layout.line kind entry).length })) := by
    simp [onDisk, streaming]
  have appended :
      (before.tree.write stream (layout.line kind entry)).contents =
        Function.update before.tree.contents stream.inode
          (before.tree.contents stream.inode ++ layout.line kind entry) := by
    rw [FileTree.write, atEnd]
    simp only [FileTree.overwrite_end]
  have sameRead {location : List PosixPath.Segment}
      (different : location ≠ layout.file kind runHandle.taskId runHandle.runId) :
      (before.tree.write stream (layout.line kind entry)).read location =
        before.tree.read location := by
    refine FileTree.read_congr rfl fun inode isLinked => ?_
    rw [appended, Function.update_of_ne]
    rintro rfl
    exact different (before.tree.unshared _ _ _ isLinked linked)
  rw [written]
  refine
    { sole
      clear := represents.clear
      directories := represents.directories
      free := represents.free
      stored := ?_
      elsewhere := ?_
      writing := ?_
      streams := ?_ }
  · intro other otherTask otherRun
    refine Eq.trans ?_ (TaskState.stored_writeEntries layout _).symm
    by_cases same : kind = other ∧ runHandle.taskId = otherTask ∧ runHandle.runId = otherRun
    · obtain ⟨rfl, rfl, rfl⟩ := same
      have earlier := represents.stored kind runHandle.taskId runHandle.runId
      rw [FileTree.read, linked, DataLayout.stored, isStored] at earlier
      have isText := Option.some.inj earlier
      rw [if_pos ⟨rfl, rfl, rfl⟩, FileTree.read]
      change (before.tree.links _).map _ = _
      rw [linked, appended, Option.map_some, Function.update_self, isText,
        List.flatMap_append]
      simp
    · rw [if_neg same, ← represents.stored]
      exact sameRead fun sameFile =>
        same (DataLayout.file_eq_iff.mp sameFile.symm)
  · intro location elsewhere
    rw [sameRead elsewhere.ne_file]
    exact represents.elsewhere location elsewhere
  · intro other otherConsumer otherPresent isWriting
    obtain ⟨own, ownStreaming, ownLinked, ownEnd⟩ :=
      represents.writing other otherConsumer otherPresent isWriting
    by_cases same : other = position
    · subst same
      rw [streaming] at ownStreaming
      obtain rfl := Option.some.inj ownStreaming
      exact ⟨_, Function.update_self .., ownLinked, by simp [appended, ownEnd]⟩
    · refine ⟨own, (Function.update_of_ne same _ _).trans ownStreaming, ownLinked, ?_⟩
      rw [ownEnd, appended, Function.update_of_ne]
      intro sameInode
      rw [sameInode] at ownLinked
      obtain ⟨sameKind, _, sameRun⟩ :=
        DataLayout.file_eq_iff.mp (before.tree.unshared _ _ _ ownLinked linked)
      exact same (represents.sole.eq_of_file otherPresent present sameKind sameRun)
  · intro other otherStream otherStreaming
    change Function.update before.streams position _ other = _ at otherStreaming
    by_cases same : other = position
    · subst same
      rw [Function.update_self] at otherStreaming
      obtain rfl := Option.some.inj otherStreaming
      exact represents.streams other stream streaming
    · rw [Function.update_of_ne same] at otherStreaming
      exact represents.streams other otherStream otherStreaming

/-- What is written to a file that has been removed is not seen at any location. -/
theorem Represents.wroteUnlinked
    {position : Nat}
    {consumer : Consumer}
    {kind : EntryKind}
    {entry : kind.Entry}
    (represents : Represents layout found before)
    (present : before.files.consumers[position]? = some consumer)
    (isUnlinked : consumer.stage = .unlinked) :
    Represents layout found
      { files := before.files
        tree := (before.onDisk layout (.write position kind entry)).1
        streams := (before.onDisk layout (.write position kind entry)).2 } := by
  cases streaming : before.streams position with
  | none =>
      have unchanged :
          before.onDisk layout (.write position kind entry) =
            (before.tree, before.streams) := by
        simp [onDisk, streaming]
      rw [unchanged]
      exact represents
  | some stream =>
      have written :
          before.onDisk layout (.write position kind entry) =
            (before.tree.write stream (layout.line kind entry),
              Function.update before.streams position
                (some
                  { stream with
                    position := stream.position + (layout.line kind entry).length })) := by
        simp [onDisk, streaming]
      have noLink (location : List PosixPath.Segment) :
          before.tree.links location ≠ some stream.inode := by
        obtain ⟨_, other, otherPresent, stage⟩ :=
          represents.streams position stream streaming
        rw [present] at otherPresent
        obtain rfl := Option.some.inj otherPresent
        rcases stage with isWriting | ⟨_, noLink⟩
        · rw [isUnlinked] at isWriting
          cases isWriting
        · exact noLink location
      have sameContents {inode : Nat} {location : List PosixPath.Segment}
          (linked : before.tree.links location = some inode) :
          (before.tree.write stream (layout.line kind entry)).contents inode =
            before.tree.contents inode := by
        refine Function.update_of_ne ?_ _ _
        rintro rfl
        exact noLink location linked
      have sameRead (location : List PosixPath.Segment) :
          (before.tree.write stream (layout.line kind entry)).read location =
            before.tree.read location :=
        FileTree.read_congr rfl fun _ linked => sameContents linked
      rw [written]
      refine
        { sole := represents.sole
          clear := represents.clear
          directories := represents.directories
          free := represents.free
          stored := fun other otherTask otherRun =>
            (sameRead _).trans (represents.stored other otherTask otherRun)
          elsewhere := fun location elsewhere =>
            (sameRead _).trans (represents.elsewhere location elsewhere)
          writing := ?_
          streams := ?_ }
      · intro other otherConsumer otherPresent isWriting
        obtain ⟨own, ownStreaming, ownLinked, ownEnd⟩ :=
          represents.writing other otherConsumer otherPresent isWriting
        have different : other ≠ position := by
          rintro rfl
          rw [present] at otherPresent
          obtain rfl := Option.some.inj otherPresent
          rw [isUnlinked] at isWriting
          cases isWriting
        refine ⟨own, (Function.update_of_ne different _ _).trans ownStreaming, ownLinked, ?_⟩
        rw [sameContents ownLinked]
        exact ownEnd
      · intro other otherStream otherStreaming
        change Function.update before.streams position _ other = _ at otherStreaming
        by_cases same : other = position
        · subst same
          rw [Function.update_self] at otherStreaming
          obtain rfl := Option.some.inj otherStreaming
          exact represents.streams other stream streaming
        · rw [Function.update_of_ne same] at otherStreaming
          exact represents.streams other otherStream otherStreaming

/-- Whatever happens, the disk goes on to hold what is stored. -/
theorem Represents.step
    {after : DataFiles}
    {event : FileEvent}
    (represents : Represents layout found before)
    (taken : Step config mayFail layout before event after) :
    Represents layout found after := by
  obtain ⟨stepped, shape⟩ := taken
  have sole := represents.sole.step stepped
  obtain ⟨files, tree, streams⟩ := after
  obtain rfl : tree = (before.onDisk layout event).1 := congrArg Prod.fst shape
  obtain rfl : streams = (before.onDisk layout event).2 := congrArg Prod.snd shape
  change before.files.step? config mayFail event = some files at stepped
  change files.SoleConsumers at sole
  cases event with
  | turn turn =>
      obtain ⟨calls, turned, rfl⟩ := Option.map_eq_some_iff.mp stepped
      have sameStreams : (before.onDisk layout (.turn turn)).2 = before.streams := by
        simp only [onDisk]
        split <;> rfl
      rw [sameStreams]
      exact represents.turned turned
  | ensureDirectory position =>
      have sameStreams :
          (before.onDisk layout (.ensureDirectory position)).2 = before.streams := by
        simp only [onDisk]
        split <;> rfl
      rw [sameStreams]
      simp only [RunFiles.step?] at stepped
      split at stepped
      next consumer present =>
        split at stepped
        next isEnsuring =>
          cases stepped
          exact represents.ensured present isEnsuring sole
        next => cases stepped
      next => cases stepped
  | openFile position =>
      simp only [RunFiles.step?] at stepped
      split at stepped
      next consumer present =>
        split at stepped
        next isOpening =>
          have opens := represents.opens_iff consumer
          split at stepped
          next hasDirectory =>
            cases stepped
            obtain ⟨⟨stream, after⟩, isOpened⟩ :=
              Option.isSome_iff_exists.mp (opens.mpr hasDirectory)
            have opened := represents.opened present isOpening isOpened sole
            simpa only [onDisk, present, isOpened] using opened
          next noDirectory =>
            cases stepped
            have closed :
                before.tree.openWrite
                    (layout.file consumer.kind consumer.runHandle.taskId
                      consumer.runHandle.runId) =
                  none :=
              Option.not_isSome_iff_eq_none.mp (mt opens.mp noDirectory)
            have noStream :=
              represents.noStream present
                (by rw [isOpening]; exact ConsumerStage.noConfusion)
                (by rw [isOpening]; exact ConsumerStage.noConfusion)
            have ended := represents.ended present noStream fun _ _ => rfl
            simpa only [onDisk, present, closed] using ended
        next => cases stepped
      next => cases stepped
  | write position kind entry =>
      simp only [RunFiles.step?] at stepped
      split at stepped
      next ownKind runHandle present =>
        split at stepped
        next sameKind =>
          subst sameKind
          obtain ⟨entries, isStored, rfl⟩ := Option.map_eq_some_iff.mp stepped
          exact represents.wrote present isStored sole
        next => cases stepped
      next present =>
        cases stepped
        exact represents.wroteUnlinked present rfl
      next => cases stepped
  | finish position =>
      simp only [RunFiles.step?] at stepped
      split at stepped
      next consumer present =>
        cases stepped
        exact represents.ended present (Function.update_self ..) fun other different =>
          Function.update_of_ne different _ _
      next => cases stepped

/-- At first the data directories are empty. -/
theorem represents_initial
    (ready : Ready layout found) :
    Represents layout found (.initial found) where
  sole := RunFiles.soleConsumers_initial
  clear := ready.clear
  directories := by
    intro kind taskId
    rw [show (initial found).tree = found from rfl, ready.directories]
    rfl
  free := by
    intro kind taskId runId
    cases isDirectory : found.directories (layout.file kind taskId runId) with
    | false => exact isDirectory
    | true =>
        rw [DataLayout.file_eq] at isDirectory
        have above := found.parent _ _ isDirectory
        rw [ready.directories] at above
        cases above
  stored := by
    intro kind taskId runId
    have nothing : layout.stored TaskState.initial kind taskId runId = none := by
      cases kind <;> rfl
    refine Eq.trans ?_ nothing.symm
    change (found.links (layout.file kind taskId runId)).map _ = none
    cases linked : found.links (layout.file kind taskId runId) with
    | none => rfl
    | some inode =>
        rw [DataLayout.file_eq] at linked
        have above := found.fileParent _ _ _ linked
        rw [ready.directories] at above
        cases above
  elsewhere := fun _ _ => rfl
  writing := nofun
  streams := by
    intro position stream streaming
    cases streaming

/-- On disk as well, every event of the runs can happen. -/
theorem exists_run
    {config : TaskServerConfig}
    {mayFail : TaskOp → Bool}
    (layout : DataLayout)
    (data : DataFiles)
    {events : List FileEvent}
    {files : RunFiles}
    (executed :
      events.foldlM (fun files event => files.step? config mayFail event) data.files =
        some files) :
    ∃ final,
      Run (Step config mayFail layout) data events final ∧ final.files = files := by
  induction events generalizing data with
  | nil => exact ⟨data, .nil, Option.some.inj executed⟩
  | cons event events inductionHypothesis =>
      obtain ⟨middle, stepped, later⟩ := Option.bind_eq_some_iff.mp executed
      obtain ⟨final, run, isLast⟩ :=
        inductionHypothesis
          ⟨middle, (data.onDisk layout event).1, (data.onDisk layout event).2⟩ later
      exact ⟨final, (Run.single ⟨stepped, rfl⟩).append run, isLast⟩

end Events

end DataFiles

/--
Whatever the task calls and the consumers do, the text at the path of a run is
that of the entries stored for it, a directory can be made and a file opened
when the model says so, and no file outside of the data is touched.
-/
theorem dataFiles_holdEntries
    (config : TaskServerConfig)
    (mayFail : TaskOp → Bool)
    (layout : DataLayout)
    (found : FileTree PosixPath.Segment)
    (ready : DataFiles.Ready layout found)
    (events : List FileEvent)
    (final : DataFiles)
    (run : Run (DataFiles.Step config mayFail layout) (.initial found) events final) :
    (∀ kind taskId runId,
        final.tree.read
            (PosixPath.resolved layout.cwd
              (buildFilePath layout.workDir kind taskId runId).2) =
          (final.files.calls.shared.entries? kind taskId runId).map fun entries =>
            entries.flatMap (layout.line kind)) ∧
      (∀ consumer ∈ final.files.consumers,
        (final.tree.mkdir
            (layout.directory consumer.kind consumer.runHandle.taskId)).isSome = true ∧
          ((final.tree.openWrite
              (layout.file consumer.kind consumer.runHandle.taskId
                consumer.runHandle.runId)).isSome = true ↔
            final.files.hasDirectory consumer = true)) ∧
      ∀ location,
        layout.Elsewhere location → final.tree.read location = found.read location := by
  have represents : DataFiles.Represents layout found final :=
    Run.invariant (DataFiles.Represents layout found)
      (fun _ _ _ represents taken => represents.step taken) run
      (DataFiles.represents_initial ready)
  refine ⟨represents.stored, ?_, represents.elsewhere⟩
  intro consumer _
  have clear := represents.clear consumer.kind consumer.runHandle.taskId
  rw [FileTree.mkdir_eq clear]
  exact ⟨rfl, represents.opens_iff consumer⟩

/-- The server on an empty disk, with one line for every entry. -/
def smallLayout : DataLayout where
  cwd := "/".toList
  workDir := "/srv/prescott".toList
  line
    | .log, entry => entry.content.toList ++ ['\n']
    | .metric, entry => entry.cpu.toList ++ ['\n']

/-- A run is started, and its first line is written. -/
def loggedEvents : List FileEvent :=
  (firedLabels ++ launchedLabels ++ openedLabels).map Prod.fst ++
    [.write 0 .log ⟨.stdout, some 0, "ready"⟩]

theorem dataFiles_holdEntries_logged :
    ∃ final,
      Run (DataFiles.Step lenientServer (fun _ => false) smallLayout)
          (.initial .empty) loggedEvents final ∧
        final.tree.read
            (PosixPath.resolved smallLayout.cwd
              (buildFilePath smallLayout.workDir .log 1 1).2) =
          some "ready\n".toList := by
  have ready : DataFiles.Ready smallLayout .empty := by
    refine ⟨fun _ _ _ _ => rfl, fun kind taskId => ?_⟩
    rw [DataLayout.directory_eq]
    rfl
  have executed :
      ∃ files,
        loggedEvents.foldlM
            (fun files event => RunFiles.step? lenientServer (fun _ => false) files event)
            RunFiles.initial =
          some files ∧
        smallLayout.stored files.calls.shared .log 1 1 = some "ready\n".toList :=
    ⟨_, rfl, rfl⟩
  obtain ⟨files, executed, isStored⟩ := executed
  obtain ⟨final, run, rfl⟩ := DataFiles.exists_run smallLayout (.initial .empty) executed
  have holds :=
    (dataFiles_holdEntries lenientServer (fun _ => false) smallLayout .empty ready
      loggedEvents final run).1 .log 1 1
  exact ⟨final, run, holds.trans isStored⟩

end Prescott
