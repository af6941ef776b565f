import Mathlib.Data.List.Infix
import Mathlib.Logic.Function.Basic

namespace Prescott

/-!
# Trees of files

Directories and files below a root.  A location is the names that lead to it,
the innermost one first, and a file is a link to its contents, which outlive the
link while a stream is open.
-/

/-- A tree of directories and files; a location is a path from the innermost name outwards. -/
structure FileTree (Name : Type) where
  directories : List Name → Bool
  /-- Where the contents of the file at a location are. -/
  links : List Name → Option Nat
  contents : Nat → List Char
  nextInode : Nat
  root : directories [] = true
  parent :
    ∀ name location, directories (name :: location) = true → directories location = true
  fileParent :
    ∀ name location inode,
      links (name :: location) = some inode → directories location = true
  notDirectory :
    ∀ location inode, links location = some inode → directories location = false
  allocated : ∀ location inode, links location = some inode → inode < nextInode
  unshared :
    ∀ location other inode,
      links location = some inode → links other = some inode → location = other

/-- A stream that writes to a file from a position on. -/
structure WriteStream where
  inode : Nat
  position : Nat
  deriving Repr, DecidableEq

namespace FileTree

variable {Name : Type}

/-- The text of the file at a location. -/
def read (tree : FileTree Name) (location : List Name) : Option (List Char) :=
  (tree.links location).map tree.contents

/-- Where the link and what it leads to are the same, the text is. -/
theorem read_congr
    {tree after : FileTree Name}
    {location : List Name}
    (sameLink : after.links location = tree.links location)
    (sameContents :
      ∀ inode,
        tree.links location = some inode → after.contents inode = tree.contents inode) :
    after.read location = tree.read location := by
  rw [read, read, sameLink]
  cases linked : tree.links location with
  | none => rfl
  | some inode => rw [Option.map_some, Option.map_some, sameContents inode linked]

/-- No file stands at a location or above it. -/
def Clear (tree : FileTree Name) (location : List Name) : Prop :=
  ∀ above ∈ location.tails, tree.links above = none

instance (tree : FileTree Name) (location : List Name) : Decidable (tree.Clear location) :=
  inferInstanceAs (Decidable (∀ above ∈ location.tails, _))

theorem Clear.links
    {tree : FileTree Name}
    {location above : List Name}
    (clear : tree.Clear location)
    (isAbove : above <:+ location) :
    tree.links above = none :=
  clear above ((List.mem_tails _ _).mpr isAbove)

variable [DecidableEq Name]

/-- Make a directory and the ones above it. -/
def makeDirectories
    (tree : FileTree Name)
    (location : List Name)
    (clear : tree.Clear location) :
    FileTree Name :=
  { tree with
    directories := fun other => tree.directories other || decide (other <:+ location)
    root := by simp [tree.root]
    parent := by
      intro name other isDirectory
      rw [Bool.or_eq_true, decide_eq_true_eq] at isDirectory ⊢
      rcases isDirectory with isDirectory | isAbove
      · exact .inl (tree.parent name other isDirectory)
      · exact .inr ((List.suffix_cons name other).trans isAbove)
    fileParent := by
      intro name other inode isFile
      rw [tree.fileParent name other inode isFile, Bool.true_or]
    notDirectory := by
      intro other inode isFile
      have notAbove : ¬other <:+ location := by
        intro isAbove
        rw [clear.links isAbove] at isFile
        cases isFile
      rw [tree.notDirectory other inode isFile, decide_eq_false notAbove, Bool.or_false] }

/-- Open a file that is there, and empty it. -/
def truncate (tree : FileTree Name) (inode : Nat) : FileTree Name :=
  { tree with contents := Function.update tree.contents inode [] }

/-- Create an empty file in a directory. -/
def create
    (tree : FileTree Name)
    (name : Name)
    (location : List Name)
    (isDirectory : tree.directories location = true)
    (isFree : tree.directories (name :: location) = false) :
    FileTree Name :=
  { tree with
    links := Function.update tree.links (name :: location) (some tree.nextInode)
    contents := Function.update tree.contents tree.nextInode []
    nextInode := tree.nextInode + 1
    fileParent := by
      intro other parent inode isFile
      by_cases created : other :: parent = name :: location
      · obtain ⟨rfl, rfl⟩ := List.cons.inj created
        exact isDirectory
      · rw [Function.update_of_ne created] at isFile
        exact tree.fileParent other parent inode isFile
    notDirectory := by
      intro other inode isFile
      by_cases created : other = name :: location
      · exact created ▸ isFree
      · rw [Function.update_of_ne created] at isFile
        exact tree.notDirectory other inode isFile
    allocated := by
      intro other inode isFile
      by_cases created : other = name :: location
      · rw [created, Function.update_self] at isFile
        exact Option.some.inj isFile ▸ Nat.lt_succ_self _
      · rw [Function.update_of_ne created] at isFile
        exact Nat.lt_succ_of_lt (tree.allocated other inode isFile)
    unshared := by
      intro first second inode isFirst isSecond
      by_cases firstCreated : first = name :: location <;>
        by_cases secondCreated : second = name :: location
      · rw [firstCreated, secondCreated]
      · rw [firstCreated, Function.update_self] at isFirst
        rw [Function.update_of_ne secondCreated] at isSecond
        obtain rfl := Option.some.inj isFirst
        exact absurd (tree.allocated second _ isSecond) (Nat.lt_irrefl _)
      · rw [secondCreated, Function.update_self] at isSecond
        rw [Function.update_of_ne firstCreated] at isFirst
        obtain rfl := Option.some.inj isSecond
        exact absurd (tree.allocated first _ isFirst) (Nat.lt_irrefl _)
      · rw [Function.update_of_ne firstCreated] at isFirst
        rw [Function.update_of_ne secondCreated] at isSecond
        exact tree.unshared first second inode isFirst isSecond }

/-- Put a text over what a file holds from a position on. -/
def overwrite (held text : List Char) (position : Nat) : List Char :=
  held.take position ++ List.replicate (position - held.length) '\x00' ++ text ++
    held.drop (position + text.length)

/-- Write to the contents of a stream, whether there is a link to them or not. -/
def write (tree : FileTree Name) (stream : WriteStream) (text : List Char) : FileTree Name :=
  { tree with
    contents :=
      Function.update tree.contents stream.inode
        (overwrite (tree.contents stream.inode) text stream.position) }

theorem overwrite_end
    (held text : List Char) :
    overwrite held text held.length = held ++ text := by
  simp [overwrite]

/-- Remove a directory with everything below it, as `rm` does with `recursive`. -/
def removeBelow
    (tree : FileTree Name)
    (name : Name)
    (location : List Name) :
    FileTree Name :=
  { tree with
    directories := fun other =>
      tree.directories other && !decide (name :: location <:+ other)
    links := fun other => if name :: location <:+ other then none else tree.links other
    root := by simp [tree.root]
    parent := by
      intro first other isDirectory
      rw [Bool.and_eq_true, Bool.not_eq_true', decide_eq_false_iff_not] at isDirectory ⊢
      exact ⟨tree.parent first other isDirectory.1,
        fun isBelow => isDirectory.2 (isBelow.trans (List.suffix_cons first other))⟩
    fileParent := by
      intro first other inode isFile
      split at isFile
      next => cases isFile
      next isKept =>
        have parentKept : ¬name :: location <:+ other :=
          fun isBelow => isKept (isBelow.trans (List.suffix_cons first other))
        rw [tree.fileParent first other inode isFile, decide_eq_false parentKept]
        rfl
    notDirectory := by
      intro other inode isFile
      split at isFile
      next => cases isFile
      next => rw [tree.notDirectory other inode isFile, Bool.false_and]
    allocated := by
      intro other inode isFile
      split at isFile
      next => cases isFile
      next => exact tree.allocated other inode isFile
    unshared := by
      intro first second inode isFirst isSecond
      split at isFirst
      next => cases isFirst
      next =>
        split at isSecond
        next => cases isSecond
        next => exact tree.unshared first second inode isFirst isSecond }

/-- `mkdir` with `recursive`; `none` where a file stands in the way. -/
def mkdir (tree : FileTree Name) (location : List Name) : Option (FileTree Name) :=
  if clear : tree.Clear location then
    some (tree.makeDirectories location clear)
  else
    none

/--
Open a stream that writes to a file from its beginning; `none` where there is a
directory, or no directory for the file.
-/
def openWrite (tree : FileTree Name) : List Name → Option (WriteStream × FileTree Name)
  | [] => none
  | name :: location =>
      match tree.links (name :: location) with
      | some inode => some (⟨inode, 0⟩, tree.truncate inode)
      | none =>
          if isFree :
              tree.directories location = true ∧
                tree.directories (name :: location) = false then
            some (⟨tree.nextInode, 0⟩, tree.create name location isFree.1 isFree.2)
          else
            none

/-- `rm` with `recursive`; where there is nothing, nothing is removed. -/
def rm (tree : FileTree Name) : List Name → FileTree Name
  | [] => tree
  | name :: location => tree.removeBelow name location

section Operations

variable {tree after : FileTree Name}
variable {location other : List Name}
variable {stream : WriteStream}

theorem mkdir_eq
    (clear : tree.Clear location) :
    tree.mkdir location = some (tree.makeDirectories location clear) :=
  dif_pos clear

/-- What opening a stream changes: the file is there, and it is empty. -/
structure Opened
    (tree : FileTree Name)
    (location : List Name)
    (stream : WriteStream)
    (after : FileTree Name) :
    Prop where
  position : stream.position = 0
  directories : after.directories = tree.directories
  links : after.links = Function.update tree.links location (some stream.inode)
  contents : after.contents = Function.update tree.contents stream.inode []
  nextInode : tree.nextInode ≤ after.nextInode
  allocated : stream.inode < after.nextInode
  origin :
    tree.links location = some stream.inode ∨
      tree.links location = none ∧ stream.inode = tree.nextInode

theorem opened_of_openWrite
    (opened : tree.openWrite location = some (stream, after)) :
    tree.Opened location stream after := by
  cases location with
  | nil => cases opened
  | cons name location =>
      simp only [openWrite] at opened
      split at opened
      next inode linked =>
        cases opened
        exact
          { position := rfl
            directories := rfl
            links := (Function.update_eq_self_iff.mpr linked.symm).symm
            contents := rfl
            nextInode := Nat.le_refl _
            allocated := tree.allocated _ _ linked
            origin := .inl linked }
      next missing =>
        split at opened
        next isFree =>
          cases opened
          exact
            { position := rfl
              directories := rfl
              links := rfl
              contents := rfl
              nextInode := Nat.le_succ _
              allocated := Nat.lt_succ_self _
              origin := .inr ⟨missing, rfl⟩ }
        next => cases opened

/-- A stream can be opened where its directory is and no directory is instead. -/
theorem openWrite_isSome_iff
    {name : Name}
    (isFree : tree.directories (name :: location) = false) :
    (tree.openWrite (name :: location)).isSome = true ↔
      tree.directories location = true := by
  simp only [openWrite]
  split
  next inode linked => simp [tree.fileParent name location inode linked]
  next =>
    by_cases isDirectory : tree.directories location = true <;>
      simp [isDirectory, isFree]

theorem links_rm
    (tree : FileTree Name)
    (name : Name)
    (location other : List Name) :
    (tree.rm (name :: location)).links other =
      if name :: location <:+ other then none else tree.links other :=
  rfl

theorem directories_rm
    (tree : FileTree Name)
    (name : Name)
    (location other : List Name) :
    (tree.rm (name :: location)).directories other =
      (tree.directories other && !decide (name :: location <:+ other)) :=
  rfl

theorem directories_makeDirectories
    (clear : tree.Clear location) :
    (tree.makeDirectories location clear).directories other =
      (tree.directories other || decide (other <:+ location)) :=
  rfl

end Operations

/-- Only the root. -/
def empty : FileTree Name where
  directories := fun location => location.isEmpty
  links := fun _ => none
  contents := fun _ => []
  nextInode := 0
  root := rfl
  parent := by
    intro name location isDirectory
    cases isDirectory
  fileParent := by
    intro name location inode isFile
    cases isFile
  notDirectory := by
    intro location inode isFile
    cases isFile
  allocated := by
    intro location inode isFile
    cases isFile
  unshared := by
    intro location other inode isFile
    cases isFile

end FileTree

end Prescott
