import Prescott.Errors
import Prescott.AsyncProgram
import Prescott.PosixPaths

namespace Prescott

/-!
# Loading contracts

The implementation of a contract is imported from a package or from a file of
the contract directory.  What a module exports is left open.
-/

open PosixPath (join normalize parse relative)

/-- Where the module of a contract comes from. -/
inductive ContractSourceType where
  | npm
  | file
  deriving Repr, DecidableEq

/-- What the server tells every contract. -/
structure ContractSystemOpts where
  workDir : List Char

/-- An imported module, which has a default export or not. -/
structure ImportedModule (Module : Type) where
  default : Option Module
  exported : Module

/-- What the loading of a contract awaits. -/
inductive ContractOp (Module : Type) where
  | import (path : List Char)
  | buildContract (moduleContent : Module)

section

variable {Module Contract : Type}

/-- The types the operations resolve with. -/
abbrev contractSignature (Module Contract : Type) : Signature where
  Op := ContractOp Module
  Result
    | .import _ => ImportedModule Module
    | .buildContract _ => Contract

/-- A call that loads a contract. -/
abbrev ContractProgram (Module Contract : Type) :=
  Async (contractSignature Module Contract) AppError

/-- Await an import or the building of a contract. -/
def contractOp
    (op : ContractOp Module) :
    ContractProgram Module Contract
      ((contractSignature Module Contract).Result op) :=
  .await op .settled

/-- Import a module and let it build its contract. -/
def importContractModule
    (path : List Char) : ContractProgram Module Contract Contract := do
  let module ← contractOp (.import path)
  let moduleContent := module.default.getD module.exported
  contractOp (.buildContract moduleContent)

/-- A package is imported by its name. -/
def loadNpmContract (key : List Char) : ContractProgram Module Contract Contract :=
  importContractModule key

/-- The extensions of the modules that are loaded. -/
def supportedExtensions : List (List Char) :=
  [".js".toList, ".ts".toList]

/-- `cwd` is the absolute path of the working directory of the process. -/
def loadFileContract
    (cwd workDir key : List Char) : ContractProgram Module Contract Contract := do
  let keyPath := normalize (join [workDir, key])
  let relativePath := relative cwd workDir keyPath
  if PosixPath.parentSegment.isPrefixOf relativePath &&
      !PosixPath.isAbsolute relativePath then
    let reason := "contract should be located within: " ++
      String.ofList workDir ++ " directory"
    throw (.failure ("Unable to load contact from file: " ++ reason))
  let parsed := parse keyPath
  if !supportedExtensions.contains parsed.ext then
    let reason := "unsupported extension: " ++ String.ofList parsed.ext
    throw (.failure ("Unable to load contract from file: " ++ reason))
  let moduleKey := join [parsed.dir, parsed.name]
  importContractModule moduleKey

/-- The module of a key in a directory: the path of the key without its extension. -/
def fileModule (workDir key : List Char) : List Char :=
  let parsed := parse (normalize (join [workDir, key]))
  join [parsed.dir, parsed.name]

/-- `path.join(systemOpts.workDir, 'contract')`. -/
def contractDirectory (systemOpts : ContractSystemOpts) : List Char :=
  join [systemOpts.workDir, "contract".toList]

/-- The contract of a source; the type of an entry has been validated. -/
def loadContract
    (cwd : List Char)
    (type : ContractSourceType)
    (key : List Char)
    (systemOpts : ContractSystemOpts) : ContractProgram Module Contract Contract :=
  match type with
  | .npm => loadNpmContract key
  | .file => loadFileContract cwd (contractDirectory systemOpts) key

/-! ## Confinement -/

/-- A module path that an operation imports lies in the directory. -/
def ImportsAtOrBelow
    (cwd directory : List Char)
    (op : ContractOp Module) : Prop :=
  ∀ path, op = .import path → PosixPath.AtOrBelow cwd directory path

theorem importContractModule_awaitsOnly
    {cwd directory path : List Char}
    (inside : PosixPath.AtOrBelow cwd directory path) :
    (importContractModule path :
        ContractProgram Module Contract Contract).AwaitsOnly
      (ImportsAtOrBelow cwd directory) := by
  refine Async.AwaitsOnly.bind
    (Async.AwaitsOnly.perform fun imported same => ?_)
    fun module => Async.AwaitsOnly.perform fun imported same => ?_
  · cases same
    exact inside
  · cases same

theorem contractDirectory_isName :
    PosixPath.IsName "contract".toList :=
  ⟨by decide, by decide, by decide⟩

theorem contractDirectory_ne_nil (systemOpts : ContractSystemOpts) :
    contractDirectory systemOpts ≠ [] := by
  rw [contractDirectory, PosixPath.join_pair _ (by decide)]
  exact PosixPath.normalize_ne_nil _

/-- The last segment of the directory is `contract`. -/
theorem resolved_contractDirectory
    (cwd : List Char)
    (systemOpts : ContractSystemOpts) :
    PosixPath.resolved cwd (contractDirectory systemOpts) =
      "contract".toList :: PosixPath.resolved cwd systemOpts.workDir := by
  rw [contractDirectory,
    PosixPath.resolved_join_name cwd _ (by decide) (by decide),
    PosixPath.enter_name contractDirectory_isName]

theorem kept_contractDirectory_ne_nil (systemOpts : ContractSystemOpts) :
    PosixPath.kept (contractDirectory systemOpts) ≠ [] := by
  rw [contractDirectory, PosixPath.join_pair _ (by decide),
    PosixPath.kept_normalize]
  split
  · decide
  next nonempty =>
    rw [PosixPath.kept_append_slash nonempty,
      PosixPath.walk_of_notMem (by decide),
      PosixPath.enter_name contractDirectory_isName]
    exact List.cons_ne_nil _ _

/-- A relative path that starts with two dots is never absolute. -/
theorem leadsOutside_iff (path : List Char) :
    (PosixPath.parentSegment.isPrefixOf path &&
        !PosixPath.isAbsolute path) = true ↔
      PosixPath.parentSegment <+: path := by
  constructor
  · intro leads
    exact List.isPrefixOf_iff_prefix.1 (Bool.and_eq_true_iff.1 leads).1
  · rintro ⟨rest, rfl⟩
    simp [PosixPath.parentSegment, PosixPath.isAbsolute]

/-- What follows a check is only reached when the check passes. -/
theorem checked_awaitsOnly
    {allowed : ContractOp Module → Prop}
    {refused : Prop}
    [Decidable refused]
    (refusal : AppError)
    (next : ContractProgram Module Contract Contract)
    (passed : ¬ refused → next.AwaitsOnly allowed) :
    (if refused then do
        throw refusal
        next
      else next).AwaitsOnly allowed := by
  split
  · exact True.intro
  next accepted => exact passed accepted

theorem loadFileContract_awaitsOnly
    {allowed : ContractOp Module → Prop}
    {cwd workDir key : List Char}
    (accepted :
      ¬ PosixPath.parentSegment <+:
          relative cwd workDir (normalize (join [workDir, key])) →
      (parse (normalize (join [workDir, key]))).ext ∈ supportedExtensions →
      (importContractModule
        (join [(parse (normalize (join [workDir, key]))).dir,
          (parse (normalize (join [workDir, key]))).name]) :
          ContractProgram Module Contract Contract).AwaitsOnly allowed) :
    (loadFileContract cwd workDir key :
      ContractProgram Module Contract Contract).AwaitsOnly allowed := by
  unfold loadFileContract
  revert accepted
  dsimp only
  -- as variables the two paths are not evaluated while the checks are passed
  generalize normalize (join [workDir, key]) = keyPath
  generalize parse keyPath = parsed
  intro accepted
  refine checked_awaitsOnly _ _ fun within => ?_
  refine checked_awaitsOnly _ _ fun supported => ?_
  rw [leadsOutside_iff] at within
  exact accepted within (by simpa using supported)

theorem loadFileContract_of_accepted
    {cwd workDir key : List Char}
    (within :
      ¬ PosixPath.parentSegment <+:
          relative cwd workDir (normalize (join [workDir, key])))
    (supported :
      (parse (normalize (join [workDir, key]))).ext ∈ supportedExtensions) :
    (loadFileContract cwd workDir key :
        ContractProgram Module Contract Contract) =
      importContractModule
        (join [(parse (normalize (join [workDir, key]))).dir,
          (parse (normalize (join [workDir, key]))).name]) := by
  unfold loadFileContract
  simp only [leadsOutside_iff, if_neg within]
  rw [if_neg (by simpa using supported)]

/-- A file is only imported from the contract directory. -/
theorem loadContract_inside
    (cwd key : List Char)
    (systemOpts : ContractSystemOpts) :
    (loadContract cwd .file key systemOpts :
        ContractProgram Module Contract Contract).AwaitsOnly
      (ImportsAtOrBelow cwd (contractDirectory systemOpts)) := by
  refine loadFileContract_awaitsOnly fun within supported => ?_
  refine importContractModule_awaitsOnly
    (PosixPath.atOrBelow_join_name within ?_ ?_)
  · rintro empty
    rw [empty] at supported
    exact absurd supported (by decide)
  · rw [resolved_contractDirectory]
    rintro name named
    obtain rfl := Option.some.inj named
    decide

/-! ## Plain keys -/

/-- A key of plain segments, the last of which is a name with an extension. -/
structure PlainKey where
  directories : List PosixPath.Segment
  name : List Char
  extension : List Char
  name_nonempty : name ≠ []
  extension_supported : extension ∈ supportedExtensions
  plain :
    ∀ segment ∈ directories ++ [name ++ extension],
      segment ≠ [] ∧ '/' ∉ segment ∧ segment ≠ ['.'] ∧
        ¬ PosixPath.parentSegment <+: segment

/-- The key `nested/log.file.js`. -/
def nestedKey : PlainKey where
  directories := ["nested".toList]
  name := "log.file".toList
  extension := ".js".toList
  name_nonempty := by decide
  extension_supported := by decide
  plain := by decide

namespace PlainKey

variable (key : PlainKey)

/-- The segments of the key. -/
def segments : List PosixPath.Segment :=
  key.directories ++ [key.name ++ key.extension]

/-- The key itself. -/
def text : List Char :=
  PosixPath.text key.segments

/-- The key without its extension. -/
def moduleText : List Char :=
  PosixPath.text (key.directories ++ [key.name])

theorem segments_isName :
    ∀ segment ∈ key.segments, PosixPath.IsName segment := by
  intro segment member
  obtain ⟨nonempty, -, notDot, notUp⟩ := key.plain segment member
  exact ⟨nonempty, notDot, fun isParent =>
    notUp (isParent ▸ List.prefix_rfl)⟩

theorem segments_noSlash :
    ∀ segment ∈ key.segments, '/' ∉ segment :=
  fun segment member => (key.plain segment member).2.1

theorem directories_isName :
    ∀ segment ∈ key.directories, PosixPath.IsName segment :=
  fun segment member =>
    key.segments_isName segment (List.mem_append_left _ member)

theorem base_mem : key.name ++ key.extension ∈ key.segments :=
  List.mem_append_right _ List.mem_cons_self

theorem name_noSlash : '/' ∉ key.name :=
  fun member => key.segments_noSlash _ key.base_mem
    (List.mem_append_left _ member)

theorem moduleSegments_noSlash :
    ∀ segment ∈ key.directories ++ [key.name], '/' ∉ segment := by
  intro segment member
  rcases List.mem_append.1 member with inDirectories | isLast
  · exact key.segments_noSlash segment (List.mem_append_left _ inDirectories)
  · rw [List.mem_singleton.1 isLast]
    exact key.name_noSlash

theorem moduleSegments_ne_nil :
    ∀ segment ∈ key.directories ++ [key.name], segment ≠ [] := by
  intro segment member
  rcases List.mem_append.1 member with inDirectories | isLast
  · exact (key.directories_isName segment inDirectories).1
  · rw [List.mem_singleton.1 isLast]
    exact key.name_nonempty

theorem text_ne_nil : key.text ≠ [] :=
  PosixPath.text_ne_nil (fun segment member =>
    (key.segments_isName segment member).1) (by simp [segments])

theorem moduleText_ne_nil : key.moduleText ≠ [] :=
  PosixPath.text_ne_nil key.moduleSegments_ne_nil (by simp)

theorem splitExtension_base :
    PosixPath.splitExtension (key.name ++ key.extension) =
      (key.name, key.extension) := by
  have supported := key.extension_supported
  simp only [supportedExtensions, List.mem_cons, List.not_mem_nil,
    or_false] at supported
  rcases supported with isJs | isTs
  · rw [isJs]
    change PosixPath.splitExtension (key.name ++ '.' :: ['j', 's']) = _
    exact PosixPath.splitExtension_append_dot key.name_nonempty
      (by decide) (by decide)
  · rw [isTs]
    change PosixPath.splitExtension (key.name ++ '.' :: ['t', 's']) = _
    exact PosixPath.splitExtension_append_dot key.name_nonempty
      (by decide) (by decide)

/-- The path of the key in a directory. -/
theorem keyPath_eq
    {directory : List Char}
    (nonempty : directory ≠ []) :
    normalize (join [directory, key.text]) =
      normalize (directory ++ '/' :: key.text) := by
  rw [PosixPath.normalize_join, PosixPath.join_of_ne_nil nonempty
    key.text_ne_nil]

theorem resolved_keyPath
    {directory : List Char}
    (nonempty : directory ≠ [])
    (cwd : List Char) :
    PosixPath.resolved cwd (normalize (join [directory, key.text])) =
      key.segments.reverse ++ PosixPath.resolved cwd directory := by
  rw [key.keyPath_eq nonempty, PosixPath.resolved_normalize,
    PosixPath.resolved_append_slash nonempty, text,
    PosixPath.walk_text key.segments_noSlash,
    PosixPath.foldl_enter_names key.segments_isName]

/-- A plain key does not lead outside of the directory. -/
theorem within
    {directory : List Char}
    (nonempty : directory ≠ [])
    (cwd : List Char) :
    ¬ PosixPath.parentSegment <+:
      relative cwd directory (normalize (join [directory, key.text])) := by
  rw [relative, key.resolved_keyPath nonempty, List.reverse_append,
    List.reverse_reverse, PosixPath.leading_append]
  cases segments : key.segments with
  | nil => simp [PlainKey.segments] at segments
  | cons first others =>
      rw [PosixPath.parent_prefix_text_cons]
      have member : first ∈ key.segments := segments ▸ List.mem_cons_self
      exact (key.plain first member).2.2.2

theorem kept_keyPath
    {directory : List Char}
    (nonempty : directory ≠ []) :
    PosixPath.kept (directory ++ '/' :: key.text) =
      (key.name ++ key.extension) ::
        (key.directories.reverse ++ PosixPath.kept directory) := by
  rw [PosixPath.kept_append_slash nonempty, text,
    PosixPath.walk_text key.segments_noSlash,
    PosixPath.foldl_enter_names key.segments_isName]
  simp [segments]

end PlainKey

theorem PlainKey.parse_keyPath
    (key : PlainKey)
    {directory : List Char}
    (nonempty : directory ≠ [])
    (keeps : PosixPath.kept directory ≠ []) :
    (parse (normalize (join [directory, key.text]))).base =
        key.name ++ key.extension ∧
      join
          [(parse (normalize (join [directory, key.text]))).dir, key.name] =
        join [directory, key.moduleText] := by
  have noTrailing :
      (directory ++ '/' :: key.text).getLast? ≠ some '/' := by
    rw [PosixPath.getLast?_append_slash key.text_ne_nil]
    exact PosixPath.getLast?_text_ne_slash key.segments_noSlash
      fun segment member => (key.segments_isName segment member).1
  rw [key.keyPath_eq nonempty]
  obtain ⟨base, absolute, kept, dirNonempty⟩ := PosixPath.parse_normalize
    (key.kept_keyPath nonempty) (by simp [keeps]) noTrailing
  refine ⟨base, ?_⟩
  rw [PosixPath.join_of_ne_nil dirNonempty key.name_nonempty,
    PosixPath.join_of_ne_nil nonempty key.moduleText_ne_nil]
  refine PosixPath.normalize_congr (by simp) (by simp) ?_ ?_ ?_
  · rw [PosixPath.isAbsolute_append dirNonempty, absolute,
      PosixPath.isAbsolute_append nonempty,
      PosixPath.isAbsolute_append nonempty]
  · rw [PosixPath.kept_append_slash dirNonempty,
      PosixPath.kept_append_slash nonempty, kept, absolute,
      PosixPath.isAbsolute_append nonempty, moduleText,
      PosixPath.walk_of_notMem key.name_noSlash,
      PosixPath.walk_text key.moduleSegments_noSlash, List.foldl_append,
      PosixPath.foldl_enter_names key.directories_isName]
    rfl
  · rw [PosixPath.getLast?_append_slash key.name_nonempty,
      PosixPath.getLast?_append_slash key.moduleText_ne_nil]
    exact iff_of_false (PosixPath.getLast?_ne_slash key.name_noSlash)
      (PosixPath.getLast?_text_ne_slash key.moduleSegments_noSlash
        key.moduleSegments_ne_nil)

/-- File contracts stay in the contract directory, and a plain key imports the
module it names. -/
theorem loadContract_confined
    (cwd : List Char)
    (systemOpts : ContractSystemOpts) :
    (∀ key : List Char,
      (loadContract cwd .file key systemOpts :
          ContractProgram Module Contract Contract).AwaitsOnly
        (ImportsAtOrBelow cwd (contractDirectory systemOpts))) ∧
      ∀ key : PlainKey,
        (loadContract cwd .file key.text systemOpts :
            ContractProgram Module Contract Contract) =
          importContractModule
            (join [systemOpts.workDir, "contract".toList,
              key.moduleText]) := by
  refine ⟨fun key => loadContract_inside cwd key systemOpts, fun key => ?_⟩
  have nonempty := contractDirectory_ne_nil systemOpts
  obtain ⟨base, imported⟩ := key.parse_keyPath nonempty
    (kept_contractDirectory_ne_nil systemOpts)
  have supported :
      (parse (normalize
        (join [contractDirectory systemOpts, key.text]))).ext ∈
          supportedExtensions := by
    rw [PosixPath.parse_ext, base, key.splitExtension_base]
    exact key.extension_supported
  rw [loadContract, loadFileContract_of_accepted (key.within nonempty cwd)
    supported, PosixPath.parse_name, base, key.splitExtension_base, imported,
    contractDirectory,
    PosixPath.join_join _ (by decide) key.moduleText_ne_nil]

/-- The directory itself, since the name that is left is `..`. -/
example :
    (loadContract "/".toList .file "nested/...js".toList ⟨"src".toList⟩ :
        ContractProgram Module Contract Contract) =
      importContractModule "src/contract".toList :=
  rfl

end

/-- The module of a key in a directory with a dot in its name. -/
theorem loadContract_confined_nested :
    (loadContract "/".toList .file "nested/log.file.js".toList ⟨"src".toList⟩ :
        ContractProgram Unit Unit Unit) =
      importContractModule "src/contract/nested/log.file".toList :=
  (loadContract_confined "/".toList ⟨"src".toList⟩).2 nestedKey

end Prescott
