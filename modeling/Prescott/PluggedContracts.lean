import Prescott.ContractBootstrap

namespace Prescott

/-!
# The contracts that are plugged in

Whatever the modules export and however the contracts answer, they come one
after the other: imported, built, checked, given the values of its options, and
initialised.  After a rejection nothing more is called.
-/

section

variable {Module Contract : Type}

/-- What the calls so far have led to. -/
structure BootRecord (Module Contract : Type) where
  /-- The module whose contract has not been built yet. -/
  imported : Option Module := none
  /-- The contract that has not been initialised yet. -/
  built : Option Contract := none
  /-- What has been resolved of its options. -/
  values : List String := []
  /-- The contracts that have been initialised, with what they were given. -/
  ready : List (Contract × ContractInitOpts) := []
  failed : Bool := false

namespace BootRecord

/-- The record between two contracts. -/
def between (ready : List (Contract × ContractInitOpts)) :
    BootRecord Module Contract where
  ready := ready

/-- The record while the options of a contract are resolved. -/
def resolving
    (ready : List (Contract × ContractInitOpts))
    (impl : Contract)
    (values : List String) :
    BootRecord Module Contract where
  built := some impl
  values := values
  ready := ready

/-- A call is answered. -/
def note (record : BootRecord Module Contract) :
    (op : (bootSignature Module Contract).Op) →
      Except AppError ((bootSignature Module Contract).Result op) →
      BootRecord Module Contract
  | _, .error _ => { record with failed := true }
  | .inl (.import _), .ok module =>
      { record with imported := some (module.default.getD module.exported) }
  | .inl (.buildContract _), .ok impl =>
      { record with imported := none, built := some impl }
  | .inr (.resolveValue _ _), .ok value =>
      { record with values := record.values ++ ([value] : List String) }
  | .inr (.init impl opts), .ok () =>
      { record with
        built := none
        values := []
        ready := record.ready ++ [(impl, opts)] }

/-- The contract that is loaded. -/
def stage (record : BootRecord Module Contract) : Option ContractType :=
  contractTypes[record.ready.length]?

end BootRecord

namespace ContractConfigFileEntry

/--
The module of an entry is at the path: for a package its name, and for a file
the path of its key, which does not lead out of the contract directory.
-/
def LeadsTo
    (entry : ContractConfigFileEntry)
    (cwd : List Char)
    (systemOpts : ContractSystemOpts)
    (path : List Char) :
    Prop :=
  match entry.type with
  | .npm => path = entry.key
  | .file =>
      path = fileModule (contractDirectory systemOpts) entry.key ∧
        PosixPath.AtOrBelow cwd (contractDirectory systemOpts) path

end ContractConfigFileEntry

/-- The options that are resolved, which are those with a text. -/
def requestedOf (entries : List (String × Option String)) : List (String × String) :=
  entries.filterMap fun (key, value) => (value.filter (· ≠ "")).map (key, ·)

/-- The options of an entry that are resolved. -/
def ContractConfigFileEntry.requested (entry : ContractConfigFileEntry) :
    List (String × String) :=
  requestedOf (entry.opts.getD .empty).entries

/-- The options with their values. -/
def assigned (requested : List (String × String)) (values : List String) :
    List (String × Option String) :=
  ((requested.zip values).filter fun (option, _) => option.1 ≠ "__proto__").map
    fun (option, value) => (option.1, some value)

/-- What a contract is given: the config contract its entry, the others values. -/
def GivenOpts
    (type : ContractType)
    (entry : ContractConfigFileEntry)
    (values : List String)
    (opts : ContractOpts) :
    Prop :=
  if type = .config then
    opts = entry.opts.getD .empty
  else
    values.length = entry.requested.length ∧
      opts.entries = assigned entry.requested values

/-- What may be called at a point of the start. -/
def BootPermits
    (validators : ContractValidators Contract)
    (cwd : List Char)
    (config : ContractConfigFile)
    (systemOpts : ContractSystemOpts)
    (record : BootRecord Module Contract)
    (op : (bootSignature Module Contract).Op) :
    Prop :=
  record.failed = false ∧
    ∃ type, record.stage = some type ∧
      match op with
      | .inl (.import path) =>
          record.imported = none ∧ record.built = none ∧
            (config type).LeadsTo cwd systemOpts path
      | .inl (.buildContract module) =>
          record.imported = some module ∧ record.built = none
      | .inr (.resolveValue configResolver value) =>
          type ≠ .config ∧
            (∃ impl, record.built = some impl ∧ validators.Passes type impl) ∧
            record.ready.head?.map Prod.fst = some configResolver ∧
            ((config type).requested[record.values.length]?).map Prod.snd = some value
      | .inr (.init impl opts) =>
          record.built = some impl ∧ validators.Implements type impl ∧
            opts.system = systemOpts ∧
            GivenOpts type (config type) record.values opts.contract

/-- The contracts stand in the map under their types. -/
def MapsTo
    (contractMap : ContractMap Contract)
    (ready : List (Contract × ContractInitOpts)) :
    Prop :=
  ∀ (n : Nat) (type : ContractType),
    contractTypes[n]? = some type → contractMap type = (ready[n]?).map Prod.fst

/-- The start of the server, call by call. -/
abbrev bootProtocol
    (validators : ContractValidators Contract)
    (cwd : List Char)
    (config : ContractConfigFile)
    (systemOpts : ContractSystemOpts) :
    Protocol (bootSignature Module Contract) AppError Unit (ContractMap Contract) where
  Phase := BootRecord Module Contract
  start := fun _ => {}
  permits := fun _ record op => BootPermits validators cwd config systemOpts record op
  advance := fun _ record op answer => record.note op answer
  finishes := fun _ record outcome =>
    match outcome with
    | .ok contractMap =>
        record.ready.length = contractTypes.length ∧ MapsTo contractMap record.ready
    | .error _ => record.ready.length < contractTypes.length

section Options

variable {requested : List (String × String)}
variable {values : List String}
variable {key text value : String}
variable {entries : List (String × Option String)}

@[simp] theorem requestedOf_nil : requestedOf [] = [] :=
  rfl

@[simp] theorem requestedOf_some :
    requestedOf ((key, some text) :: entries) =
      if text = "" then requestedOf entries else (key, text) :: requestedOf entries := by
  by_cases isEmpty : text = "" <;> simp [requestedOf, Option.filter, isEmpty]

/-- The requested options are some of the entries. -/
theorem map_fst_requestedOf_sublist
    (entries : List (String × Option String)) :
    ((requestedOf entries).map Prod.fst).Sublist (entries.map Prod.fst) := by
  induction entries with
  | nil =>
      exact List.Sublist.slnil
  | cons entry entries inductionHypothesis =>
      obtain ⟨key, value⟩ := entry
      cases value with
      | none =>
          exact inductionHypothesis.cons key
      | some text =>
          rw [requestedOf_some]
          split
          · exact inductionHypothesis.cons key
          · exact inductionHypothesis.cons_cons key

theorem nodup_requested
    (entry : ContractConfigFileEntry) :
    (entry.requested.map Prod.fst).Nodup :=
  (entry.opts.getD .empty).distinct.sublist (map_fst_requestedOf_sublist _)

theorem assigned_snoc
    (sameLength : requested.length = values.length) :
    assigned (requested ++ [(key, text)]) (values ++ [value]) =
      assigned requested values ++
        if key = "__proto__" then [] else [(key, some value)] := by
  rw [assigned, List.zip_append sameLength, List.filter_append, List.map_append]
  by_cases isPrototype : key = "__proto__" <;> simp [assigned, isPrototype]

/-- A key with a value was requested. -/
theorem mem_requested_of_mem_assigned
    (member : key ∈ (assigned requested values).map Prod.fst) :
    key ∈ requested.map Prod.fst := by
  obtain ⟨_, given, rfl⟩ := List.mem_map.mp member
  obtain ⟨⟨option, value⟩, kept, rfl⟩ := List.mem_map.mp given
  exact List.mem_map_of_mem (List.of_mem_zip (List.mem_of_mem_filter kept)).1

theorem ContractOpts.entries_assign
    {opts : ContractOpts}
    (isNew : key ∉ opts.entries.map Prod.fst) :
    (opts.assign key value).entries =
      opts.entries ++ if key = "__proto__" then [] else [(key, some value)] := by
  unfold ContractOpts.assign
  by_cases isPrototype : key = "__proto__"
  · simp [isPrototype]
  · rw [if_neg isPrototype, dif_pos isNew, if_neg isPrototype]

end Options

section Loading

variable {validators : ContractValidators Contract}
variable {cwd : List Char}
variable {config : ContractConfigFile}
variable {systemOpts : ContractSystemOpts}

/-- A contract is not loaded at all, or from a module of its entry. -/
theorem loadContract_cases
    (cwd : List Char)
    (entry : ContractConfigFileEntry)
    (systemOpts : ContractSystemOpts) :
    (∃ reason,
      (loadContract cwd entry.type entry.key systemOpts :
        ContractProgram Module Contract Contract) = throw reason) ∨
    ∃ path, entry.LeadsTo cwd systemOpts path ∧
      (loadContract cwd entry.type entry.key systemOpts :
        ContractProgram Module Contract Contract) = importContractModule path := by
  have inside :=
    @loadContract_inside Module Contract cwd entry.key systemOpts
  unfold ContractConfigFileEntry.LeadsTo
  cases entry.type with
  | npm =>
      exact .inr ⟨entry.key, rfl, rfl⟩
  | file =>
      by_cases outside :
          PosixPath.parentSegment <+:
            PosixPath.relative cwd (contractDirectory systemOpts)
              (PosixPath.normalize
                (PosixPath.join [contractDirectory systemOpts, entry.key]))
      · apply Or.inl
        apply Exists.intro
        rw [loadContract, loadFileContract]
        simp only [leadsOutside_iff, if_pos outside]
        rfl
      · by_cases supported :
            (PosixPath.parse
              (PosixPath.normalize
                (PosixPath.join [contractDirectory systemOpts, entry.key]))).ext ∈
              supportedExtensions
        · have imports := @loadFileContract_of_accepted Module Contract cwd
            (contractDirectory systemOpts) entry.key outside supported
          refine .inr ⟨_, ⟨rfl, ?_⟩, imports⟩
          rw [loadContract, imports] at inside
          exact inside.1 _ rfl
        · apply Or.inl
          apply Exists.intro
          rw [loadContract, loadFileContract]
          simp only [leadsOutside_iff, if_neg outside]
          rw [if_pos (by simpa using supported)]
          rfl

/-- One stretch of the start: what it leads to if it resolves or rejects. -/
abbrev BootLeads
    {α : Type}
    (validators : ContractValidators Contract)
    (cwd : List Char)
    (config : ContractConfigFile)
    (systemOpts : ContractSystemOpts)
    (ready : List (Contract × ContractInitOpts))
    (resolves : α → BootRecord Module Contract → Prop)
    (record : BootRecord Module Contract)
    (program : BootProgram Module Contract α) :
    Prop :=
  (bootProtocol validators cwd config systemOpts).Leads ()
    (fun outcome record =>
      match outcome with
      | .ok value => resolves value record
      | .error _ => record.ready = ready)
    record program

variable {ready : List (Contract × ContractInitOpts)}
variable {type : ContractType}

/-- The composition rule. -/
theorem BootLeads.bind
    {α β : Type}
    {middle : α → BootRecord Module Contract → Prop}
    {resolves : β → BootRecord Module Contract → Prop}
    {record : BootRecord Module Contract}
    {first : BootProgram Module Contract α}
    {next : α → BootProgram Module Contract β}
    (leads : BootLeads validators cwd config systemOpts ready middle record first)
    (goesOn :
      ∀ value record,
        middle value record →
        BootLeads validators cwd config systemOpts ready resolves record (next value)) :
    BootLeads validators cwd config systemOpts ready resolves record (first >>= next) :=
  Protocol.Leads.bind leads goesOn fun _ _ same => same

/-- A contract is imported and built. -/
theorem loadContract_leads
    (stage : contractTypes[ready.length]? = some type) :
    BootLeads validators cwd config systemOpts ready
      (fun impl record => record = .resolving ready impl [])
      (BootRecord.between ready)
      ((loadContract cwd (config type).type (config type).key systemOpts :
        ContractProgram Module Contract Contract).lift) := by
  rcases @loadContract_cases Module Contract cwd (config type) systemOpts with
    ⟨reason, refused⟩ | ⟨path, leadsTo, imports⟩
  · rw [refused]
    rfl
  · rw [imports]
    refine ⟨⟨rfl, type, stage, rfl, rfl, leadsTo⟩, fun answer => ?_⟩
    cases answer with
    | error reason =>
        rfl
    | ok module =>
        refine ⟨⟨rfl, type, stage, rfl, rfl⟩, fun answer => ?_⟩
        cases answer with
        | error reason =>
            rfl
        | ok impl =>
            rfl

/-- A contract is loaded and checked. -/
theorem loadAndValidateContract_leads
    (stage : contractTypes[ready.length]? = some type) :
    BootLeads validators cwd config systemOpts ready
      (fun impl record =>
        validators.Passes type impl ∧ record = .resolving ready impl [])
      (BootRecord.between ready)
      (loadAndValidateContract validators cwd type (config type) systemOpts :
        BootProgram Module Contract Contract) := by
  refine (loadContract_leads stage).bind ?_
  rintro impl _ rfl
  unfold ContractValidators.validateContractImpl
  by_cases passes : validators.Passes type impl
  · rw [if_pos passes]
    exact ⟨passes, rfl⟩
  · rw [if_neg passes]
    rfl

/-- The loop over the options gives each its value. -/
theorem resolveEntries_leads
    {impl configResolver : Contract}
    (stage : contractTypes[ready.length]? = some type)
    (isOther : type ≠ .config)
    (passes : validators.Passes type impl)
    (resolver : ready.head?.map Prod.fst = some configResolver)
    (entries : List (String × Option String))
    {done : List (String × String)}
    {values : List String}
    {resolvedOpts : ContractOpts}
    (requested : (config type).requested = done ++ requestedOf entries)
    (sameLength : done.length = values.length)
    (resolved : resolvedOpts.entries = assigned done values) :
    BootLeads validators cwd config systemOpts ready
      (fun opts record =>
        ∃ values,
          record = .resolving ready impl values ∧
            values.length = (config type).requested.length ∧
            opts.entries = assigned (config type).requested values)
      (.resolving ready impl values)
      (resolveEntries configResolver resolvedOpts entries :
        BootProgram Module Contract ContractOpts) := by
  induction entries generalizing done values resolvedOpts with
  | nil =>
      rw [requestedOf_nil, List.append_nil] at requested
      exact ⟨values, rfl, by rw [requested, sameLength], by rw [requested, resolved]⟩
  | cons entry entries inductionHypothesis =>
      obtain ⟨key, value⟩ := entry
      cases value with
      | none =>
          exact inductionHypothesis requested sameLength resolved
      | some text =>
          rw [requestedOf_some] at requested
          unfold resolveEntries
          split
          · rename_i isEmpty
            rw [if_pos isEmpty] at requested
            exact inductionHypothesis requested sameLength resolved
          · rename_i isText
            rw [if_neg isText] at requested
            have next : (config type).requested[values.length]? = some (key, text) := by
              rw [requested, ← sameLength]
              simp
            refine ⟨⟨rfl, type, stage, isOther, ⟨impl, rfl, passes⟩, resolver,
              congrArg (Option.map Prod.snd) next⟩, fun answer => ?_⟩
            cases answer with
            | error reason =>
                rfl
            | ok value =>
                change String at value
                have isNew : key ∉ resolvedOpts.entries.map Prod.fst := by
                  rw [resolved]
                  intro member
                  have distinct := nodup_requested (config type)
                  rw [requested, List.map_append] at distinct
                  exact (List.disjoint_of_nodup_append distinct)
                    (mem_requested_of_mem_assigned member) (.head _)
                refine @inductionHypothesis (done ++ [(key, text)])
                  (values ++ [value]) _ (by rw [requested, List.append_assoc]; rfl)
                  (by simp [sameLength]) ?_
                rw [ContractOpts.entries_assign isNew, resolved, assigned_snoc sameLength]

/-- A contract is initialised with what it is given. -/
theorem init_leads
    {impl : Contract}
    {values : List String}
    {opts : ContractOpts}
    (stage : contractTypes[ready.length]? = some type)
    (passes : validators.Passes type impl)
    (given : GivenOpts type (config type) values opts) :
    BootLeads validators cwd config systemOpts ready
      (fun value record =>
        value = impl ∧
          ∃ opts, record = BootRecord.between (ready ++ [(impl, opts)]))
      (.resolving ready impl values)
      (do
        initContract validators impl ⟨systemOpts, opts⟩
        pure impl : BootProgram Module Contract Contract) := by
  unfold initContract
  split
  · rfl
  · rename_i isDefined
    have implements : validators.Implements type impl := passes.resolve_left isDefined
    refine ⟨⟨rfl, type, stage, rfl, implements, rfl, given⟩, fun answer => ?_⟩
    cases answer with
    | error reason =>
        rfl
    | ok value =>
        exact ⟨rfl, _, rfl⟩

theorem buildConfigResolverContract_leads :
    BootLeads validators cwd config systemOpts []
      (fun impl record => ∃ opts, record = BootRecord.between [(impl, opts)])
      (BootRecord.between [])
      (buildConfigResolverContract validators cwd (config .config) systemOpts :
        BootProgram Module Contract Contract) := by
  refine (loadAndValidateContract_leads rfl).bind ?_
  rintro impl _ ⟨passes, rfl⟩
  have given : GivenOpts .config (config .config) [] ((config .config).opts.getD .empty) := by
    rw [GivenOpts, if_pos rfl]
  refine Protocol.Leads.mono (init_leads rfl passes given) ?_
  rintro (reason | value) record leads
  · exact leads
  · obtain ⟨rfl, opts, rfl⟩ := leads
    exact ⟨opts, rfl⟩

theorem buildResolvableContract_leads
    {configResolver : Contract}
    (stage : contractTypes[ready.length]? = some type)
    (isOther : type ≠ .config)
    (resolver : ready.head?.map Prod.fst = some configResolver) :
    BootLeads validators cwd config systemOpts ready
      (fun impl record =>
        ∃ opts, record = BootRecord.between (ready ++ [(impl, opts)]))
      (BootRecord.between ready)
      (buildResolvableContract validators cwd type (config type) configResolver
        systemOpts : BootProgram Module Contract Contract) := by
  refine (loadAndValidateContract_leads stage).bind ?_
  rintro impl _ ⟨passes, rfl⟩
  have resolves :
      BootLeads validators cwd config systemOpts ready
        (fun opts record =>
          ∃ values,
            record = .resolving ready impl values ∧
              values.length = (config type).requested.length ∧
              opts.entries = assigned (config type).requested values)
        (.resolving ready impl [])
        ((config type).opts.elim (pure .empty) (resolveContractOpts configResolver) :
          BootProgram Module Contract ContractOpts) := by
    cases options : (config type).opts with
    | none =>
        have nothing : (config type).requested = [] := by
          simp [ContractConfigFileEntry.requested, options, ContractOpts.empty]
        refine ⟨[], rfl, ?_, ?_⟩ <;> rw [nothing] <;> rfl
    | some opts =>
        have requested : (config type).requested = [] ++ requestedOf opts.entries := by
          simp [ContractConfigFileEntry.requested, options]
        exact resolveEntries_leads stage isOther passes resolver _ requested rfl rfl
  refine resolves.bind ?_
  rintro opts _ ⟨values, rfl, sameLength, resolved⟩
  have given : GivenOpts type (config type) values opts := by
    rw [GivenOpts, if_neg isOther]
    exact ⟨sameLength, resolved⟩
  refine Protocol.Leads.mono (init_leads stage passes given) ?_
  rintro (reason | value) record leads
  · exact leads
  · obtain ⟨rfl, opts, rfl⟩ := leads
    exact ⟨opts, rfl⟩

/-- Every type is loaded once. -/
theorem eq_of_contractTypes
    {n m : Nat}
    (first : contractTypes[n]? = some type)
    (second : contractTypes[m]? = some type) :
    n = m := by
  have distinct : contractTypes.Nodup := by decide
  obtain ⟨bound, isType⟩ := List.getElem?_eq_some_iff.mp first
  obtain ⟨otherBound, isSame⟩ := List.getElem?_eq_some_iff.mp second
  exact distinct.getElem_inj_iff.mp (isType.trans isSame.symm)

/-- Only the first contract is the config contract. -/
theorem ne_config_of_contractTypes
    {n : Nat}
    (later : contractTypes[n + 1]? = some type) :
    type ≠ .config := by
  rintro rfl
  exact Nat.succ_ne_zero n (eq_of_contractTypes later rfl)

/-- The map with the contract that comes next. -/
theorem MapsTo.update
    {contractMap : ContractMap Contract}
    {impl : Contract}
    {opts : ContractInitOpts}
    (maps : MapsTo contractMap ready)
    (stage : contractTypes[ready.length]? = some type) :
    MapsTo (Function.update contractMap type (some impl)) (ready ++ [(impl, opts)]) := by
  intro n other atOther
  by_cases same : other = type
  · subst same
    rw [Function.update_self, eq_of_contractTypes atOther stage,
      List.getElem?_concat_length]
    rfl
  · have notNext : n ≠ ready.length := by
      rintro rfl
      exact same (Option.some.inj (atOther.symm.trans stage))
    rw [Function.update_of_ne same, maps n other atOther]
    by_cases earlier : n < ready.length
    · rw [List.getElem?_append_left earlier]
    · rw [List.getElem?_eq_none (by omega), List.getElem?_eq_none (by simp; omega)]

/-- The loop over the types plugs in one contract after the other. -/
theorem buildResolvableContracts_conforms
    {configResolver : Contract}
    (types : List ContractType)
    {contractMap : ContractMap Contract}
    (left : contractTypes.drop ready.length = types)
    (within : ready.length ≤ contractTypes.length)
    (resolver : ready.head?.map Prod.fst = some configResolver)
    (maps : MapsTo contractMap ready) :
    (bootProtocol validators cwd config systemOpts).Conforms () (BootRecord.between ready)
      (buildResolvableContracts validators cwd config configResolver systemOpts
        contractMap types :
        BootProgram Module Contract (ContractMap Contract)) := by
  induction types generalizing ready contractMap with
  | nil =>
      have all : contractTypes.length ≤ ready.length := List.drop_eq_nil_iff.mp left
      exact ⟨Nat.le_antisymm within all, maps⟩
  | cons type types inductionHypothesis =>
      have bound : ready.length < contractTypes.length := by
        by_contra notWithin
        rw [List.drop_eq_nil_of_le (by omega)] at left
        cases left
      have next := (List.drop_eq_getElem_cons bound).symm.trans left
      obtain ⟨isType, others⟩ := List.cons.inj next
      have stage : contractTypes[ready.length]? = some type := by
        rw [List.getElem?_eq_getElem bound, isType]
      obtain ⟨first, laterReady, rfl⟩ : ∃ first others, ready = first :: others :=
        List.exists_cons_of_ne_nil (by rintro rfl; cases resolver)
      have isOther : type ≠ .config := ne_config_of_contractTypes stage
      refine Protocol.Leads.bind
        (buildResolvableContract_leads stage isOther resolver) ?_ ?_
      · rintro impl _ ⟨opts, rfl⟩
        refine inductionHypothesis ?_ ?_ ?_ (maps.update stage)
        · rw [List.length_append]
          exact others
        · rw [List.length_append]
          exact bound
        · exact resolver
      · intro reason record same
        change record.ready.length < contractTypes.length
        rw [same]
        exact bound

theorem buildContractMap_conforms :
    (bootProtocol validators cwd config systemOpts).Conforms () (BootRecord.between [])
      (buildContractMap validators cwd config systemOpts :
        BootProgram Module Contract (ContractMap Contract)) := by
  unfold buildContractMap
  split
  · exact Nat.zero_lt_succ _
  · refine Protocol.Leads.bind buildConfigResolverContract_leads ?_ ?_
    · rintro configResolver _ ⟨opts, rfl⟩
      refine buildResolvableContracts_conforms _ rfl (Nat.succ_le_succ (Nat.zero_le _)) rfl ?_
      intro n type atType
      cases n with
      | zero =>
          cases atType
          rfl
      | succ n =>
          simp [ne_config_of_contractTypes atType]
    · intro reason record same
      change record.ready.length < contractTypes.length
      rw [same]
      exact Nat.zero_lt_succ _

end Loading

/-! ## What has been initialised -/

section Invariants

variable {validators : ContractValidators Contract}
variable {cwd : List Char}
variable {config : ContractConfigFile}
variable {systemOpts : ContractSystemOpts}
variable {env : String → Option String}

/-- A contract that has been initialised in the course of the start. -/
structure PluggedIn
    (validators : ContractValidators Contract)
    (config : ContractConfigFile)
    (systemOpts : ContractSystemOpts)
    (type : ContractType)
    (impl : Contract)
    (opts : ContractInitOpts) :
    Prop where
  implements : validators.Implements type impl
  system : opts.system = systemOpts
  unresolved :
    type = .config → opts.contract = (config type).opts.getD .empty

/-- The contracts have been plugged in one after the other. -/
def EachPluggedIn
    (validators : ContractValidators Contract)
    (config : ContractConfigFile)
    (systemOpts : ContractSystemOpts)
    (ready : List (Contract × ContractInitOpts)) :
    Prop :=
  ∀ (n : Nat) (impl : Contract) (opts : ContractInitOpts),
    ready[n]? = some (impl, opts) →
      ∃ type, contractTypes[n]? = some type ∧
        PluggedIn validators config systemOpts type impl opts

/-- The options are those of the entry, with the values of the environment. -/
structure HasEnvOpts
    (env : String → Option String)
    (entry : ContractConfigFileEntry)
    (opts : ContractOpts) :
    Prop where
  defined :
    ∀ option ∈ entry.requested,
      (EnvConfigResolver.resolveValueNullable env option.2).isSome = true
  entries :
    opts.entries =
      (entry.requested.filter fun option => option.1 ≠ "__proto__").map fun option =>
        (option.1, EnvConfigResolver.resolveValueNullable env option.2)

/-- The config contract answers from the environment. -/
def FromEnv (env : String → Option String) :
    Answered (bootSignature Module Contract) AppError → Prop
  | ⟨.inr (.resolveValue _ value), answer⟩ =>
      answer = EnvConfigResolver.resolveValue env value
  | _ => True

/-- A call that is answered initialises a contract, or none. -/
theorem BootRecord.note_ready
    (record : BootRecord Module Contract)
    (op : (bootSignature Module Contract).Op)
    (answer : Except AppError ((bootSignature Module Contract).Result op)) :
    (record.note op answer).ready = record.ready ∨
      ∃ impl opts, op = .inr (.init impl opts) ∧
        (record.note op answer).ready = record.ready ++ [(impl, opts)] := by
  cases answer with
  | error reason =>
      exact .inl rfl
  | ok value =>
      rcases op with (path | module) | (⟨impl, opts⟩ | ⟨configResolver, text⟩)
      · exact .inl rfl
      · exact .inl rfl
      · exact .inr ⟨impl, opts, rfl, rfl⟩
      · exact .inl rfl

/-- The last element of a list, or an earlier one. -/
theorem getElem?_snoc
    {α : Type}
    {items : List α}
    {last item : α}
    {n : Nat}
    (found : (items ++ [last])[n]? = some item) :
    items[n]? = some item ∨ (n = items.length ∧ last = item) := by
  by_cases earlier : n < items.length
  · rw [List.getElem?_append_left earlier] at found
    exact .inl found
  · rw [List.getElem?_append_right (by omega), List.getElem?_singleton] at found
    split at found
    · exact .inr ⟨by omega, Option.some.inj found⟩
    · cases found

theorem pluggedIn_preserved
    {record : BootRecord Module Contract}
    {op : (bootSignature Module Contract).Op}
    (answer : Except AppError ((bootSignature Module Contract).Result op))
    (before : EachPluggedIn validators config systemOpts record.ready)
    (permitted : BootPermits validators cwd config systemOpts record op) :
    EachPluggedIn validators config systemOpts (record.note op answer).ready := by
  intro n impl opts found
  rcases record.note_ready op answer with same | ⟨newest, given, rfl, grown⟩
  · rw [same] at found
    exact before n impl opts found
  · rw [grown] at found
    rcases getElem?_snoc found with earlier | ⟨rfl, isNewest⟩
    · exact before n impl opts earlier
    · cases isNewest
      obtain ⟨-, type, stage, -, implements, system, isGiven⟩ := permitted
      refine ⟨type, stage, implements, system, fun isConfig => ?_⟩
      rw [GivenOpts, if_pos isConfig] at isGiven
      exact isGiven

/-- Values that are the ones of the environment are given as such. -/
theorem assigned_of_values
    {requested : List (String × String)}
    {values : List String}
    {value : String × String → Option String}
    (same : values.map some = requested.map value) :
    assigned requested values =
      (requested.filter fun option => option.1 ≠ "__proto__").map fun option =>
        (option.1, value option) := by
  induction requested generalizing values with
  | nil =>
      rfl
  | cons option requested inductionHypothesis =>
      cases values with
      | nil =>
          cases same
      | cons first values =>
          obtain ⟨isValue, others⟩ := List.cons.inj same
          have later := inductionHypothesis others
          simp only [assigned] at later
          by_cases isPrototype : option.1 = "__proto__"
          · simpa [assigned, isPrototype] using later
          · simpa [assigned, isPrototype, isValue] using later

/-- The values so far are the ones of the environment. -/
structure EnvFilled
    (env : String → Option String)
    (config : ContractConfigFile)
    (record : BootRecord Module Contract) :
    Prop where
  values :
    ∀ type, record.stage = some type → type ≠ .config →
      record.values.map some =
        ((config type).requested.take record.values.length).map fun option =>
          EnvConfigResolver.resolveValueNullable env option.2
  ready :
    ∀ n impl opts type,
      record.ready[n + 1]? = some (impl, opts) →
      contractTypes[n + 1]? = some type →
      HasEnvOpts env (config type) opts.contract

theorem envFilled_preserved
    {record : BootRecord Module Contract}
    {op : (bootSignature Module Contract).Op}
    {answer : Except AppError ((bootSignature Module Contract).Result op)}
    (filled : EnvFilled env config record)
    (permitted : BootPermits validators cwd config systemOpts record op)
    (fromEnv : FromEnv env ⟨op, answer⟩) :
    EnvFilled env config (record.note op answer) := by
  cases answer with
  | error reason =>
      exact ⟨filled.values, filled.ready⟩
  | ok value =>
      rcases op with (path | module) | (⟨impl, opts⟩ | ⟨configResolver, text⟩)
      · exact ⟨filled.values, filled.ready⟩
      · exact ⟨filled.values, filled.ready⟩
      · obtain ⟨-, type, stage, -, -, -, given⟩ := permitted
        refine ⟨fun _ _ _ => rfl, fun n other otherOpts otherType found atType => ?_⟩
        rcases getElem?_snoc found with earlier | ⟨isLast, isNewest⟩
        · exact filled.ready n other otherOpts otherType earlier atType
        · cases isNewest
          rw [isLast] at atType
          cases stage.symm.trans atType
          rw [← isLast] at atType
          have isOther := ne_config_of_contractTypes atType
          rw [GivenOpts, if_neg isOther] at given
          have values := filled.values type stage isOther
          rw [given.1, List.take_length] at values
          refine ⟨fun option member => ?_, ?_⟩
          · have listed :
                EnvConfigResolver.resolveValueNullable env option.2 ∈
                  record.values.map some := by
              rw [values]
              exact List.mem_map_of_mem member
            obtain ⟨value, -, isValue⟩ := List.mem_map.mp listed
            exact Option.isSome_iff_exists.mpr ⟨value, isValue.symm⟩
          · rw [given.2, assigned_of_values values]
      · obtain ⟨-, type, stage, isOther, -, -, next⟩ := permitted
        change String at value
        refine ⟨fun otherType otherStage _ => ?_, filled.ready⟩
        cases stage.symm.trans otherStage
        have isValue := EnvConfigResolver.resolveValue_eq_ok_iff.mp fromEnv.symm
        obtain ⟨option, isNext, rfl⟩ := Option.map_eq_some_iff.mp next
        change (record.values ++ [value]).map some = _
        change _ = ((config type).requested.take (record.values ++ [value]).length).map _
        rw [List.map_append, filled.values type stage isOther, List.length_append,
          List.length_singleton, List.take_add_one, isNext, List.map_append]
        simp [isValue]

end Invariants

/-- What a history of the start has led to. -/
def bootRecord (history : List (Answered (bootSignature Module Contract) AppError)) :
    BootRecord Module Contract :=
  history.foldl (fun record answered => record.note answered.op answered.answer) {}

/--
Along every history of the start each call is permitted when it is made, and
the contracts that have been initialised are checked ones in the order of their
types.  The server gets its map when all of them have been initialised.  Where
the config contract answers from the environment, every other contract has been
given its options with the values of the environment.
-/
theorem contracts_pluggedIn
    (validators : ContractValidators Contract)
    (cwd : List Char)
    (config : ContractConfigFile)
    (systemOpts : ContractSystemOpts)
    {history : List (Answered (bootSignature Module Contract) AppError)}
    {reached : BootProgram Module Contract (ContractMap Contract)}
    (along :
      (buildContractMap validators cwd config systemOpts).Along history reached) :
    (∀ before answered later,
      history = before ++ answered :: later →
      BootPermits validators cwd config systemOpts (bootRecord before) answered.op) ∧
    EachPluggedIn validators config systemOpts (bootRecord history).ready ∧
    (∀ contractMap,
      reached.resolved = some contractMap →
      (bootRecord history).ready.length = contractTypes.length ∧
        MapsTo contractMap (bootRecord history).ready) ∧
    ∀ env : String → Option String,
      (∀ answered ∈ history, FromEnv env answered) →
      ∀ (n : Nat) (impl : Contract) (opts : ContractInitOpts) (type : ContractType),
        (bootRecord history).ready[n + 1]? = some (impl, opts) →
        contractTypes[n + 1]? = some type →
        HasEnvOpts env (config type) opts.contract := by
  have conforms :=
    @buildContractMap_conforms Module Contract validators cwd config systemOpts
  refine ⟨fun before answered later shape => conforms.permitted along shape, ?_,
    fun contractMap resolved => ?_, fun env answers => ?_⟩
  · refine conforms.invariant
      (fun record op answer plugged permitted _ => pluggedIn_preserved answer plugged permitted)
      (fun n impl opts found => by cases found) along (fun _ _ => True.intro)
  · have finished := conforms.along along
    cases reached with
    | settled outcome =>
        cases outcome with
        | error reason =>
            cases resolved
        | ok value =>
            cases resolved
            exact finished
    | await op resume =>
        cases resolved
  · have filled :=
      conforms.invariant
        (fun record op answer filled permitted fromEnv =>
          envFilled_preserved filled permitted fromEnv)
        ⟨fun _ _ _ => rfl, fun n impl opts type found => by cases found⟩ along answers
    exact filled.ready

end

/-- The keys of the files that the server is shipped with. -/
def ContractType.shippedKey : ContractType → String
  | .config => "config/env-config-resolver.ts"
  | .envBuilder => "env/docker/docker-env-builder.ts"
  | .envRunner => "env/docker/docker-env-runner.ts"
  | .log => "log/file-log-provider.ts"
  | .metric => "metric/file-metric-provider.ts"
  | .scheduler => "scheduler/cron-task-scheduler.ts"
  | .queue => "queue/in-memory-task-queue.ts"

/-- Every contract comes from its file; one option of the queue is a variable. -/
def shippedConfig : ContractConfigFile := fun type =>
  { type := .file
    key := type.shippedKey.toList
    opts :=
      if type = .queue then
        some ⟨[("maxConcurrency", some "\x7b\x7bLIMIT\x7d\x7d"), ("name", none)], by decide⟩
      else
        none }

/-- The contract directory of the server lies in this one. -/
def shippedOpts : ContractSystemOpts where
  workDir := "/srv/prescott".toList

/-- A contract has the methods of its type; each is known by the type. -/
def shippedValidators : ContractValidators ContractType where
  isUndefined := fun _ => false
  arity := fun impl method => impl.schema.lookup method
  implError := fun _ _ => ""
  configError := fun _ => ""

/-- The environment of the example. -/
def shippedEnv (name : String) : Option String :=
  if name = "LIMIT" then some "7" else none

/-- A file is imported, and its contract is built. -/
def loadedHistory (type : ContractType) (path : String) :
    List (Answered (bootSignature ContractType ContractType) AppError) :=
  [⟨.inl (.import path.toList), .ok ⟨some type, type⟩⟩,
    ⟨.inl (.buildContract type), .ok type⟩]

/-- The calls for a contract without options. -/
def pluggedHistory (type : ContractType) (path : String) :
    List (Answered (bootSignature ContractType ContractType) AppError) :=
  loadedHistory type path ++ [⟨.inr (.init type ⟨shippedOpts, .empty⟩), .ok ()⟩]

/-- The calls of a start that succeeds. -/
def startedHistory : List (Answered (bootSignature ContractType ContractType) AppError) :=
  pluggedHistory .config "/srv/prescott/contract/config/env-config-resolver" ++
    pluggedHistory .envBuilder "/srv/prescott/contract/env/docker/docker-env-builder" ++
    pluggedHistory .envRunner "/srv/prescott/contract/env/docker/docker-env-runner" ++
    pluggedHistory .log "/srv/prescott/contract/log/file-log-provider" ++
    pluggedHistory .metric "/srv/prescott/contract/metric/file-metric-provider" ++
    pluggedHistory .scheduler "/srv/prescott/contract/scheduler/cron-task-scheduler" ++
    loadedHistory .queue "/srv/prescott/contract/queue/in-memory-task-queue" ++
    [⟨.inr (.resolveValue .config "\x7b\x7bLIMIT\x7d\x7d"), .ok "7"⟩,
      ⟨.inr (.init .queue
        ⟨shippedOpts, [("maxConcurrency", some "7")], by decide⟩), .ok ()⟩]

theorem along_startedHistory :
    ∃ contractMap,
      (buildContractMap shippedValidators "/".toList shippedConfig shippedOpts :
          BootProgram ContractType ContractType (ContractMap ContractType)).Along
        startedHistory (pure contractMap) :=
  ⟨_, .awaited (.awaited (.awaited (.awaited (.awaited (.awaited (.awaited (.awaited
    (.awaited (.awaited (.awaited (.awaited (.awaited (.awaited (.awaited (.awaited
      (.awaited (.awaited (.awaited (.awaited (.awaited (.awaited
        (.here _))))))))))))))))))))))⟩

theorem fromEnv_startedHistory :
    ∀ answered ∈ startedHistory, FromEnv shippedEnv answered := by
  have resolved :
      EnvConfigResolver.resolveValue shippedEnv "\x7b\x7bLIMIT\x7d\x7d" = .ok "7" := by
    decide
  simp [startedHistory, pluggedHistory, loadedHistory, FromEnv, resolved]

/-- The server starts with its seven files, and its queue is given the limit. -/
theorem contracts_pluggedIn_started :
    ∃ (contractMap : ContractMap ContractType) (opts : ContractInitOpts),
      EachPluggedIn shippedValidators shippedConfig shippedOpts
          (bootRecord startedHistory).ready ∧
        (bootRecord startedHistory).ready.length = 7 ∧
        MapsTo contractMap (bootRecord startedHistory).ready ∧
        (bootRecord startedHistory).ready[6]? = some (.queue, opts) ∧
        HasEnvOpts shippedEnv (shippedConfig .queue) opts.contract := by
  obtain ⟨contractMap, along⟩ := along_startedHistory
  obtain ⟨-, plugged, finished, fromEnv⟩ :=
    contracts_pluggedIn shippedValidators "/".toList shippedConfig shippedOpts along
  obtain ⟨all, maps⟩ := finished contractMap rfl
  exact ⟨contractMap, _, plugged, all, maps, rfl,
    fromEnv shippedEnv fromEnv_startedHistory 5 .queue _ .queue rfl rfl⟩

end Prescott
