import Mathlib.Data.List.Nodup
import Prescott.AsyncHistory
import Prescott.ContractLoading

namespace Prescott

/-!
# Plugging in the contracts

When the server starts, it loads its seven contracts one after the other.  Each
is checked against the methods that the server calls, and is initialised with
its options, in which the config contract has replaced what it resolves.
-/

/-- The contracts of the server. -/
inductive ContractType where
  | config
  | envBuilder
  | envRunner
  | log
  | metric
  | scheduler
  | queue
  deriving Repr, DecidableEq

/-- `CONTRACT_TYPES`: the config contract always loads first. -/
def contractTypes : List ContractType :=
  [.config, .envBuilder, .envRunner, .log, .metric, .scheduler, .queue]

namespace ContractType

/-- The key of a contract in the config file. -/
def name : ContractType → String
  | .config => "config"
  | .envBuilder => "envBuilder"
  | .envRunner => "envRunner"
  | .log => "log"
  | .metric => "metric"
  | .scheduler => "scheduler"
  | .queue => "queue"

/--
`contractSchema`: the methods that are required of an implementation, with the
least number of their parameters.
-/
def schema : ContractType → List (String × Nat)
  | .config =>
      [("init", 1), ("resolveValue", 1), ("resolveValueNullable", 1)]
  | .envBuilder =>
      [("init", 1), ("buildEnv", 1), ("deleteEnv", 1)]
  | .envRunner =>
      [("init", 1), ("runEnv", 1), ("getEnvHandle", 1),
        ("getEnvChildrenHandleIds", 1)]
  | .log =>
      [("init", 1), ("consumeLogGenerator", 2), ("searchLog", 3), ("flushLog", 1)]
  | .metric =>
      [("init", 1), ("consumeMetricGenerator", 2), ("aggregateMetric", 2),
        ("searchMetric", 3), ("flushMetric", 1)]
  | .scheduler =>
      [("init", 1), ("schedule", 2), ("start", 1), ("stop", 1), ("delete", 1),
        ("exists", 1)]
  | .queue =>
      [("init", 1), ("enqueue", 2)]

end ContractType

/-- The options of a contract, in the order of `Object.entries`. -/
structure ContractOpts where
  entries : List (String × Option String)
  distinct : (entries.map Prod.fst).Nodup
  deriving Repr, DecidableEq

namespace ContractOpts

/-- `{}` -/
def empty : ContractOpts where
  entries := []
  distinct := List.nodup_nil

theorem distinct_append
    {opts : ContractOpts}
    {key : String}
    (isNew : key ∉ opts.entries.map Prod.fst)
    (value : Option String) :
    ((opts.entries ++ [(key, value)]).map Prod.fst).Nodup := by
  rw [List.map_append, List.map_singleton]
  exact List.nodup_append_comm.mpr (List.nodup_cons.mpr ⟨isNew, opts.distinct⟩)

/-- The entries with another value for a key. -/
def replaced (entries : List (String × Option String)) (key value : String) :
    List (String × Option String) :=
  entries.map fun entry => if entry.1 = key then (key, some value) else entry

theorem map_fst_replaced
    (entries : List (String × Option String))
    (key value : String) :
    (replaced entries key value).map Prod.fst = entries.map Prod.fst := by
  rw [replaced, List.map_map]
  refine List.map_congr_left fun entry _ => ?_
  by_cases same : entry.1 = key
  · simp [same]
  · simp [same]

/-- `opts[key] = value`; a text is no prototype, and is dropped as one. -/
def assign (opts : ContractOpts) (key value : String) : ContractOpts :=
  if key = "__proto__" then
    opts
  else if isNew : key ∉ opts.entries.map Prod.fst then
    { entries := opts.entries ++ [(key, some value)]
      distinct := distinct_append isNew _ }
  else
    { entries := replaced opts.entries key value
      distinct := by
        rw [map_fst_replaced]
        exact opts.distinct }

end ContractOpts

/-- An entry of the config file: where the module of a contract comes from, and its options. -/
structure ContractConfigFileEntry where
  type : ContractSourceType
  key : List Char
  opts : Option ContractOpts := none
  deriving Repr, DecidableEq

/-- The entries of the config file, one for each contract. -/
abbrev ContractConfigFile := ContractType → ContractConfigFileEntry

/-- What a contract is initialised with. -/
structure ContractInitOpts where
  system : ContractSystemOpts
  contract : ContractOpts

/-! ## Validation -/

/-- What the schemas look at, and the texts of their errors. -/
structure ContractValidators (Contract : Type) where
  /-- What a module has built is the value `undefined`. -/
  isUndefined : Contract → Bool
  /-- The number of parameters of a method, if there is one. -/
  arity : Contract → String → Option Nat
  implError : ContractType → Contract → String
  configError : ContractConfigFile → String

section

variable {Module Contract : Type}

namespace ContractValidators

/-- An implementation has the methods of the contract. -/
def Implements
    (validators : ContractValidators Contract)
    (type : ContractType)
    (impl : Contract) :
    Prop :=
  ∀ method ∈ type.schema,
    ∃ arity ∈ validators.arity impl method.1, method.2 ≤ arity

instance
    (validators : ContractValidators Contract)
    (type : ContractType)
    (impl : Contract) :
    Decidable (validators.Implements type impl) :=
  inferInstanceAs (Decidable (∀ method ∈ type.schema,
    ∃ arity ∈ validators.arity impl method.1, method.2 ≤ arity))

/-- What the schema of an object takes; as it is not required, `undefined` passes. -/
def Passes
    (validators : ContractValidators Contract)
    (type : ContractType)
    (impl : Contract) :
    Prop :=
  validators.isUndefined impl = true ∨ validators.Implements type impl

instance
    (validators : ContractValidators Contract)
    (type : ContractType)
    (impl : Contract) :
    Decidable (validators.Passes type impl) :=
  inferInstanceAs (Decidable (_ ∨ _))

/-- The error of an implementation that does not pass. -/
def validateContractImpl
    (validators : ContractValidators Contract)
    (type : ContractType)
    (impl : Contract) :
    Option String :=
  if validators.Passes type impl then
    none
  else
    some ("Invalid contract implementation for " ++ type.name ++ ": " ++
      validators.implError type impl)

end ContractValidators

/-- `contractConfigEntrySchema`: keys and options are texts that are not empty. -/
def ContractConfigFileEntry.isValid (entry : ContractConfigFileEntry) : Bool :=
  !entry.key.isEmpty &&
    (entry.opts.getD .empty).entries.all fun (_, value) => value ≠ some ""

/-- The error of a config file with an entry that is not valid. -/
def validateContractConfig
    (validators : ContractValidators Contract)
    (config : ContractConfigFile) :
    Option String :=
  if contractTypes.all fun type => (config type).isValid then
    none
  else
    some ("Invalid config: " ++ validators.configError config)

/-! ## The programs -/

/-- The methods of a contract that its loading calls. -/
inductive PluginOp (Contract : Type) where
  | init (impl : Contract) (opts : ContractInitOpts)
  | resolveValue (configResolver : Contract) (value : String)

/-- The methods of a contract, with what they resolve with. -/
abbrev pluginSignature (Contract : Type) : Signature where
  Op := PluginOp Contract
  Result
    | .init _ _ => Unit
    | .resolveValue _ _ => String

/-- What the start of the server awaits: modules and methods of contracts. -/
abbrev bootSignature (Module Contract : Type) : Signature :=
  (contractSignature Module Contract).sum (pluginSignature Contract)

/-- A call in the course of the start. -/
abbrev BootProgram (Module Contract : Type) :=
  Async (bootSignature Module Contract) AppError

/-- Await a method of a contract. -/
def pluginOp
    (op : PluginOp Contract) :
    BootProgram Module Contract ((pluginSignature Contract).Result op) :=
  .await (.inr op) .settled

/-- `impl.init(opts)`; a method of `undefined` cannot be called. -/
def initContract
    (validators : ContractValidators Contract)
    (impl : Contract)
    (opts : ContractInitOpts) : BootProgram Module Contract Unit :=
  if validators.isUndefined impl then
    throw (.typeError "Cannot read properties of undefined (reading 'init')")
  else
    pluginOp (.init impl opts)

/-- Load a contract and check it against the schema of its type. -/
def loadAndValidateContract
    (validators : ContractValidators Contract)
    (cwd : List Char)
    (contractType : ContractType)
    (configEntry : ContractConfigFileEntry)
    (systemOpts : ContractSystemOpts) : BootProgram Module Contract Contract := do
  let contractImpl ←
    (loadContract cwd configEntry.type configEntry.key systemOpts :
      ContractProgram Module Contract Contract).lift
  -- check signature in runtime
  match validators.validateContractImpl contractType contractImpl with
  | some implValidationError => throw (.failure implValidationError)
  | none => pure contractImpl

/-- The config contract, which is given its options as they stand. -/
def buildConfigResolverContract
    (validators : ContractValidators Contract)
    (cwd : List Char)
    (entry : ContractConfigFileEntry)
    (systemOpts : ContractSystemOpts) : BootProgram Module Contract Contract := do
  let impl ← loadAndValidateContract validators cwd .config entry systemOpts
  initContract validators impl ⟨systemOpts, entry.opts.getD .empty⟩
  pure impl

/-- The loop over `Object.entries(opts)`; an empty text is falsy. -/
def resolveEntries
    (configResolver : Contract)
    (resolvedOpts : ContractOpts) :
    List (String × Option String) → BootProgram Module Contract ContractOpts
  | [] => pure resolvedOpts
  | (key, some value) :: entries =>
      if value = "" then
        resolveEntries configResolver resolvedOpts entries
      else do
        let resolved ← pluginOp (.resolveValue configResolver value)
        resolveEntries configResolver (resolvedOpts.assign key resolved) entries
  | (_, none) :: entries =>
      resolveEntries configResolver resolvedOpts entries

/-- The options with the values that the config contract has for them. -/
def resolveContractOpts
    (configResolver : Contract)
    (opts : ContractOpts) : BootProgram Module Contract ContractOpts :=
  resolveEntries configResolver .empty opts.entries

/-- A contract other than the config contract, which is given resolved options. -/
def buildResolvableContract
    (validators : ContractValidators Contract)
    (cwd : List Char)
    (type : ContractType)
    (entry : ContractConfigFileEntry)
    (configResolver : Contract)
    (systemOpts : ContractSystemOpts) : BootProgram Module Contract Contract := do
  let impl ← loadAndValidateContract validators cwd type entry systemOpts
  let resolvedOpts ←
    entry.opts.elim (pure .empty) (resolveContractOpts configResolver)
  initContract validators impl ⟨systemOpts, resolvedOpts⟩
  pure impl

/-- The contracts that have been built. -/
abbrev ContractMap (Contract : Type) := ContractType → Option Contract

/-- The loop over `CONTRACT_TYPES.slice(1)`. -/
def buildResolvableContracts
    (validators : ContractValidators Contract)
    (cwd : List Char)
    (contractConfig : ContractConfigFile)
    (configResolver : Contract)
    (systemOpts : ContractSystemOpts)
    (contractMap : ContractMap Contract) :
    List ContractType → BootProgram Module Contract (ContractMap Contract)
  | [] => pure contractMap
  | type :: types => do
      let impl ←
        buildResolvableContract validators cwd type (contractConfig type)
          configResolver systemOpts
      buildResolvableContracts validators cwd contractConfig configResolver
        systemOpts (Function.update contractMap type (some impl)) types

/-- Bring up all contracts of a config file that is valid. -/
def buildContractMap
    (validators : ContractValidators Contract)
    (cwd : List Char)
    (contractConfig : ContractConfigFile)
    (systemOpts : ContractSystemOpts) :
    BootProgram Module Contract (ContractMap Contract) :=
  match validateContractConfig validators contractConfig with
  | some configError => throw (.failure configError)
  | none => do
      let configResolver ←
        buildConfigResolverContract validators cwd (contractConfig .config) systemOpts
      buildResolvableContracts validators cwd contractConfig configResolver systemOpts
        (fun type => if type = .config then some configResolver else none)
        (contractTypes.drop 1)

/-! ## The config contract of the environment -/

namespace EnvConfigResolver

/-- The characters that `.` does not stand for. -/
def isLineTerminator (char : Char) : Bool :=
  char == '\n' || char == '\r' || char == '\u2028' || char == '\u2029'

/-- `value.slice(2, -2)` -/
def inner (value : String) : List Char :=
  (value.toList.drop 2).take (value.toList.length - 4)

/-- `IS_RESOLVABLE_REGEXP`: two pairs of braces around a text on one line. -/
def isResolvable (value : String) : Bool :=
  4 ≤ value.toList.length &&
    ['\x7b', '\x7b'].isPrefixOf value.toList &&
    ['\x7d', '\x7d'].isSuffixOf value.toList &&
    (inner value).all fun char => !isLineTerminator char

/-- `env` is `process.env`. -/
def resolveValueNullable (env : String → Option String) (value : String) :
    Option String :=
  if isResolvable value then
    env (String.ofList (inner value))
  else
    some value

/-- The value, or an error where the variable is not defined. -/
def resolveValue (env : String → Option String) (value : String) :
    Except AppError String :=
  match resolveValueNullable env value with
  | some result => .ok result
  | none => .error (.failure ("Cannot resolve value='" ++ value ++ "'"))

theorem resolveValue_eq_ok_iff
    {env : String → Option String}
    {value result : String} :
    resolveValue env value = .ok result ↔
      resolveValueNullable env value = some result := by
  unfold resolveValue
  split <;> simp_all

end EnvConfigResolver

end

end Prescott
