import Invocation.Evaluation
import Invocation.Text.Blank
import Invocation.Toml.Reader
import Invocation.Toml.Writer

/-!
# Settings

Settings are kept in a TOML document: the budget of an expression, whether findings make a rendering fail,
its time limit, and the resources that expressions see.  A missing key has its default, an unknown one is
ignored; `Settings.check` says which values are allowed.
-/

namespace Invocation

/-- The settings of a rendering. -/
structure Settings where
  expressionFuel : Nat := 10000
  failOnDiagnostics : Bool := false
  renderTimeoutSecs : Nat := 30
  runtime : Runtime := {}
  deriving DecidableEq, Inhabited

/-- A rule that settings break. -/
inductive SettingsRule where
  | fuel
  | timeout
  | cores
  | ram
  | directories
  deriving DecidableEq, Inhabited

namespace SettingsRule

/-- The rule in words. -/
def message : SettingsRule → String
  | fuel => "expression_fuel must be > 0"
  | timeout => "render_timeout_secs must be > 0"
  | cores => "runtime.cores must be > 0"
  | ram => "runtime.ram_mb must be > 0"
  | directories => "runtime.outdir and runtime.tmpdir must be non-empty"

end SettingsRule

/-- Why a document holds no settings. -/
inductive SettingsFault where
  | toml (fault : Toml.Fault)
  | wrongType (expected : String)
  deriving DecidableEq, Inhabited

namespace SettingsFault

/-- The fault in words. -/
def message : SettingsFault → String
  | toml fault => fault.message
  | wrongType expected => "invalid type: expected " ++ expected

end SettingsFault

namespace Settings

/-- The first rule that the settings break. -/
def check (settings : Settings) : Except SettingsRule Unit :=
  if settings.expressionFuel = 0 then .error .fuel
  else if settings.renderTimeoutSecs = 0 then .error .timeout
  else if settings.runtime.cores = 0 then .error .cores
  else if settings.runtime.ramMb = 0 then .error .ram
  else if Text.isBlankText settings.runtime.outdir || Text.isBlankText settings.runtime.tmpdir then
    .error .directories
  else .ok ()

/-! ## Reading -/

/-- The value as a natural number of this many bits. -/
def natOf (bits : Nat) : Toml.Value → Except SettingsFault Nat
  | .int n =>
    if 0 ≤ n ∧ n < Int.pow 2 bits then .ok n.toNat
    else .error (.wrongType ("an unsigned number of " ++ toString bits ++ " bits"))
  | _ => .error (.wrongType ("an unsigned number of " ++ toString bits ++ " bits"))

/-- The value as a truth value. -/
def boolOf : Toml.Value → Except SettingsFault Bool
  | .bool b => .ok b
  | _ => .error (.wrongType "a boolean")

/-- The value as a string. -/
def stringOf : Toml.Value → Except SettingsFault String
  | .string s => .ok s
  | _ => .error (.wrongType "a string")

/-- The value that is read by a function, or a default for a missing one. -/
def fieldOr {α : Type} (default : α) (read : Toml.Value → Except SettingsFault α) :
    Option Toml.Value → Except SettingsFault α
  | none => .ok default
  | some value => read value

/-- The resources whose four values are found by a function from their names and places. -/
def runtimeFrom (find : String → Nat → Option Toml.Value) : Except SettingsFault Runtime := do
  let default : Runtime := {}
  return {
    cores := ← fieldOr default.cores (natOf 32) (find "cores" 0)
    ramMb := ← fieldOr default.ramMb (natOf 64) (find "ram_mb" 1)
    outdir := ← fieldOr default.outdir stringOf (find "outdir" 2)
    tmpdir := ← fieldOr default.tmpdir stringOf (find "tmpdir" 3) }

/-- The resources of a table, or of an array that has them in order. -/
def runtimeOf : Toml.Value → Except SettingsFault Runtime
  | .table entries => runtimeFrom fun name _ ↦ entries.lookup name
  | .array items => runtimeFrom fun _ place ↦ items[place]?
  | _ => .error (.wrongType "a table")

/-- The settings of a table. -/
def ofEntries (entries : Entries Toml.Value) : Except SettingsFault Settings := do
  let default : Settings := {}
  return {
    expressionFuel :=
      ← fieldOr default.expressionFuel (natOf 64) (entries.lookup "expression_fuel")
    failOnDiagnostics :=
      ← fieldOr default.failOnDiagnostics boolOf (entries.lookup "fail_on_diagnostics")
    renderTimeoutSecs :=
      ← fieldOr default.renderTimeoutSecs (natOf 64) (entries.lookup "render_timeout_secs")
    runtime := ← fieldOr default.runtime runtimeOf (entries.lookup "runtime") }

/-- The settings of a document. -/
def read (text : String) : Except SettingsFault Settings :=
  match Toml.read text with
  | .error fault => .error (.toml fault)
  | .ok entries => ofEntries entries

/-! ## Writing -/

/-- A line that sets a key. -/
def line (key value : String) : String :=
  key ++ " = " ++ value ++ "\n"

/-- The document of settings. -/
def text (settings : Settings) : String :=
  line "expression_fuel" (toString settings.expressionFuel)
    ++ line "fail_on_diagnostics" (if settings.failOnDiagnostics then "true" else "false")
    ++ line "render_timeout_secs" (toString settings.renderTimeoutSecs)
    ++ "\n[runtime]\n"
    ++ line "cores" (toString settings.runtime.cores)
    ++ line "ram_mb" (toString settings.runtime.ramMb)
    ++ line "outdir" (Toml.stringText settings.runtime.outdir)
    ++ line "tmpdir" (Toml.stringText settings.runtime.tmpdir)
    ++ "\n"

end Settings

end Invocation
