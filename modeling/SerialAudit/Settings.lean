import SerialAudit.Text.Case
import SerialAudit.Text.Split
import SerialAudit.Validation.Scalar

/-! The settings of the server. They come from variables of the environment and from values that are
given directly, and the latter win. Letter case does not matter in the names of either, unless an
option among the values asks for it.

* `Settings` : the settings;
* `Settings.normalPath` : a path in its normal form;
* `Settings.Options` : how the settings are looked up;
* `Settings.read` : the settings from the environment and the values given. -/
namespace SerialAudit
set_option autoImplicit false

structure Settings where
  configDir : String
  host : String
  port : Int
  urlToken : String
  maxWorkers : Int
  logLevel : String
  deriving DecidableEq, Repr

namespace Settings

def modelName : String := "ServerConfig"

/-! ## Paths -/

/-- The root that a path begins with: two slashes are a root of their own, three or more are one. -/
def root (cs : List Char) : String :=
  match (cs.takeWhile (· = '/')).length with
  | 0 => ""
  | 2 => "//"
  | _ => "/"

/-- A path without empty parts, parts that are a point, and a slash at the end. -/
def normalPath (s : String) : String :=
  let parts := (Text.splitAll '/' s.toList).filter fun p => !p.isEmpty && p ≠ ['.']
  let path := root s.toList ++ String.intercalate "/" (parts.map String.ofList)
  if path = "" then "." else path

def readPath : Reader String
  | .text s => .ok (normalPath s)
  | _ => .fail .notPath

def readAtLeast (least : Int) : Reader Int := fun d =>
  match Reader.integer d with
  | .ok n => if n < least then .fail (.belowMinimum least) else .ok n
  | .bad issues => .bad issues

/-! ## Options -/

def fieldNames : List String :=
  ["config_dir", "host", "port", "url_token", "max_workers", "log_level"]

def variableLead : String := "MIGRALINT_"

/-- How the settings are looked up: what the names of their variables begin with, whether letter case
matters, whether empty variables are left out, and the word that stands for no value. -/
structure Options where
  lead : String
  exact : Bool
  ignoreEmpty : Bool
  nothing : Option String
  deriving DecidableEq, Repr

namespace Options

/-- The options where none are given. -/
def standard : Options := ⟨variableLead, false, false, none⟩

/-- The names of the options. Those beyond the first four concern sources that are not used here. -/
def names : List String :=
  ["_env_prefix", "_case_sensitive", "_env_ignore_empty", "_env_parse_none_str",
   "_nested_model_default_partial_update", "_env_file", "_env_file_encoding",
   "_env_nested_delimiter", "_env_nested_max_split", "_env_parse_enums", "_cli_prog_name",
   "_cli_parse_args", "_cli_settings_source", "_cli_parse_none_str", "_cli_hide_none_type",
   "_cli_avoid_json", "_cli_enforce_required", "_cli_use_class_docs_for_groups",
   "_cli_exit_on_error", "_cli_prefix", "_cli_flag_prefix_char", "_cli_implicit_flags",
   "_cli_ignore_unknown_args", "_cli_kebab_case", "_cli_shortcuts", "_secrets_dir"]

/-- The value of an option; null is as good as none. -/
def value? (values : List (String × Datum)) (name : String) : Option Datum :=
  match values.lookup name with
  | some .null => none
  | d => d

def ofValues? (values : List (String × Datum)) : Option Options :=
  let flag (name : String) := ((value? values name).map Datum.counts).getD false
  let nothing := match value? values "_env_parse_none_str" with
    | some (.text s) => some s
    | _ => none
  let o : Options := ⟨variableLead, flag "_case_sensitive", flag "_env_ignore_empty", nothing⟩
  match value? values "_env_prefix" with
  | none => some o
  | some (.text lead) => some { o with lead := lead }
  | some _ => none

/-- A name as it is compared with others. -/
def key (o : Options) (name : String) : String := if o.exact then name else Text.lower name

/-- The value of the last variable for a setting. -/
def environmentValue? (o : Options) (environment : List (String × String)) (name : String) :
    Option Datum :=
  let used := environment.filter fun v => !(o.ignoreEmpty && v.2 = "")
  (used.reverse.find? fun v => o.key v.1 = o.key (o.lead ++ name)).map fun v =>
    if o.nothing = some v.2 then .null else .text v.2

/-- The value given for a setting, which is the first one under its name. -/
def given? (o : Options) (values : List (String × Datum)) (name : String) : Option Datum :=
  (values.find? fun v => o.key v.1 = name).map (·.2)

def fields (o : Options) (environment : List (String × String)) (values : List (String × Datum)) :
    List (String × Datum) :=
  fieldNames.filterMap fun name =>
    ((o.given? values name).or (o.environmentValue? environment name)).map (name, ·)

/-- The values given under names that neither a setting nor an option has. -/
def unexpected (o : Options) (values : List (String × Datum)) : List Issue :=
  (values.filter fun v => !(fieldNames.contains (o.key v.1) || names.contains v.1)).map fun v =>
    ⟨[.key v.1], .unexpected⟩

end Options

/-! ## Reading -/

/-- The settings by their fields; `directory` is the standard configuration directory. -/
def readFields (directory : String) (fields : List (String × Datum)) : Checked Settings :=
  mk <$> Reader.optional fields "config_dir" directory readPath
    <*> Reader.optional fields "host" "0.0.0.0" Reader.text
    <*> Reader.optional fields "port" 8000 Reader.integer
    <*> Reader.optional fields "url_token" "" Reader.text
    <*> Reader.optional fields "max_workers" 4 (readAtLeast 1)
    <*> Reader.optional fields "log_level" "INFO" Reader.text

def readWith (o : Options) (directory : String) (environment : List (String × String))
    (values : List (String × Datum)) : Checked Settings :=
  let settings := readFields directory (o.fields environment values)
  match o.unexpected values with
  | [] => settings
  | issues => (fun s _ => s) <$> settings <*> (Checked.bad issues : Checked Unit)

def read (directory : String) (environment : List (String × String)) : Checked Settings :=
  readWith Options.standard directory environment []

example : normalPath "a//b/./c/" = "a/b/c" ∧ normalPath "" = "." ∧ normalPath "///a" = "/a" ∧
    normalPath "//a/" = "//a" ∧ normalPath "/" = "/" := by decide +kernel

end Settings
end SerialAudit
