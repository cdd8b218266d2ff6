import CodeAtlas.Config.Basic
import CodeAtlas.Json.Decoder
import CodeAtlas.Toml.Reader

/-!
# Configuration documents

Settings are read from a TOML document (`Settings.parseToml?`) or from a JSON one
(`Settings.ofJson?`). The keys are the same; unknown ones are passed over.
-/

namespace CodeAtlas

namespace Settings

/-! ## TOML -/

/-- A count: an integer that is not negative. -/
def tomlCount? : Toml → Option UInt64
  | .integer i => if 0 ≤ i then some (UInt64.ofNat i.toNat) else none
  | _ => none

/-- A number, with or without a point. -/
def tomlFloat? : Toml → Option Float
  | .float x => some x
  | .integer i => some (Numeral.nearestFloat (i < 0) i.natAbs 0)
  | _ => none

/-- A text. -/
def tomlText? : Toml → Option String
  | .text s => some s
  | _ => none

/-- A list of texts. -/
def tomlTexts? : Toml → Option (List String)
  | .array vs => vs.mapM tomlText?
  | _ => none

/-- The setting under a key, if there is one; it must decode. -/
def tomlSetting? {α : Type} (entries : List (String × Toml)) (key : String)
    (decode : Toml → Option α) : Option (Option α) :=
  match entries.lookup key with
  | none => some none
  | some v => (decode v).map some

/-- The settings among the entries of a document. -/
def ofToml? (entries : List (String × Toml)) : Option Settings := do
  let workerConcurrency ← tomlSetting? entries "worker_concurrency" tomlCount?
  let excludedAssemblies ← tomlSetting? entries "excluded_assembly_prefixes" tomlTexts?
  let mergeThreshold ← tomlSetting? entries "feature_merge_threshold" tomlFloat?
  let buildOutputSegments ← tomlSetting? entries "build_output_segments" tomlTexts?
  let nonSourceSegments ← tomlSetting? entries "non_source_segments" tomlTexts?
  some { workerConcurrency, excludedAssemblies, mergeThreshold, buildOutputSegments,
         nonSourceSegments }

/-- The settings that a TOML text writes. -/
def parseToml? (text : String) : Option Settings := Toml.parse? text >>= ofToml?

/-! ## JSON -/

/-- The fields of a configuration. -/
def fields : List String := [
  "worker_concurrency", "excluded_assembly_prefixes", "feature_merge_threshold",
  "build_output_segments", "non_source_segments"]

/-- A field that may be absent. -/
def setting? {α : Type} (r : Json.Record) (field : String) (decode : Json → Option α) :
    Option (Option α) := r.withDefault field none fun j => (decode j).map some

/-- The settings that a JSON document writes. -/
def ofJson? (j : Json) : Option Settings := do
  let r ← Json.Record.of? fields j
  let workerConcurrency ← setting? r "worker_concurrency" Json.uint64?
  let excludedAssemblies ← setting? r "excluded_assembly_prefixes" (Json.list? Json.text?)
  let mergeThreshold ← setting? r "feature_merge_threshold" Json.float?
  let buildOutputSegments ← setting? r "build_output_segments" (Json.list? Json.text?)
  let nonSourceSegments ← setting? r "non_source_segments" (Json.list? Json.text?)
  some { workerConcurrency, excludedAssemblies, mergeThreshold, buildOutputSegments,
         nonSourceSegments }

end Settings

/-- Why a configuration document is refused. -/
inductive ConfigError where
  /-- The text does not write settings. -/
  | malformed
  /-- The configuration with the settings is not usable. -/
  | invalid (fault : ConfigFault)
  deriving DecidableEq

namespace Config

/-- The JSON form of a configuration. -/
def toJson (c : Config) : Json := .ofMembers [
  ("worker_concurrency", .ofNat c.workerConcurrency.toNat),
  ("excluded_assembly_prefixes", .ofList .ofString c.excludedAssemblies),
  ("feature_merge_threshold", .ofFloat c.mergeThreshold),
  ("build_output_segments", .ofList .ofString c.buildOutputSegments),
  ("non_source_segments", .ofList .ofString c.nonSourceSegments)]

/-- The configuration itself if it is usable. -/
def validate (c : Config) : Except ConfigError Config :=
  match c.fault? with
  | some fault => .error (.invalid fault)
  | none => .ok c

/-- The usable configuration that a TOML text and a base give. -/
def parseToml (base : Config) (text : String) : Except ConfigError Config :=
  match Settings.parseToml? text with
  | some settings => (settings.applyTo base).validate
  | none => .error .malformed

end Config

end CodeAtlas
