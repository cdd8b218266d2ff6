import CodeAtlas.Decimal.Layout
import CodeAtlas.Text.Segments

/-!
# Configuration

A `Config` holds what one analysis may be told: how many tasks run side by side, which assemblies
are framework code, how dense two groups must be connected to become one feature, and which path
segments say nothing about features. `Settings` are the parts of a configuration that a document
gives; the others keep the values of a base configuration (`Settings.applyTo`).

A configuration is usable when it has no fault (`Config.fault?`).
-/

namespace CodeAtlas

/-- The configuration of an analysis. -/
structure Config where
  /-- How many tasks run side by side. -/
  workerConcurrency : UInt64
  /-- The assemblies whose symbols never become nodes, each with all assemblies under it. -/
  excludedAssemblies : List String
  /-- The coupling above which two groups become one feature. -/
  mergeThreshold : Float
  /-- The path segments that builds produce. -/
  buildOutputSegments : List String
  /-- The path segments of source roots. -/
  nonSourceSegments : List String
  deriving DecidableEq

/-- What is wrong with a configuration. -/
inductive ConfigFault where
  | noWorkers
  | thresholdOutOfRange (threshold : Float)
  deriving DecidableEq

namespace ConfigFault

/-- The wording of a fault. -/
def message : ConfigFault → String
  | noWorkers => "worker_concurrency must be > 0"
  | thresholdOutOfRange t =>
    "feature_merge_threshold (" ++ Decimal.render t ++ ") must lie in (0, 1]"

end ConfigFault

namespace Config

/-- The configuration that applies where nothing is told, with a given number of tasks. -/
def standard (workerConcurrency : UInt64) : Config :=
  { workerConcurrency
    excludedAssemblies := ["System", "Microsoft", "mscorlib", "netstandard", "Windows"]
    mergeThreshold := 0.7
    buildOutputSegments :=
      ["bin", "obj", "out", "build", "target", "dist", "debug", "release", "node_modules"]
    nonSourceSegments := ["src", "source", "sources", "lib", "app"] }

/-- Whether a threshold lies above zero and not above one. -/
def isThreshold (x : Float) : Bool := 0 < x && x ≤ 1

/-- The first fault of a configuration. -/
def fault? (c : Config) : Option ConfigFault :=
  if c.workerConcurrency = 0 then some .noWorkers
  else if isThreshold c.mergeThreshold then none
  else some (.thresholdOutOfRange c.mergeThreshold)

/-- Whether an assembly is one of the excluded ones or lies under one, a point behind its name. -/
def isExcludedAssembly (c : Config) (assembly : String) : Bool :=
  c.excludedAssemblies.any fun excluded =>
    assembly == excluded || Text.beginsWith assembly (excluded ++ ".")

end Config

/-- The parts of a configuration that are told. -/
structure Settings where
  workerConcurrency : Option UInt64 := none
  excludedAssemblies : Option (List String) := none
  mergeThreshold : Option Float := none
  buildOutputSegments : Option (List String) := none
  nonSourceSegments : Option (List String) := none
  deriving DecidableEq

namespace Settings

/-- The configuration with the settings, and with the values of `base` for the others. -/
def applyTo (s : Settings) (base : Config) : Config :=
  { workerConcurrency := s.workerConcurrency.getD base.workerConcurrency
    excludedAssemblies := s.excludedAssemblies.getD base.excludedAssemblies
    mergeThreshold := s.mergeThreshold.getD base.mergeThreshold
    buildOutputSegments := s.buildOutputSegments.getD base.buildOutputSegments
    nonSourceSegments := s.nonSourceSegments.getD base.nonSourceSegments }

end Settings

end CodeAtlas
