import CodeAtlas.Snapshot.Resolver

/-!
# Failures of an analysis

An `AnalysisError` ends an analysis. A `TaskFailure` ends only the work on one project or node; it
is noted in the result.
-/

namespace CodeAtlas

/-- Why an analysis, or a question about its result, has no answer. -/
inductive AnalysisError where
  | workspaceUnavailable (cause : String)
  | noProjects (path : String)
  | cancelled
  | nodeNotFound (id : String)
  | invalidConfig (reason : String)
  | resolver (cause : ResolverError)
  | other (text : String)
  deriving DecidableEq

namespace AnalysisError

/-- The wording of an error. -/
def message : AnalysisError → String
  | workspaceUnavailable cause => "Workspace unavailable: " ++ cause
  | noProjects path => "Workspace " ++ path ++ " has no projects"
  | cancelled => "Analysis cancelled"
  | nodeNotFound id => "Node not found: " ++ id
  | invalidConfig reason => "Invalid configuration: " ++ reason
  | resolver cause => "Resolver error: " ++ cause.message
  | other text => text

end AnalysisError

/-- A failure that ends the work on one project or node. -/
inductive TaskFailure where
  | project (id : String) (cause : AnalysisError)
  | node (id : String) (cause : AnalysisError)
  deriving DecidableEq

namespace TaskFailure

/-- The wording of a failure. -/
def message : TaskFailure → String
  | project id cause => "project " ++ id ++ ": " ++ cause.message
  | node id cause => "node " ++ id ++ ": " ++ cause.message

end TaskFailure

end CodeAtlas
