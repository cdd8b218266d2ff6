import CodeAtlas.Json.Decoder

/-!
# Projects

A `Project` is a unit of a workspace that is compiled as a whole and names the projects it refers
to. The module also holds its written form.
-/

namespace CodeAtlas

/-- A unit of a workspace that is compiled as a whole. -/
structure Project where
  id : String
  name : String
  path : String
  assemblyName : String
  targetFramework : Option String
  language : Option String
  /-- The ids of the projects that this one refers to. -/
  projectReferences : List String
  deriving DecidableEq

namespace Project

/-- A project whose file lies in a directory of its name and builds an assembly of its name. -/
def named (id name : String) : Project :=
  { id, name
    path := name ++ "/" ++ name ++ ".csproj"
    assemblyName := name
    targetFramework := none
    language := none
    projectReferences := [] }

/-- The project with one more reference. -/
def referencing (p : Project) (id : String) : Project :=
  { p with projectReferences := p.projectReferences ++ [id] }

/-- The fields of a project. -/
def fields : List String :=
  ["id", "name", "path", "assemblyName", "targetFramework", "language", "projectReferences"]

/-- The members of a project's written form. -/
def members (p : Project) : List (String × Json) := [
  ("id", .ofString p.id),
  ("name", .ofString p.name),
  ("path", .ofString p.path),
  ("assemblyName", .ofString p.assemblyName),
  ("targetFramework", .ofOption .ofString p.targetFramework),
  ("language", .ofOption .ofString p.language),
  ("projectReferences", .ofList .ofString p.projectReferences)]

/-- The written form of a project. -/
def toJson (p : Project) : Json := .ofMembers p.members

/-- The project with the given fields. -/
def ofRecord? (r : Json.Record) : Option Project := do
  let id ← r.required "id" Json.text?
  let name ← r.required "name" Json.text?
  let path ← r.required "path" Json.text?
  let assemblyName ← r.required "assemblyName" Json.text?
  let targetFramework ← r.optional "targetFramework" Json.text?
  let language ← r.optional "language" Json.text?
  let projectReferences ← r.withDefault "projectReferences" [] (Json.list? Json.text?)
  some { id, name, path, assemblyName, targetFramework, language, projectReferences }

/-- The project that a document writes. -/
def ofJson? (j : Json) : Option Project := Json.Record.of? fields j >>= ofRecord?

end Project

end CodeAtlas
