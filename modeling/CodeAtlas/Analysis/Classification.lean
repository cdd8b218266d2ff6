import CodeAtlas.Graph.Node
import CodeAtlas.Text.Lowercase
import CodeAtlas.Text.Segments

/-!
# Classifying nodes by role

The role of a node follows from its name, its namespace and its file (`RoleTraits.role`). The
segments of the namespace, in lower case, show the layer to which the node belongs: presentation,
business, data, in this order; the presentation layer also shows in the file's path. Inside a layer
the end of the name decides, then whether the node is an interface, and every node has some role of
its layer. A node of no such layer is tried as infrastructure, then by its structure, then as common
code, each of which may leave the role open.
-/

namespace CodeAtlas

/-- What the role of a node depends on. -/
structure RoleTraits where
  name : String
  containingNamespace : Option String := none
  filePath : Option String := none
  isInterface : Bool := false
  isAbstract : Bool := false
  deriving DecidableEq

/-- Whether a text ends with one of the suffixes. -/
def endsWithAny (s : String) (suffixes : List String) : Bool := suffixes.any (Text.endsWith s)

/-- The role of the first rule with a suffix of the name. -/
def firstRole? (rules : List (List String × Role)) (name : String) : Option Role :=
  (rules.find? fun rule => endsWithAny name rule.1).map (·.2)

/-- Whether a segment begins with one of the indicators. -/
def anyIndicated (indicators segments : List String) : Bool :=
  segments.any fun segment => indicators.any (Text.beginsWith segment)

/-! ## Layers -/

namespace Layer

/-- How namespace segments of the presentation layer begin. -/
def presentation : List String := ["ui", "view", "presentation"]

/-- How namespace segments of the business layer begin. -/
def business : List String := ["business", "domain", "service", "logic", "core"]

/-- How namespace segments of the data layer begin. -/
def data : List String := ["data", "repositor", "persistence", "storage", "dal"]

/-- How namespace segments of infrastructure begin. -/
def infrastructure : List String := ["infrastructure", "api", "web", "controller", "middleware"]

/-- How namespace segments of common code begin. -/
def common : List String := ["common", "shared", "utilit", "helper", "extension"]

end Layer

/-- The directories of views, in any case. -/
def viewDirectories : List String := ["views", "viewmodels"]

/-- How the names of the code files behind views end, in any case. -/
def codeBehindSuffixes : List String :=
  [".xaml.cs", ".xaml.vb", ".axaml.cs", ".razor.cs", ".aspx.cs", ".cshtml.cs"]

/-- Whether some segment of the path is a directory of views. -/
def isInViewDirectory (path : String) : Bool :=
  (Text.split Text.isSlash path).any fun segment =>
    viewDirectories.contains (Text.lowercaseAscii segment)

/-- Whether the path is one of a code file behind a view. -/
def isCodeBehind (path : String) : Bool := endsWithAny (Text.lowercase path) codeBehindSuffixes

namespace RoleTraits

variable (t : RoleTraits)

/-- The segments of the namespace that are not empty, in lower case. -/
def segments : List String :=
  (Text.split (· == '.') (Text.lowercase (t.containingNamespace.getD ""))).filter (!·.isEmpty)

/-- Whether some segment of the namespace begins with one of the indicators. -/
def isIn (indicators : List String) : Bool := anyIndicated indicators t.segments

/-- Whether the node belongs to the presentation layer. -/
def isPresentation : Bool :=
  t.isIn Layer.presentation ||
    t.filePath.any fun path => isInViewDirectory path || isCodeBehind path

/-- An interface has the role of interfaces. -/
def interfaceRole? : Option Role := if t.isInterface then some .interface else none

/-! ## Roles inside the layers -/

/-- The role in the presentation layer that the name or the file shows. -/
def presentationRole? : Option Role :=
  (firstRole? [
    (["ViewModel"], .viewModel),
    (["View"], .view),
    (["Window"], .window),
    (["Page"], .page),
    (["UserControl", "Control"], .userControl)] t.name).or
  (if t.filePath.any isCodeBehind then some .codeBehind else none)

/-- The role in the business layer that the name or the namespace shows. -/
def businessRole? : Option Role :=
  (firstRole? [
    (["Service"], .service),
    (["Entity"], .entity),
    (["ValueObject"], .valueObject),
    (["Aggregate", "DomainEvent"], .domain)] t.name).or
  (if t.isIn ["domain"] then some .domain else none)

/-- The role in the data layer that the name shows. -/
def dataRole? : Option Role :=
  firstRole? [
    (["Repository", "Repo"], .repository),
    (["DbContext", "Context"], .dbContext),
    (["Dao", "DataAccess", "Dal", "Gateway"], .dataAccess)] t.name

/-- The role in infrastructure that the name shows; controllers in a namespace of programming
interfaces belong to these. -/
def infrastructureRole? : Option Role :=
  firstRole? [
    (["ApiController"], .apiController),
    (["Controller"], if t.isIn ["api"] then .apiController else .controller),
    (["Middleware"], .middleware),
    (["Configuration", "Config", "Settings", "Options", "Startup"], .configuration)] t.name

/-- The role that the structure of the node shows. -/
def structuralRole? : Option Role :=
  if t.isInterface then some .interface
  else if t.isAbstract then some .abstractClass
  else firstRole? [(["Factory"], .factory), (["Builder"], .builder)] t.name

/-- The role in common code that the name shows. -/
def commonRole? : Option Role :=
  firstRole? [
    (["Helper", "Helpers"], .helper),
    (["Util", "Utils", "Utility", "Utilities"], .utility),
    (["Extension", "Extensions"], .extension),
    (["Attribute"], .attributeClass)] t.name

/-- The role of a node outside the three layers. -/
def openRole : Role :=
  ((if t.isIn Layer.infrastructure then t.infrastructureRole? else none).or <|
  t.structuralRole?.or <|
  if t.isIn Layer.common then t.commonRole? else none).getD .unknown

/-- The role of a node. -/
def role : Role :=
  if t.isPresentation then (t.presentationRole?.or t.interfaceRole?).getD .ui
  else if t.isIn Layer.business then (t.businessRole?.or t.interfaceRole?).getD .businessLogic
  else if t.isIn Layer.data then (t.dataRole?.or t.interfaceRole?).getD .dataModel
  else t.openRole

end RoleTraits

namespace Node

/-- What the role of the node depends on; only types count as abstract. -/
def roleTraits (n : Node) : RoleTraits :=
  { name := n.name
    containingNamespace := n.containingNamespace
    filePath := n.filePath
    isInterface := n.isInterface
    isAbstract := n.isAbstract && n.declaredTypeCategory.isSome }

/-- The node with the role that it plays. -/
def classify (n : Node) : Node := { n with role := n.roleTraits.role }

/-- Classifying changes nothing but the role. -/
@[simp] theorem classify_id (n : Node) : n.classify.id = n.id := by simp only [classify]

@[simp] theorem classify_projectId (n : Node) : n.classify.projectId = n.projectId := by
  simp only [classify]

end Node

end CodeAtlas
