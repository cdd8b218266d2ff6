/-!
# Architectural roles

The closed list of roles that a node may play in the architecture of a workspace.
-/

namespace CodeAtlas

/-- The part that a node plays in an architecture. -/
inductive Role where
  | unknown
  -- presentation
  | ui
  | view
  | viewModel
  | window
  | page
  | userControl
  | codeBehind
  -- business
  | businessLogic
  | service
  | entity
  | domain
  | valueObject
  -- data
  | dataModel
  | repository
  | dbContext
  | dataAccess
  -- infrastructure
  | controller
  | apiController
  | middleware
  | configuration
  -- structure
  | interface
  | abstractClass
  | factory
  | builder
  -- common code
  | helper
  | utility
  | extension
  | attributeClass
  deriving DecidableEq

namespace Role

/-- All roles. -/
def all : List Role := [
  unknown, ui, view, viewModel, window, page, userControl, codeBehind, businessLogic, service,
  entity, domain, valueObject, dataModel, repository, dbContext, dataAccess, controller,
  apiController, middleware, configuration, interface, abstractClass, factory, builder, helper,
  utility, extension, attributeClass]

/-- The role of nodes of which nothing is known. -/
instance : Inhabited Role := ⟨unknown⟩

/-- The name of a role. -/
def name : Role → String
  | unknown => "Unknown"
  | ui => "UI"
  | view => "View"
  | viewModel => "ViewModel"
  | window => "Window"
  | page => "Page"
  | userControl => "UserControl"
  | codeBehind => "CodeBehind"
  | businessLogic => "BusinessLogic"
  | service => "Service"
  | entity => "Entity"
  | domain => "Domain"
  | valueObject => "ValueObject"
  | dataModel => "DataModel"
  | repository => "Repository"
  | dbContext => "DbContext"
  | dataAccess => "DataAccess"
  | controller => "Controller"
  | apiController => "ApiController"
  | middleware => "Middleware"
  | configuration => "Configuration"
  | interface => "Interface"
  | abstractClass => "AbstractClass"
  | factory => "Factory"
  | builder => "Builder"
  | helper => "Helper"
  | utility => "Utility"
  | extension => "Extension"
  | attributeClass => "Attribute"

/-- Every role is listed. -/
theorem mem_all (r : Role) : r ∈ all := by cases r <;> decide

end Role

end CodeAtlas
