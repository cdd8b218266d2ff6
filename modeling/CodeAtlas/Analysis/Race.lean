import CodeAtlas.Analysis.Catalogue

/-!
# Adding declarations at once

A declaration is added to a catalogue in three steps (`Declaration.step`): its symbol is registered,
its id is looked up among the nodes, and unless there is one, its node is put in. The tasks that add
declarations share one catalogue, so their steps come in any order (`Race.run`).
`Catalogue.ofTurns` is the catalogue after the steps of the declarations whose turn it is, one after
the other.
-/

namespace CodeAtlas

/-- A symbol with a project that declares it. -/
structure Declaration where
  symbol : Symbol
  project : Project
  deriving DecidableEq

/-- Which step of a declaration comes next. -/
inductive Stage where
  /-- Its symbol is to be registered. -/
  | register
  /-- Its id is to be looked up among the nodes. -/
  | look
  /-- There was no node, and its own one is to be put in. -/
  | put
  /-- It has been added, with this outcome. -/
  | done (outcome : Registration)
  deriving DecidableEq

namespace Declaration

/-- The id of the node of a declaration. -/
def id (d : Declaration) : String := d.symbol.identity

/-- The node of a declaration. -/
def node (d : Declaration) : Node := d.symbol.toNode d.project

/-- One step of a declaration: the stage that it comes to, and the catalogue after it. -/
def step (d : Declaration) (c : Catalogue) : Stage → Stage × Catalogue
  | .register => (.look, { c with registry := (c.registry.assign d.symbol).2 })
  | .look => (if c.nodes.contains d.id then .done (.duplicate d.id) else .put, c)
  | .put =>
    let (isNew, nodes) := c.nodes.register d.node
    (.done (if isNew then .registered d.id else .duplicate d.id), { c with nodes })
  | .done outcome => (.done outcome, c)

end Declaration

/-- The state of several declarations that are being added at once. -/
structure Race (ι : Type) where
  catalogue : Catalogue := {}
  stage : ι → Stage := fun _ => .register

namespace Race

variable {ι : Type} [DecidableEq ι] (d : ι → Declaration)

/-- One step of one of the declarations. -/
def step (r : Race ι) (i : ι) : Race ι :=
  let moved := (d i).step r.catalogue (r.stage i)
  { catalogue := moved.2, stage := fun j => if j = i then moved.1 else r.stage j }

/-- The state after steps of the listed declarations. -/
def run (order : List ι) : Race ι := order.foldl (step d) {}

end Race

/-- The declaration is one for the graph. -/
def Declaration.isIncluded (config : Config) (d : Declaration) : Bool :=
  (config.skipReason? d.symbol).isNone

/-- The catalogue of a list of declarations, of which those that are for the graph make one step
whenever it is their turn. -/
def Catalogue.ofTurns (config : Config) (l : List Declaration) (turns : List (Fin l.length)) :
    Catalogue := (Race.run l.get (turns.filter fun i => (l.get i).isIncluded config)).catalogue

end CodeAtlas
