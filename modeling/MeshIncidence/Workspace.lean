import MeshIncidence.Audit
import MeshIncidence.Entity
import MeshIncidence.Mesh.Basic
import MeshIncidence.Neighbours
import MeshIncidence.Shape.Description
import MeshIncidence.Summary

/-!
Named meshes, stores and entity views, and commands on them. A view refers to its mesh by the mesh's
own number, so it stays with that mesh when the name is given to another one. A command that fails
leaves what it has recorded; making something under a name and failing frees the name.
-/
namespace MeshIncidence

/-- What a name stands for. -/
inductive Subject where
  | mesh (id : Nat)
  | store (id : Nat)
  | entity (mesh : Nat) (view : Entity)
  deriving DecidableEq, Repr

structure Workspace where
  registry : Registry
  meshes : List Mesh
  stores : List Store
  names : List (String × Subject)

/-- How a command tells the shape of a mesh's cells. -/
inductive ShapeSource where
  | inferred
  | named (name : String)
  | described (shape : Shape.Description)
  deriving DecidableEq, Repr

/-- The cells of a mesh as a command gives them. -/
structure CellSource where
  nested : Nested
  element? : Option Element
  extents? : Option (List Int)

inductive MeshAction where
  | entities (dim : Int)
  | relation (d0 d1 : Int)
  | everything
  | rows (d0 d1 : Int)
  | transpose (d0 d1 : Int)
  | compose (d0 d1 d : Int)
  | listing (dim : Int)
  | neighbours (kind : Neighbours)
  | audit (checks : Checks) (strict : Bool)
  | summary
  deriving DecidableEq, Repr

inductive StoreAction where
  | size (dim : Int)
  | hasCount (dim : Int)
  | setCount (dim size : Int)
  | hasRelation (d0 d1 : Int)
  | findRelation (d0 d1 : Int)
  | relation (d0 d1 : Int)
  | setRelation (d0 d1 : Int) (given : Incidence.Description)
  | recorded
  deriving DecidableEq, Repr

inductive EntityAction where
  | indices (dim : Int)
  | count (dim : Int)
  | incident (dim : Int)
  | vertices
  deriving DecidableEq, Repr

inductive Command where
  | newMesh (name : String) (cells : CellSource) (shape : ShapeSource) (points? : Option Int)
  | newStore (name : String) (dim : Int)
  | newView (name on : String) (dim index : Int)
  | register (shape : Shape.Description) (name? : Option String)
  | lookup (name : String)
  | shapeNames
  | restoreRegistry
  | mesh (on : String) (action : MeshAction)
  | store (on : String) (action : StoreAction)
  | entity (on : String) (action : EntityAction)
  | contains (on other : String)
  | same (on other : String)
  | text (on : String)
  | contents (on : String)

inductive Value where
  | nothing
  | truth (value : Bool)
  | number (value : Int)
  | text (value : String)
  | texts (values : List String)
  | indices (values : List Int)
  | rows (values : List (List Int))
  | listing (values : List (Entity × List Int))
  | report (value : Report)
  | summary (values : List (String × Int))
  | recorded (dims : List Int) (pairs : List (Int × Int))
  | contents (counts : List (Int × Nat)) (relations : List ((Int × Int) × Incidence))
  | mesh (value : Mesh)
  | same (value : Bool)

/-- What a command answers and notes. -/
structure Reply where
  result : Except Fault Value
  notes : List Note

namespace Workspace

def initial : Workspace := ⟨Registry.builtin, [], [], []⟩

def subject? (w : Workspace) (name : String) : Option Subject := w.names.lookup name

def free (w : Workspace) (name : String) : Workspace :=
  { w with names := w.names.filter fun entry => entry.1 != name }

def bind (w : Workspace) (name : String) (s : Subject) : Workspace :=
  { w with names := (name, s) :: (w.free name).names }

/-- The store a subject is about. -/
def storeOf (w : Workspace) : Subject → Option Store
  | .mesh id | .entity id _ => w.meshes[id]?.map Mesh.store
  | .store id => w.stores[id]?

def setMeshStore (w : Workspace) (id : Nat) (s : Store) : Workspace :=
  { w with meshes := w.meshes.modify id fun m => { m with store := s } }

/-- Puts a store back where a subject has it. -/
def setStore (w : Workspace) (s : Store) : Subject → Workspace
  | .mesh id | .entity id _ => w.setMeshStore id s
  | .store id => { w with stores := w.stores.set id s }

/-- A command's answer without notes, and what it leaves. -/
def answered (result : Except Fault Value) (w : Workspace) : Option Reply × Workspace :=
  (some ⟨result, []⟩, w)

/-- The answer of a command on a name that does not stand for the right thing. -/
def unbound (w : Workspace) : Option Reply × Workspace := (none, w)

/-- Runs a request on a mesh. -/
def onMesh {α : Type} (w : Workspace) (id : Nat) (request : Shape → Request α) :
    Option (Except Fault α × List Note × Workspace) :=
  w.meshes[id]?.map fun m =>
    let (result, left) := (request m.shape).run m.store
    (result, left.notes, w.setMeshStore id left.store)

/-- Runs a request on a mesh and answers with its outcome. -/
def perform {α : Type} (w : Workspace) (id : Nat) (request : Shape → Request α)
    (value : α → Value) : Option Reply × Workspace :=
  match w.onMesh id request with
  | none => w.unbound
  | some (result, notes, left) => (some ⟨result.map value, notes⟩, left)

/-- Gives a name to what was made, or frees it. -/
def made {α : Type} (w : Workspace) (name : String) (result : Except Fault α)
    (keep : α → Workspace × Subject × Value) : Option Reply × Workspace :=
  match result with
  | .error e => answered (.error e) (w.free name)
  | .ok a =>
    let (left, subject, value) := keep a
    answered (.ok value) (left.bind name subject)

def resolve (w : Workspace) : ShapeSource → Except Fault ShapeChoice
  | .inferred => .ok .inferred
  | .named name => .ok (.named name)
  | .described shape => (shape.build w.registry).map .given

def cellArray (cells : CellSource) : Except ArrayFault CellArray :=
  cells.nested.toArray cells.element? >>= fun a =>
    match cells.extents? with
    | none => .ok a
    | some extents => a.reshape extents

def newMesh (w : Workspace) (name : String) (cells : CellSource) (shape : ShapeSource)
    (points? : Option Int) : Option Reply × Workspace :=
  let result := w.resolve shape >>= fun choice =>
    (cellArray cells).mapError Fault.array >>= fun a => Mesh.ofArray w.registry a choice points?
  w.made name result fun m =>
    ({ w with meshes := w.meshes ++ [m] }, .mesh w.meshes.length, .mesh m)

def newStore (w : Workspace) (name : String) (dim : Int) : Option Reply × Workspace :=
  w.made name (Store.blank? dim) fun s =>
    ({ w with stores := w.stores ++ [s] }, .store w.stores.length, .nothing)

def newView (w : Workspace) (name : String) (id : Nat) (dim index : Int) :
    Option Reply × Workspace :=
  match w.onMesh id fun shape => Entity.view shape dim index with
  | none => w.unbound
  | some (.error e, notes, left) => (some ⟨.error e, notes⟩, left.free name)
  | some (.ok e, notes, left) => (some ⟨.ok (.text e.text), notes⟩, left.bind name (.entity id e))

def register (w : Workspace) (shape : Shape.Description) (name? : Option String) :
    Option Reply × Workspace :=
  let result := shape.build w.registry >>= fun s =>
    (w.registry.register s name?).mapError Fault.registry
  match result with
  | .error e => answered (.error e) w
  | .ok registry => answered (.ok .nothing) { w with registry := registry }

def meshAction (w : Workspace) (id : Nat) : MeshAction → Option Reply × Workspace
  | .entities dim => w.perform id (fun s => Resolution.entities s dim) fun n => .number n
  | .relation d0 d1 => w.perform id (fun s => Resolution.relation s d0 d1) fun _ => .nothing
  | .everything => w.perform id Resolution.everything fun _ => .nothing
  | .rows d0 d1 => w.perform id (fun s => Resolution.fetch s d0 d1) fun r => .rows r.rows
  | .transpose d0 d1 =>
    w.perform id (fun _ => Derivation.transposeInto d0 d1) fun _ => .nothing
  | .compose d0 d1 d =>
    w.perform id (fun _ => Derivation.composeInto d0 d1 d) fun _ => .nothing
  | .listing dim => w.perform id (fun s => Entity.listing s dim) .listing
  | .neighbours kind => w.perform id (fun s => kind.find s) fun r => .rows r.rows
  | .audit checks strict =>
    w.perform id
      (fun _ => Request.read (if strict then Audit.enforce checks else Audit.report checks))
      .report
  | .summary => w.perform id (fun _ => Request.store) fun s => .summary (Summary.ofStore s)

/-- What an action on a store answers, and the store after it. -/
def onStore (s : Store) : StoreAction → Except Fault (Value × Store)
  | .size dim => (s.size dim).map fun n => (.number n, s)
  | .hasCount dim => (s.hasCount dim).map fun b => (.truth b, s)
  | .setCount dim size => (s.setCount dim size).map fun s => (.nothing, s)
  | .hasRelation d0 d1 => (s.hasRelation d0 d1).map fun b => (.truth b, s)
  | .findRelation d0 d1 =>
    (s.findRelation d0 d1).map fun
      | none => (.nothing, s)
      | some r => (.rows r.rows, s)
  | .relation d0 d1 => (s.relation d0 d1).map fun r => (.rows r.rows, s)
  | .setRelation d0 d1 given =>
    given.build.mapError Fault.encoding >>= fun r =>
      (s.setRelation d0 d1 r).map fun s => (.nothing, s)
  | .recorded => .ok (.recorded s.recordedDims s.recordedPairs, s)

def storeAction (w : Workspace) (subject : Subject) (action : StoreAction) :
    Option Reply × Workspace :=
  match w.storeOf subject with
  | none => w.unbound
  | some s =>
    match onStore s action with
    | .error e => answered (.error e) w
    | .ok (value, left) => answered (.ok value) (w.setStore left subject)

def entityAction (w : Workspace) (id : Nat) (e : Entity) : EntityAction → Option Reply × Workspace
  | .indices dim => w.perform id (fun s => e.incidentIndices s dim) .indices
  | .count dim => w.perform id (fun s => e.incidentIndices s dim) fun xs => .number xs.length
  | .incident dim =>
    w.perform id (fun s => e.incident s dim) fun es => .texts (es.map Entity.text)
  | .vertices => w.perform id (fun s => e.vertices s) .indices

/-- Whether an entity has all vertices of another one, possibly of another mesh. The other one's
vertices are asked for first. -/
def contains (w : Workspace) (id : Nat) (e : Entity) (otherId : Nat) (other : Entity) :
    Option Reply × Workspace :=
  match w.onMesh otherId fun s => other.vertices s with
  | none => w.unbound
  | some (.error fault, notes, left) => (some ⟨.error fault, notes⟩, left)
  | some (.ok candidate, notes, left) =>
    match left.onMesh id fun s => e.vertices s with
    | none => left.unbound
    | some (.error fault, more, left) => (some ⟨.error fault, notes ++ more⟩, left)
    | some (.ok reference, more, left) =>
      (some ⟨.ok (.truth (VertexList.subsetOf candidate reference)), notes ++ more⟩, left)

def textOf (w : Workspace) : Subject → Option String
  | .mesh id => w.meshes[id]?.map Mesh.text
  | .store id => w.stores[id]?.map Store.text
  | .entity _ e => some e.text

/-- Runs a command. There is no reply where a name is not bound as the command needs it. -/
def run (w : Workspace) : Command → Option Reply × Workspace
  | .newMesh name cells shape points? => w.newMesh name cells shape points?
  | .newStore name dim => w.newStore name dim
  | .newView name on dim index =>
    match w.subject? on with
    | some (.mesh id) => w.newView name id dim index
    | _ => w.unbound
  | .register shape name? => w.register shape name?
  | .lookup name =>
    answered (((w.registry.lookup name).mapError Fault.registry).map fun s => .text s.text) w
  | .shapeNames => answered (.ok (.texts w.registry.names)) w
  | .restoreRegistry => answered (.ok .nothing) { w with registry := Registry.builtin }
  | .mesh on action =>
    match w.subject? on with
    | some (.mesh id) => w.meshAction id action
    | _ => w.unbound
  | .store on action =>
    match w.subject? on with
    | some subject => w.storeAction subject action
    | none => w.unbound
  | .entity on action =>
    match w.subject? on with
    | some (.entity id e) => w.entityAction id e action
    | _ => w.unbound
  | .contains on other =>
    match w.subject? on, w.subject? other with
    | some (.entity id e), some (.entity otherId o) => w.contains id e otherId o
    | _, _ => w.unbound
  | .same on other =>
    match w.subject? on, w.subject? other with
    | some a, some b => answered (.ok (.same (decide (a = b)))) w
    | _, _ => w.unbound
  | .text on =>
    match (w.subject? on).bind w.textOf with
    | some text => answered (.ok (.text text)) w
    | none => w.unbound
  | .contents on =>
    match (w.subject? on).bind w.storeOf with
    | some s => answered (.ok (.contents s.recordedCounts s.recordedRelations)) w
    | none => w.unbound

end Workspace

end MeshIncidence
