import Mathlib.Algebra.BigOperators.Group.Finset.Defs
import Mathlib.Data.Finset.Card
import Mathlib.Logic.Function.Basic

/-! # Cycles of shapes

The shapes of a service model that a generator walks over, by their ids, the strongly connected components of the
aggregate ones, and which members are boxed for them.
-/

namespace OpalCpp.Codegen

/-! ## Shapes -/

/-- Which of the constraint traits are there. -/
structure Traits where
  length : Bool := false
  range : Bool := false
  pattern : Bool := false
  uniqueItems : Bool := false
deriving DecidableEq, Repr

structure MemberShape (Id : Type*) where
  target : Id
  traits : Traits := {}
deriving DecidableEq

inductive ShapeKind (Id : Type*) where
  | structureShape (members : List (MemberShape Id))
  | unionShape (members : List (MemberShape Id))
  | listShape (member : MemberShape Id)
  | mapShape (key value : MemberShape Id)
  | enumShape
  | intEnumShape
  | simpleShape
deriving DecidableEq

structure Shape (Id : Type*) where
  kind : ShapeKind Id
  traits : Traits := {}
deriving DecidableEq

namespace Shape

variable {Id : Type*}

/-- `members()`; the values of an enumeration are left out. -/
def members (shape : Shape Id) : List (MemberShape Id) :=
  match shape.kind with
  | .structureShape members => members
  | .unionShape members => members
  | .listShape member => [member]
  | .mapShape key value => [key, value]
  | _ => []

def isEnumShape (shape : Shape Id) : Bool := shape.kind matches .enumShape

def isIntEnumShape (shape : Shape Id) : Bool := shape.kind matches .intEnumShape

def isStructureShape (shape : Shape Id) : Bool := shape.kind matches .structureShape _

def isUnionShape (shape : Shape Id) : Bool := shape.kind matches .unionShape _

def isListShape (shape : Shape Id) : Bool := shape.kind matches .listShape _

def isMapShape (shape : Shape Id) : Bool := shape.kind matches .mapShape _ _

/-- A list or a map. -/
def isCollection (shape : Shape Id) : Bool := shape.kind matches .listShape _ | .mapShape _ _

/-- A structure, a union, a list or a map. -/
def isAggregate (shape : Shape Id) : Bool :=
  shape.kind matches .structureShape _ | .unionShape _ | .listShape _ | .mapShape _ _

end Shape

/-- The shapes of a model; every member has its target among them, and the keys of a map are strings. -/
structure ServiceModel (Id : Type*) where
  ids : Finset Id
  shape : Id → Shape Id
  closed : ∀ id ∈ ids, ∀ member ∈ (shape id).members, member.target ∈ ids
  stringKeys : ∀ id key value, (shape id).kind = .mapShape key value → (shape key.target).isAggregate = false

/-! ## Components

An iterative depth-first search. A map or a set that is read where it has no entry, and a stack that is popped when it
is empty, end it with nothing.
-/

variable {Id : Type} [DecidableEq Id]

/-- An order of the shapes of a model, and of the members of each. -/
structure Iteration (model : ServiceModel Id) where
  shapes : List Id
  members : Id → List (MemberShape Id)
  all : ∀ id, id ∈ shapes ↔ id ∈ model.ids
  each : ∀ id, (members id).Perm (model.shape id).members

omit [DecidableEq Id] in
def neighbors (model : ServiceModel Id) (members : Id → List (MemberShape Id)) (shape : Id) : List Id :=
  ((members shape).filter fun member => (model.shape member.target).isAggregate).map MemberShape.target

/-- The fields of the index and the locals of `computeComponents` but the frames. -/
structure Components (Id : Type) where
  component : Id → Option ℕ := fun _ => none
  cyclic : Finset Id := ∅
  index : Id → Option ℕ := fun _ => none
  lowLink : Id → Option ℕ := fun _ => none
  onStack : Finset Id := ∅
  stack : List Id := []
  counter : ℕ := 0
  componentCounter : ℕ := 0

namespace Components

/-- A shape that is seen for the first time; the frame is pushed by the caller. -/
def enter (shape : Id) (components : Components Id) : Components Id :=
  { components with
    index := Function.update components.index shape (some components.counter)
    lowLink := Function.update components.lowLink shape (some components.counter)
    counter := components.counter + 1
    stack := shape :: components.stack
    onStack := insert shape components.onStack }

/-- `lowLink.put(shape, Math.min(lowLink.get(shape), bound))`. -/
def lower (shape : Id) (bound : ℕ) (components : Components Id) : Option (Components Id) := do
  let low ← components.lowLink shape
  return { components with lowLink := Function.update components.lowLink shape (some (min low bound)) }

/-- What is popped up to the shape, and what is left. -/
def popTo (current : Id) : List Id → Option (List Id × List Id)
  | [] => none
  | popped :: stack =>
    if popped = current then some ([popped], stack)
    else (popTo current stack).map fun (members, rest) => (popped :: members, rest)

/-- The component of a shape that closes one. -/
def close (neighbors : Id → List Id) (current : Id) (components : Components Id) : Option (Components Id) := do
  let (members, stack) ← popTo current components.stack
  return { components with
    stack := stack
    onStack := components.onStack \ members.toFinset
    component := fun id => if id ∈ members then some components.componentCounter else components.component id
    componentCounter := components.componentCounter + 1
    cyclic :=
      if 1 < members.length then components.cyclic ∪ members.toFinset
      -- A self-loop.
      else components.cyclic ∪ members.toFinset.filter fun only => only ∈ neighbors only }

/-- The end of the frame of a shape, with the frames below it. -/
def leave (neighbors : Id → List Id) (current : Id) (path : List (Id × ℕ)) (components : Components Id) :
    Option (Components Id) := do
  let low ← components.lowLink current
  let components ← match path with
    | [] => some components
    | (parent, _) :: _ => components.lower parent low
  let index ← components.index current
  if low = index then components.close neighbors current else some components

/-- One turn of the loop, for the frame on top. -/
def turn (neighbors : Id → List Id) (current : Id) (position : ℕ) (path : List (Id × ℕ)) (components : Components Id) :
    Option (List (Id × ℕ) × Components Id) :=
  match (neighbors current)[position]? with
  | some neighbor =>
    match components.index neighbor with
    | none => some ((neighbor, 0) :: (current, position + 1) :: path, components.enter neighbor)
    | some seen =>
      if neighbor ∈ components.onStack then (components.lower current seen).map (((current, position + 1) :: path, ·))
      else some ((current, position + 1) :: path, components)
  | none => (components.leave neighbors current path).map ((path, ·))

/-- The loop until there are no frames. -/
def loop (neighbors : Id → List Id) : ℕ → List (Id × ℕ) → Components Id → Option (Components Id)
  | _, [], components => some components
  | 0, _ :: _, _ => none
  | fuel + 1, (current, position) :: path, components => do
    let (path, components) ← components.turn neighbors current position path
    loop neighbors fuel path components

end Components

/-- `computeComponents`; a turn takes an edge, or leaves a shape. -/
def computeComponents {model : ServiceModel Id} (iteration : Iteration model) : Option (Components Id) :=
  let next := neighbors model iteration.members
  let turns := ∑ id ∈ model.ids, ((next id).length + 1)
  iteration.shapes.foldlM (fun components start =>
    if !(model.shape start).isAggregate || (components.index start).isSome then some components
    else (components.enter start).loop next turns [(start, 0)]) {}

namespace Components

variable (components : Components Id) (model : ServiceModel Id)

def inCycle (id : Id) : Bool := id ∈ components.cyclic

/-- Absent components are equal. -/
def sameCycle (a b : Id) : Bool :=
  components.inCycle a && components.inCycle b && components.component a = components.component b

/-- Of a member, by its container. -/
def cyclicEdge (container : Id) (member : MemberShape Id) : Bool := components.sameCycle container member.target

def isBoxed (container : Id) (member : MemberShape Id) : Bool :=
  components.cyclicEdge container member &&
    (model.shape container).isStructureShape && (model.shape member.target).isStructureShape

/-- Of a member, by its container and its name. -/
def unsupportedCycleMember [ToString Id] (container : Id) (name : String) (member : MemberShape Id) : Option String :=
  if !components.cyclicEdge container member then none
  else if (model.shape container).isUnionShape then
    some ("recursion through union member " ++ toString container ++ "$" ++ name ++
      " is not supported yet (std::variant needs complete alternatives)")
  else if (model.shape container).isMapShape && name = "value" then
    some ("recursion through map value " ++ toString container ++ "$" ++ name ++
      " is not supported yet (std::map needs a complete mapped type)")
  else none

end Components

end OpalCpp.Codegen
