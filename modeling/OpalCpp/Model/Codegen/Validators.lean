import Mathlib.Data.List.Sort
import OpalCpp.Model.Codegen.RecursionIndex

/-! # Which shapes get a validator

The search of the validation generator for the shapes that carry constraints. The order in which a
shape yields its members is a parameter, and the recursion has fuel, one more than there are shapes to
visit being enough.
-/

namespace OpalCpp.Codegen

variable {Id : Type*} [DecidableEq Id] (model : ServiceModel Id)

def hasTrait (trait : Traits → Bool) (member : MemberShape Id) (target : Shape Id) : Bool :=
  trait member.traits || trait target.traits

def memberHasConstraints (member : MemberShape Id) : Bool :=
  let target := model.shape member.target
  hasTrait Traits.length member target || hasTrait Traits.range member target ||
    hasTrait Traits.pattern member target || hasTrait Traits.uniqueItems member target ||
    target.isEnumShape || target.isIntEnumShape

/-- The two sets of the search: of the shapes that are constrained, which is kept from one operation to
the next, and of those that have been visited. -/
structure Search (Id : Type*) where
  constrained : Finset Id
  visiting : Finset Id

/-- What the loop does for a member, with its flag. -/
def collectMember (collect : Id → Search Id → Option (Bool × Search Id)) (found : Bool × Search Id)
    (member : MemberShape Id) : Option (Bool × Search Id) := do
  let (any, search) := found
  let any := any || memberHasConstraints model member
  let memberTarget := model.shape member.target
  let (any, search) ←
    if memberTarget.isAggregate then do
      let (below, search) ← collect member.target search
      pure (any || below, search)
    else pure (any, search)
  if memberTarget.isCollection && memberTarget.members.any (memberHasConstraints model) then
    return (true, { search with constrained := insert member.target search.constrained })
  else return (any, search)

def collectConstrained (members : Id → List (MemberShape Id)) : ℕ → Id → Search Id → Option (Bool × Search Id)
  | 0, _, _ => none
  | fuel + 1, shape, search =>
    if shape ∈ search.constrained then some (true, search)
    else if shape ∈ search.visiting then some (false, search)
    else do
      let (any, search) ← (members shape).foldlM (collectMember model (collectConstrained members fuel))
        (false, { search with visiting := insert shape search.visiting })
      return (any, if any then { search with constrained := insert shape search.constrained } else search)

/-- The constructor: the inputs of the operations one after the other, each with nothing visited. -/
def collectInputs (members : Id → List (MemberShape Id)) (inputs : List Id) : Option (Finset Id) :=
  inputs.foldlM (fun constrained input =>
    (collectConstrained model members (model.ids.card + 1) input ⟨constrained, ∅⟩).map (·.2.constrained)) ∅

/-- The members that `writeValidator` has a recursion for; the key of a map has its own checks only. -/
def recursedMembers (shape : Shape Id) : List (MemberShape Id) :=
  match shape.kind with
  | .structureShape members => members
  | .unionShape members => members
  | .listShape member => [member]
  | .mapShape _ value => [value]
  | _ => []

/-- The validators that a call of the one of the input gets to, one after the other: `writeRecursion` calls
that of a target if it is constrained. -/
inductive Calls (constrained : Finset Id) (input : Id) : Id → Prop
  | start (validated : input ∈ constrained) : Calls constrained input input
  | recursion {shape : Id} {member : MemberShape Id} (called : Calls constrained input shape)
      (recursed : member ∈ recursedMembers (model.shape shape)) (validated : member.target ∈ constrained) :
      Calls constrained input member.target

end OpalCpp.Codegen

/-! # Emitted validators and serializers

What the generators emit of functions that call each other over the values of a model: which validators are declared
and defined, in which order, and the calls in the bodies of validators and serializers with their arguments, as C++
expressions that have a C++ type.
-/

namespace OpalCpp.Codegen

/-- What of a model and of the libraries that read it goes into the emitted functions: the order of members,
`MemberDefaults.plain` and `@jsonUnknown` of a member by its shape and its place, `@sparse`, `smithy.api#Unit`, what
`Walker` reaches from the service, and the two lists of `TopologicalIndex`. -/
structure CppContext (Id : Type) where
  model : ServiceModel Id
  iteration : Iteration model
  plain : Id → ℕ → Bool
  jsonUnknown : Id → ℕ → Bool
  sparse : Id → Bool
  unit : Id
  closure : Finset Id
  getOrderedShapes : List Id
  getRecursiveShapes : List Id

/-- The C++ types that members have: that of a shape, with wrappers. -/
inductive CppType (Id : Type) where
  | ofShape (shape : Id)
  | optional (of : CppType Id)
  | boxed (of : CppType Id)
deriving DecidableEq

/-- The expressions that arguments are: the parameter `value`, its fields and alternatives by their place, its elements,
and what one of these holds. -/
inductive CppExpr where
  | value
  | field (place : ℕ)
  | alternative (place : ℕ)
  | element
  | deref (of : CppExpr)
deriving DecidableEq

/-- A call of the validator, or the serializer, of a shape. -/
structure ShapeCall (Id : Type) where
  callee : Id
  argument : CppExpr
deriving DecidableEq

/-- A validator is declared, or defined with the calls in its body. -/
inductive EmittedValidator (Id : Type) where
  | declaration (shape : Id)
  | definition (shape : Id) (calls : List (ShapeCall Id))
deriving DecidableEq

namespace CppContext

variable {Id : Type} [DecidableEq Id] (context : CppContext Id) (recursion : Components Id) (constrained : Finset Id)

/-! ## Types -/

def toMemberSymbol (container : Id) (place : ℕ) (member : MemberShape Id) : CppType Id :=
  let target := CppType.ofShape member.target
  let plain := context.plain container place
  if recursion.isBoxed context.model container member then
    if plain then .boxed target else .optional (.boxed target)
  else if plain then target
  else .optional target

omit [DecidableEq Id] in
def elementSymbol (member : MemberShape Id) (sparse : Bool) : CppType Id :=
  if !sparse then .ofShape member.target else .optional (.ofShape member.target)

/-- The type of an expression in a function over the values of the shape; the alternatives of a union have the types of
their targets. -/
def typeOf (shape : Id) : CppExpr → Option (CppType Id)
  | .value => some (.ofShape shape)
  | .field place =>
    if (context.model.shape shape).isStructureShape then
      (context.iteration.members shape)[place]?.map (context.toMemberSymbol recursion shape place)
    else none
  | .alternative place =>
    if (context.model.shape shape).isUnionShape then
      (context.iteration.members shape)[place]?.map fun member => .ofShape member.target
    else none
  | .element =>
    match (context.model.shape shape).kind with
    | .listShape member => some (elementSymbol member (context.sparse shape))
    | .mapShape _ value => some (elementSymbol value (context.sparse shape))
    | _ => none
  | .deref of =>
    match typeOf shape of with
    | some (.optional of) | some (.boxed of) => some of
    | _ => none

/-! ## The shapes with functions -/

def hasSerdeFunctions (shape : Id) : Bool :=
  if shape = context.unit then false else (context.model.shape shape).isAggregate

def serdeShape (shape : Id) : Bool := shape ∈ context.closure && context.hasSerdeFunctions shape

def serdeShapes [LE Id] [DecidableLE Id] : List Id :=
  context.getOrderedShapes.filter context.serdeShape ++
    (context.getRecursiveShapes.filter context.serdeShape).insertionSort (· ≤ ·)

/-! ## Validators -/

def writeRecursion (member : MemberShape Id) (valueExpr : CppExpr) : List (ShapeCall Id) :=
  if member.target ∈ constrained then [⟨member.target, valueExpr⟩] else []

def writeStructureMemberChecks (shape : Id) (place : ℕ) (member : MemberShape Id) : List (ShapeCall Id) :=
  let needsChecks := memberHasConstraints context.model member || member.target ∈ constrained
  if !needsChecks then []
  else
    let field :=
      if (context.model.shape shape).isUnionShape then .alternative place
      else if !context.plain shape place then .deref (.field place)
      else .field place
    writeRecursion constrained member field

/-- The calls in the body of `writeValidator`. -/
def writeValidator (shape : Id) : List (ShapeCall Id) :=
  let item : CppExpr := if context.sparse shape then .deref .element else .element
  match (context.model.shape shape).kind with
  | .structureShape _ | .unionShape _ =>
    (context.iteration.members shape).zipIdx.flatMap fun (member, place) =>
      context.writeStructureMemberChecks constrained shape place member
  | .listShape element => writeRecursion constrained element item
  | .mapShape _ value => writeRecursion constrained value item
  | _ => []

def writeValidators [LE Id] [DecidableLE Id] : List (EmittedValidator Id) :=
  if constrained = ∅ then []
  else
    (context.serdeShapes.filter fun shape => shape ∈ constrained && recursion.inCycle shape).map .declaration ++
      (context.serdeShapes.filter (· ∈ constrained)).map fun shape =>
        .definition shape (context.writeValidator constrained shape)

/-! ## Serializers -/

/-- The call in `serializeExpression`, if there is one. -/
def serializeExpression (container : Id) (member : MemberShape Id) (valueExpr : CppExpr) : List (ShapeCall Id) :=
  if member.target = context.unit then []
  else if (context.model.shape member.target).isAggregate then
    if recursion.isBoxed context.model container member then [⟨member.target, .deref valueExpr⟩]
    else [⟨member.target, valueExpr⟩]
  else []

def writeMemberSerialize (shape : Id) (place : ℕ) (member : MemberShape Id) : List (ShapeCall Id) :=
  if context.plain shape place then context.serializeExpression recursion shape member (.field place)
  else context.serializeExpression recursion shape member (.deref (.field place))

/-- The calls in the body of `writeStructure`, `writeUnion`, `writeList` or `writeMap`. -/
def writeSerializer (shape : Id) : List (ShapeCall Id) :=
  let item : CppExpr := if context.sparse shape then .deref .element else .element
  match (context.model.shape shape).kind with
  | .structureShape _ =>
    (context.iteration.members shape).zipIdx.flatMap fun (member, place) =>
      context.writeMemberSerialize recursion shape place member
  | .unionShape _ =>
    (context.iteration.members shape).zipIdx.flatMap fun (member, place) =>
      if context.jsonUnknown shape place then [] else context.serializeExpression recursion shape member (.alternative place)
  | .listShape element => context.serializeExpression recursion shape element item
  | .mapShape _ value => context.serializeExpression recursion shape value item
  | _ => []

end CppContext

end OpalCpp.Codegen
