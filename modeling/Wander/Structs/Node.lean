import Wander.Structs.Job
import Wander.Structs.Network
import Wander.Lib.Strings
import Wander.Lib.GoMap

/-!
# Nodes and their computed class

The fields of `structs.Node` that constraint targets resolve against and that the feasibility
checkers read, and `nomad/structs/node_class.go`: the computed class, a hash of the fields
`HashInclude` lets in, and the constraints whose targets escape it. The hash is a parameter of
`Node.computeClass`, a function of the included fields and of nothing else.
-/

set_option autoImplicit false
set_option relaxedAutoImplicit false

namespace Wander.Structs

open Wander.Lib

/-- The fields of `structs.DriverInfo` that the driver checker reads. -/
structure DriverInfo where
  detected : Bool
  healthy : Bool
deriving DecidableEq, Repr

/-- `structs.DrainStrategy`, of which the drainer's job watcher reads only whether a node has
one. -/
structure DrainStrategy where
deriving DecidableEq, Repr

/-- `structs.Node`. A driver entry is `none` for a nil `DriverInfo`, and a pointer field `none`
for nil. -/
structure Node where
  id : String := ""
  datacenter : String := ""
  name : String := ""
  nodeClass : String := ""
  nodePool : String := ""
  attributes : GoMap String String := ∅
  «meta» : GoMap String String := ∅
  drivers : GoMap String (Option DriverInfo) := ∅
  computedClass : String := ""
  nodeResources : Option NodeResources := none
  resources : Option Resources := none
  reservedResources : Option NodeReservedResources := none
  reserved : Option Resources := none
  drainStrategy : Option DrainStrategy := none
deriving DecidableEq

/-- `structs.NodeUniqueNamespace`. -/
def nodeUniqueNamespace : String := "unique."

/-- `IsUniqueNamespace`. -/
def isUniqueNamespace (key : String) : Bool := hasPrefix key nodeUniqueNamespace

/-- The fields of a node that `Node.HashInclude` and `Node.HashIncludeMap` let into the computed
class: the datacenter, the attributes and meta entries outside the unique namespace, the class
and the pool. -/
structure NodeClassFields where
  datacenter : String
  attributes : GoMap String String
  «meta» : GoMap String String
  nodeClass : String
  nodePool : String
deriving DecidableEq

namespace Node

/-- The fields the computed class hashes. -/
def classFields (n : Node) : NodeClassFields :=
  { datacenter := n.datacenter
    attributes := GoMap.filterKeys (fun k ↦ !isUniqueNamespace k) n.attributes
    «meta» := GoMap.filterKeys (fun k ↦ !isUniqueNamespace k) n.meta
    nodeClass := n.nodeClass
    nodePool := n.nodePool }

/-- `Node.ComputeClass`, for a hash of the included fields. -/
def computeClass (hash : NodeClassFields → ℕ) (n : Node) : Node :=
  let h := hash n.classFields
  { n with computedClass := s!"v1:{h}" }

/-- Nodes that agree on the included fields get one computed class, whatever the hash. -/
theorem computedClass_eq_of_classFields {hash : NodeClassFields → ℕ} {n m : Node}
    (h : n.classFields = m.classFields) :
    (n.computeClass hash).computedClass = (m.computeClass hash).computedClass := by
  simp [computeClass, h]

end Node

/-- `constraintTargetEscapes`: a target that reads a unique field of the node. -/
def constraintTargetEscapes (target : String) : Bool :=
  hasPrefix target "$\x7bnode.unique." || hasPrefix target "$\x7battr.unique." ||
    hasPrefix target "$\x7bmeta.unique."

/-- `EscapedConstraints`. -/
def escapedConstraints (constraints : List Constraint) : List Constraint :=
  constraints.filter fun c ↦ constraintTargetEscapes c.lTarget || constraintTargetEscapes c.rTarget

end Wander.Structs
