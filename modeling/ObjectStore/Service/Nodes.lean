/-
Which nodes are alive.

A node is alive once it is registered, until it is marked dead or reported by somebody who could
not reach it.  A node that nobody has heard of is not alive.
-/
import ObjectStore.FinMap
import ObjectStore.Identifier

namespace ObjectStore

/-- A report that a node could not be reached. -/
structure FailureReport where
  node : NodeId
  reporter : String
  deriving DecidableEq, Repr

/-- The nodes that are known, and the reports about them. -/
structure NodeRegistry where
  nodes : FinMap NodeId Bool
  reports : List FailureReport
  deriving DecidableEq, Repr

namespace NodeRegistry

/-- No nodes and no reports. -/
def empty : NodeRegistry := ⟨∅, []⟩

/-- Whether a node is alive. -/
def isAlive (node : NodeId) (r : NodeRegistry) : Bool := (r.nodes.get? node).getD false

/-- Takes a node to be alive. -/
def register (node : NodeId) (r : NodeRegistry) : NodeRegistry :=
  { r with nodes := r.nodes.insert node true }

/-- Takes a node to be dead. -/
def markDead (node : NodeId) (r : NodeRegistry) : NodeRegistry :=
  { r with nodes := r.nodes.insert node false }

/-- Takes a node to be dead on somebody's report. -/
def reportFailure (node : NodeId) (reporter : String) (r : NodeRegistry) : NodeRegistry :=
  { r.markDead node with reports := r.reports ++ [⟨node, reporter⟩] }

end NodeRegistry

end ObjectStore
