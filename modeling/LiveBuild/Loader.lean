/-
# Loaders

A loader owns artifacts by name and turns to its parent for every other name.  It
is a host itself, so loaders can stand one above the other.

* A name that the loader owns is resolved by materializing the artifact, once.
* Any other name is the parent's answer, and not found if the parent has none.
* Registering under a name replaces the artifact that was owned under it.

Bulk materialization goes through the owned names in an order, stops at the first
failure, and keeps what was materialized until then.  Any order will do that visits
every name once (`VisitOrder`); the increasing one is the one taken unless another is
chosen.
-/

import LiveBuild.Host
import LiveBuild.Materializer

namespace LiveBuild

/-- An order in which the names of a namespace are visited, each of them once. -/
structure VisitOrder where
  names : Namespace → List String
  perm : ∀ t, (names t).Perm t.keys

/-- The names in increasing order. -/
def VisitOrder.increasing : VisitOrder := ⟨Table.sorted, Table.sorted_perm⟩

/-- A namespace over a parent. -/
structure Loader where
  owned : Ref Namespace
  parent : Host
  materializer : Materializer

namespace Loader

/-- A loader that owns nothing yet. -/
def new (parent : Host) (materializer : Materializer) (s : Store) : Loader × Store :=
  (⟨s.newNamespace.1, parent, materializer⟩, s.newNamespace.2)

/-- The artifacts that a loader owns, by name. -/
def table (l : Loader) (s : Store) : Namespace := s.namespaces.get l.owned

/-- The artifact owned under a name. -/
def artifact? (l : Loader) (name : String) (s : Store) : Option (Ref Artifact) :=
  (l.table s).find? name

/-- The owned names, in increasing order. -/
def names (l : Loader) (s : Store) : List String := (l.table s).sorted

/-- Takes an artifact into the namespace; the answer is the one that it replaces. -/
def register (l : Loader) (r : Ref Artifact) (s : Store) : Option (Ref Artifact) × Store :=
  let name := (s.artifacts.get r).name
  (l.artifact? name s,
    { s with namespaces := s.namespaces.modify l.owned fun t => t.insert name r })

/-- The loaded artifact of a name. -/
def resolve (l : Loader) (name : String) : Action (Ref LoadedArtifact) := fun s =>
  match l.artifact? name s with
  | some r => Store.materialize l.materializer r s
  | none =>
    match l.parent.find? name s with
    | .error e s => .error e s
    | .ok (some h) s => .ok h s
    | .ok none s => .error (.artifactNotFound name) s

/-- The loaded artifact of a name, or nothing if it is not found. -/
def find? (l : Loader) (name : String) : Action (Option (Ref LoadedArtifact)) := fun s =>
  match l.resolve name s with
  | .ok h s => .ok (some h) s
  | .error (.artifactNotFound _) s => .ok none s
  | .error e s => .error e s

/-- The loader as a host: the files of a package are those of its parent. -/
def toHost (l : Loader) : Host := ⟨l.find?, l.parent.resources⟩

/-- Materializes owned artifacts under the names given, in this order. -/
def materializeAll (l : Loader) : List String → Action (List (String × Ref LoadedArtifact))
  | [] => pure []
  | name :: names => fun s =>
    match l.artifact? name s with
    | none => l.materializeAll names s
    | some r =>
      match Store.materialize l.materializer r s with
      | .error e s => .error e s
      | .ok h s =>
        match l.materializeAll names s with
        | .error e s => .error e s
        | .ok rest s => .ok ((name, h) :: rest) s

/-- Materializes every owned artifact, one after the other in an order. -/
def allMaterializedIn (l : Loader) (o : VisitOrder) : Action (List (String × Ref LoadedArtifact)) :=
  fun s => l.materializeAll (o.names (l.table s)) s

/-- Materializes every owned artifact. -/
def allMaterialized (l : Loader) : Action (List (String × Ref LoadedArtifact)) :=
  l.allMaterializedIn .increasing

end Loader
end LiveBuild
