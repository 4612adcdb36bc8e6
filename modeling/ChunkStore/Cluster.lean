import ChunkStore.Error
import ChunkStore.Json.Reader
import ChunkStore.Json.Writer
import ChunkStore.FileSystem.Contents

/-!
The serving cluster and the store built for it. A cluster has at least one node and a store is
held at least once; both are read from JSON files and checked after they are read.
-/

namespace ChunkStore

set_option autoImplicit false

/-- A serving node. Its id also names its output directory. -/
structure Node where
  id : UInt32
  host : String
deriving DecidableEq, Repr, Inhabited

structure Cluster where
  name : String
  nodes : List Node
  nodes_ne_nil : nodes ≠ []
deriving DecidableEq, Repr

/-- The store under construction and how many nodes hold each of its records. -/
structure StoreDefinition where
  name : String
  replication : UInt32
  replication_ne_zero : replication ≠ 0
deriving DecidableEq, Repr

namespace Node

def read : Json.Reader Node :=
  Json.record "Node" "id" "host" Json.word32 Json.text (some "") Node.mk

def json (node : Node) : String :=
  Json.objectText [("id", toString node.id.toNat), ("host", Json.quote node.host)]

end Node

/-- A cluster as a file describes it, before the check that it has nodes. -/
structure ClusterDescription where
  name : String
  nodes : List Node
deriving DecidableEq, Repr

namespace ClusterDescription

def read : Json.Reader ClusterDescription :=
  Json.record "Cluster" "name" "nodes" Json.text (Json.array Node.read) none
    ClusterDescription.mk

def json (description : ClusterDescription) : String :=
  Json.objectText
    [("name", Json.quote description.name),
     ("nodes", Json.arrayText (description.nodes.map Node.json))]

end ClusterDescription

structure StoreDescription where
  name : String
  replication : UInt32
deriving DecidableEq, Repr

namespace StoreDescription

def read : Json.Reader StoreDescription :=
  Json.record "StoreDefinition" "name" "replication_factor" Json.text Json.word32 none
    StoreDescription.mk

def json (description : StoreDescription) : String :=
  Json.objectText
    [("name", Json.quote description.name),
     ("replication_factor", toString description.replication.toNat)]

end StoreDescription

def loadJson {m : Type → Type} [Monad m] {Reader Writer α : Type}
    (files : FileSystem m Reader Writer) (read : Json.Reader α) (path : Path) :
    ExceptT ConfigError m α := do
  let bytes ← (files.readWhole path).adapt fun error => .metadata path error.text
  match Bytes.toText? bytes with
  | none => throw (.metadata path "stream did not contain valid UTF-8")
  | some text =>
    match Json.parse read text with
    | .ok value => pure value
    | .error problem => throw (.metadata path problem.message)

namespace Cluster

def ofNodes (name : String) (nodes : List Node) : Except ConfigError Cluster :=
  if present : nodes ≠ [] then .ok ⟨name, nodes, present⟩ else .error (.emptyCluster name)

/-- Nodes with the ids from zero on, each on a host named for it. -/
def ofCount (name : String) (count : UInt32) : Except ConfigError Cluster :=
  ofNodes name ((List.range count.toNat).map fun id => ⟨UInt32.ofNat id, s!"node{id}"⟩)

def size (cluster : Cluster) : UInt32 := UInt32.ofNat cluster.nodes.length

def load {m : Type → Type} [Monad m] {Reader Writer : Type}
    (files : FileSystem m Reader Writer) (path : Path) : ExceptT ConfigError m Cluster := do
  let description ← loadJson files ClusterDescription.read path
  ExceptT.mk (pure (ofNodes description.name description.nodes))

end Cluster

namespace StoreDefinition

def ofReplication (name : String) (replication : UInt32) : Except ConfigError StoreDefinition :=
  if held : replication ≠ 0 then .ok ⟨name, replication, held⟩
  else .error (.replicationFactor replication.toNat)

def load {m : Type → Type} [Monad m] {Reader Writer : Type}
    (files : FileSystem m Reader Writer) (path : Path) :
    ExceptT ConfigError m StoreDefinition := do
  let description ← loadJson files StoreDescription.read path
  ExceptT.mk (pure (ofReplication description.name description.replication))

end StoreDefinition

end ChunkStore
