import Pc20iii.Edfs.Path

/-!
# The registry of EtherDFS

`edfs.c`: the table of known paths, whose indices the guest sees as cluster numbers. An
entry that has been unregistered keeps its index with empty strings.
-/

namespace Pc20iii

open StateProgram

variable {η : Type}

/-- `EDFS_CLUSTER_MAX`. -/
def edfsClusterMax : ℕ := 1024

namespace Edfs

/-- The first entry in use that satisfies `p`. -/
def findCluster (e : Edfs) (p : EdfsCluster → Bool) : Option ℕ :=
  (List.range e.clusterUsed).find? fun cluster => p (e.cluster cluster)

/-- An assignment to an entry. -/
def setCluster (cluster : ℕ) (entry : EdfsCluster) (e : Edfs) : Edfs :=
  { e with cluster := Function.update e.cluster cluster entry }

/-- `edfs_cluster_lookup`. -/
def clusterLookup (e : Edfs) (cluster : Word) : Option CString :=
  if cluster.toNat < edfsClusterMax ∧ cluster.toNat < e.clusterUsed then
    some (e.cluster cluster.toNat).path
  else none

/-- `edfs_cluster_lookup_83`: the cluster and its path. -/
def clusterLookup83 (e : Edfs) (path83 : CString) : Option (Word × CString) :=
  if path83 = [] ∨ path83 = [backslash] then some (0, [])
  else (e.findCluster fun entry => entry.path83 = path83).map fun cluster =>
    (BitVec.ofNat 16 cluster, (e.cluster cluster).path)

/-- `path83_to_unixpath`: the mapped directory and the converted rest, or everything
converted. -/
def path83ToUnixpath (e : Edfs) (path83 : CString) : CString :=
  match e.clusterLookup83 (path83Dirname path83) with
  | some (_, dir) => dir ++ path83Convert (path83.drop (path83Dirname path83).length)
  | none => path83Convert path83

end Edfs

/-- The variables of `edfs.c`. -/
def getEdfs : N η Edfs := do
  return (← get).edfs

/-- `edfs_cluster_register`. -/
def edfsClusterRegister (path path83 : CString) : N η Unit := do
  let e ← getEdfs
  -- not again if the path already exists
  if (e.findCluster fun entry => entry.path = path).isSome then
    return
  else if e.clusterUsed ≥ edfsClusterMax then
    netPanic "No more EtherDFS clusters available!\n"
  else
    note (.buffer edfsPathMax path.length)
    note (.buffer edfsPath83Max path83.length)
    modifyEdfs (Edfs.setCluster e.clusterUsed { path := path, path83 := path83 })
    modifyEdfs fun e => { e with clusterUsed := e.clusterUsed + 1 }

/-- `edfs_cluster_unregister`. -/
def edfsClusterUnregister (path : CString) : N η Unit := do
  match (← getEdfs).findCluster fun entry => entry.path = path with
  | none => return
  | some cluster => modifyEdfs (Edfs.setCluster cluster { path := [], path83 := [] })

/-- `edfs_cluster_lookup_83`, for a path that may need `path83_dirname`'s array. -/
def edfsDirLookup (path83 : CString) : N η (Option (Word × CString)) := do
  note (.buffer edfsPath83Max path83.length)
  return (← getEdfs).clusterLookup83 (path83Dirname path83)

/-- `path83_to_unixpath`, with what it puts into its arrays. -/
def edfsUnixpath (path83 : CString) : N η CString := do
  let path := (← getEdfs).path83ToUnixpath path83
  note (.buffer edfsPath83Max path83.length)
  note (.buffer edfsPathMax path.length)
  return path

/-- `edfs_init`, on the cleared variables. -/
def edfsInit (root : CString) : Edfs where
  inited := true
  root := root
  cluster := fun _ => { path := [], path83 := [] }
  clusterUsed := 1

end Pc20iii
