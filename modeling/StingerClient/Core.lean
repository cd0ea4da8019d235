import StingerClient.Engine

/-!
# `Stinger`: the wrapper methods of `stinger_core.py`

Each method resolves its `int or str` arguments, converts them with ctypes and calls one function
of `libstinger_core`. A vertex name is created by the edge inserters and looked up by everything
else; an edge type given by name is created on every edge path, removal included. A library
function whose `restype` is not set returns a `c_int`. `get_name` reads the engine's buffer
through `c_char_p.value`, which stops at the first NUL, and only then cuts it to the length the
engine reports.
-/

namespace StingerClient

namespace Stinger

/-- `Stinger()`: a session on the fresh engine `stinger_new` returns. -/
def init : Session := ⟨Engine.empty, []⟩

/-! ## The library functions the wrapper calls -/

/-- `stinger_mapping_create(s, name, len, &vtx_out)`: the engine maps the first `len` bytes of
`name` and writes the id to `vtx_out`. -/
def stingerMappingCreate (name : String) (len : Int) : Lib Int :=
  libCall (.mappingCreate name len) fun e =>
    let r := Engine.register e.names ⟨name.toList.take len.toNat⟩
    (r.1, { e with names := r.2 })

/-- `stinger_mapping_lookup(s, name, len)`. -/
def stingerMappingLookup (name : String) (len : Int) : Lib Int :=
  libCall (.mappingLookup name len) fun e =>
    (cInt (Engine.lookup e.names ⟨name.toList.take len.toNat⟩), e)

/-- `stinger_mapping_physid_direct(s, vtx, &name, &length)`: for a mapped vertex the engine points
`name` at the bytes it stored and writes their length; otherwise both are left as they were. -/
def stingerMappingPhysidDirect (vtx : Int) : Lib (Option (String × Nat)) :=
  libCall (.mappingPhysidDirect vtx) fun e =>
    ((Engine.entry e.names vtx).map fun n => (n, n.length), e)

def stingerMappingNv : Lib Int := libCall .mappingNv fun e => (cInt e.names.length, e)

/-- `stinger_vtype_names_create_type(s, name, &vtx_out)`: the name is read as a C string. -/
def stingerVtypeNamesCreateType (name : String) : Lib Int :=
  libCall (.vtypeNamesCreateType name) fun e =>
    let r := Engine.register e.vtypes (cString name)
    (r.1, { e with vtypes := r.2 })

def stingerVtypeNamesLookupType (name : String) : Lib Int :=
  libCall (.vtypeNamesLookupType name) fun e => (cInt (Engine.lookup e.vtypes (cString name)), e)

/-- `stinger_vtype_names_lookup_name` with `restype = c_char_p`: the name, or `None`. -/
def stingerVtypeNamesLookupName (vtype : Int) : Lib (Option String) :=
  libCall (.vtypeNamesLookupName vtype) fun e => ((Engine.entry e.vtypes vtype).map cString, e)

def stingerVtypeNamesCount : Lib Int := libCall .vtypeNamesCount fun e => (cInt e.vtypes.length, e)

/-- `stinger_etype_names_create_type(s, name, &vtx_out)`: the name is read as a C string. -/
def stingerEtypeNamesCreateType (name : String) : Lib Int :=
  libCall (.etypeNamesCreateType name) fun e =>
    let r := Engine.register e.etypes (cString name)
    (r.1, { e with etypes := r.2 })

def stingerEtypeNamesLookupType (name : String) : Lib Int :=
  libCall (.etypeNamesLookupType name) fun e => (cInt (Engine.lookup e.etypes (cString name)), e)

/-- `stinger_etype_names_lookup_name` with `restype = c_char_p`: the name, or `None`. -/
def stingerEtypeNamesLookupName (etype : Int) : Lib (Option String) :=
  libCall (.etypeNamesLookupName etype) fun e => ((Engine.entry e.etypes etype).map cString, e)

def stingerEtypeNamesCount : Lib Int := libCall .etypeNamesCount fun e => (cInt e.etypes.length, e)

def stingerInsertEdge (t u v w ts : Int) : Lib Unit :=
  libCall (.insertEdge t u v w ts) fun e => ((), e.insertEdge t u v w ts)

/-- `stinger_insert_edge_pair`: the edge and its reverse. -/
def stingerInsertEdgePair (t u v w ts : Int) : Lib Unit :=
  libCall (.insertEdgePair t u v w ts) fun e => ((), (e.insertEdge t u v w ts).insertEdge t v u w ts)

def stingerIncrEdge (t u v w ts : Int) : Lib Unit :=
  libCall (.incrEdge t u v w ts) fun e => ((), e.incrEdge t u v w ts)

def stingerIncrEdgePair (t u v w ts : Int) : Lib Unit :=
  libCall (.incrEdgePair t u v w ts) fun e => ((), (e.incrEdge t u v w ts).incrEdge t v u w ts)

def stingerRemoveEdge (t u v : Int) : Lib Unit :=
  libCall (.removeEdge t u v) fun e => ((), e.removeEdge t u v)

def stingerRemoveEdgePair (t u v : Int) : Lib Unit :=
  libCall (.removeEdgePair t u v) fun e => ((), (e.removeEdge t u v).removeEdge t v u)

def stingerIndegreeGet (vtx : Int) : Lib Int :=
  libCall (.indegreeGet vtx) fun e => (cInt (e.indegree vtx), e)

def stingerOutdegreeGet (vtx : Int) : Lib Int :=
  libCall (.outdegreeGet vtx) fun e => (cInt (e.outdegree vtx), e)

def stingerVtypeGet (vtx : Int) : Lib Int := libCall (.vtypeGet vtx) fun e => (cInt (e.vtype vtx), e)

/-- `stinger_vtype_set`, which returns the type it set. -/
def stingerVtypeSet (vtx vtype : Int) : Lib Int :=
  libCall (.vtypeSet vtx vtype) fun e =>
    (cInt vtype, { e with vtype := Function.update e.vtype vtx vtype })

def stingerVweightGet (vtx : Int) : Lib Int :=
  libCall (.vweightGet vtx) fun e => (cInt (e.vweight vtx), e)

/-- `stinger_vweight_set`, which returns the weight it set. -/
def stingerVweightSet (vtx vweight : Int) : Lib Int :=
  libCall (.vweightSet vtx vweight) fun e =>
    (cInt vweight, { e with vweight := Function.update e.vweight vtx vweight })

/-- `stinger_vweight_increment`, which returns the new weight. -/
def stingerVweightIncrement (vtx vweight : Int) : Lib Int :=
  libCall (.vweightIncrement vtx vweight) fun e =>
    (cInt (e.vweight vtx + vweight),
      { e with vweight := Function.update e.vweight vtx (e.vweight vtx + vweight) })

/-- `stinger_gather_successors(s, vtx, outlen, neighbor, ..., deg)`: the engine writes the first
`deg` edges out of `vtx` into the arrays. -/
def stingerGatherSuccessors (vtx deg : Int) : Lib (List Edge) :=
  libCall (.gatherSuccessors vtx deg) fun e => ((e.successors vtx).take deg.toNat, e)

/-! ## Names and types -/

def createMapping (name : String) : Lib Int := stingerMappingCreate name name.length

def getMapping (name : String) : Lib Int := stingerMappingLookup name name.length

/-- `get_name`: the engine's bytes read up to a NUL, then cut to the engine's length. An
unmapped vertex leaves `name` null, and slicing its value `None` raises `TypeError`. -/
def getName (vtx : Int) : Lib String := do
  match ← stingerMappingPhysidDirect (cInt64 vtx) with
  | none => throw .typeError
  | some (name, length) => pure ⟨(cString name).toList.take length⟩

def mappingNv : Lib Int := stingerMappingNv

def createVtype (name : String) : Lib Int := stingerVtypeNamesCreateType name

def getVtype (name : String) : Lib Int := stingerVtypeNamesLookupType name

def getVtypeName (vtype : Int) : Lib (Option String) := stingerVtypeNamesLookupName (cInt64 vtype)

def numVtypes : Lib Int := stingerVtypeNamesCount

def createEtype (name : String) : Lib Int := stingerEtypeNamesCreateType name

def getEtype (name : String) : Lib Int := stingerEtypeNamesLookupType name

def getEtypeName (etype : Int) : Lib (Option String) := stingerEtypeNamesLookupName (cInt64 etype)

def numEtypes : Lib Int := stingerEtypeNamesCount

/-- `if isinstance(x, str): x = by_name(x)`. -/
def resolve (byName : String → Lib Int) : PyVal → Lib Int
  | .str n => byName n
  | .int v => pure v

/-! ## Edges -/

/-- The body of `insert_edge`, `insert_edge_pair`, `increment_edge` and `increment_edge_pair`:
endpoint names are created, a type name is created, and `call` gets the `c_int64` values. -/
def edgeUpdate (call : Int → Int → Int → Int → Int → Lib Unit) (vfrom vto etype : PyVal)
    (weight ts : Int) : Lib Unit := do
  let vfrom ← resolve createMapping vfrom
  let vto ← resolve createMapping vto
  let etype ← resolve createEtype etype
  call (cInt64 etype) (cInt64 vfrom) (cInt64 vto) (cInt64 weight) (cInt64 ts)

def insertEdge (vfrom vto : PyVal) (etype : PyVal := .int 0) (weight ts : Int := 1) :
    Lib Unit :=
  edgeUpdate stingerInsertEdge vfrom vto etype weight ts

def insertEdgePair (vfrom vto : PyVal) (etype : PyVal := .int 0) (weight ts : Int := 1) :
    Lib Unit :=
  edgeUpdate stingerInsertEdgePair vfrom vto etype weight ts

def incrementEdge (vfrom vto : PyVal) (etype : PyVal := .int 0) (weight ts : Int := 1) :
    Lib Unit :=
  edgeUpdate stingerIncrEdge vfrom vto etype weight ts

def incrementEdgePair (vfrom vto : PyVal) (etype : PyVal := .int 0) (weight ts : Int := 1) :
    Lib Unit :=
  edgeUpdate stingerIncrEdgePair vfrom vto etype weight ts

/-- The body of `remove_edge` and `remove_edge_pair`: endpoint names are looked up, a type name
is created, and `call` is made only when both ids are positive. -/
def edgeRemoval (call : Int → Int → Int → Lib Unit) (vfrom vto etype : PyVal) : Lib Unit := do
  let vfrom ← resolve getMapping vfrom
  let vto ← resolve getMapping vto
  let etype ← resolve createEtype etype
  if vfrom > 0 ∧ vto > 0 then call (cInt64 etype) (cInt64 vfrom) (cInt64 vto) else pure ()

def removeEdge (vfrom vto : PyVal) (etype : PyVal := .int 0) : Lib Unit :=
  edgeRemoval stingerRemoveEdge vfrom vto etype

def removeEdgePair (vfrom vto : PyVal) (etype : PyVal := .int 0) : Lib Unit :=
  edgeRemoval stingerRemoveEdgePair vfrom vto etype

/-! ## Vertices -/

/-- The shape of the vertex getters and setters: a name is looked up with `get_mapping`, and `k`
calls the library at the id, unchecked. -/
def atVertex {α : Type} (vtx : PyVal) (k : Int → Lib α) : Lib α := do
  k (← resolve getMapping vtx)

def indegree (vtx : PyVal) : Lib Int := atVertex vtx fun v => stingerIndegreeGet (cInt64 v)

def outdegree (vtx : PyVal) : Lib Int := atVertex vtx fun v => stingerOutdegreeGet (cInt64 v)

def getType (vtx : PyVal) : Lib Int := atVertex vtx fun v => stingerVtypeGet (cInt64 v)

/-- `set_vtype`: the vertex is looked up before a type name is created. -/
def setVtype (vtx vtype : PyVal) : Lib Int := atVertex vtx fun v => do
  let vtype ← resolve createVtype vtype
  stingerVtypeSet (cInt64 v) (cInt64 vtype)

def getVweight (vtx : PyVal) : Lib Int := atVertex vtx fun v => stingerVweightGet (cInt64 v)

def setVweight (vtx : PyVal) (vweight : Int) : Lib Int :=
  atVertex vtx fun v => stingerVweightSet (cInt64 v) (cInt64 vweight)

def incrementVweight (vtx : PyVal) (vweight : Int) : Lib Int :=
  atVertex vtx fun v => stingerVweightIncrement (cInt64 v) (cInt64 vweight)

/-! ## Adjacency -/

/-- One tuple of the list `edges_of` returns: `(etype, source, neighbor, weight, timefirst,
timerecent)`; an etype is a name, `None`, or an int. -/
structure EdgeRow where
  etype : Option PyVal
  source : PyVal
  neighbor : PyVal
  weight : Int
  timeFirst : Int
  timeRecent : Int
  deriving DecidableEq, Repr

/-- `(ctypes.c_int64 * n)`: a negative length raises `ValueError`. -/
def arrayLength (n : Int) : Lib Nat := if n < 0 then throw .valueError else pure n.toNat

/-- A zero-initialised `c_int64` array of length `n` once the library has written `xs` at its
start. -/
def filled (xs : List Int) (n : Nat) : List Int := xs.take n ++ List.replicate (n - xs.length) 0

/-- Python 2's `zip` of the six columns. -/
def zipRows : List (Option PyVal) → List PyVal → List PyVal → List Int → List Int → List Int →
    List EdgeRow
  | a :: as, b :: bs, c :: cs, d :: ds, e :: es, f :: fs =>
    ⟨a, b, c, d, e, f⟩ :: zipRows as bs cs ds es fs
  | _, _, _, _, _, _ => []

/-- An etype of the name branch: its name when below `num_etypes`, else the int. -/
def etypeCell (maxEtypes t : Int) : Lib (Option PyVal) :=
  if t < maxEtypes then (·.map PyVal.str) <$> getEtypeName t else pure (some (.int t))

/-- `edges_of`: the edges out of a vertex. Given a name, the source is reported by that name,
each neighbour by `get_name` and each etype by its name; given an id, everything is an int. -/
def edgesOf : PyVal → Lib (List EdgeRow)
  | .str vtxName => do
    let vtx ← getMapping vtxName
    let deg ← outdegree (.int vtx)
    let n ← arrayLength deg
    let es ← stingerGatherSuccessors (cInt64 vtx) (cInt64 deg)
    let neighbor ← (filled (es.map (·.dst)) n).mapM getName
    let maxEtypes ← numEtypes
    let etype ← (filled (es.map (·.etype)) n).mapM (etypeCell maxEtypes)
    pure (zipRows etype (List.replicate n (.str vtxName)) (neighbor.map .str)
      (filled (es.map (·.weight)) n) (filled (es.map (·.timeFirst)) n)
      (filled (es.map (·.timeRecent)) n))
  | .int vtx => do
    let deg ← outdegree (.int vtx)
    let n ← arrayLength deg
    let es ← stingerGatherSuccessors (cInt64 vtx) (cInt64 deg)
    pure (zipRows ((filled (es.map (·.etype)) n).map (some ∘ .int)) (List.replicate n (.int vtx))
      ((filled (es.map (·.dst)) n).map .int) (filled (es.map (·.weight)) n)
      (filled (es.map (·.timeFirst)) n) (filled (es.map (·.timeRecent)) n))

end Stinger

end StingerClient
