import StingerClient.UpdateBuffer

/-!
# `StingerStream`: batches of edge and vertex updates

The stream object of `stinger_net.py`: three growable sequences of ctypes records, the addressing
mode `only_strings` and the directedness flag, with the four methods that fill and send a batch.
The socket handle returned by `stream_connect` and the status returned by `stream_send_batch`
come from the C library and are parameters.
-/

namespace StingerClient

open UpdateBuffer

/-- `StingerEdgeUpdate`; every field of a fresh ctypes record is zero or null. -/
structure StingerEdgeUpdate where
  etype : Int := 0
  etypeStr : CharP := .null
  source : Int := 0
  sourceStr : CharP := .null
  destination : Int := 0
  destinationStr : CharP := .null
  weight : Int := 0
  time : Int := 0
  result : Int := 0
  metaIndex : Int := 0
  deriving DecidableEq, Repr

instance : Inhabited StingerEdgeUpdate := ⟨{}⟩

/-- `StingerVertexUpdate`. It has `set_weight` and `incr_weight` fields, and no `weight`. -/
structure StingerVertexUpdate where
  vertex : Int := 0
  vertexStr : CharP := .null
  type : Int := 0
  typeStr : CharP := .null
  setWeight : Int := 0
  incrWeight : Int := 0
  metaIndex : Int := 0
  deriving DecidableEq, Repr

instance : Inhabited StingerVertexUpdate := ⟨{}⟩

structure StingerStream where
  sockHandle : Int
  insertions : UpdateBuffer StingerEdgeUpdate
  deletions : UpdateBuffer StingerEdgeUpdate
  vertexUpdates : UpdateBuffer StingerVertexUpdate
  onlyStrings : Bool
  undirected : Bool
  deriving DecidableEq, Repr

/-- The arguments `send_batch` passes to `stream_send_batch`. -/
structure BatchRequest where
  sockHandle : Int
  onlyStrings : Bool
  insertions : List StingerEdgeUpdate
  insertionsCount : Nat
  deletions : List StingerEdgeUpdate
  deletionsCount : Nat
  vertexUpdates : List StingerVertexUpdate
  vertexUpdatesCount : Nat
  undirected : Bool
  deriving DecidableEq, Repr

namespace StingerStream

/-- `StingerStream.__init__`, given the handle `stream_connect` returned. The vertex-update array
is allocated with `deletions_size`. -/
def init (sockHandle : Int) (strings : Bool := true) (undirected : Bool := false) :
    StingerStream :=
  let insertionsSize := 5000
  let deletionsSize := 5000
  let vertexUpdatesSize := 5000
  { sockHandle
    insertions := ⟨insertionsSize, alloc insertionsSize, [], 0⟩
    deletions := ⟨deletionsSize, alloc deletionsSize, [], 0⟩
    vertexUpdates := ⟨vertexUpdatesSize, alloc deletionsSize, [], 0⟩
    onlyStrings := strings
    undirected }

def onInsertions : EStateM PyError (UpdateBuffer StingerEdgeUpdate) Unit →
    EStateM PyError StingerStream Unit :=
  zoom (·.insertions) fun s q => { s with insertions := q }

def onDeletions : EStateM PyError (UpdateBuffer StingerEdgeUpdate) Unit →
    EStateM PyError StingerStream Unit :=
  zoom (·.deletions) fun s q => { s with deletions := q }

def onVertexUpdates : EStateM PyError (UpdateBuffer StingerVertexUpdate) Unit →
    EStateM PyError StingerStream Unit :=
  zoom (·.vertexUpdates) fun s q => { s with vertexUpdates := q }

/-- The endpoint lines shared by `add_insert` and `add_delete`: names in string mode; otherwise
null names, then the ids through `c_int64`. -/
def setEndpoints (onlyStrings : Bool) (vfrom vto : PyVal) :
    EStateM PyError (UpdateBuffer StingerEdgeUpdate) Unit := do
  if onlyStrings then
    setAt fun r => { r with sourceStr := cCharP vfrom }
    setAt fun r => { r with destinationStr := cCharP vto }
  else
    setAt fun r => { r with sourceStr := .null }
    setAt fun r => { r with destinationStr := .null }
    let v ← pyInt64 vfrom
    setAt fun r => { r with source := v }
    let v ← pyInt64 vto
    setAt fun r => { r with destination := v }

/-- The edge-type lines shared by `add_insert` and `add_delete`. -/
def setEtype (etype : PyVal) : EStateM PyError (UpdateBuffer StingerEdgeUpdate) Unit :=
  match etype with
  | .str n => setAt fun r => { r with etypeStr := cCharP (.str n) }
  | .int v => setAt fun r => { r with etype := cInt64 v }

/-- The field lines of `add_insert`. -/
def insertFields (onlyStrings : Bool) (vfrom vto etype : PyVal) (weight ts : Int) :
    EStateM PyError (UpdateBuffer StingerEdgeUpdate) Unit := do
  setEndpoints onlyStrings vfrom vto
  setEtype etype
  setAt fun r => { r with weight := cInt64 weight }
  setAt fun r => { r with time := cInt64 ts }

/-- The field lines of `add_delete`. -/
def deleteFields (onlyStrings : Bool) (vfrom vto etype : PyVal) :
    EStateM PyError (UpdateBuffer StingerEdgeUpdate) Unit := do
  setEndpoints onlyStrings vfrom vto
  setEtype etype

/-- The vertex lines of `add_vertex_update`: in string mode only `vertex_str` is assigned. -/
def setVertex (onlyStrings : Bool) (vtx : PyVal) :
    EStateM PyError (UpdateBuffer StingerVertexUpdate) Unit := do
  if onlyStrings then
    setAt fun r => { r with vertexStr := cCharP vtx }
  else
    let v ← pyInt64 vtx
    setAt fun r => { r with vertex := v }
    setAt fun r => { r with vertexStr := .null }

/-- The vertex-type lines of `add_vertex_update`. -/
def setVtype (vtype : PyVal) : EStateM PyError (UpdateBuffer StingerVertexUpdate) Unit :=
  match vtype with
  | .str n => setAt fun r => { r with typeStr := cCharP (.str n) }
  | .int v => setAt fun r => { r with type := cInt64 v }

/-- The field lines of `add_vertex_update`. The weight line assigns `weight`, which is not a
field of `StingerVertexUpdate`: ctypes keeps it as an attribute of the temporary record object
that indexing returned, so the line indexes the slot and leaves the array as it was. -/
def vertexFields (onlyStrings : Bool) (vtx vtype : PyVal) (weight incrWeight : Int) :
    EStateM PyError (UpdateBuffer StingerVertexUpdate) Unit := do
  setVertex onlyStrings vtx
  setVtype vtype
  let _ := cInt64 weight
  setAt id
  setAt fun r => { r with incrWeight := cInt64 incrWeight }

/-- `StingerStream.add_insert`: `insert_strings`, when given, replaces the stream-wide mode
before the record is written. -/
def addInsert (vfrom vto : PyVal) (etype : PyVal := .int 0) (weight ts : Int := 0)
    (insertStrings : Option Bool := none) : EStateM PyError StingerStream Unit := do
  modify fun s => { s with onlyStrings := insertStrings.getD s.onlyStrings }
  let s ← get
  onInsertions do
    grow
    insertFields s.onlyStrings vfrom vto etype weight ts
    incrCount

/-- `StingerStream.add_delete`. -/
def addDelete (vfrom vto : PyVal) (etype : PyVal := .int 0) :
    EStateM PyError StingerStream Unit := do
  let s ← get
  onDeletions do
    grow
    deleteFields s.onlyStrings vfrom vto etype
    incrCount

/-- `StingerStream.add_vertex_update`. -/
def addVertexUpdate (vtx vtype : PyVal) (weight incrWeight : Int := 0) :
    EStateM PyError StingerStream Unit := do
  let s ← get
  onVertexUpdates do
    grow
    vertexFields s.onlyStrings vtx vtype weight incrWeight
    incrCount

/-- The arguments of the `stream_send_batch` call. -/
def batchRequest (s : StingerStream) : BatchRequest :=
  { sockHandle := s.sockHandle, onlyStrings := s.onlyStrings
    insertions := s.insertions.buffer, insertionsCount := s.insertions.count
    deletions := s.deletions.buffer, deletionsCount := s.deletions.count
    vertexUpdates := s.vertexUpdates.buffer, vertexUpdatesCount := s.vertexUpdates.count
    undirected := s.undirected }

@[simp] theorem batchRequest_onlyStrings (s : StingerStream) :
    (batchRequest s).onlyStrings = s.onlyStrings := rfl

/-- `StingerStream.send_batch`. The status `stream_send_batch` returns is discarded, and the
counts and refs lists are reset whatever it was. -/
def sendBatch (streamSendBatch : BatchRequest → Int) : EStateM PyError StingerStream Unit := do
  let s ← get
  let _status := streamSendBatch (batchRequest s)
  set { s with
    insertions := { s.insertions with count := 0, refs := [] }
    deletions := { s.deletions with count := 0, refs := [] }
    vertexUpdates := { s.vertexUpdates with count := 0, refs := [] } }

/-- The invariant of every reachable stream: its three sequences are valid. -/
structure Valid (s : StingerStream) : Prop where
  insertions : s.insertions.Valid
  deletions : s.deletions.Valid
  vertexUpdates : s.vertexUpdates.Valid

theorem setEndpoints_slot (onlyStrings : Bool) (vfrom vto : PyVal) :
    SlotProgram (setEndpoints onlyStrings vfrom vto) := by
  unfold setEndpoints
  split
  · exact .bind (.setAt _) fun _ => .setAt _
  · exact .bind (.setAt _) fun _ => .bind (.setAt _) fun _ => .pyInt64_bind _ fun _ =>
      .bind (.setAt _) fun _ => .pyInt64_bind _ fun _ => .setAt _

theorem setEtype_slot (etype : PyVal) : SlotProgram (setEtype etype) := by
  cases etype <;> exact .setAt _

theorem insertFields_slot (onlyStrings : Bool) (vfrom vto etype : PyVal) (weight ts : Int) :
    SlotProgram (insertFields onlyStrings vfrom vto etype weight ts) :=
  .bind (setEndpoints_slot _ _ _) fun _ => .bind (setEtype_slot _) fun _ =>
    .bind (.setAt _) fun _ => .setAt _

theorem setVertex_slot (onlyStrings : Bool) (vtx : PyVal) :
    SlotProgram (setVertex onlyStrings vtx) := by
  unfold setVertex
  split
  · exact .setAt _
  · exact .pyInt64_bind _ fun _ => .bind (.setAt _) fun _ => .setAt _

theorem vertexFields_slot (onlyStrings : Bool) (vtx vtype : PyVal) (weight incrWeight : Int) :
    SlotProgram (vertexFields onlyStrings vtx vtype weight incrWeight) :=
  .bind (setVertex_slot _ _) fun _ => .bind (by cases vtype <;> exact .setAt _) fun _ =>
    .bind (.setAt _) fun _ => .setAt _

theorem addInsert_spec {s : StingerStream} (hs : s.insertions.Valid)
    (vfrom vto etype : PyVal) (weight ts : Int) (insertStrings : Option Bool) :
    ∃ f returned, addInsert vfrom vto etype weight ts insertStrings s =
      pyResult returned { s with onlyStrings := insertStrings.getD s.onlyStrings
                                 insertions := s.insertions.appended f returned } := by
  obtain ⟨f, returned, h⟩ := append_spec hs
    (insertFields_slot (insertStrings.getD s.onlyStrings) vfrom vto etype weight ts)
  refine ⟨f, returned, ?_⟩
  show onInsertions _ { s with onlyStrings := insertStrings.getD s.onlyStrings } = _
  exact zoom_pyResult _ _ _ h

theorem addDelete_spec {s : StingerStream} (hs : s.deletions.Valid) (vfrom vto etype : PyVal) :
    ∃ f returned, addDelete vfrom vto etype s =
      pyResult returned { s with deletions := s.deletions.appended f returned } := by
  obtain ⟨f, returned, h⟩ := append_spec hs
    (.bind (setEndpoints_slot s.onlyStrings vfrom vto) fun _ => setEtype_slot etype :
      SlotProgram (deleteFields s.onlyStrings vfrom vto etype))
  refine ⟨f, returned, ?_⟩
  show onDeletions _ s = _
  exact zoom_pyResult _ _ _ h

theorem addVertexUpdate_spec {s : StingerStream} (hs : s.vertexUpdates.Valid)
    (vtx vtype : PyVal) (weight incrWeight : Int) :
    ∃ f returned, addVertexUpdate vtx vtype weight incrWeight s =
      pyResult returned { s with vertexUpdates := s.vertexUpdates.appended f returned } := by
  obtain ⟨f, returned, h⟩ := append_spec hs
    (vertexFields_slot s.onlyStrings vtx vtype weight incrWeight)
  refine ⟨f, returned, ?_⟩
  show onVertexUpdates _ s = _
  exact zoom_pyResult _ _ _ h

/-- The stream with its batch emptied: counts zero and refs lists cleared. -/
def reset (s : StingerStream) : StingerStream :=
  { s with
    insertions := { s.insertions with count := 0, refs := [] }
    deletions := { s.deletions with count := 0, refs := [] }
    vertexUpdates := { s.vertexUpdates with count := 0, refs := [] } }

theorem sendBatch_eq (streamSendBatch : BatchRequest → Int) (s : StingerStream) :
    sendBatch streamSendBatch s = .ok () s.reset := rfl

end StingerStream

end StingerClient
