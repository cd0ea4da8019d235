import StingerClient.Python

/-!
# The graph engine behind `Stinger`

`stinger_core.py` is a thin layer over the C library `libstinger_core`, whose code is not part of
the Python package. Modelled from the spec: the engine holds a name-to-id mapping that assigns
ids from 0 in order of creation and stores exactly the bytes it is given, registries of edge and
vertex type names, a set of `(etype, from, to)` edges with their weights and times, and a type
and a weight per vertex. Every call into the library is recorded with the arguments ctypes
passes, the way a run of an oracle machine records its queries, so that what the wrapper asks
of the engine can be read off a run.
-/

namespace StingerClient

/-- An edge `(etype, from, to)` with its weight and its first and most recent times. -/
structure Edge where
  etype : Int
  src : Int
  dst : Int
  weight : Int
  timeFirst : Int
  timeRecent : Int
  deriving DecidableEq, Repr

/-- Modelled from the spec: the state of the graph engine. Vertex `i` is mapped to `names[i]`,
and type `i` is named `etypes[i]` or `vtypes[i]`. -/
structure Engine where
  names : List String
  etypes : List String
  vtypes : List String
  edges : List Edge
  vtype : Int → Int
  vweight : Int → Int

namespace Engine

/-- A fresh engine, as `stinger_new` returns it. -/
def empty : Engine := ⟨[], [], [], [], fun _ => 0, fun _ => 0⟩

/-- Find or create in a registry whose ids are positions: the id of `name`, appended when new. -/
def register (reg : List String) (name : String) : Int × List String :=
  if name ∈ reg then (reg.indexOf name, reg) else (reg.length, reg ++ [name])

/-- Look up in a registry: the id of `name`, or -1. -/
def lookup (reg : List String) (name : String) : Int :=
  if name ∈ reg then reg.indexOf name else -1

/-- The entry with id `i`, if there is one. -/
def entry (reg : List String) (i : Int) : Option String :=
  if 0 ≤ i then reg[i.toNat]? else none

/-- Whether edge `x` is the edge `(t, u, v)`. -/
def isEdge (t u v : Int) (x : Edge) : Bool := x.etype == t && x.src == u && x.dst == v

/-- Whether the engine holds the edge `(t, u, v)`. -/
def hasEdge (e : Engine) (t u v : Int) : Bool := e.edges.any (isEdge t u v)

/-- Write edge `(t, u, v)` at time `ts`: an edge already there gets the weight `f` makes of its
own and `ts` as its recent time; otherwise a new edge of weight `w` is added. -/
def touchEdge (f : Int → Int) (t u v w ts : Int) (e : Engine) : Engine :=
  if e.hasEdge t u v then
    { e with edges := e.edges.map fun x =>
        if isEdge t u v x then { x with weight := f x.weight, timeRecent := ts } else x }
  else { e with edges := e.edges ++ [⟨t, u, v, w, ts, ts⟩] }

/-- `stinger_insert_edge`: the weight is set to `w`. -/
def insertEdge (t u v w ts : Int) (e : Engine) : Engine := touchEdge (fun _ => w) t u v w ts e

/-- `stinger_incr_edge`: `w` is added to the weight. -/
def incrEdge (t u v w ts : Int) (e : Engine) : Engine := touchEdge (· + w) t u v w ts e

/-- `stinger_remove_edge`. -/
def removeEdge (t u v : Int) (e : Engine) : Engine :=
  { e with edges := e.edges.filter fun x => !isEdge t u v x }

/-- The edges out of `v`, in the engine's order. -/
def successors (e : Engine) (v : Int) : List Edge := e.edges.filter (·.src == v)

def outdegree (e : Engine) (v : Int) : Nat := (e.successors v).length

def indegree (e : Engine) (v : Int) : Nat := (e.edges.filter (·.dst == v)).length

@[simp] theorem removeEdge_names (t u v : Int) (e : Engine) :
    (e.removeEdge t u v).names = e.names := rfl

@[simp] theorem removeEdge_etypes (t u v : Int) (e : Engine) :
    (e.removeEdge t u v).etypes = e.etypes := rfl

@[simp] theorem touchEdge_names (f : Int → Int) (t u v w ts : Int) (e : Engine) :
    (e.touchEdge f t u v w ts).names = e.names := by
  unfold touchEdge; split <;> rfl

theorem hasEdge_iff (e : Engine) (t u v : Int) :
    e.hasEdge t u v ↔ ∃ x ∈ e.edges, x.etype = t ∧ x.src = u ∧ x.dst = v := by
  simp [hasEdge, isEdge, and_assoc]

/-- After a write of `(t, u, v)` the engine holds that edge. -/
theorem hasEdge_touchEdge (f : Int → Int) (t u v w ts : Int) (e : Engine) :
    (e.touchEdge f t u v w ts).hasEdge t u v := by
  unfold touchEdge
  split
  · next h =>
    obtain ⟨x, hx, rfl, rfl, rfl⟩ := (hasEdge_iff e _ _ _).mp h
    exact (hasEdge_iff _ _ _ _).mpr ⟨_, List.mem_map_of_mem _ hx, by simp [isEdge]⟩
  · exact (hasEdge_iff _ _ _ _).mpr ⟨_, List.mem_append_right _ (List.mem_singleton_self _), rfl,
      rfl, rfl⟩

/-- A write keeps every other edge. -/
theorem hasEdge_touchEdge_of_hasEdge (f : Int → Int) (t u v w ts : Int) {e : Engine}
    {t' u' v' : Int} (h : e.hasEdge t' u' v') : (e.touchEdge f t u v w ts).hasEdge t' u' v' := by
  obtain ⟨x, hx, rfl, rfl, rfl⟩ := (hasEdge_iff e _ _ _).mp h
  unfold touchEdge
  split
  · refine (hasEdge_iff _ _ _ _).mpr ⟨_, List.mem_map_of_mem _ hx, ?_⟩
    split <;> simp
  · exact (hasEdge_iff _ _ _ _).mpr ⟨x, List.mem_append_left _ hx, rfl, rfl, rfl⟩

/-- A removal of `(t, u, v)` removes exactly that edge. -/
theorem hasEdge_removeEdge (t u v : Int) (e : Engine) (t' u' v' : Int) :
    (e.removeEdge t u v).hasEdge t' u' v' ↔ e.hasEdge t' u' v' ∧ (t', u', v') ≠ (t, u, v) := by
  simp only [hasEdge_iff, removeEdge, List.mem_filter, isEdge, Bool.not_eq_true', Bool.and_eq_false_iff,
    beq_eq_false_iff_ne, ne_eq, Prod.mk.injEq]
  constructor
  · rintro ⟨x, ⟨hx, hne⟩, rfl, rfl, rfl⟩
    exact ⟨⟨x, hx, rfl, rfl, rfl⟩, by rcases hne with (h | h) | h <;> simp_all⟩
  · rintro ⟨⟨x, hx, rfl, rfl, rfl⟩, hne⟩
    exact ⟨x, ⟨hx, by by_contra h; simp_all⟩, rfl, rfl, rfl⟩

theorem register_fst (reg : List String) (name : String) :
    (register reg name).1 = (reg.indexOf name : Nat) := by
  unfold register; split
  · rfl
  · next h => simp [List.indexOf_eq_length.mpr h]

/-- A registered name is found at the id registering gave it. -/
theorem lookup_register (reg : List String) (name : String) :
    lookup (register reg name).2 name = (register reg name).1 := by
  unfold register lookup; split
  · next h => simp [h]
  · next h => simp [List.indexOf_append_of_not_mem h]

/-- The id registering gives a name holds exactly that name. -/
theorem entry_register (reg : List String) (name : String) :
    entry (register reg name).2 (register reg name).1 = some name := by
  unfold register entry; split
  · next h =>
    simp only [Int.natCast_nonneg, if_true, Int.toNat_ofNat]
    rw [← List.get?_eq_getElem?, List.indexOf_get? h]
  · simp [Int.natCast_nonneg]

/-- Registering a name a second time changes nothing and gives the same id. -/
theorem register_register (reg : List String) (name : String) :
    register (register reg name).2 name = register reg name := by
  unfold register; split
  · next h => simp [h]
  · next h => simp [List.indexOf_append_of_not_mem h]

theorem mem_register (reg : List String) (name : String) : name ∈ (register reg name).2 := by
  unfold register; split
  · assumption
  · simp

theorem register_length_le (reg : List String) (name : String) :
    (register reg name).2.length ≤ reg.length + 1 := by
  unfold register; split <;> simp

/-- Registering another name keeps the id of a registered one. -/
theorem lookup_register_of_mem {reg : List String} {name : String} (h : name ∈ reg)
    (other : String) : lookup (register reg other).2 name = lookup reg name := by
  unfold register; split
  · rfl
  · simp [lookup, h, List.indexOf_append_of_mem h]

theorem lookup_nonneg_of_mem {reg : List String} {name : String} (h : name ∈ reg) :
    0 ≤ lookup reg name := by
  simp [lookup, h, Int.natCast_nonneg]

theorem lookup_of_not_mem {reg : List String} {name : String} (h : name ∉ reg) :
    lookup reg name = -1 := by
  simp [lookup, h]

end Engine

/-- One call into `libstinger_core`, with the arguments ctypes passes: `c_int64` values as ints,
`c_char_p` buffers as the strings they point to, lengths as ints. -/
inductive LibCall where
  | mappingCreate (name : String) (len : Int)
  | mappingLookup (name : String) (len : Int)
  | mappingPhysidDirect (vtx : Int)
  | mappingNv
  | vtypeNamesCreateType (name : String)
  | vtypeNamesLookupType (name : String)
  | vtypeNamesLookupName (vtype : Int)
  | vtypeNamesCount
  | etypeNamesCreateType (name : String)
  | etypeNamesLookupType (name : String)
  | etypeNamesLookupName (etype : Int)
  | etypeNamesCount
  | insertEdge (etype vfrom vto weight ts : Int)
  | insertEdgePair (etype vfrom vto weight ts : Int)
  | incrEdge (etype vfrom vto weight ts : Int)
  | incrEdgePair (etype vfrom vto weight ts : Int)
  | removeEdge (etype vfrom vto : Int)
  | removeEdgePair (etype vfrom vto : Int)
  | indegreeGet (vtx : Int)
  | outdegreeGet (vtx : Int)
  | vtypeGet (vtx : Int)
  | vtypeSet (vtx vtype : Int)
  | vweightGet (vtx : Int)
  | vweightSet (vtx vweight : Int)
  | vweightIncrement (vtx vweight : Int)
  | gatherSuccessors (vtx deg : Int)

/-- The engine together with every library call made so far. -/
structure Session where
  engine : Engine
  calls : List LibCall

/-- A wrapper method: it calls the library, and may raise. -/
abbrev Lib := EStateM PyError Session

/-- Call the library with `c`: the engine answers and moves as `f` says, and the call is
recorded. -/
def libCall {α : Type} (c : LibCall) (f : Engine → α × Engine) : Lib α := fun s =>
  .ok (f s.engine).1 ⟨(f s.engine).2, s.calls ++ [c]⟩

@[simp] theorem libCall_apply {α : Type} (c : LibCall) (f : Engine → α × Engine) (s : Session) :
    libCall c f s = .ok (f s.engine).1 ⟨(f s.engine).2, s.calls ++ [c]⟩ := rfl

end StingerClient
