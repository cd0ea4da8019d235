import StingerClient.Core

/-!
# What each wrapper method asks of the engine

One equation per method: the value it returns, the engine it leaves and the calls it adds to the
log. Callers below cite these and never unfold a method. The library only ever appends to the
log, so a call made early in a method is still on the log when a later step raises.
-/

namespace StingerClient

namespace Stinger

variable (s : Session)

/-- `c_char_p(name)` read for `len(name)` bytes is the whole name. -/
@[simp] theorem take_length (name : String) : (⟨name.data.take name.length⟩ : String) = name :=
  congrArg String.mk (List.take_length name.data)

theorem createMapping_apply (name : String) :
    createMapping name s = .ok (Engine.register s.engine.names name).1
      ⟨{ s.engine with names := (Engine.register s.engine.names name).2 },
        s.calls ++ [.mappingCreate name name.length]⟩ := by
  simp [createMapping, stingerMappingCreate]

theorem getMapping_apply (name : String) :
    getMapping name s = .ok (cInt (Engine.lookup s.engine.names name))
      ⟨s.engine, s.calls ++ [.mappingLookup name name.length]⟩ := by
  simp [getMapping, stingerMappingLookup]

/-- `get_name` of a mapped vertex is the stored name read up to its first NUL. -/
theorem getName_of_entry {vtx : Int} {name : String}
    (h : Engine.entry s.engine.names (cInt64 vtx) = some name) :
    getName vtx s = .ok (cString name) ⟨s.engine, s.calls ++ [.mappingPhysidDirect (cInt64 vtx)]⟩ := by
  have hle : (cString name).data.length ≤ name.length := (List.takeWhile_prefix _).length_le
  simp [getName, stingerMappingPhysidDirect, h, bind, EStateM.bind, pure, EStateM.pure,
    List.take_of_length_le hle]

theorem bind_ok {α β : Type} {m : Lib α} {k : α → Lib β} {s t : Session} {a : α}
    (h : m s = .ok a t) : (m >>= k) s = k a t := by
  simp only [Bind.bind, EStateM.bind, h]

theorem bind_error {α β : Type} {m : Lib α} {k : α → Lib β} {s t : Session} {e : PyError}
    (h : m s = .error e t) : (m >>= k) s = .error e t := by
  simp only [Bind.bind, EStateM.bind, h]

/-- `get_name` of an unmapped vertex slices `None`, which raises `TypeError`. -/
theorem getName_of_unmapped {vtx : Int} (h : Engine.entry s.engine.names (cInt64 vtx) = none) :
    getName vtx s = .error .typeError ⟨s.engine, s.calls ++ [.mappingPhysidDirect (cInt64 vtx)]⟩ := by
  simp [getName, stingerMappingPhysidDirect, h, bind, EStateM.bind, throw, throwThe,
    MonadExceptOf.throw, EStateM.throw]

/-! ## The log only grows -/

/-- A program that only appends to the log, whether it returns or raises. -/
def LogGrows {α : Type} (m : Lib α) : Prop := ∀ s, s.calls <+: (resultState (m s)).calls

namespace LogGrows

theorem libCall {α : Type} (c : LibCall) (f : Engine → α × Engine) :
    LogGrows (StingerClient.libCall c f) :=
  fun _ => List.prefix_append _ _

theorem pure {α : Type} (a : α) : LogGrows (Pure.pure a : Lib α) := fun _ => List.prefix_refl _

theorem throw {α : Type} (e : PyError) : LogGrows (MonadExcept.throw e : Lib α) :=
  fun _ => List.prefix_refl _

theorem bind {α β : Type} {m : Lib α} {k : α → Lib β} (hm : LogGrows m)
    (hk : ∀ a, LogGrows (k a)) : LogGrows (m >>= k) := by
  intro s
  have h := hm s
  simp only [Bind.bind, EStateM.bind]
  split
  · next a t heq => rw [heq] at h; exact h.trans (hk a t)
  · next e t heq => rw [heq] at h; exact h

theorem mapM {α β : Type} {f : α → Lib β} (hf : ∀ a, LogGrows (f a)) :
    ∀ xs : List α, LogGrows (xs.mapM f)
  | [] => pure []
  | x :: xs => by
    rw [List.mapM_cons]
    exact bind (hf x) fun b => bind (mapM hf xs) fun bs => pure (b :: bs)

theorem map {α β : Type} (f : α → β) {m : Lib α} (hm : LogGrows m) : LogGrows (f <$> m) := by
  intro s
  have h := hm s
  simp only [Functor.map, EStateM.map]
  split <;> next heq => rw [heq] at h; exact h

/-- A call on the log after the first step is on the log at the end. -/
theorem mem_bind {α β : Type} {m : Lib α} {k : α → Lib β} (hk : ∀ a, LogGrows (k a)) {s : Session}
    {a : α} {t : Session} (h : m s = .ok a t) {c : LibCall} (hc : c ∈ t.calls) :
    c ∈ (resultState ((m >>= k) s)).calls := by
  simp only [Bind.bind, EStateM.bind, h]
  exact (hk a t).subset hc

end LogGrows

theorem getName_logGrows (vtx : Int) : LogGrows (getName vtx) :=
  LogGrows.bind (LogGrows.libCall _ _) fun
    | none => LogGrows.throw _
    | some _ => LogGrows.pure _

theorem etypeCell_logGrows (maxEtypes t : Int) : LogGrows (etypeCell maxEtypes t) := by
  unfold etypeCell
  split
  · exact LogGrows.map _ fun s => by simp [getEtypeName, stingerEtypeNamesLookupName]
  · exact LogGrows.pure _

theorem numEtypes_logGrows : LogGrows numEtypes := fun s => by
  simp [numEtypes, stingerEtypeNamesCount]

theorem arrayLength_logGrows (n : Int) : LogGrows (arrayLength n) := by
  unfold arrayLength
  split
  · exact LogGrows.throw _
  · exact LogGrows.pure _

/-! ## Vertex arguments -/

/-- The id a vertex argument resolves to: `get_mapping` of a name, an int as it is. -/
def vertexId (e : Engine) : PyVal → Int
  | .str n => cInt (Engine.lookup e.names n)
  | .int v => v

/-- A vertex method runs its library call at the id its argument resolves to, unchecked. -/
theorem atVertex_eq {α : Type} (vtx : PyVal) (k : Int → Lib α) :
    ∃ t, atVertex vtx k s = k (vertexId s.engine vtx) t := by
  cases vtx with
  | str n =>
    exact ⟨⟨s.engine, s.calls ++ [.mappingLookup n n.length]⟩,
      by simp [atVertex, resolve, getMapping_apply, bind, EStateM.bind, vertexId]⟩
  | int v => exact ⟨s, rfl⟩

theorem libCall_logs {α : Type} (c : LibCall) (f : Engine → α × Engine) :
    c ∈ (resultState (libCall c f s)).calls := by
  simp

theorem outdegree_int (v : Int) :
    outdegree (.int v) s = .ok (cInt (s.engine.outdegree (cInt64 v)))
      ⟨s.engine, s.calls ++ [.outdegreeGet (cInt64 v)]⟩ := by
  simp [outdegree, atVertex, resolve, stingerOutdegreeGet, bind, EStateM.bind, pure, EStateM.pure]

/-- `edges_of` asks the engine for the out-degree of the id its argument resolves to, before
anything can raise. -/
theorem edgesOf_logs_outdegree (vtx : PyVal) :
    .outdegreeGet (cInt64 (vertexId s.engine vtx)) ∈ (resultState (edgesOf vtx s)).calls := by
  have hlib : ∀ {α : Type} (c : LibCall) (f : Engine → α × Engine), LogGrows (libCall c f) :=
    LogGrows.libCall
  cases vtx with
  | str n =>
    rw [edgesOf, bind_ok (getMapping_apply s n)]
    refine LogGrows.mem_bind (fun deg => ?_) (outdegree_int _ _) (by simp [vertexId])
    exact .bind (arrayLength_logGrows _) fun _ => .bind (hlib _ _) fun _ =>
      .bind (.mapM getName_logGrows _) fun _ => .bind numEtypes_logGrows fun _ =>
      .bind (.mapM (etypeCell_logGrows _) _) fun _ => .pure _
  | int v =>
    rw [edgesOf]
    refine LogGrows.mem_bind (fun deg => ?_) (outdegree_int _ _) (by simp [vertexId])
    exact .bind (arrayLength_logGrows _) fun _ => .bind (hlib _ _) fun _ => .pure _

/-- Whatever a vertex method's call `k v` establishes from any session holds of the method at the
id its argument resolves to. -/
theorem atVertex_holds {α : Type} {k : Int → Lib α} {P : Int → Session → Prop}
    (hk : ∀ v t, P v (resultState (k v t))) (vtx : PyVal) :
    P (vertexId s.engine vtx) (resultState (atVertex vtx k s)) := by
  obtain ⟨t, h⟩ := atVertex_eq s vtx k
  rw [h]
  exact hk _ _

theorem resolve_createVtype_ok (vtype : PyVal) : ∃ ty t, resolve createVtype vtype s = .ok ty t := by
  cases vtype with
  | str n => exact ⟨_, _, rfl⟩
  | int v => exact ⟨v, s, rfl⟩

/-- Each vertex getter and setter, and `edges_of`, given an argument that resolves to a negative
id (a name the engine has not mapped resolves to -1), calls the engine at that id. -/
theorem negative_vertex_reaches_engine (vtx : PyVal) (hlo : -2 ^ 63 ≤ vertexId s.engine vtx)
    (hneg : vertexId s.engine vtx < 0) (vtype : PyVal) (vweight : Int) :
    .indegreeGet (vertexId s.engine vtx) ∈ (resultState (indegree vtx s)).calls ∧
    .outdegreeGet (vertexId s.engine vtx) ∈ (resultState (outdegree vtx s)).calls ∧
    .vtypeGet (vertexId s.engine vtx) ∈ (resultState (getType vtx s)).calls ∧
    (∃ ty, .vtypeSet (vertexId s.engine vtx) ty ∈ (resultState (setVtype vtx vtype s)).calls) ∧
    .vweightGet (vertexId s.engine vtx) ∈ (resultState (getVweight vtx s)).calls ∧
    .vweightSet (vertexId s.engine vtx) (cInt64 vweight) ∈
      (resultState (setVweight vtx vweight s)).calls ∧
    .vweightIncrement (vertexId s.engine vtx) (cInt64 vweight) ∈
      (resultState (incrementVweight vtx vweight s)).calls ∧
    .outdegreeGet (vertexId s.engine vtx) ∈ (resultState (edgesOf vtx s)).calls := by
  have hv : cInt64 (vertexId s.engine vtx) = vertexId s.engine vtx := cInt64_of_range hlo (by omega)
  have logs : ∀ {α : Type} (c : Int → LibCall) (f : Int → Engine → α × Engine),
      c (vertexId s.engine vtx) ∈ (resultState (atVertex vtx (fun v => libCall (c v) (f v)) s)).calls :=
    fun c f => @atVertex_holds s _ _ (fun v t => c v ∈ t.calls) (fun v t => libCall_logs t _ _) vtx
  rw [← hv]
  refine ⟨logs (fun v => .indegreeGet (cInt64 v)) _, logs (fun v => .outdegreeGet (cInt64 v)) _,
    logs (fun v => .vtypeGet (cInt64 v)) _, ?_, logs (fun v => .vweightGet (cInt64 v)) _,
    logs (fun v => .vweightSet (cInt64 v) (cInt64 vweight)) _,
    logs (fun v => .vweightIncrement (cInt64 v) (cInt64 vweight)) _, edgesOf_logs_outdegree s vtx⟩
  refine @atVertex_holds s _ _ (fun v t => ∃ ty, .vtypeSet (cInt64 v) ty ∈ t.calls)
    (fun v t => ?_) vtx
  obtain ⟨ty, t', h⟩ := resolve_createVtype_ok t vtype
  exact ⟨_, by rw [bind_ok h]; exact libCall_logs t' _ _⟩

theorem negative_vertex_reaches_engine_unmapped :
    let vtx : PyVal := .str "never-mapped"
    .indegreeGet (vertexId init.engine vtx) ∈ (resultState (indegree vtx init)).calls ∧
    .outdegreeGet (vertexId init.engine vtx) ∈ (resultState (outdegree vtx init)).calls ∧
    .vtypeGet (vertexId init.engine vtx) ∈ (resultState (getType vtx init)).calls ∧
    (∃ ty, .vtypeSet (vertexId init.engine vtx) ty ∈
      (resultState (setVtype vtx (.str "t") init)).calls) ∧
    .vweightGet (vertexId init.engine vtx) ∈ (resultState (getVweight vtx init)).calls ∧
    .vweightSet (vertexId init.engine vtx) (cInt64 5) ∈ (resultState (setVweight vtx 5 init)).calls ∧
    .vweightIncrement (vertexId init.engine vtx) (cInt64 5) ∈
      (resultState (incrementVweight vtx 5 init)).calls ∧
    .outdegreeGet (vertexId init.engine vtx) ∈ (resultState (edgesOf vtx init)).calls :=
  negative_vertex_reaches_engine init (.str "never-mapped") (by decide) (by decide) (.str "t") 5

end Stinger

end StingerClient
