import StingerClient.Mapping

/-!
# Runs of a `Stinger` session

A client calls the methods of one `Stinger` in any order and may catch what they raise, so a run
threads the session through raising calls too. The mapping never loses a name, a removal only
drops edges, and an inserter given two names maps both before the library writes the edge. So in
a run whose inserters are given names, never ids, every edge the engine holds joins two mapped
vertices, and `edges_of` of any name reads every neighbour back by its stored name. An inserter
given an id hands it to the library unchecked.
-/

namespace StingerClient

namespace Engine

/-- Vertex `v` is the `c_int64` of an id the mapping has handed out. -/
def Mapped (e : Engine) (v : Int) : Prop := ∃ i < e.names.length, cInt64 i = v

/-- Every edge joins two mapped vertices. -/
def EdgesMapped (e : Engine) : Prop := ∀ x ∈ e.edges, e.Mapped x.src ∧ e.Mapped x.dst

/-- `e'` arises from `e` by mapping names and writing edges between mapped vertices: the mapping
has not shrunk, and each edge of `e'` has the endpoints of an edge of `e` or joins two vertices
that `e'` maps. -/
def Extends (e e' : Engine) : Prop :=
  e.names.length ≤ e'.names.length ∧ ∀ x ∈ e'.edges,
    (∃ y ∈ e.edges, y.src = x.src ∧ y.dst = x.dst) ∨ (e'.Mapped x.src ∧ e'.Mapped x.dst)

theorem Mapped.mono {e e' : Engine} (h : e.names.length ≤ e'.names.length) {v : Int}
    (hv : e.Mapped v) : e'.Mapped v :=
  let ⟨i, hi, hiv⟩ := hv
  ⟨i, by omega, hiv⟩

theorem Extends.refl (e : Engine) : e.Extends e :=
  ⟨Nat.le_refl _, fun x hx => .inl ⟨x, hx, rfl, rfl⟩⟩

theorem Extends.trans {e₁ e₂ e₃ : Engine} (h₁ : e₁.Extends e₂) (h₂ : e₂.Extends e₃) :
    e₁.Extends e₃ := by
  refine ⟨Nat.le_trans h₁.1 h₂.1, fun x hx => ?_⟩
  rcases h₂.2 x hx with ⟨y, hy, hs, hd⟩ | hm
  · rcases h₁.2 y hy with ⟨z, hz, hs', hd'⟩ | ⟨hu, hv⟩
    · exact .inl ⟨z, hz, hs'.trans hs, hd'.trans hd⟩
    · exact .inr ⟨hs ▸ hu.mono h₂.1, hd ▸ hv.mono h₂.1⟩
  · exact .inr hm

theorem EdgesMapped.of_extends {e e' : Engine} (h : e.EdgesMapped) (he : e.Extends e') :
    e'.EdgesMapped := fun x hx => by
  rcases he.2 x hx with ⟨y, hy, hs, hd⟩ | hm
  · exact ⟨hs ▸ (h y hy).1.mono he.1, hd ▸ (h y hy).2.mono he.1⟩
  · exact hm

/-- A move that keeps the mapping and the edges, as a type or weight update does. -/
theorem extends_of_eq {e e' : Engine} (hn : e'.names = e.names) (he : e'.edges = e.edges) :
    e.Extends e' :=
  ⟨by rw [hn], fun x hx => .inl ⟨x, he ▸ hx, rfl, rfl⟩⟩

theorem length_le_register (reg : List String) (name : String) :
    reg.length ≤ (register reg name).2.length := by
  unfold register; split <;> simp

/-- The id registering gives is one the registry holds. -/
theorem register_fst_mem (reg : List String) (name : String) :
    ∃ i < (register reg name).2.length, (register reg name).1 = i := by
  unfold register; split
  · next h => exact ⟨_, List.indexOf_lt_length.mpr h, rfl⟩
  · exact ⟨_, by simp, rfl⟩

theorem extends_register (e : Engine) (name : String) :
    e.Extends { e with names := (register e.names name).2 } :=
  ⟨length_le_register e.names name, fun x hx => .inl ⟨x, hx, rfl, rfl⟩⟩

theorem extends_removeEdge (t u v : Int) (e : Engine) : e.Extends (e.removeEdge t u v) :=
  ⟨Nat.le_refl _, fun x hx => .inl ⟨x, (List.mem_filter.mp hx).1, rfl, rfl⟩⟩

/-- A write of `(t, u, v)` between two mapped vertices. -/
theorem extends_touchEdge (f : Int → Int) (t u v w ts : Int) {e : Engine} (hu : e.Mapped u)
    (hv : e.Mapped v) : e.Extends (e.touchEdge f t u v w ts) := by
  have hn : e.names.length ≤ (e.touchEdge f t u v w ts).names.length := by rw [touchEdge_names]
  refine ⟨hn, fun x hx => ?_⟩
  unfold touchEdge at hx
  split at hx
  · obtain ⟨y, hy, rfl⟩ := List.mem_map.mp hx
    exact .inl ⟨y, hy, by split <;> rfl, by split <;> rfl⟩
  · rcases List.mem_append.mp hx with hx | hx
    · exact .inl ⟨x, hx, rfl, rfl⟩
    · rw [List.mem_singleton.mp hx]
      exact .inr ⟨hu.mono hn, hv.mono hn⟩

/-- The pair writers: `(t, u, v)`, then `(t, v, u)`. -/
theorem extends_touchEdge_pair (f f' : Int → Int) (t u v w ts : Int) {e : Engine}
    (hu : e.Mapped u) (hv : e.Mapped v) :
    e.Extends ((e.touchEdge f t u v w ts).touchEdge f' t v u w ts) := by
  have hn : e.names.length ≤ (e.touchEdge f t u v w ts).names.length := by rw [touchEdge_names]
  exact (extends_touchEdge f t u v w ts hu hv).trans
    (extends_touchEdge f' t v u w ts (hv.mono hn) (hu.mono hn))

end Engine

namespace Stinger

/-- A method that moves the engine only as `Engine.Extends` allows, whether it returns or raises. -/
def Extending {α : Type} (m : Lib α) : Prop :=
  ∀ s : Session, s.engine.Extends (resultState (m s)).engine

namespace Extending

theorem libCall {α : Type} (c : LibCall) {f : Engine → α × Engine}
    (hf : ∀ e : Engine, e.Extends (f e).2) : Extending (StingerClient.libCall c f) :=
  fun s => hf s.engine

/-- A method that leaves the mapping and the edges as they were: one that only reads the engine,
or writes only types and weights. For a library call both facts hold by unfolding, which the
default arguments do. -/
theorem of_eq {α : Type} {m : Lib α}
    (hn : ∀ s : Session, (resultState (m s)).engine.names = s.engine.names := by intro; rfl)
    (he : ∀ s : Session, (resultState (m s)).engine.edges = s.engine.edges := by intro; rfl) :
    Extending m :=
  fun s => Engine.extends_of_eq (hn s) (he s)

theorem pure {α : Type} (a : α) : Extending (Pure.pure a : Lib α) :=
  fun _ => Engine.Extends.refl _

theorem throw {α : Type} (e : PyError) : Extending (MonadExcept.throw e : Lib α) :=
  fun _ => Engine.Extends.refl _

theorem bind {α β : Type} {m : Lib α} {k : α → Lib β} (hm : Extending m)
    (hk : ∀ a, Extending (k a)) : Extending (m >>= k) := by
  intro s
  have h := hm s
  simp only [Bind.bind, EStateM.bind]
  split
  · next a t heq => rw [heq] at h; exact h.trans (hk a t)
  · next e t heq => rw [heq] at h; exact h

theorem mapM {α β : Type} {f : α → Lib β} (hf : ∀ a, Extending (f a)) :
    ∀ xs : List α, Extending (xs.mapM f)
  | [] => pure []
  | x :: xs => by
    rw [List.mapM_cons]
    exact bind (hf x) fun b => bind (mapM hf xs) fun bs => pure (b :: bs)

theorem map {α β : Type} (f : α → β) {m : Lib α} (hm : Extending m) : Extending (f <$> m) := by
  intro s
  have h := hm s
  simp only [Functor.map, EStateM.map]
  split <;> next heq => rw [heq] at h; exact h

end Extending

/-! ## Every method but a by-id inserter -/

theorem createMapping_extending (name : String) : Extending (createMapping name) :=
  fun s => Engine.extends_register s.engine _

theorem getName_extending (vtx : Int) : Extending (getName vtx) :=
  Extending.bind Extending.of_eq fun
    | none => Extending.throw _
    | some _ => Extending.pure _

theorem resolve_extending {byName : String → Lib Int} (h : ∀ n, Extending (byName n)) :
    ∀ x, Extending (resolve byName x)
  | .str n => h n
  | .int v => Extending.pure v

theorem atVertex_extending {α : Type} {k : Int → Lib α} (hk : ∀ v, Extending (k v))
    (vtx : PyVal) : Extending (atVertex vtx k) :=
  Extending.bind (resolve_extending (fun _ => Extending.of_eq) vtx) hk

theorem edgeRemoval_extending {call : Int → Int → Int → Lib Unit}
    (hc : ∀ t u v, Extending (call t u v)) (vfrom vto etype : PyVal) :
    Extending (edgeRemoval call vfrom vto etype) :=
  Extending.bind (resolve_extending (fun _ => Extending.of_eq) vfrom) fun _ =>
  Extending.bind (resolve_extending (fun _ => Extending.of_eq) vto) fun _ =>
  Extending.bind (resolve_extending (fun _ => Extending.of_eq) etype) fun _ => by
    split
    · exact hc _ _ _
    · exact Extending.pure _

theorem setVtype_extending (vtx vtype : PyVal) : Extending (setVtype vtx vtype) :=
  atVertex_extending (fun _ =>
    Extending.bind (resolve_extending (fun _ => Extending.of_eq) vtype) fun _ => Extending.of_eq)
    vtx

theorem arrayLength_extending (n : Int) : Extending (arrayLength n) := by
  unfold arrayLength
  split
  · exact Extending.throw _
  · exact Extending.pure _

theorem etypeCell_extending (m t : Int) : Extending (etypeCell m t) := by
  unfold etypeCell
  split
  · exact Extending.map _ Extending.of_eq
  · exact Extending.pure _

theorem edgesOf_extending : ∀ vtx : PyVal, Extending (edgesOf vtx)
  | .str _ =>
    Extending.bind Extending.of_eq fun _ =>
    Extending.bind (atVertex_extending (fun _ => Extending.of_eq) _) fun _ =>
    Extending.bind (arrayLength_extending _) fun _ =>
    Extending.bind Extending.of_eq fun _ =>
    Extending.bind (Extending.mapM getName_extending _) fun _ =>
    Extending.bind Extending.of_eq fun _ =>
    Extending.bind (Extending.mapM (etypeCell_extending _) _) fun _ => Extending.pure _
  | .int _ =>
    Extending.bind (atVertex_extending (fun _ => Extending.of_eq) _) fun _ =>
    Extending.bind (arrayLength_extending _) fun _ =>
    Extending.bind Extending.of_eq fun _ => Extending.pure _

/-! ## An inserter given two names -/

/-- An inserter given two names maps both, then hands the library their ids. -/
theorem edgeUpdate_str (call : Int → Int → Int → Int → Int → Lib Unit) (a b : String)
    (etype : PyVal) (w ts : Int) (s : Session) :
    ∃ t s', edgeUpdate call (.str a) (.str b) etype w ts s =
        call (cInt64 t) (cInt64 (Engine.register s.engine.names a).1)
          (cInt64 (Engine.register (Engine.register s.engine.names a).2 b).1) (cInt64 w)
          (cInt64 ts) s' ∧
      s'.engine.names = (Engine.register (Engine.register s.engine.names a).2 b).2 ∧
      s'.engine.edges = s.engine.edges := by
  simp only [edgeUpdate, resolve]
  rw [bind_ok (createMapping_apply s a), bind_ok (createMapping_apply _ b)]
  cases etype with
  | int t => exact ⟨t, _, rfl, rfl, rfl⟩
  | str n => exact ⟨_, _, rfl, rfl, rfl⟩

theorem strs_of_isStr {vfrom vto : PyVal} (h : (vfrom.isStr && vto.isStr) = true) :
    ∃ a b, vfrom = .str a ∧ vto = .str b := by
  cases vfrom <;> cases vto <;> simp_all [PyVal.isStr]

theorem edgeUpdate_extending {call : Int → Int → Int → Int → Int → Lib Unit}
    (hc : ∀ t u v w ts (s : Session), s.engine.Mapped u → s.engine.Mapped v →
      s.engine.Extends (resultState (call t u v w ts s)).engine)
    {vfrom vto : PyVal} (h : (vfrom.isStr && vto.isStr) = true) (etype : PyVal) (w ts : Int) :
    Extending (edgeUpdate call vfrom vto etype w ts) := by
  obtain ⟨a, b, rfl, rfl⟩ := strs_of_isStr h
  intro s
  obtain ⟨t, s', h, hn, he⟩ := edgeUpdate_str call a b etype w ts s
  obtain ⟨i, hi, hia⟩ := Engine.register_fst_mem s.engine.names a
  obtain ⟨j, hj, hjb⟩ := Engine.register_fst_mem (Engine.register s.engine.names a).2 b
  have h₁ := Engine.length_le_register s.engine.names a
  have h₂ := Engine.length_le_register (Engine.register s.engine.names a).2 b
  have hs' : s.engine.Extends s'.engine :=
    ⟨by rw [hn]; omega, fun x hx => .inl ⟨x, he ▸ hx, rfl, rfl⟩⟩
  rw [h]
  exact hs'.trans (hc _ _ _ _ _ s' ⟨i, by rw [hn]; omega, by rw [hia]⟩
    ⟨j, by rw [hn]; omega, by rw [hjb]⟩)

/-! ## Runs -/

/-- One call of a `Stinger` method, with the arguments the client passes; results are dropped. -/
inductive Op where
  | createMapping (name : String)
  | getMapping (name : String)
  | getName (vtx : Int)
  | mappingNv
  | createVtype (name : String)
  | getVtype (name : String)
  | getVtypeName (vtype : Int)
  | numVtypes
  | createEtype (name : String)
  | getEtype (name : String)
  | getEtypeName (etype : Int)
  | numEtypes
  | insertEdge (vfrom vto etype : PyVal) (weight ts : Int)
  | insertEdgePair (vfrom vto etype : PyVal) (weight ts : Int)
  | incrementEdge (vfrom vto etype : PyVal) (weight ts : Int)
  | incrementEdgePair (vfrom vto etype : PyVal) (weight ts : Int)
  | removeEdge (vfrom vto etype : PyVal)
  | removeEdgePair (vfrom vto etype : PyVal)
  | indegree (vtx : PyVal)
  | outdegree (vtx : PyVal)
  | getType (vtx : PyVal)
  | setVtype (vtx vtype : PyVal)
  | getVweight (vtx : PyVal)
  | setVweight (vtx : PyVal) (vweight : Int)
  | incrementVweight (vtx : PyVal) (vweight : Int)
  | edgesOf (vtx : PyVal)

/-- The session a method leaves, whether it returns or raises. -/
def after {α : Type} (m : Lib α) (s : Session) : Session := resultState (m s)

/-- The session a call leaves. -/
def Op.exec : Op → Session → Session
  | .createMapping name => after (Stinger.createMapping name)
  | .getMapping name => after (Stinger.getMapping name)
  | .getName vtx => after (Stinger.getName vtx)
  | .mappingNv => after Stinger.mappingNv
  | .createVtype name => after (Stinger.createVtype name)
  | .getVtype name => after (Stinger.getVtype name)
  | .getVtypeName vtype => after (Stinger.getVtypeName vtype)
  | .numVtypes => after Stinger.numVtypes
  | .createEtype name => after (Stinger.createEtype name)
  | .getEtype name => after (Stinger.getEtype name)
  | .getEtypeName etype => after (Stinger.getEtypeName etype)
  | .numEtypes => after Stinger.numEtypes
  | .insertEdge vfrom vto etype weight ts => after (Stinger.insertEdge vfrom vto etype weight ts)
  | .insertEdgePair vfrom vto etype weight ts =>
    after (Stinger.insertEdgePair vfrom vto etype weight ts)
  | .incrementEdge vfrom vto etype weight ts =>
    after (Stinger.incrementEdge vfrom vto etype weight ts)
  | .incrementEdgePair vfrom vto etype weight ts =>
    after (Stinger.incrementEdgePair vfrom vto etype weight ts)
  | .removeEdge vfrom vto etype => after (Stinger.removeEdge vfrom vto etype)
  | .removeEdgePair vfrom vto etype => after (Stinger.removeEdgePair vfrom vto etype)
  | .indegree vtx => after (Stinger.indegree vtx)
  | .outdegree vtx => after (Stinger.outdegree vtx)
  | .getType vtx => after (Stinger.getType vtx)
  | .setVtype vtx vtype => after (Stinger.setVtype vtx vtype)
  | .getVweight vtx => after (Stinger.getVweight vtx)
  | .setVweight vtx vweight => after (Stinger.setVweight vtx vweight)
  | .incrementVweight vtx vweight => after (Stinger.incrementVweight vtx vweight)
  | .edgesOf vtx => after (Stinger.edgesOf vtx)

/-- Whether a call that inserts or increments an edge names both endpoints; every other call
may pass anything. -/
def Op.byName : Op → Bool
  | .insertEdge vfrom vto .. | .insertEdgePair vfrom vto .. | .incrementEdge vfrom vto ..
  | .incrementEdgePair vfrom vto .. => vfrom.isStr && vto.isStr
  | _ => true

/-- The session a sequence of calls leaves. -/
def runOps (s : Session) : List Op → Session
  | [] => s
  | op :: ops => runOps (op.exec s) ops

/-- One call moves the engine as `Engine.Extends` allows, unless it is an inserter given an id. -/
theorem Op.exec_extends :
    ∀ op : Op, op.byName → ∀ s : Session, s.engine.Extends (op.exec s).engine
  | .createMapping name, _ => createMapping_extending name
  | .getName vtx, _ => getName_extending vtx
  | .getMapping _, _ | .mappingNv, _ | .createVtype _, _ | .getVtype _, _ | .getVtypeName _, _
  | .numVtypes, _ | .createEtype _, _ | .getEtype _, _ | .getEtypeName _, _ | .numEtypes, _ =>
    Extending.of_eq
  | .insertEdge _ _ etype w ts, h | .incrementEdge _ _ etype w ts, h =>
    edgeUpdate_extending (fun _ _ _ _ _ _ hu hv => by
      exact Engine.extends_touchEdge _ _ _ _ _ _ hu hv) h etype w ts
  | .insertEdgePair _ _ etype w ts, h | .incrementEdgePair _ _ etype w ts, h =>
    edgeUpdate_extending (fun _ _ _ _ _ _ hu hv => by
      exact Engine.extends_touchEdge_pair _ _ _ _ _ _ _ hu hv) h etype w ts
  | .removeEdge vfrom vto etype, _ =>
    edgeRemoval_extending
      (fun _ _ _ => Extending.libCall _ fun e => Engine.extends_removeEdge _ _ _ e) vfrom vto etype
  | .removeEdgePair vfrom vto etype, _ =>
    edgeRemoval_extending (fun _ _ _ => Extending.libCall _ fun e =>
      (Engine.extends_removeEdge _ _ _ e).trans (Engine.extends_removeEdge _ _ _ _)) vfrom vto etype
  | .indegree vtx, _ | .outdegree vtx, _ | .getType vtx, _ | .getVweight vtx, _
  | .setVweight vtx _, _ | .incrementVweight vtx _, _ =>
    atVertex_extending (fun _ => Extending.of_eq) vtx
  | .setVtype vtx vtype, _ => setVtype_extending vtx vtype
  | .edgesOf vtx, _ => edgesOf_extending vtx

theorem runOps_extends (s : Session) {ops : List Op} (h : ∀ op ∈ ops, op.byName) :
    s.engine.Extends (runOps s ops).engine := by
  induction ops generalizing s with
  | nil => exact Engine.Extends.refl _
  | cons op ops ih =>
    exact (op.exec_extends (h op (.head _)) s).trans (ih _ fun o ho => h o (.tail _ ho))

/-! ## `edges_of` after a run -/

/-- The row `edges_of` of `name` should report for the edge `x` out of it: the type's name when
the type is registered, `name` as source, the name stored at the head's id read up to its first
NUL as neighbour, and the edge's weight and times. -/
def namedRow (e : Engine) (name : String) (x : Edge) : EdgeRow :=
  ⟨if x.etype < (e.etypes.length : Int) then
      ((Engine.entry e.etypes (cInt64 x.etype)).map cString).map PyVal.str
    else some (.int x.etype),
    .str name, .str (cString (e.names.getD x.dst.toNat "")), x.weight, x.timeFirst, x.timeRecent⟩

/-- On an engine whose edges join mapped vertices, `edges_of` of a name never meets an unmapped
neighbour: it returns one row per edge out of the vertex. -/
theorem edgesOf_of_edgesMapped (s : Session) (hm : s.engine.EdgesMapped)
    (name : String) (hn : s.engine.names.length ≤ 2 ^ 63)
    (hdeg : (s.engine.successors (vertexId s.engine (.str name))).length < 2 ^ 31)
    (hty : s.engine.etypes.length < 2 ^ 31) :
    ∃ t, edgesOf (.str name) s = .ok
      ((s.engine.successors (vertexId s.engine (.str name))).map (namedRow s.engine name)) t := by
  refine edgesOf_name s name (fun x => s.engine.names.getD x.dst.toNat "") hdeg hty fun x hx => ?_
  obtain ⟨i, hi, hx'⟩ := (hm x (List.mem_filter.mp hx).1).2
  have h : cInt64 (i : Int) = i := cInt64_of_range (by omega) (by omega)
  simp [← hx', h, Engine.entry, hi, Int.natCast_nonneg]

/-- Along any run whose inserters name both endpoints, from a session whose edges join mapped
vertices (a fresh `Stinger()` among them), every edge keeps joining mapped vertices. So
`edges_of` of any name, while the mapping, the degree and the number of types fit the ctypes
integers, returns one row per edge out of the vertex, each neighbour named by the name stored at
its id. -/
theorem named_runs_keep_neighbours_named (s : Session) (hs : s.engine.EdgesMapped)
    (ops : List Op) (hops : ∀ op ∈ ops, op.byName) (name : String) :
    let e := (runOps s ops).engine
    e.EdgesMapped ∧ (e.names.length ≤ 2 ^ 63 →
      (e.successors (vertexId e (.str name))).length < 2 ^ 31 → e.etypes.length < 2 ^ 31 →
      ∃ t, edgesOf (.str name) (runOps s ops) =
        .ok ((e.successors (vertexId e (.str name))).map (namedRow e name)) t) :=
  have hm := hs.of_extends (runOps_extends s hops)
  ⟨hm, edgesOf_of_edgesMapped _ hm name⟩

theorem named_runs_keep_neighbours_named_fresh :
    let ops := [Op.insertEdge (.str "a") (.str "b") (.int 0) 1 1,
      Op.insertEdgePair (.str "b") (.str "c") (.str "follows") 2 3,
      Op.removeEdge (.str "a") (.str "b") (.int 0), Op.setVweight (.int 5) 1]
    let e := (runOps init ops).engine
    e.EdgesMapped ∧ (e.names.length ≤ 2 ^ 63 →
      (e.successors (vertexId e (.str "b"))).length < 2 ^ 31 → e.etypes.length < 2 ^ 31 →
      ∃ t, edgesOf (.str "b") (runOps init ops) =
        .ok ((e.successors (vertexId e (.str "b"))).map (namedRow e "b")) t) :=
  named_runs_keep_neighbours_named init (fun _ hx => absurd hx (List.not_mem_nil _)) _
    (by decide) "b"

end Stinger

end StingerClient
