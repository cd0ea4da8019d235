import StingerClient.Mapping

/-!
# Removing an edge by name

`insert_edge` creates the mappings of its endpoint names; `remove_edge` only looks them up, then
calls the library only when both ids are positive. The first name ever mapped has id 0, so an
edge from or to it is never removed through the wrapper. Both paths create an edge type given by
name, so a removal with a new type name registers it.
-/

namespace StingerClient

namespace Stinger

theorem edgeUpdate_names (call : Int → Int → Int → Int → Int → Lib Unit) (a b : String)
    (t w ts : Int) (s : Session) :
    edgeUpdate call (.str a) (.str b) (.int t) w ts s =
      call (cInt64 t) (cInt64 (Engine.register s.engine.names a).1)
        (cInt64 (Engine.register (Engine.register s.engine.names a).2 b).1) (cInt64 w) (cInt64 ts)
        (afterCreate (afterCreate s a) b) := by
  simp only [edgeUpdate, resolve]
  rw [bind_ok (createMapping_apply s a), bind_ok (createMapping_apply _ b)]
  rfl

theorem edgeRemoval_names (call : Int → Int → Int → Lib Unit) (a b : String) (t : Int)
    (s : Session) :
    edgeRemoval call (.str a) (.str b) (.int t) s =
      if 0 < cInt (Engine.lookup s.engine.names a) ∧ 0 < cInt (Engine.lookup s.engine.names b) then
        call (cInt64 t) (cInt64 (cInt (Engine.lookup s.engine.names a)))
          (cInt64 (cInt (Engine.lookup s.engine.names b)))
          ⟨s.engine, s.calls ++ [.mappingLookup a a.length] ++ [.mappingLookup b b.length]⟩
      else .ok () ⟨s.engine, s.calls ++ [.mappingLookup a a.length] ++ [.mappingLookup b b.length]⟩ := by
  simp only [edgeRemoval, resolve]
  rw [bind_ok (getMapping_apply s a), bind_ok (getMapping_apply _ b)]
  split <;> rfl

/-- The ids `create_mapping` gives `a` and then `b`, as the mapping holds them afterwards. -/
theorem ids_after_create (s : Session) (hs : s.engine.names.length + 2 < 2 ^ 31) (a b : String) :
    let names := (afterCreate (afterCreate s a) b).engine.names
    Engine.lookup names a = (Engine.register s.engine.names a).1 ∧
      Engine.lookup names b = (Engine.register (Engine.register s.engine.names a).2 b).1 ∧
      0 ≤ Engine.lookup names a ∧ Engine.lookup names a < 2 ^ 31 ∧
      0 ≤ Engine.lookup names b ∧ Engine.lookup names b < 2 ^ 31 := by
  have h₁ := Engine.register_length_le s.engine.names a
  obtain ⟨ha0, ha31⟩ := register_fst_lt (show s.engine.names.length < 2 ^ 31 by omega) a
  obtain ⟨hb0, hb31⟩ := register_fst_lt (show (Engine.register s.engine.names a).2.length < 2 ^ 31 by omega) b
  have hu : Engine.lookup (afterCreate (afterCreate s a) b).engine.names a =
      (Engine.register s.engine.names a).1 := by
    simp only [afterCreate]
    rw [Engine.lookup_register_of_mem (Engine.mem_register _ _), Engine.lookup_register]
  have hv : Engine.lookup (afterCreate (afterCreate s a) b).engine.names b =
      (Engine.register (Engine.register s.engine.names a).2 b).1 := Engine.lookup_register _ _
  exact ⟨hu, hv, hu ▸ ha0, hu ▸ ha31, hv ▸ hb0, hv ▸ hb31⟩

/-- An edge path that inserts `(a, b)` by name through one library function and removes it by name
through another: the engine keeps the insertion, and takes the removal as well exactly when both
ids are positive. -/
theorem edgeUpdate_then_removal (fI : Int → Int → Int → Int → Int → Engine → Engine)
    (cI : Int → Int → Int → Int → Int → LibCall) (fR : Int → Int → Int → Engine → Engine)
    (cR : Int → Int → Int → LibCall) (hI : ∀ t u v w ts e, (fI t u v w ts e).names = e.names)
    (s : Session) (hs : s.engine.names.length + 2 < 2 ^ 31) (a b : String) (t w ts : Int) :
    let e := (afterCreate (afterCreate s a) b).engine
    let u := Engine.lookup e.names a
    let v := Engine.lookup e.names b
    ∃ s', (do
        edgeUpdate (fun t u v w ts => libCall (cI t u v w ts) fun e => ((), fI t u v w ts e))
          (.str a) (.str b) (.int t) w ts
        edgeRemoval (fun t u v => libCall (cR t u v) fun e => ((), fR t u v e))
          (.str a) (.str b) (.int t) : Lib Unit) s = .ok () s' ∧
      s'.engine = if 0 < u ∧ 0 < v then fR (cInt64 t) u v (fI (cInt64 t) u v (cInt64 w) (cInt64 ts) e)
        else fI (cInt64 t) u v (cInt64 w) (cInt64 ts) e := by
  obtain ⟨hu, hv, hu0, hu31, hv0, hv31⟩ := ids_after_create s hs a b
  dsimp only at hu hv hu0 hu31 hv0 hv31 ⊢
  have hcu := cInt_of_range (by omega) hu31
  have hcv := cInt_of_range (by omega) hv31
  have h64u := cInt64_of_range (by omega) (by omega : Engine.lookup (afterCreate (afterCreate s a) b).engine.names a < 2 ^ 63)
  have h64v := cInt64_of_range (by omega) (by omega : Engine.lookup (afterCreate (afterCreate s a) b).engine.names b < 2 ^ 63)
  rw [bind_ok ((edgeUpdate_names _ a b t w ts s).trans (libCall_apply _ _ _)), edgeRemoval_names]
  simp only [hI, ← hu, ← hv, hcu, hcv, h64u, h64v]
  split <;> exact ⟨_, rfl, rfl⟩

theorem resolve_getMapping_eq (s : Session) (x : PyVal) :
    ∃ cs, resolve getMapping x s = .ok (vertexId s.engine x) ⟨s.engine, cs⟩ := by
  cases x with
  | str n => exact ⟨_, getMapping_apply s n⟩
  | int v => exact ⟨s.calls, rfl⟩

/-- A removal looks its endpoints up and creates a type given by name: it registers the type and
leaves the mapping as it was. -/
theorem edgeRemoval_registers_etype (fR : Int → Int → Int → Engine → Engine)
    (cR : Int → Int → Int → LibCall) (hR : ∀ t u v e, (fR t u v e).etypes = e.etypes ∧
      (fR t u v e).names = e.names) (s : Session) (vfrom vto : PyVal) (etype : String) :
    let e := (resultState (edgeRemoval (fun t u v => libCall (cR t u v) fun e => ((), fR t u v e))
      vfrom vto (.str etype) s)).engine
    e.etypes = (Engine.register s.engine.etypes (cString etype)).2 ∧ e.names = s.engine.names := by
  obtain ⟨cs, h⟩ := resolve_getMapping_eq s vfrom
  obtain ⟨cs', h'⟩ := resolve_getMapping_eq ⟨s.engine, cs⟩ vto
  simp only [edgeRemoval]
  rw [bind_ok h, bind_ok h']
  simp only [resolve, createEtype, stingerEtypeNamesCreateType, Bind.bind, EStateM.bind,
    libCall_apply]
  split <;> simp [hR, pure, EStateM.pure]

/-- Inserting an edge between two names and removing it by the same names leaves it in place
exactly when one of the names has id 0, as the first name ever mapped does; the pair variants
then leave both directions in place. A removal given a type name registers the type, and no
removal maps a name. -/
theorem remove_edge_spares_vertex_zero (s : Session) (hs : s.engine.names.length + 2 < 2 ^ 31)
    (a b : String) (t w ts : Int) :
    let u := Engine.lookup (afterCreate (afterCreate s a) b).engine.names a
    let v := Engine.lookup (afterCreate (afterCreate s a) b).engine.names b
    0 ≤ u ∧ 0 ≤ v ∧
    (∃ s', (do
        insertEdge (.str a) (.str b) (.int t) w ts
        removeEdge (.str a) (.str b) (.int t)) s = .ok () s' ∧
      (s'.engine.hasEdge (cInt64 t) u v ↔ u = 0 ∨ v = 0)) ∧
    (∃ s', (do
        insertEdgePair (.str a) (.str b) (.int t) w ts
        removeEdgePair (.str a) (.str b) (.int t)) s = .ok () s' ∧
      (s'.engine.hasEdge (cInt64 t) u v ↔ u = 0 ∨ v = 0) ∧
      (s'.engine.hasEdge (cInt64 t) v u ↔ u = 0 ∨ v = 0)) ∧
    (∀ (vfrom vto : PyVal) (etype : String),
      (resultState (removeEdge vfrom vto (.str etype) s)).engine.etypes =
        (Engine.register s.engine.etypes (cString etype)).2 ∧
      (resultState (removeEdge vfrom vto (.str etype) s)).engine.names = s.engine.names ∧
      (resultState (removeEdgePair vfrom vto (.str etype) s)).engine.etypes =
        (Engine.register s.engine.etypes (cString etype)).2 ∧
      (resultState (removeEdgePair vfrom vto (.str etype) s)).engine.names = s.engine.names) := by
  intro u v
  obtain ⟨-, -, hu0, -, hv0, -⟩ := ids_after_create s hs a b
  refine ⟨hu0, hv0, ?_, ?_, fun vfrom vto etype => ?_⟩
  · obtain ⟨s', h, he⟩ := edgeUpdate_then_removal (fun t u v w ts e => e.insertEdge t u v w ts)
      .insertEdge (fun t u v e => e.removeEdge t u v) .removeEdge (fun _ _ _ _ _ _ =>
      Engine.touchEdge_names _ _ _ _ _ _ _) s hs a b t w ts
    refine ⟨s', h, ?_⟩
    rw [he]
    split
    · next hpos =>
      simp only [Engine.hasEdge_removeEdge, ne_eq, not_true_eq_false, and_false, false_iff]
      omega
    · next hpos =>
      simp only [Engine.insertEdge, Engine.hasEdge_touchEdge, true_iff]
      omega
  · obtain ⟨s', h, he⟩ := edgeUpdate_then_removal
      (fun t u v w ts e => (e.insertEdge t u v w ts).insertEdge t v u w ts) .insertEdgePair
      (fun t u v e => (e.removeEdge t u v).removeEdge t v u) .removeEdgePair
      (fun _ _ _ _ _ _ => by simp [Engine.insertEdge]) s hs a b t w ts
    refine ⟨s', h, ?_⟩
    rw [he]
    split
    · next hpos =>
      simp only [Engine.hasEdge_removeEdge, ne_eq, not_true_eq_false, and_false, false_and,
        false_iff]
      omega
    · next hpos =>
      simp only [Engine.insertEdge, Engine.hasEdge_touchEdge,
        Engine.hasEdge_touchEdge_of_hasEdge _ _ _ _ _ _ (Engine.hasEdge_touchEdge _ _ _ _ _ _ _),
        true_iff]
      omega
  · obtain ⟨h₁, h₂⟩ := edgeRemoval_registers_etype (fun t u v e => e.removeEdge t u v) .removeEdge
      (fun _ _ _ _ => ⟨rfl, rfl⟩) s vfrom vto etype
    obtain ⟨h₃, h₄⟩ := edgeRemoval_registers_etype
      (fun t u v e => (e.removeEdge t u v).removeEdge t v u) .removeEdgePair
      (fun _ _ _ _ => ⟨rfl, rfl⟩) s vfrom vto etype
    exact ⟨h₁, h₂, h₃, h₄⟩

theorem remove_edge_spares_vertex_zero_fresh :
    let u := Engine.lookup (afterCreate (afterCreate init "a") "b").engine.names "a"
    let v := Engine.lookup (afterCreate (afterCreate init "a") "b").engine.names "b"
    0 ≤ u ∧ 0 ≤ v ∧
    (∃ s', (do
        insertEdge (.str "a") (.str "b") (.int 0) 1 1
        removeEdge (.str "a") (.str "b") (.int 0)) init = .ok () s' ∧
      (s'.engine.hasEdge (cInt64 0) u v ↔ u = 0 ∨ v = 0)) ∧
    (∃ s', (do
        insertEdgePair (.str "a") (.str "b") (.int 0) 1 1
        removeEdgePair (.str "a") (.str "b") (.int 0)) init = .ok () s' ∧
      (s'.engine.hasEdge (cInt64 0) u v ↔ u = 0 ∨ v = 0) ∧
      (s'.engine.hasEdge (cInt64 0) v u ↔ u = 0 ∨ v = 0)) ∧
    (∀ (vfrom vto : PyVal) (etype : String),
      (resultState (removeEdge vfrom vto (.str etype) init)).engine.etypes =
        (Engine.register init.engine.etypes (cString etype)).2 ∧
      (resultState (removeEdge vfrom vto (.str etype) init)).engine.names = init.engine.names ∧
      (resultState (removeEdgePair vfrom vto (.str etype) init)).engine.etypes =
        (Engine.register init.engine.etypes (cString etype)).2 ∧
      (resultState (removeEdgePair vfrom vto (.str etype) init)).engine.names = init.engine.names) :=
  remove_edge_spares_vertex_zero init (by decide) "a" "b" 0 1 1

end Stinger

end StingerClient
