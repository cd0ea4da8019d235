import StingerClient.CoreSpec

/-!
# Vertex names: `create_mapping`, `get_mapping`, `get_name` and `edges_of`

The mapping stores exactly the bytes `create_mapping` passes, and `get_mapping` passes the same
bytes, so the two agree on every name. `get_name` hands the stored bytes to `c_char_p.value`
before cutting them to the stored length, so it returns the name only up to its first NUL, and
`edges_of` reports every neighbour of a named vertex through `get_name`.
-/

namespace StingerClient

namespace Stinger

/-- The id `create_mapping` gives fits the `c_int` that `get_mapping` returns it through. -/
theorem register_fst_lt {reg : List String} (hs : reg.length < 2 ^ 31) (name : String) :
    0 ≤ (Engine.register reg name).1 ∧ (Engine.register reg name).1 < 2 ^ 31 := by
  have := List.indexOf_le_length (a := name) (l := reg)
  rw [Engine.register_fst]
  omega

theorem cInt64_of_cInt_range {v : Int} (h : 0 ≤ v ∧ v < 2 ^ 31) : cInt64 v = v :=
  cInt64_of_range (by omega) (by omega)

/-- The session `create_mapping` leaves: the name registered, the call logged. -/
def afterCreate (s : Session) (name : String) : Session :=
  ⟨{ s.engine with names := (Engine.register s.engine.names name).2 },
    s.calls ++ [.mappingCreate name name.length]⟩

/-- Once `create_mapping` has given a name an id, `get_mapping` and a second `create_mapping`
return that id, and `get_name` of it returns the name up to its first NUL, which is the whole
name when it has none. -/
theorem name_round_trip (s : Session) (hs : s.engine.names.length < 2 ^ 31) (name : String) :
    ∃ v, createMapping name s = .ok v (afterCreate s name) ∧ 0 ≤ v ∧
      (∃ t, getMapping name (afterCreate s name) = .ok v t) ∧
      (∃ t, createMapping name (afterCreate s name) = .ok v t) ∧
      (∃ t, getName v (afterCreate s name) = .ok (cString name) t) ∧
      ('\x00' ∉ name.toList → cString name = name) := by
  obtain ⟨h0, h31⟩ := register_fst_lt hs name
  have hlook : cInt (Engine.lookup (Engine.register s.engine.names name).2 name) =
      (Engine.register s.engine.names name).1 := by
    rw [Engine.lookup_register, cInt_of_range (by omega) h31]
  refine ⟨_, createMapping_apply s name, h0,
    ⟨_, (getMapping_apply _ name).trans (by rw [← hlook]; rfl)⟩,
    ⟨_, (createMapping_apply _ name).trans
      (by simp only [afterCreate, Engine.register_register]; rfl)⟩,
    ⟨_, getName_of_entry _ ?_⟩, cString_of_not_mem⟩
  rw [cInt64_of_cInt_range ⟨h0, h31⟩]
  exact Engine.entry_register _ _

/-! ## `edges_of` of a name -/

theorem cInt64_cInt (v : Int) : cInt64 (cInt v) = cInt v := by
  have h32 : ((2 ^ 32 : Nat) : Int) = 4294967296 := rfl
  have lo := @Int.le_bmod v (2 ^ 32) (by decide)
  have hi := @Int.bmod_lt v (2 ^ 32) (by decide)
  rw [h32] at lo hi
  exact cInt64_of_range (by unfold cInt; omega) (by unfold cInt; omega)

/-- A `mapM` whose step returns `g a` on each element, keeping the engine and logging `c a`,
returns `xs.map g` and logs the calls in order. -/
theorem mapM_of_forall {α β : Type} {f : α → Lib β} (e : Engine) (g : α → β)
    (c : α → List LibCall) {xs : List α}
    (hf : ∀ a ∈ xs, ∀ cs, f a ⟨e, cs⟩ = .ok (g a) ⟨e, cs ++ c a⟩) (cs : List LibCall) :
    xs.mapM f ⟨e, cs⟩ = .ok (xs.map g) ⟨e, cs ++ (xs.map c).flatten⟩ := by
  induction xs generalizing cs with
  | nil => rw [List.mapM_nil]; simp [pure, EStateM.pure]
  | cons x xs ih =>
    rw [List.mapM_cons, bind_ok (hf x (.head _) cs),
      bind_ok (ih (fun a ha => hf a (.tail _ ha)) _)]
    simp [pure, EStateM.pure]

theorem etypeCell_apply (e : Engine) (m t : Int) (cs : List LibCall) :
    etypeCell m t ⟨e, cs⟩ =
      .ok (if t < m then ((Engine.entry e.etypes (cInt64 t)).map cString).map PyVal.str
        else some (.int t))
        ⟨e, cs ++ if t < m then [.etypeNamesLookupName (cInt64 t)] else []⟩ := by
  unfold etypeCell
  split <;> simp [getEtypeName, stingerEtypeNamesLookupName, Functor.map, EStateM.map, pure,
    EStateM.pure]

@[simp] theorem filled_map_length {α : Type} (l : List α) (f : α → Int) :
    filled (l.map f) l.length = l.map f := by
  simp [filled]

theorem gather_apply (vtx deg : Int) (s : Session) :
    stingerGatherSuccessors vtx deg s = .ok ((s.engine.successors vtx).take deg.toNat)
      ⟨s.engine, s.calls ++ [.gatherSuccessors vtx deg]⟩ := rfl

theorem numEtypes_apply (s : Session) :
    numEtypes s = .ok (cInt s.engine.etypes.length) ⟨s.engine, s.calls ++ [.etypeNamesCount]⟩ := by
  simp [numEtypes, stingerEtypeNamesCount]

theorem arrayLength_natCast (n : Nat) (s : Session) : arrayLength n s = .ok n s := by
  rw [arrayLength, if_neg (by omega)]; rfl

theorem zipRows_map {α : Type} (l : List α) (f₁ : α → Option PyVal) (f₂ f₃ : α → PyVal)
    (f₄ f₅ f₆ : α → Int) :
    zipRows (l.map f₁) (l.map f₂) (l.map f₃) (l.map f₄) (l.map f₅) (l.map f₆) =
      l.map fun x => ⟨f₁ x, f₂ x, f₃ x, f₄ x, f₅ x, f₆ x⟩ := by
  induction l with
  | nil => rfl
  | cons x l ih => simp [zipRows, ih]

/-- `edges_of` of a name, up to the `get_name` of each neighbour: the lookup, the degree and the
gather leave the engine as it was and yield the edges out of the vertex. -/
theorem edgesOf_name_eq (s : Session) (name : String) {es : List Edge}
    (hes : s.engine.successors (vertexId s.engine (.str name)) = es) (hdeg : es.length < 2 ^ 31) :
    ∃ cs, edgesOf (.str name) s = (do
      let neighbor ← (es.map Edge.dst).mapM getName
      let maxEtypes ← numEtypes
      let etype ← (es.map Edge.etype).mapM (etypeCell maxEtypes)
      pure (zipRows etype (List.replicate es.length (.str name)) (neighbor.map .str)
        (es.map Edge.weight) (es.map Edge.timeFirst) (es.map Edge.timeRecent))) ⟨s.engine, cs⟩ := by
  subst hes
  obtain ⟨e, cs⟩ := s
  dsimp only at hdeg ⊢
  have hv : cInt64 (vertexId e (.str name)) = vertexId e (.str name) := cInt64_cInt _
  have hn : cInt (e.outdegree (vertexId e (.str name))) =
      (e.successors (vertexId e (.str name))).length :=
    cInt_of_range (by omega) (by unfold Engine.outdegree; omega)
  have hd : cInt64 (e.successors (vertexId e (.str name))).length =
      (e.successors (vertexId e (.str name))).length := cInt64_of_range (by omega) (by omega)
  constructor
  rw [edgesOf, bind_ok (getMapping_apply _ name), bind_ok (outdegree_int _ _)]
  simp only [show cInt (Engine.lookup e.names name) = vertexId e (.str name) from rfl, hv, hn]
  rw [bind_ok (arrayLength_natCast _ _), bind_ok (gather_apply _ _ _)]
  dsimp only
  simp only [hv, hd, Int.toNat_ofNat, List.take_length, filled_map_length]
  rfl

/-- `edges_of` of a name: one row per edge out of the id `get_mapping` gives the name, in the
engine's order, with the name as source, the stored name of the head read up to its first NUL as
neighbour, the type's name when the type is registered, and the edge's weight and times. -/
theorem edgesOf_name (s : Session) (name : String) (nameOf : Edge → String)
    (hdeg : (s.engine.successors (vertexId s.engine (.str name))).length < 2 ^ 31)
    (hty : s.engine.etypes.length < 2 ^ 31)
    (hmapped : ∀ x ∈ s.engine.successors (vertexId s.engine (.str name)),
      Engine.entry s.engine.names (cInt64 x.dst) = some (nameOf x)) :
    ∃ t, edgesOf (.str name) s = .ok ((s.engine.successors (vertexId s.engine (.str name))).map
      fun x => ⟨if x.etype < (s.engine.etypes.length : Int) then
          ((Engine.entry s.engine.etypes (cInt64 x.etype)).map cString).map PyVal.str
        else some (.int x.etype), .str name, .str (cString (nameOf x)), x.weight, x.timeFirst,
        x.timeRecent⟩) t := by
  obtain ⟨cs, h⟩ := edgesOf_name_eq s name rfl hdeg
  have hm : cInt s.engine.etypes.length = s.engine.etypes.length := cInt_of_range (by omega) (by omega)
  constructor
  rw [h, bind_ok (mapM_of_forall s.engine
    (fun d => cString ((Engine.entry s.engine.names (cInt64 d)).getD ""))
    (fun d => [.mappingPhysidDirect (cInt64 d)]) ?names _), bind_ok (numEtypes_apply _)]
  dsimp only
  rw [hm, bind_ok (mapM_of_forall s.engine _ _ (fun t _ cs => etypeCell_apply s.engine _ t cs) _)]
  rw [← List.map_const', List.map_map, List.map_map, List.map_map, zipRows_map]
  exact congrArg₂ EStateM.Result.ok (List.map_congr_left fun x hx => by simp [hmapped x hx]) rfl
  case names =>
    intro a ha cs
    obtain ⟨x, hx, rfl⟩ := List.mem_map.mp ha
    rw [getName_of_entry ⟨s.engine, cs⟩ (hmapped x hx)]
    simp [hmapped x hx]

/-- `get_name` over a list of ids raises `TypeError` once it reaches an unmapped one. -/
theorem mapM_getName_error (e : Engine) {ds : List Int}
    (h : ∃ d ∈ ds, Engine.entry e.names (cInt64 d) = none) (cs : List LibCall) :
    ∃ t, ds.mapM getName ⟨e, cs⟩ = .error .typeError t := by
  induction ds generalizing cs with
  | nil => simp at h
  | cons d ds ih =>
    rw [List.mapM_cons]
    cases hd : Engine.entry e.names (cInt64 d) with
    | none => exact ⟨_, bind_error (getName_of_unmapped ⟨e, cs⟩ hd)⟩
    | some n =>
      obtain ⟨d', hd', hn⟩ := h
      have hmem : d' ∈ ds := by
        rcases List.mem_cons.mp hd' with rfl | h
        · simp [hd] at hn
        · exact h
      obtain ⟨t, ht⟩ := ih ⟨d', hmem, hn⟩ (cs ++ [.mappingPhysidDirect (cInt64 d)])
      exact ⟨t, by rw [bind_ok (getName_of_entry ⟨e, cs⟩ hd)]; exact bind_error ht⟩

/-- `edges_of` of a name returns exactly when every edge out of the vertex has a mapped head;
otherwise the `get_name` of the first unmapped one raises `TypeError`. -/
theorem edges_of_name_returns_iff_heads_mapped (s : Session) (name : String)
    (hdeg : (s.engine.successors (vertexId s.engine (.str name))).length < 2 ^ 31)
    (hty : s.engine.etypes.length < 2 ^ 31) :
    ((∃ rows t, edgesOf (.str name) s = .ok rows t) ↔
      ∀ x ∈ s.engine.successors (vertexId s.engine (.str name)),
        (Engine.entry s.engine.names (cInt64 x.dst)).isSome) ∧
    ((∃ x ∈ s.engine.successors (vertexId s.engine (.str name)),
        Engine.entry s.engine.names (cInt64 x.dst) = none) →
      ∃ t, edgesOf (.str name) s = .error .typeError t) := by
  have raises : (∃ x ∈ s.engine.successors (vertexId s.engine (.str name)),
      Engine.entry s.engine.names (cInt64 x.dst) = none) →
      ∃ t, edgesOf (.str name) s = .error .typeError t := fun ⟨x, hx, hn⟩ => by
    obtain ⟨cs, he⟩ := edgesOf_name_eq s name rfl hdeg
    obtain ⟨t, ht⟩ := mapM_getName_error s.engine ⟨x.dst, List.mem_map_of_mem _ hx, hn⟩ cs
    exact ⟨t, he.trans (bind_error ht)⟩
  refine ⟨⟨fun ⟨rows, t, hok⟩ x hx => ?_, fun hall => ?_⟩, raises⟩
  · cases hn : Engine.entry s.engine.names (cInt64 x.dst) with
    | some _ => rfl
    | none =>
      obtain ⟨t', herr⟩ := raises ⟨x, hx, hn⟩
      cases hok.symm.trans herr
  · obtain ⟨t, h⟩ := edgesOf_name s name (fun x => (Engine.entry s.engine.names (cInt64 x.dst)).getD "")
      hdeg hty fun x hx => by
        obtain ⟨n, hn⟩ := Option.isSome_iff_exists.mp (hall x hx)
        simp [hn]
    exact ⟨_, t, h⟩

theorem edges_of_name_returns_iff_heads_mapped_unmapped_head :
    let s : Session := ⟨⟨["a"], [], [], [⟨0, 0, 7, 1, 1, 1⟩], fun _ => 0, fun _ => 0⟩, []⟩
    ((∃ rows t, edgesOf (.str "a") s = .ok rows t) ↔
      ∀ x ∈ s.engine.successors (vertexId s.engine (.str "a")),
        (Engine.entry s.engine.names (cInt64 x.dst)).isSome) ∧
    ((∃ x ∈ s.engine.successors (vertexId s.engine (.str "a")),
        Engine.entry s.engine.names (cInt64 x.dst) = none) →
      ∃ t, edgesOf (.str "a") s = .error .typeError t) :=
  edges_of_name_returns_iff_heads_mapped _ "a" (by decide) (by decide)

/-- A name with a NUL byte is mapped whole, and `get_name` reads it back cut at the NUL. -/
theorem name_with_nul_read_back_cut :
    ∃ s₁ s₂, createMapping "a\x00b" init = .ok 0 s₁ ∧ getName 0 s₁ = .ok "a" s₂ :=
  ⟨_, _, rfl, rfl⟩

/-- `get_mapping` and a second `create_mapping` return the id `create_mapping` gave a name, and
`get_name` of it returns the name up to its first NUL. `edges_of` of a name reports the name as
source and each neighbour by the name stored for it, read the same way; names without a NUL are
read back exactly. -/
theorem names_read_back_up_to_nul (s : Session) (hs : s.engine.names.length < 2 ^ 31)
    (name : String) (nameOf : Edge → String)
    (hdeg : (s.engine.successors (vertexId s.engine (.str name))).length < 2 ^ 31)
    (hty : s.engine.etypes.length < 2 ^ 31)
    (hmapped : ∀ x ∈ s.engine.successors (vertexId s.engine (.str name)),
      Engine.entry s.engine.names (cInt64 x.dst) = some (nameOf x)) :
    (∃ v, createMapping name s = .ok v (afterCreate s name) ∧ 0 ≤ v ∧
      (∃ t, getMapping name (afterCreate s name) = .ok v t) ∧
      (∃ t, createMapping name (afterCreate s name) = .ok v t) ∧
      (∃ t, getName v (afterCreate s name) = .ok (cString name) t)) ∧
    ('\x00' ∉ name.toList → cString name = name) ∧
    (∃ rows t, edgesOf (.str name) s = .ok rows t ∧
      rows.map (·.source) =
        (s.engine.successors (vertexId s.engine (.str name))).map (fun _ => .str name) ∧
      rows.map (·.neighbor) =
        (s.engine.successors (vertexId s.engine (.str name))).map (.str ∘ cString ∘ nameOf) ∧
      ((∀ x ∈ s.engine.successors (vertexId s.engine (.str name)), '\x00' ∉ (nameOf x).toList) →
        rows.map (·.neighbor) =
          (s.engine.successors (vertexId s.engine (.str name))).map (.str ∘ nameOf))) := by
  obtain ⟨v, hc, h0, hg, hc', hn, hnul⟩ := name_round_trip s hs name
  obtain ⟨t, he⟩ := edgesOf_name s name nameOf hdeg hty hmapped
  refine ⟨⟨v, hc, h0, hg, hc', hn⟩, hnul, _, t, he, by rw [List.map_map]; rfl,
    by rw [List.map_map]; rfl, fun hfree => ?_⟩
  simp only [List.map_map]
  exact List.map_congr_left fun x hx => by simp [cString_of_not_mem (hfree x hx)]

theorem names_read_back_up_to_nul_ab :
    let s : Session := ⟨⟨["a", "b"], [], [], [⟨0, 0, 1, 1, 1, 1⟩], fun _ => 0, fun _ => 0⟩, []⟩
    let nameOf : Edge → String := fun x => if x.dst = 1 then "b" else "a"
    (∃ v, createMapping "a" s = .ok v (afterCreate s "a") ∧ 0 ≤ v ∧
      (∃ t, getMapping "a" (afterCreate s "a") = .ok v t) ∧
      (∃ t, createMapping "a" (afterCreate s "a") = .ok v t) ∧
      (∃ t, getName v (afterCreate s "a") = .ok (cString "a") t)) ∧
    ('\x00' ∉ "a".toList → cString "a" = "a") ∧
    (∃ rows t, edgesOf (.str "a") s = .ok rows t ∧
      rows.map (·.source) =
        (s.engine.successors (vertexId s.engine (.str "a"))).map (fun _ => .str "a") ∧
      rows.map (·.neighbor) =
        (s.engine.successors (vertexId s.engine (.str "a"))).map (.str ∘ cString ∘ nameOf) ∧
      ((∀ x ∈ s.engine.successors (vertexId s.engine (.str "a")), '\x00' ∉ (nameOf x).toList) →
        rows.map (·.neighbor) =
          (s.engine.successors (vertexId s.engine (.str "a"))).map (.str ∘ nameOf))) :=
  names_read_back_up_to_nul _ (by decide) "a" _ (by decide) (by decide) (by decide)

end Stinger

end StingerClient
