import StingerClient.Runs

/-!
# The pending batch, and what the stream's records carry of it

The batch as the spec describes it: for each sequence, the adds made since the last
`send_batch`, in order, each with the addressing mode in effect at its call. When every vertex
argument is a name under string mode and an id otherwise, the stream refines it: each sequence
counts exactly its pending adds, and slot `k` carries the names or ids, the type and the weights
of the `k`-th. What the records do not carry is a cleared other representation: a slot reused
after a send keeps what an earlier batch left in the fields the new add does not assign, and the
vertex-update weight is never stored.
-/

namespace StingerClient

open UpdateBuffer StingerStream

/-- The id a record field holds for an argument: the `c_int64` value of an int, 0 for a name. -/
def PyVal.asId : PyVal → Int
  | .int v => cInt64 v
  | .str _ => 0

/-- The name a record field holds for an argument: the string of a name, null for an int. -/
def PyVal.asName : PyVal → CharP
  | .str n => .str n
  | .int _ => .null

@[simp] theorem PyVal.asId_int (v : Int) : (PyVal.int v).asId = cInt64 v := rfl
@[simp] theorem PyVal.asId_str (n : String) : (PyVal.str n).asId = 0 := rfl
@[simp] theorem PyVal.asName_int (v : Int) : (PyVal.int v).asName = .null := rfl
@[simp] theorem PyVal.asName_str (n : String) : (PyVal.str n).asName = .str n := rfl
@[simp] theorem PyVal.isStr_int (v : Int) : (PyVal.int v).isStr = false := rfl
@[simp] theorem PyVal.isStr_str (n : String) : (PyVal.str n).isStr = true := rfl

structure InsertAction where
  mode : Bool
  vfrom : PyVal
  vto : PyVal
  etype : PyVal
  weight : Int
  ts : Int
  deriving DecidableEq, Repr

structure DeleteAction where
  mode : Bool
  vfrom : PyVal
  vto : PyVal
  etype : PyVal
  deriving DecidableEq, Repr

structure VertexAction where
  mode : Bool
  vtx : PyVal
  vtype : PyVal
  weight : Int
  incrWeight : Int
  deriving DecidableEq, Repr

/-- The batch a stream holds, as the spec sees it. -/
structure PendingBatch where
  insertions : List InsertAction
  deletions : List DeleteAction
  vertexUpdates : List VertexAction
  onlyStrings : Bool
  deriving DecidableEq, Repr

/-- The addressing mode after a call: only `add_insert` with `insert_strings` changes it. -/
def Call.nextMode : Call → Bool → Bool
  | .addInsert _ _ _ _ _ insertStrings, mode => insertStrings.getD mode
  | _, mode => mode

/-- Whether the call is an `add_*`, which appends to the batch, rather than `send_batch`. -/
def Call.isAdd : Call → Bool
  | .sendBatch _ => false
  | _ => true

/-- Each vertex argument of the call is a name under string mode and an id otherwise, for the
mode in effect at the call. -/
def Call.WellTyped (mode : Bool) : Call → Prop
  | .addInsert vfrom vto _ _ _ insertStrings =>
    vfrom.isStr = insertStrings.getD mode ∧ vto.isStr = insertStrings.getD mode
  | .addDelete vfrom vto _ => vfrom.isStr = mode ∧ vto.isStr = mode
  | .addVertexUpdate vtx _ _ _ => vtx.isStr = mode
  | .sendBatch _ => True

/-- Every call of a run is well typed for the mode in effect at it. -/
def WellTypedRun : Bool → List Call → Prop
  | _, [] => True
  | mode, c :: cs => c.WellTyped mode ∧ WellTypedRun (c.nextMode mode) cs

namespace PendingBatch

def empty (onlyStrings : Bool) : PendingBatch := ⟨[], [], [], onlyStrings⟩

def step (p : PendingBatch) : Call → PendingBatch
  | .addInsert vfrom vto etype weight ts insertStrings =>
    let mode := insertStrings.getD p.onlyStrings
    { p with onlyStrings := mode
             insertions := p.insertions ++ [⟨mode, vfrom, vto, etype, weight, ts⟩] }
  | .addDelete vfrom vto etype =>
    { p with deletions := p.deletions ++ [⟨p.onlyStrings, vfrom, vto, etype⟩] }
  | .addVertexUpdate vtx vtype weight incrWeight =>
    { p with vertexUpdates := p.vertexUpdates ++ [⟨p.onlyStrings, vtx, vtype, weight, incrWeight⟩] }
  | .sendBatch _ => empty p.onlyStrings

def run (p : PendingBatch) : List Call → PendingBatch
  | [] => p
  | c :: cs => (p.step c).run cs

/-- Every pending add was written under mode `m`. -/
def AllUnder (m : Bool) (p : PendingBatch) : Prop :=
  (∀ a ∈ p.insertions, a.mode = m) ∧ (∀ a ∈ p.deletions, a.mode = m) ∧
    ∀ a ∈ p.vertexUpdates, a.mode = m

theorem step_onlyStrings (p : PendingBatch) (c : Call) :
    (p.step c).onlyStrings = c.nextMode p.onlyStrings := by
  cases c <;> rfl

theorem run_append (p : PendingBatch) (cs ds : List Call) :
    p.run (cs ++ ds) = (p.run cs).run ds := by
  induction cs generalizing p with
  | nil => rfl
  | cons c cs ih => exact ih _

theorem step_allUnder {p : PendingBatch} (hp : p.AllUnder p.onlyStrings) {c : Call}
    (hc : c.nextMode p.onlyStrings = p.onlyStrings) : (p.step c).AllUnder p.onlyStrings := by
  obtain ⟨hi, hd, hv⟩ := hp
  have last {β : Type} (xs : List β) (mode : β → Bool) (h : ∀ a ∈ xs, mode a = p.onlyStrings)
      (b : β) (hb : mode b = p.onlyStrings) : ∀ a ∈ xs ++ [b], mode a = p.onlyStrings := by
    simpa [or_imp, forall_and, hb] using h
  cases c with
  | addInsert vfrom vto etype weight ts insertStrings =>
    exact ⟨last _ InsertAction.mode hi _ hc, hd, hv⟩
  | addDelete vfrom vto etype => exact ⟨hi, last _ DeleteAction.mode hd _ rfl, hv⟩
  | addVertexUpdate vtx vtype weight incrWeight => exact ⟨hi, hd, last _ VertexAction.mode hv _ rfl⟩
  | sendBatch status => exact ⟨by simp [step, empty], by simp [step, empty], by simp [step, empty]⟩

/-- While no call changes the mode, every add is written under it. -/
theorem run_allUnder {p : PendingBatch} (hp : p.AllUnder p.onlyStrings) {calls : List Call}
    (hkeep : ∀ c ∈ calls, c.nextMode p.onlyStrings = p.onlyStrings) :
    (p.run calls).onlyStrings = p.onlyStrings ∧ (p.run calls).AllUnder p.onlyStrings := by
  induction calls generalizing p with
  | nil => exact ⟨rfl, hp⟩
  | cons c cs ih =>
    have hc := hkeep c (List.mem_cons_self c cs)
    have hmode : (p.step c).onlyStrings = p.onlyStrings := (p.step_onlyStrings c).trans hc
    have hstep := step_allUnder hp hc
    obtain ⟨h₁, h₂⟩ := ih (hmode ▸ hstep) fun c' hc' => hmode ▸ hkeep c' (List.mem_cons_of_mem c hc')
    exact ⟨h₁.trans hmode, hmode ▸ h₂⟩

/-- Every pending add of `p` is still pending in `q`, at the same position. -/
def Extends (p q : PendingBatch) : Prop :=
  p.insertions <+: q.insertions ∧ p.deletions <+: q.deletions ∧ p.vertexUpdates <+: q.vertexUpdates

theorem Extends.refl (p : PendingBatch) : p.Extends p :=
  ⟨List.prefix_refl _, List.prefix_refl _, List.prefix_refl _⟩

theorem Extends.trans {p q r : PendingBatch} (h : p.Extends q) (h' : q.Extends r) : p.Extends r :=
  ⟨h.1.trans h'.1, h.2.1.trans h'.2.1, h.2.2.trans h'.2.2⟩

theorem extends_step (p : PendingBatch) {c : Call} (hc : c.isAdd) : p.Extends (p.step c) := by
  cases c with
  | addInsert => exact ⟨List.prefix_append _ _, List.prefix_refl _, List.prefix_refl _⟩
  | addDelete => exact ⟨List.prefix_refl _, List.prefix_append _ _, List.prefix_refl _⟩
  | addVertexUpdate => exact ⟨List.prefix_refl _, List.prefix_refl _, List.prefix_append _ _⟩
  | sendBatch => cases hc

/-- Adds only append: nothing pending is dropped or moved before a `send_batch`. -/
theorem extends_run (p : PendingBatch) {cs : List Call} (hcs : ∀ c ∈ cs, c.isAdd) :
    p.Extends (p.run cs) := by
  induction cs generalizing p with
  | nil => exact .refl p
  | cons c cs ih =>
    exact (p.extends_step (hcs c (List.mem_cons_self c cs))).trans
      (ih _ fun d hd => hcs d (List.mem_cons_of_mem c hd))

/-- A run whose calls all keep mode `m` ends in mode `m`. -/
theorem run_onlyStrings_of_keep {p : PendingBatch} {m : Bool} (hp : p.onlyStrings = m)
    {cs : List Call} (hcs : ∀ c ∈ cs, c.nextMode m = m) : (p.run cs).onlyStrings = m := by
  induction cs generalizing p with
  | nil => exact hp
  | cons c cs ih =>
    refine ih ?_ fun d hd => hcs d (List.mem_cons_of_mem c hd)
    rw [step_onlyStrings, hp]
    exact hcs c (List.mem_cons_self c cs)

/-- A call that switches the mode, then adds that keep the new one: everything pending before the
switch is still pending, and the batch ends in the other mode. -/
theorem run_switch (p : PendingBatch) {c : Call} {post : List Call}
    (hc : c.nextMode p.onlyStrings = !p.onlyStrings)
    (hpost : ∀ d ∈ post, d.isAdd ∧ d.nextMode (!p.onlyStrings) = !p.onlyStrings) :
    p.Extends (p.run (c :: post)) ∧ (p.run (c :: post)).onlyStrings = !p.onlyStrings := by
  have hadd : c.isAdd := by
    cases c with
    | sendBatch => exact absurd hc (by simp [Call.nextMode])
    | _ => rfl
  exact ⟨(p.extends_step hadd).trans ((p.step c).extends_run fun d hd => (hpost d hd).1),
    run_onlyStrings_of_keep ((p.step_onlyStrings c).trans hc) fun d hd => (hpost d hd).2⟩

end PendingBatch

/-- The endpoint and type fields an insertion or deletion record holds for its call: the names
under string mode, null names and the `c_int64` ids otherwise, and the type in the
representation it was given. -/
structure EdgeCarries (mode : Bool) (vfrom vto t : PyVal) (r : StingerEdgeUpdate) : Prop where
  sourceStr : r.sourceStr = vfrom.asName
  destinationStr : r.destinationStr = vto.asName
  source : mode = false → r.source = vfrom.asId
  destination : mode = false → r.destination = vto.asId
  etype : t.isStr = false → r.etype = t.asId
  etypeStr : t.isStr = true → r.etypeStr = t.asName

def InsertAction.Carries (a : InsertAction) (r : StingerEdgeUpdate) : Prop :=
  EdgeCarries a.mode a.vfrom a.vto a.etype r ∧ r.weight = cInt64 a.weight ∧ r.time = cInt64 a.ts

def DeleteAction.Carries (a : DeleteAction) (r : StingerEdgeUpdate) : Prop :=
  EdgeCarries a.mode a.vfrom a.vto a.etype r

/-- The fields a vertex-update record holds for its call; `set_weight` is not among them. -/
structure VertexAction.Carries (a : VertexAction) (r : StingerVertexUpdate) : Prop where
  vertexStr : r.vertexStr = a.vtx.asName
  vertex : a.mode = false → r.vertex = a.vtx.asId
  type : a.vtype.isStr = false → r.type = a.vtype.asId
  typeStr : a.vtype.isStr = true → r.typeStr = a.vtype.asName
  incrWeight : r.incrWeight = cInt64 a.incrWeight

/-- The fields an insertion or deletion leaves as the slot held them: the ids under string mode,
the id type when the type is a name and the name type when it is an id, and the two fields the
client never assigns. -/
structure EdgeKeeps (mode : Bool) (t : PyVal) (r r' : StingerEdgeUpdate) : Prop where
  source : mode = true → r'.source = r.source
  destination : mode = true → r'.destination = r.destination
  etype : t.isStr = true → r'.etype = r.etype
  etypeStr : t.isStr = false → r'.etypeStr = r.etypeStr
  result : r'.result = r.result
  metaIndex : r'.metaIndex = r.metaIndex

def InsertAction.Keeps (a : InsertAction) (r r' : StingerEdgeUpdate) : Prop :=
  EdgeKeeps a.mode a.etype r r'

/-- A deletion also leaves the weight and the time as the slot held them. -/
def DeleteAction.Keeps (a : DeleteAction) (r r' : StingerEdgeUpdate) : Prop :=
  EdgeKeeps a.mode a.etype r r' ∧ r'.weight = r.weight ∧ r'.time = r.time

/-- The fields a vertex update leaves as the slot held them, `set_weight` among them. -/
structure VertexAction.Keeps (a : VertexAction) (r r' : StingerVertexUpdate) : Prop where
  vertex : a.mode = true → r'.vertex = r.vertex
  type : a.vtype.isStr = true → r'.type = r.type
  typeStr : a.vtype.isStr = false → r'.typeStr = r.typeStr
  setWeight : r'.setWeight = r.setWeight
  metaIndex : r'.metaIndex = r.metaIndex

section FieldBlocks

variable {α : Type}

theorem setAt_bind_of_lt {q : UpdateBuffer α} (f : α → α)
    (k : Unit → EStateM PyError (UpdateBuffer α) Unit) (h : q.count < q.buffer.length) :
    (setAt f >>= k) q = k () (q.mapSlot f) := by
  simp [Bind.bind, EStateM.bind, setAt_of_lt f h]

/-- The endpoint lines, given endpoints of the mode's kind, write the names, and the ids when
not in string mode. -/
theorem setEndpoints_apply {q : UpdateBuffer StingerEdgeUpdate} (h : q.count < q.buffer.length)
    {mode : Bool} {vfrom vto : PyVal} (hfrom : vfrom.isStr = mode) (hto : vto.isStr = mode) :
    setEndpoints mode vfrom vto q = .ok () (q.mapSlot fun r =>
      { r with sourceStr := vfrom.asName, destinationStr := vto.asName,
               source := if mode then r.source else vfrom.asId,
               destination := if mode then r.destination else vto.asId }) := by
  cases vfrom <;> cases vto <;> subst hfrom <;> simp at hto <;>
    simp [setEndpoints, setAt_bind_of_lt, setAt_of_lt, h, mapSlot_mapSlot, Bind.bind,
      EStateM.bind] <;> rfl

theorem setEtype_apply {q : UpdateBuffer StingerEdgeUpdate} (h : q.count < q.buffer.length)
    (etype : PyVal) :
    setEtype etype q = .ok () (q.mapSlot fun r =>
      if etype.isStr then { r with etypeStr := etype.asName } else { r with etype := etype.asId }) := by
  cases etype <;> simp [setEtype, setAt_of_lt, h]

theorem setVertex_apply {q : UpdateBuffer StingerVertexUpdate} (h : q.count < q.buffer.length)
    {mode : Bool} {vtx : PyVal} (hvtx : vtx.isStr = mode) :
    setVertex mode vtx q = .ok () (q.mapSlot fun r =>
      { r with vertexStr := vtx.asName, vertex := if mode then r.vertex else vtx.asId }) := by
  subst hvtx
  cases vtx with
  | str n => simp [setVertex, setAt_of_lt, h]
  | int v =>
    simp [setVertex, setAt_bind_of_lt, setAt_of_lt, h, mapSlot_mapSlot, Bind.bind, EStateM.bind]
    rfl

theorem setVtype_apply {q : UpdateBuffer StingerVertexUpdate} (h : q.count < q.buffer.length)
    (vtype : PyVal) :
    setVtype vtype q = .ok () (q.mapSlot fun r =>
      if vtype.isStr then { r with typeStr := vtype.asName } else { r with type := vtype.asId }) := by
  cases vtype <;> simp [setVtype, setAt_of_lt, h]

theorem mapSlot_lt {q : UpdateBuffer α} (h : q.count < q.buffer.length) (f : α → α) :
    (q.mapSlot f).count < (q.mapSlot f).buffer.length := by
  simpa using h

theorem insertFields_carries {q : UpdateBuffer StingerEdgeUpdate} (h : q.count < q.buffer.length)
    {mode : Bool} {vfrom vto : PyVal} (hfrom : vfrom.isStr = mode) (hto : vto.isStr = mode)
    (etype : PyVal) (weight ts : Int) :
    ∃ f, insertFields mode vfrom vto etype weight ts q = .ok () (q.mapSlot f) ∧
      ∀ r, (InsertAction.mk mode vfrom vto etype weight ts).Carries (f r) ∧
        (InsertAction.mk mode vfrom vto etype weight ts).Keeps r (f r) := by
  constructor
  constructor
  · simp only [insertFields, Bind.bind, EStateM.bind, setEndpoints_apply h hfrom hto,
      setEtype_apply (mapSlot_lt h _), setAt_of_lt _ (mapSlot_lt h _), mapSlot_mapSlot]
    rfl
  intro r
  cases mode <;> cases etype <;>
    refine ⟨⟨⟨?_, ?_, ?_, ?_, ?_, ?_⟩, ?_, ?_⟩, ?_, ?_, ?_, ?_, ?_, ?_⟩ <;>
    first | rfl | exact fun _ => rfl | exact fun h => Bool.noConfusion h

theorem deleteFields_carries {q : UpdateBuffer StingerEdgeUpdate} (h : q.count < q.buffer.length)
    {mode : Bool} {vfrom vto : PyVal} (hfrom : vfrom.isStr = mode) (hto : vto.isStr = mode)
    (etype : PyVal) :
    ∃ f, deleteFields mode vfrom vto etype q = .ok () (q.mapSlot f) ∧
      ∀ r, (DeleteAction.mk mode vfrom vto etype).Carries (f r) ∧
        (DeleteAction.mk mode vfrom vto etype).Keeps r (f r) := by
  constructor
  constructor
  · simp only [deleteFields, Bind.bind, EStateM.bind, setEndpoints_apply h hfrom hto,
      setEtype_apply (mapSlot_lt h _), mapSlot_mapSlot]
    rfl
  intro r
  cases mode <;> cases etype <;>
    refine ⟨⟨?_, ?_, ?_, ?_, ?_, ?_⟩, ⟨?_, ?_, ?_, ?_, ?_, ?_⟩, ?_, ?_⟩ <;>
    first | rfl | exact fun _ => rfl | exact fun h => Bool.noConfusion h

theorem vertexFields_carries {q : UpdateBuffer StingerVertexUpdate}
    (h : q.count < q.buffer.length) {mode : Bool} {vtx : PyVal} (hvtx : vtx.isStr = mode)
    (vtype : PyVal) (weight incrWeight : Int) :
    ∃ f, vertexFields mode vtx vtype weight incrWeight q = .ok () (q.mapSlot f) ∧
      ∀ r, (VertexAction.mk mode vtx vtype weight incrWeight).Carries (f r) ∧
        (VertexAction.mk mode vtx vtype weight incrWeight).Keeps r (f r) := by
  constructor
  constructor
  · simp only [vertexFields, Bind.bind, EStateM.bind, setVertex_apply h hvtx,
      setVtype_apply (mapSlot_lt h _), setAt_of_lt _ (mapSlot_lt h _), mapSlot_mapSlot]
    rfl
  intro r
  cases mode <;> cases vtype <;>
    refine ⟨⟨?_, ?_, ?_, ?_, ?_⟩, ?_, ?_, ?_, ?_, ?_⟩ <;>
    first | rfl | exact fun _ => rfl | exact fun h => Bool.noConfusion h

end FieldBlocks

namespace StingerStream

variable {s : StingerStream}

theorem addInsert_carries (hs : s.insertions.Valid) {vfrom vto : PyVal} (etype : PyVal)
    (weight ts : Int) {insertStrings : Option Bool}
    (hfrom : vfrom.isStr = insertStrings.getD s.onlyStrings)
    (hto : vto.isStr = insertStrings.getD s.onlyStrings) :
    ∃ f, addInsert vfrom vto etype weight ts insertStrings s =
        .ok () { s with onlyStrings := insertStrings.getD s.onlyStrings
                        insertions := s.insertions.appended f true } ∧
      ∀ r, (InsertAction.mk (insertStrings.getD s.onlyStrings) vfrom vto etype weight ts).Carries
        (f r) ∧ (InsertAction.mk (insertStrings.getD s.onlyStrings) vfrom vto etype weight ts).Keeps
        r (f r) := by
  obtain ⟨hlt, hlen⟩ := grown_valid hs
  obtain ⟨f, hf, hc⟩ := insertFields_carries
    (show s.insertions.grown.count < s.insertions.grown.buffer.length by omega) hfrom hto etype weight ts
  refine ⟨f, ?_, hc⟩
  show onInsertions _ { s with onlyStrings := insertStrings.getD s.onlyStrings } = _
  exact zoom_ok _ _ _ (append_ok hs hf)

theorem addDelete_carries (hs : s.deletions.Valid) {vfrom vto : PyVal} (etype : PyVal)
    (hfrom : vfrom.isStr = s.onlyStrings) (hto : vto.isStr = s.onlyStrings) :
    ∃ f, addDelete vfrom vto etype s = .ok () { s with deletions := s.deletions.appended f true } ∧
      ∀ r, (DeleteAction.mk s.onlyStrings vfrom vto etype).Carries (f r) ∧
        (DeleteAction.mk s.onlyStrings vfrom vto etype).Keeps r (f r) := by
  obtain ⟨hlt, hlen⟩ := grown_valid hs
  obtain ⟨f, hf, hc⟩ := deleteFields_carries
    (show s.deletions.grown.count < s.deletions.grown.buffer.length by omega) hfrom hto etype
  refine ⟨f, ?_, hc⟩
  show onDeletions _ s = _
  exact zoom_ok _ _ _ (append_ok hs hf)

theorem addVertexUpdate_carries (hs : s.vertexUpdates.Valid) {vtx : PyVal} (vtype : PyVal)
    (weight incrWeight : Int) (hvtx : vtx.isStr = s.onlyStrings) :
    ∃ f, addVertexUpdate vtx vtype weight incrWeight s =
        .ok () { s with vertexUpdates := s.vertexUpdates.appended f true } ∧
      ∀ r, (VertexAction.mk s.onlyStrings vtx vtype weight incrWeight).Carries (f r) ∧
        (VertexAction.mk s.onlyStrings vtx vtype weight incrWeight).Keeps r (f r) := by
  obtain ⟨hlt, hlen⟩ := grown_valid hs
  obtain ⟨f, hf, hc⟩ := vertexFields_carries
    (show s.vertexUpdates.grown.count < s.vertexUpdates.grown.buffer.length by omega) hvtx vtype
    weight incrWeight
  refine ⟨f, ?_, hc⟩
  show onVertexUpdates _ s = _
  exact zoom_ok _ _ _ (append_ok hs hf)

end StingerStream

/-- A sequence holds a list of pending adds: it counts them, and slot `k` carries the `k`-th. -/
structure SeqHolds {α β : Type} (carries : β → α → Prop) (xs : List β) (q : UpdateBuffer α) :
    Prop where
  count_eq : q.count = xs.length
  slot : ∀ (k : Nat) (a : β), xs[k]? = some a → ∃ r, q.buffer[k]? = some r ∧ carries a r

theorem SeqHolds.append {α β : Type} [Inhabited α] {carries : β → α → Prop} {xs : List β}
    {q : UpdateBuffer α} (h : SeqHolds carries xs q) (hq : q.Valid) {a : β} {f : α → α}
    (hf : ∀ r, carries a (f r)) : SeqHolds carries (xs ++ [a]) (q.appended f true) := by
  refine ⟨by simp [appended, h.count_eq], fun k b hk => ?_⟩
  rcases Nat.lt_or_ge k xs.length with hlt | hge
  · rw [List.getElem?_append_left hlt] at hk
    rw [(appended_appended hq f true).prefix_kept hq (h.count_eq ▸ hlt)]
    exact h.slot k b hk
  · obtain rfl : k = xs.length := by
      have := (List.getElem?_eq_some_iff.mp hk).1; simp at this; omega
    simp only [List.getElem?_append_right (le_refl _), Nat.sub_self, List.getElem?_cons_zero,
      Option.some.injEq] at hk
    subst hk
    obtain ⟨r, hr⟩ := appended_slot hq f true
    exact ⟨f r, h.count_eq ▸ hr, hf r⟩

theorem SeqHolds.reset {α β : Type} {carries : β → α → Prop} (q : UpdateBuffer α) :
    SeqHolds carries [] { q with count := 0, refs := [] } :=
  ⟨rfl, fun _ _ hk => by simp at hk⟩

/-- The stream refines the pending batch: same mode, and each sequence holds its pending adds. -/
structure Holds (p : PendingBatch) (s : StingerStream) : Prop where
  valid : s.Valid
  mode : s.onlyStrings = p.onlyStrings
  insertions : SeqHolds InsertAction.Carries p.insertions s.insertions
  deletions : SeqHolds DeleteAction.Carries p.deletions s.deletions
  vertexUpdates : SeqHolds VertexAction.Carries p.vertexUpdates s.vertexUpdates

theorem init_holds (sockHandle : Int) (strings undirected : Bool) :
    Holds (PendingBatch.empty strings) (init sockHandle strings undirected) :=
  ⟨init_valid sockHandle strings undirected, rfl, .reset (init sockHandle strings undirected).insertions,
    .reset (init sockHandle strings undirected).deletions,
    .reset (init sockHandle strings undirected).vertexUpdates⟩

/-- One well-typed call keeps the refinement, and returns. -/
theorem Holds.step {p : PendingBatch} {s : StingerStream} (h : Holds p s) {c : Call}
    (hc : c.WellTyped p.onlyStrings) :
    ∃ s', c.exec s = .ok () s' ∧ Holds (p.step c) s' := by
  have hv := h.valid
  cases c with
  | addInsert vfrom vto etype weight ts insertStrings =>
    rw [← h.mode] at hc
    obtain ⟨f, he, hf⟩ := addInsert_carries hv.insertions etype weight ts hc.1 hc.2
    rw [h.mode] at hf
    exact ⟨_, he, ⟨appended_valid hv.insertions f true, hv.deletions, hv.vertexUpdates⟩,
      by simp [PendingBatch.step, h.mode], h.insertions.append hv.insertions fun r => (hf r).1, h.deletions,
      h.vertexUpdates⟩
  | addDelete vfrom vto etype =>
    rw [← h.mode] at hc
    obtain ⟨f, he, hf⟩ := addDelete_carries hv.deletions etype hc.1 hc.2
    rw [h.mode] at hf
    exact ⟨_, he, ⟨hv.insertions, appended_valid hv.deletions f true, hv.vertexUpdates⟩, h.mode,
      h.insertions, h.deletions.append hv.deletions fun r => (hf r).1, h.vertexUpdates⟩
  | addVertexUpdate vtx vtype weight incrWeight =>
    rw [← h.mode] at hc
    obtain ⟨f, he, hf⟩ := addVertexUpdate_carries hv.vertexUpdates vtype weight incrWeight hc
    rw [h.mode] at hf
    exact ⟨_, he, ⟨hv.insertions, hv.deletions, appended_valid hv.vertexUpdates f true⟩, h.mode,
      h.insertions, h.deletions, h.vertexUpdates.append hv.vertexUpdates fun r => (hf r).1⟩
  | sendBatch status =>
    exact ⟨_, rfl, reset_valid hv, h.mode, .reset _, .reset _, .reset _⟩

/-- Along a well-typed run every call returns, and the refinement holds at every state. -/
theorem Holds.run {p : PendingBatch} {s : StingerStream} (h : Holds p s) {calls : List Call}
    (hwt : WellTypedRun p.onlyStrings calls) :
    returns s calls ∧ Holds (p.run calls) (StingerClient.run s calls) := by
  induction calls generalizing p s with
  | nil => exact ⟨rfl, h⟩
  | cons c cs ih =>
    obtain ⟨s', he, h'⟩ := h.step hwt.1
    have hmode : (p.step c).onlyStrings = c.nextMode p.onlyStrings := p.step_onlyStrings c
    simpa [returns, StingerClient.run, PendingBatch.run, he] using ih h' (hmode ▸ hwt.2)

/-- On every run whose vertex arguments match the mode, every call returns, each stream sequence
counts exactly the adds made since the last `send_batch`, and each counted slot carries the
names or ids, the type and the weights of its add. -/
theorem stream_refines_pending_batch (sockHandle : Int) (strings undirected : Bool)
    (calls : List Call) (hwt : WellTypedRun strings calls) :
    returns (init sockHandle strings undirected) calls ∧
      Holds ((PendingBatch.empty strings).run calls)
        (run (init sockHandle strings undirected) calls) :=
  (init_holds sockHandle strings undirected).run hwt

theorem stream_refines_pending_batch_two_adds :
    returns (init 0 false false) [.addInsert (.int 1) (.int 2) (.int 0) 3 4 none, .sendBatch 0,
        .addVertexUpdate (.int 1) (.str "person") 0 1] ∧
      Holds ((PendingBatch.empty false).run [.addInsert (.int 1) (.int 2) (.int 0) 3 4 none,
          .sendBatch 0, .addVertexUpdate (.int 1) (.str "person") 0 1])
        (run (init 0 false false) [.addInsert (.int 1) (.int 2) (.int 0) 3 4 none, .sendBatch 0,
          .addVertexUpdate (.int 1) (.str "person") 0 1]) :=
  stream_refines_pending_batch 0 false false _ ⟨⟨rfl, rfl⟩, trivial, rfl, trivial⟩

/-- Two runs of the code: `add_vertex_update` drops its weight, and a string-mode
`add_insert` after a send leaves the ids an earlier batch wrote in its slot. -/
theorem stream_records_keep_stale_fields :
    (∃ s, addVertexUpdate (.int 7) (.int 0) 5 0 (init 0 false) = .ok () s ∧
      s.vertexUpdates.buffer[0]?.map (·.setWeight) = some 0) ∧
    (run (init 0 false) [.addInsert (.int 1) (.int 2) (.int 0) 0 0 none, .sendBatch 0,
      .addInsert (.str "a") (.str "b") (.int 0) 0 0 (some true)]).insertions.buffer[0]?.map
        (fun r => (r.sourceStr, r.source)) = some (.str "a", 1) := by
  have hv := init_valid 0 false false
  constructor
  · obtain ⟨f, he, hf⟩ := addVertexUpdate_carries hv.vertexUpdates (.int 0) 5 0
      (show (PyVal.int 7).isStr = (init 0 false).onlyStrings from rfl)
    refine ⟨_, he, ?_⟩
    have h0 := appended_getElem_count
      (show (init 0 false).vertexUpdates.count < (init 0 false).vertexUpdates.size by decide) f true
    have hr : (init 0 false).vertexUpdates.buffer[0]? = some default :=
      alloc_getElem? (by decide : 0 < 5000)
    simp only [show (init 0 false).vertexUpdates.count = 0 from rfl, hr] at h0
    simp [h0, (hf default).2.setWeight]
    rfl
  · obtain ⟨f₁, he₁, hf₁⟩ := addInsert_carries hv.insertions (.int 0) 0 0
      (show (PyVal.int 1).isStr = (none : Option Bool).getD (init 0 false).onlyStrings from rfl)
      (show (PyVal.int 2).isStr = (none : Option Bool).getD (init 0 false).onlyStrings from rfl)
    have hv₁ := Call.exec_valid hv (.addInsert (.int 1) (.int 2) (.int 0) 0 0 none)
    simp only [Call.exec, he₁, resultState_ok] at hv₁
    have hv₂ := reset_valid hv₁
    obtain ⟨f₃, he₃, hf₃⟩ := addInsert_carries hv₂.insertions (.int 0) 0 0
      (show (PyVal.str "a").isStr = (some true).getD _ from rfl)
      (show (PyVal.str "b").isStr = (some true).getD _ from rfl)
    simp only [run, Call.exec, he₁, resultState_ok, sendBatch_eq, he₃]
    rw [appended_getElem_zero rfl hv₂.insertions.size_pos]
    show Option.map _ (f₃ <$> ((init 0 false).insertions.appended f₁ true).buffer[0]?) = _
    have hr : (init 0 false).insertions.buffer[0]? = some default :=
      alloc_getElem? (by decide : 0 < 5000)
    rw [appended_getElem_zero rfl hv.insertions.size_pos, hr]
    have h₁ := hf₁ default
    have h₃ := hf₃ (f₁ default)
    simp [h₃.1.1.sourceStr, h₃.2.source rfl, h₁.1.1.source rfl]
    decide

/-- A batch whose second `add_insert` switches the mode back to ids: its first record was
written with names, and the batch is sent under the id flag. -/
theorem mixed_mode_batch_sent_under_last_mode :
    let calls := [Call.addInsert (.str "a") (.str "b") (.int 0) 0 0 (some true),
      Call.addInsert (.int 1) (.int 2) (.int 0) 0 0 (some false)]
    let s := run (init 0 true false) calls
    ((PendingBatch.empty true).run calls).insertions.map (·.mode) = [true, false] ∧
      (batchRequest s).onlyStrings = false ∧
      s.insertions.buffer[0]?.map (·.sourceStr) = some (.str "a") := by
  dsimp only
  have h := ((init_holds 0 true false).run
    (show WellTypedRun true [.addInsert (.str "a") (.str "b") (.int 0) 0 0 (some true),
      .addInsert (.int 1) (.int 2) (.int 0) 0 0 (some false)] from
      ⟨⟨rfl, rfl⟩, ⟨rfl, rfl⟩, trivial⟩)).2
  obtain ⟨r, hr, hc⟩ := h.insertions.slot 0 _ rfl
  refine ⟨rfl, ?_, ?_⟩
  · rw [batchRequest_onlyStrings]
    exact h.mode.trans rfl
  rw [hr]
  exact congrArg some hc.1.sourceStr

/-- `send_batch` passes the mode of the last call, while each pending record keeps the mode of
its own add. From a state whose pending records were all written under the current mode (a
fresh stream, or one just sent), a batch whose calls keep the mode sends every record under the
flag it was written with. A call that switches the mode, followed by adds that keep the new one,
sends everything pending before it under the other flag. -/
theorem sent_records_match_flag {p₀ : PendingBatch} {s₀ : StingerStream} (h₀ : Holds p₀ s₀)
    {batch : List Call} (hwt : WellTypedRun p₀.onlyStrings batch) :
    Holds (p₀.run batch) (run s₀ batch) ∧
      (batchRequest (run s₀ batch)).onlyStrings = (p₀.run batch).onlyStrings ∧
      (p₀.AllUnder p₀.onlyStrings → (∀ c ∈ batch, c.nextMode p₀.onlyStrings = p₀.onlyStrings) →
        (p₀.run batch).AllUnder (batchRequest (run s₀ batch)).onlyStrings) ∧
      ∀ pre c post, batch = pre ++ c :: post →
        c.nextMode (p₀.run pre).onlyStrings = !(p₀.run pre).onlyStrings →
        (∀ d ∈ post,
          d.isAdd ∧ d.nextMode (!(p₀.run pre).onlyStrings) = !(p₀.run pre).onlyStrings) →
        (p₀.run pre).Extends (p₀.run batch) ∧
          (batchRequest (run s₀ batch)).onlyStrings = !(p₀.run pre).onlyStrings := by
  have h := (h₀.run hwt).2
  have hflag : (batchRequest (run s₀ batch)).onlyStrings = (p₀.run batch).onlyStrings :=
    (batchRequest_onlyStrings _).trans h.mode
  refine ⟨h, hflag, fun hstart hkeep => ?_, fun pre c post hb hc hpost => ?_⟩
  · obtain ⟨hmode, hall⟩ := PendingBatch.run_allUnder hstart hkeep
    rwa [hflag, hmode]
  · subst hb
    rw [hflag, PendingBatch.run_append]
    exact (p₀.run pre).run_switch hc hpost

theorem sent_records_match_flag_switch :
    let p₀ := PendingBatch.empty false
    let s₀ := init 0 false false
    let batch := [Call.addInsert (.int 1) (.int 2) (.int 0) 0 0 none,
      Call.addInsert (.str "a") (.str "b") (.int 0) 0 0 (some true)]
    Holds (p₀.run batch) (run s₀ batch) ∧
      (batchRequest (run s₀ batch)).onlyStrings = (p₀.run batch).onlyStrings ∧
      (p₀.AllUnder p₀.onlyStrings → (∀ c ∈ batch, c.nextMode p₀.onlyStrings = p₀.onlyStrings) →
        (p₀.run batch).AllUnder (batchRequest (run s₀ batch)).onlyStrings) ∧
      ∀ pre c post, batch = pre ++ c :: post →
        c.nextMode (p₀.run pre).onlyStrings = !(p₀.run pre).onlyStrings →
        (∀ d ∈ post,
          d.isAdd ∧ d.nextMode (!(p₀.run pre).onlyStrings) = !(p₀.run pre).onlyStrings) →
        (p₀.run pre).Extends (p₀.run batch) ∧
          (batchRequest (run s₀ batch)).onlyStrings = !(p₀.run pre).onlyStrings :=
  sent_records_match_flag (init_holds 0 false false) ⟨⟨rfl, rfl⟩, ⟨rfl, rfl⟩, trivial⟩

/-- Whatever status `stream_send_batch` returns, `send_batch` returns normally and leaves the
stream holding an empty batch: the counts and refs lists are reset and the pending records,
still in the arrays, are no longer counted. -/
theorem send_batch_resets_whatever_status {p : PendingBatch} {s : StingerStream} (h : Holds p s)
    (streamSendBatch : BatchRequest → Int) :
    sendBatch streamSendBatch s = .ok () s.reset ∧ Holds (PendingBatch.empty p.onlyStrings) s.reset ∧
      s.reset.insertions.buffer = s.insertions.buffer ∧
      s.reset.deletions.buffer = s.deletions.buffer ∧
      s.reset.vertexUpdates.buffer = s.vertexUpdates.buffer :=
  ⟨rfl, ⟨reset_valid h.valid, h.mode, .reset _, .reset _, .reset _⟩, rfl, rfl, rfl⟩

/-- A send the transport reports as failed (-1), after one `add_insert`: `send_batch` raises
nothing, and the insertion it held is no longer counted. -/
theorem failed_send_drops_batch :
    let s := run (init 0 false false) [.addInsert (.int 1) (.int 2) (.int 0) 0 0 none]
    s.insertions.count = 1 ∧ s.reset.insertions.count = 0 ∧
      sendBatch (fun _ => -1) s = .ok () s.reset ∧
      Holds (PendingBatch.empty false) s.reset ∧
      s.reset.insertions.buffer = s.insertions.buffer ∧
      s.reset.deletions.buffer = s.deletions.buffer ∧
      s.reset.vertexUpdates.buffer = s.vertexUpdates.buffer := by
  have h := ((init_holds 0 false false).run
    (show WellTypedRun false [.addInsert (.int 1) (.int 2) (.int 0) 0 0 none] from
      ⟨⟨rfl, rfl⟩, trivial⟩)).2
  exact ⟨h.insertions.count_eq, rfl, send_batch_resets_whatever_status h fun _ => -1⟩

end StingerClient