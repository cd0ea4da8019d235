import StingerClient.Batch

/-!
# What keeps the names of a pending batch alive

A `c_char_p` field assigned through a ctypes array stores an address only; the array object
keeps a reference to the assigned `c_char_p`, and through it to the Python string, until that
field of that slot is assigned again. `ctypes.memmove` copies addresses and nothing else. So
after a doubling the names of the records already written are held only by the retired array,
and the `<seq>_refs` lists are there to keep those arrays alive until `send_batch` has handed
the batch over. This module follows those references as ghost state beside the stream: one
table per array, changed by exactly the lines that assign a `c_char_p` field, moved to `refs`
by the doubling together with the array it belongs to, and dropped by `send_batch`. On every run
whose vertex arguments match the mode, every name a pending add passed is referenced, at its
slot and field, by the current array or by an array in `refs`; the arrays the ghost retires are
exactly those of `refs`, and each table describes its own array, which holds the name's
`c_char_p` at that slot and field.
-/

namespace StingerClient

/-- The `c_char_p` fields of `StingerEdgeUpdate` and `StingerVertexUpdate`. -/
inductive StrField where
  | etypeStr
  | sourceStr
  | destinationStr
  | vertexStr
  | typeStr
  deriving DecidableEq, Repr

/-- The references one ctypes array keeps for its `c_char_p` fields: by slot and field, the
Python string of the `c_char_p` last assigned there, or nothing for an address or 0. -/
abbrev KeepTable := Nat → StrField → Option String

/-- The string `ctypes.c_char_p(v)` refers to: a name; an int is taken as an address. -/
def PyVal.keepStr : PyVal → Option String
  | .str n => some n
  | .int _ => none

/-- The keep-alive ghost of one sequence: the table of the array `<seq>`, and each array of
`<seq>_refs`, oldest first, with its table. -/
structure Keeps (α : Type) where
  current : KeepTable
  retired : List (List α × KeepTable)

namespace Keeps

variable {α : Type}

/-- A fresh ctypes array refers to nothing. -/
def fresh : Keeps α := ⟨fun _ _ => none, []⟩

/-- The doubling step: the old array goes to `refs` with its references; the new one has none,
since `memmove` copied only addresses. -/
def grow (q : UpdateBuffer α) (k : Keeps α) : Keeps α :=
  if q.count ≥ q.size then ⟨fun _ _ => none, k.retired ++ [(q.buffer, k.current)]⟩ else k

/-- One line `self.<seq>[c].<field> = x` for a `c_char_p` field. -/
def set (c : Nat) (f : StrField) (x : Option String) (k : Keeps α) : Keeps α :=
  { k with current := Function.update k.current c (Function.update (k.current c) f x) }

/-- `send_batch` empties `<seq>_refs`; the current array keeps its references. -/
def release (k : Keeps α) : Keeps α := { k with retired := [] }

/-- The stream refers to `n` at slot `j`, field `f`: through its current array or an array in
`refs`. -/
def Keep (k : Keeps α) (j : Nat) (f : StrField) (n : String) : Prop :=
  k.current j f = some n ∨ ∃ x ∈ k.retired, x.2 j f = some n

/-- `k'` is `k` with at most slot `c` of the current array reassigned. -/
def OnlySlot (c : Nat) (k k' : Keeps α) : Prop :=
  k'.retired = k.retired ∧ ∀ j, j ≠ c → k'.current j = k.current j

theorem OnlySlot.refl (c : Nat) (k : Keeps α) : OnlySlot c k k := ⟨rfl, fun _ _ => rfl⟩

theorem OnlySlot.trans {c : Nat} {k₁ k₂ k₃ : Keeps α} (h₁ : OnlySlot c k₁ k₂)
    (h₂ : OnlySlot c k₂ k₃) : OnlySlot c k₁ k₃ :=
  ⟨h₂.1.trans h₁.1, fun j hj => (h₂.2 j hj).trans (h₁.2 j hj)⟩

theorem OnlySlot.set (c : Nat) (f : StrField) (x : Option String) (k : Keeps α) :
    OnlySlot c k (k.set c f x) :=
  ⟨rfl, fun _ hj => Function.update_noteq hj _ _⟩

/-- A reference at another slot survives the lines of slot `c`. -/
theorem OnlySlot.keep {c j : Nat} {k k' : Keeps α} (h : OnlySlot c k k') (hj : j ≠ c)
    {f : StrField} {n : String} (hk : k.Keep j f n) : k'.Keep j f n := by
  unfold Keep
  rw [h.1, h.2 j hj]
  exact hk

theorem set_current_slot (c : Nat) (f g : StrField) (x : Option String) (k : Keeps α) :
    (k.set c f x).current c g = if g = f then x else k.current c g := by
  simp [set, Function.update_apply]

@[simp] theorem set_current_self (c : Nat) (f : StrField) (x : Option String) (k : Keeps α) :
    (k.set c f x).current c f = x := by
  simp [set]

theorem set_current_ne (c : Nat) {f g : StrField} (x : Option String) (k : Keeps α) (h : g ≠ f) :
    (k.set c f x).current c g = k.current c g := by
  simp [set, h]

/-- The doubling keeps every reference: the old array's move to `refs`. -/
theorem Keep.grow (q : UpdateBuffer α) {k : Keeps α} {j : Nat} {f : StrField}
    {n : String} (h : k.Keep j f n) : (k.grow q).Keep j f n := by
  unfold Keeps.grow
  split
  · rcases h with h | ⟨x, hx, h⟩
    · exact .inr ⟨(q.buffer, k.current), List.mem_append_right _ (List.mem_singleton_self _), h⟩
    · exact .inr ⟨x, List.mem_append_left _ hx, h⟩
  · exact h

/-- The ghost retires the array `UpdateBuffer.grow` appends to `<seq>_refs`. -/
theorem grow_refs [Inhabited α] (q : UpdateBuffer α) (k : Keeps α)
    (h : k.retired.map Prod.fst = q.refs) : (k.grow q).retired.map Prod.fst = q.grown.refs := by
  unfold Keeps.grow UpdateBuffer.grown
  split <;> simp [h]

end Keeps

/-- The `c_char_p` field `g` of an edge record; the vertex fields are not among its fields. -/
def StingerEdgeUpdate.strField (r : StingerEdgeUpdate) : StrField → CharP
  | .etypeStr => r.etypeStr
  | .sourceStr => r.sourceStr
  | .destinationStr => r.destinationStr
  | .vertexStr | .typeStr => .null

/-- The `c_char_p` field `g` of a vertex-update record; the edge fields are not among its
fields. -/
def StingerVertexUpdate.strField (r : StingerVertexUpdate) : StrField → CharP
  | .vertexStr => r.vertexStr
  | .typeStr => r.typeStr
  | .etypeStr | .sourceStr | .destinationStr => .null

section Describes

variable {α : Type} (field : α → StrField → CharP)

/-- Table `t` describes array `arr`: each reference it records is held by the array, at that slot
and field, as the `c_char_p` of that name. -/
def Describes (t : KeepTable) (arr : List α) : Prop :=
  ∀ j g n, t j g = some n → (arr[j]?).map (field · g) = some (.str n)

variable {field}

theorem describes_empty (arr : List α) : Describes field (fun _ _ => none) arr :=
  fun _ _ _ h => Option.noConfusion h

/-- The doubling: the old table describes the old array it is retired with, and the new table
describes the new array, having no entry. -/
theorem describes_grow [Inhabited α] {q : UpdateBuffer α} {k : Keeps α}
    (hr : ∀ x ∈ k.retired, Describes field x.2 x.1) (hc : Describes field k.current q.buffer) :
    (∀ x ∈ (k.grow q).retired, Describes field x.2 x.1) ∧
      Describes field (k.grow q).current q.grown.buffer := by
  unfold Keeps.grow UpdateBuffer.grown
  split
  · refine ⟨fun x hx => ?_, describes_empty _⟩
    rcases List.mem_append.mp hx with hx | hx
    · exact hr x hx
    · rw [List.mem_singleton.mp hx]; exact hc
  · exact ⟨hr, hc⟩

/-- The lines of slot `count` keep the table describing the array when, field by field, the
slot's new entry names what the new record holds, or entry and field are both as before. -/
theorem Describes.mapSlot {t t' : KeepTable} {q : UpdateBuffer α} (h : Describes field t q.buffer)
    (hq : q.count < q.buffer.length) (hother : ∀ j, j ≠ q.count → t' j = t j) {f : α → α}
    (hslot : ∀ r g n, t' q.count g = some n →
      field (f r) g = .str n ∨ (t q.count g = some n ∧ field (f r) g = field r g)) :
    Describes field t' (q.mapSlot f).buffer := by
  intro j g n hj
  by_cases hjc : j = q.count
  · subst hjc
    have hr := List.getElem?_eq_getElem hq
    simp only [UpdateBuffer.mapSlot, List.getElem?_modify_eq, hr, Option.map_eq_map, Option.map_some']
    rcases hslot q.buffer[q.count] g n hj with hn | ⟨ho, hn⟩
    · rw [hn]
    · have := h _ g n ho
      rw [hr, Option.map_some'] at this
      rw [hn, this]
  · rw [hother j hjc] at hj
    simp only [UpdateBuffer.mapSlot, List.getElem?_modify_ne _ _ (Ne.symm hjc)]
    exact h j g n hj

end Describes

/-! ## The lines that assign a `c_char_p` field -/

/-- A type line: `<field>_str = c_char_p(t)` when the type is a name; an int type goes to the int
field. -/
def keepTypeLine {α : Type} (f : StrField) (t : PyVal) (c : Nat) (k : Keeps α) : Keeps α :=
  match t with
  | .str n => k.set c f (some n)
  | .int _ => k

/-- The `c_char_p` lines of `add_insert` and `add_delete` at slot `c`. Under string mode both
names are assigned. Otherwise both fields are set to 0, and then the `c_int64` of a name raises,
so the type line is reached only with two ids. -/
def keepEdgeLines {α : Type} (mode : Bool) (vfrom vto etype : PyVal) (c : Nat) (k : Keeps α) :
    Keeps α :=
  if mode then
    keepTypeLine .etypeStr etype c ((k.set c .sourceStr vfrom.keepStr).set c .destinationStr
      vto.keepStr)
  else
    let k := (k.set c .sourceStr none).set c .destinationStr none
    if !vfrom.isStr && !vto.isStr then keepTypeLine .etypeStr etype c k else k

/-- The `c_char_p` lines of `add_vertex_update` at slot `c`. Outside string mode `vertex` is
assigned before `vertex_str`, so a name raises before the field is set to 0. -/
def keepVertexLines {α : Type} (mode : Bool) (vtx vtype : PyVal) (c : Nat) (k : Keeps α) :
    Keeps α :=
  if mode then keepTypeLine .typeStr vtype c (k.set c .vertexStr vtx.keepStr)
  else if vtx.isStr then k
  else keepTypeLine .typeStr vtype c (k.set c .vertexStr none)

section Lines

variable {α : Type}

theorem Keeps.OnlySlot.set_right {c : Nat} {k k' : Keeps α} (h : Keeps.OnlySlot c k k')
    (f : StrField) (x : Option String) : Keeps.OnlySlot c k (k'.set c f x) :=
  h.trans (.set c f x k')

theorem Keeps.OnlySlot.typeLine {c : Nat} {k k' : Keeps α} (h : Keeps.OnlySlot c k k')
    (f : StrField) (t : PyVal) : Keeps.OnlySlot c k (keepTypeLine f t c k') := by
  cases t
  · exact h
  · exact h.set_right f _

theorem keepEdgeLines_onlySlot (mode : Bool) (vfrom vto etype : PyVal) (c : Nat) (k : Keeps α) :
    Keeps.OnlySlot c k (keepEdgeLines mode vfrom vto etype c k) := by
  have hset : ∀ x y, Keeps.OnlySlot c k ((k.set c .sourceStr x).set c .destinationStr y) :=
    fun x y => ((Keeps.OnlySlot.refl c k).set_right _ x).set_right _ y
  unfold keepEdgeLines
  split
  · exact (hset _ _).typeLine _ _
  · dsimp only
    split
    · exact (hset _ _).typeLine _ _
    · exact hset _ _

theorem keepVertexLines_onlySlot (mode : Bool) (vtx vtype : PyVal) (c : Nat) (k : Keeps α) :
    Keeps.OnlySlot c k (keepVertexLines mode vtx vtype c k) := by
  unfold keepVertexLines
  split
  · exact ((Keeps.OnlySlot.refl c k).set_right _ _).typeLine _ _
  · split
    · exact .refl c k
    · exact ((Keeps.OnlySlot.refl c k).set_right _ _).typeLine _ _

/-- After the edge lines at slot `c`, each field of the slot refers to the name the new record
holds, or table entry and field are both as before. -/
theorem keepEdgeLines_slot {mode : Bool} {vfrom vto : PyVal} (hfrom : vfrom.isStr = mode)
    (hto : vto.isStr = mode) (etype : PyVal) (c : Nat) (k : Keeps α) {r r' : StingerEdgeUpdate}
    (hc : EdgeCarries mode vfrom vto etype r') (hk : EdgeKeeps mode etype r r') (g : StrField)
    (n : String) (h : (keepEdgeLines mode vfrom vto etype c k).current c g = some n) :
    r'.strField g = .str n ∨ (k.current c g = some n ∧ r'.strField g = r.strField g) := by
  subst hfrom
  cases vfrom <;> cases vto <;> simp at hto <;> cases etype <;> cases g <;>
    simp_all [keepEdgeLines, keepTypeLine, Keeps.set_current_slot, PyVal.keepStr,
      StingerEdgeUpdate.strField, hc.sourceStr, hc.destinationStr, hc.etypeStr, hk.etypeStr]

/-- After the vertex lines at slot `c`, each field of the slot refers to the name the new record
holds, or table entry and field are both as before. -/
theorem keepVertexLines_slot {mode : Bool} {vtx : PyVal} (hvtx : vtx.isStr = mode)
    (vtype : PyVal) (c : Nat) (k : Keeps α) {weight incrWeight : Int} {r r' : StingerVertexUpdate}
    (hc : (VertexAction.mk mode vtx vtype weight incrWeight).Carries r')
    (hk : (VertexAction.mk mode vtx vtype weight incrWeight).Keeps r r') (g : StrField)
    (n : String) (h : (keepVertexLines mode vtx vtype c k).current c g = some n) :
    r'.strField g = .str n ∨ (k.current c g = some n ∧ r'.strField g = r.strField g) := by
  subst hvtx
  have hs := hc.vertexStr
  cases vtx <;> cases vtype <;> cases g <;>
    simp_all [keepVertexLines, keepTypeLine, Keeps.set_current_slot, PyVal.keepStr,
      StingerVertexUpdate.strField, hc.typeStr, hk.typeStr]

end Lines

/-! ## The names an add passes -/

/-- The names an edge add hands to `c_char_p`, by field: the endpoints under string mode, and
the type when it is a name. -/
def edgeStrings (mode : Bool) (vfrom vto etype : PyVal) : List (StrField × String) :=
  (if mode then (vfrom.keepStr.map (.sourceStr, ·)).toList ++
    (vto.keepStr.map (.destinationStr, ·)).toList else []) ++
    (etype.keepStr.map (.etypeStr, ·)).toList

def InsertAction.strings (a : InsertAction) : List (StrField × String) :=
  edgeStrings a.mode a.vfrom a.vto a.etype

def DeleteAction.strings (a : DeleteAction) : List (StrField × String) :=
  edgeStrings a.mode a.vfrom a.vto a.etype

/-- The names a vertex update hands to `c_char_p`: the vertex under string mode, and the type
when it is a name. -/
def vertexStrings (mode : Bool) (vtx vtype : PyVal) : List (StrField × String) :=
  (if mode then (vtx.keepStr.map (.vertexStr, ·)).toList else []) ++
    (vtype.keepStr.map (.typeStr, ·)).toList

def VertexAction.strings (a : VertexAction) : List (StrField × String) :=
  vertexStrings a.mode a.vtx a.vtype

/-- An edge add whose endpoints match the mode leaves its slot referring to every name it
passed. -/
theorem keepEdgeLines_strings {α : Type} {mode : Bool} {vfrom vto : PyVal} (hfrom : vfrom.isStr = mode)
    (hto : vto.isStr = mode) (etype : PyVal) (c : Nat) (k : Keeps α) :
    ∀ x ∈ edgeStrings mode vfrom vto etype,
      (keepEdgeLines mode vfrom vto etype c k).current c x.1 = some x.2 := by
  subst hfrom
  cases vfrom <;> cases vto <;> cases etype <;> simp at hto <;>
    simp [edgeStrings, keepEdgeLines, keepTypeLine, PyVal.keepStr, Keeps.set_current_ne]

theorem keepVertexLines_strings {α : Type} {mode : Bool} {vtx : PyVal} (hvtx : vtx.isStr = mode)
    (vtype : PyVal) (c : Nat) (k : Keeps α) :
    ∀ x ∈ vertexStrings mode vtx vtype,
      (keepVertexLines mode vtx vtype c k).current c x.1 = some x.2 := by
  subst hvtx
  cases vtx <;> cases vtype <;>
    simp [vertexStrings, keepVertexLines, keepTypeLine, PyVal.keepStr,
      Keeps.set_current_ne]

/-! ## One sequence -/

open UpdateBuffer StingerStream

/-- The references of a sequence cover its pending adds. The ghost holds one retired table per
array of `refs`, with that array; each table describes its array; and every name the `j`-th add
passed is referenced at slot `j`, field by field. -/
structure SeqKept {α β : Type} (field : α → StrField → CharP)
    (strings : β → List (StrField × String)) (xs : List β) (q : UpdateBuffer α) (k : Keeps α) :
    Prop where
  refs_eq : k.retired.map Prod.fst = q.refs
  retired_describe : ∀ x ∈ k.retired, Describes field x.2 x.1
  current_describes : Describes field k.current q.buffer
  kept : ∀ (j : Nat) (a : β), xs[j]? = some a → ∀ x ∈ strings a, k.Keep j x.1 x.2

/-- An add keeps the cover: the doubling moves the old references to `refs` with the old array,
the add's lines touch its own slot only, each entry they write names what the record now holds,
and they reference every name the add passed. -/
theorem SeqKept.append {α β : Type} [Inhabited α] {field : α → StrField → CharP}
    {strings : β → List (StrField × String)} {xs : List β} {q : UpdateBuffer α} {k k' : Keeps α}
    (h : SeqKept field strings xs q k) (hq : q.Valid) (hcount : q.count = xs.length)
    (hk : Keeps.OnlySlot q.count (k.grow q) k') {a : β}
    (ha : ∀ x ∈ strings a, k'.current q.count x.1 = some x.2) {f : α → α}
    (hslot : ∀ r g n, k'.current q.count g = some n → field (f r) g = .str n ∨
      ((k.grow q).current q.count g = some n ∧ field (f r) g = field r g)) :
    SeqKept field strings (xs ++ [a]) (q.appended f true) k' where
  refs_eq := by
    rw [hk.1]
    exact Keeps.grow_refs q k h.refs_eq
  retired_describe := hk.1 ▸ (describes_grow h.retired_describe h.current_describes).1
  current_describes := by
    obtain ⟨hlt, hlen⟩ := grown_valid hq
    exact (describes_grow h.retired_describe h.current_describes).2.mapSlot
      (by rw [grown_count] at hlt ⊢; omega) (fun j hj => hk.2 j (by simpa using hj))
      (by simpa using hslot)
  kept j b hj x hx := by
    rcases Nat.lt_or_ge j xs.length with hlt | hge
    · rw [List.getElem?_append_left hlt] at hj
      exact hk.keep (by omega) ((h.kept j b hj x hx).grow q)
    · obtain rfl : j = xs.length := by
        have := (List.getElem?_eq_some_iff.mp hj).1; simp at this; omega
      simp only [List.getElem?_append_right (le_refl _), Nat.sub_self, List.getElem?_cons_zero,
        Option.some.injEq] at hj
      subst hj
      exact .inl (hcount ▸ ha x hx)

/-- After `send_batch` nothing is pending and `refs` is empty; the array keeps its records and
their references. -/
theorem SeqKept.release {α β : Type} {field : α → StrField → CharP}
    {strings : β → List (StrField × String)} {xs : List β} {q : UpdateBuffer α} {k : Keeps α}
    (h : SeqKept field strings xs q k) :
    SeqKept field strings [] { q with count := 0, refs := [] } k.release :=
  ⟨rfl, fun _ hx => by simp [Keeps.release] at hx, h.current_describes,
    fun _ _ hj => by simp at hj⟩

/-! ## The stream -/

/-- The keep-alive ghost of a stream, one per sequence. -/
structure StreamKeeps where
  insertions : Keeps StingerEdgeUpdate
  deletions : Keeps StingerEdgeUpdate
  vertexUpdates : Keeps StingerVertexUpdate

namespace StreamKeeps

def init : StreamKeeps := ⟨.fresh, .fresh, .fresh⟩

/-- What a call does to the references, read from the stream `s` it is made on: the doubling
check and the `c_char_p` lines at slot `<seq>_count`, or the release of `send_batch`. -/
def step (s : StingerStream) (k : StreamKeeps) : Call → StreamKeeps
  | .addInsert vfrom vto etype _ _ insertStrings =>
    { k with
      insertions := keepEdgeLines (insertStrings.getD s.onlyStrings) vfrom vto etype
        s.insertions.count (k.insertions.grow s.insertions) }
  | .addDelete vfrom vto etype =>
    { k with
      deletions := keepEdgeLines s.onlyStrings vfrom vto etype s.deletions.count
        (k.deletions.grow s.deletions) }
  | .addVertexUpdate vtx vtype _ _ =>
    { k with
      vertexUpdates := keepVertexLines s.onlyStrings vtx vtype s.vertexUpdates.count
        (k.vertexUpdates.grow s.vertexUpdates) }
  | .sendBatch _ => ⟨k.insertions.release, k.deletions.release, k.vertexUpdates.release⟩

/-- The references after a sequence of calls, beside `StingerClient.run`. -/
def run (s : StingerStream) (k : StreamKeeps) : List Call → StreamKeeps
  | [] => k
  | c :: cs => run (resultState (c.exec s)) (k.step s c) cs

end StreamKeeps

/-- The references of the stream cover the batch it holds, sequence by sequence. -/
structure Kept (p : PendingBatch) (s : StingerStream) (k : StreamKeeps) : Prop where
  insertions : SeqKept StingerEdgeUpdate.strField InsertAction.strings p.insertions s.insertions
    k.insertions
  deletions : SeqKept StingerEdgeUpdate.strField DeleteAction.strings p.deletions s.deletions
    k.deletions
  vertexUpdates : SeqKept StingerVertexUpdate.strField VertexAction.strings p.vertexUpdates
    s.vertexUpdates k.vertexUpdates

/-- A fresh array refers to nothing and `refs` starts empty. -/
theorem SeqKept.fresh {α β : Type} (field : α → StrField → CharP)
    (strings : β → List (StrField × String)) (q : UpdateBuffer α) (hq : q.refs = []) :
    SeqKept field strings [] q .fresh :=
  ⟨hq.symm, fun _ hx => by simp [Keeps.fresh] at hx, describes_empty _,
    fun _ _ hj => by simp at hj⟩

/-- One well-typed call keeps the cover, next to the refinement it keeps. -/
theorem Kept.step {p : PendingBatch} {s : StingerStream} {k : StreamKeeps} (hk : Kept p s k)
    (h : Holds p s) {c : Call} (hc : c.WellTyped p.onlyStrings) :
    Kept (p.step c) (resultState (c.exec s)) (k.step s c) := by
  obtain ⟨pi, pd, pv, pm⟩ := p
  obtain rfl : s.onlyStrings = pm := h.mode
  have hv := h.valid
  cases c with
  | addInsert vfrom vto etype weight ts insertStrings =>
    obtain ⟨f, he, hf⟩ := addInsert_carries hv.insertions etype weight ts hc.1 hc.2
    simp only [Call.exec, he, resultState_ok]
    refine ⟨hk.insertions.append hv.insertions h.insertions.count_eq (keepEdgeLines_onlySlot ..)
      ?_ ?_, hk.deletions, hk.vertexUpdates⟩
    · exact keepEdgeLines_strings hc.1 hc.2 _ _ _
    · exact fun r => keepEdgeLines_slot hc.1 hc.2 _ _ _ (hf r).1.1 (hf r).2
  | addDelete vfrom vto etype =>
    obtain ⟨f, he, hf⟩ := addDelete_carries hv.deletions etype hc.1 hc.2
    simp only [Call.exec, he, resultState_ok]
    refine ⟨hk.insertions, hk.deletions.append hv.deletions h.deletions.count_eq
      (keepEdgeLines_onlySlot ..) ?_ ?_, hk.vertexUpdates⟩
    · exact keepEdgeLines_strings hc.1 hc.2 _ _ _
    · exact fun r => keepEdgeLines_slot hc.1 hc.2 _ _ _ (hf r).1 (hf r).2.1
  | addVertexUpdate vtx vtype weight incrWeight =>
    obtain ⟨f, he, hf⟩ := addVertexUpdate_carries hv.vertexUpdates vtype weight incrWeight hc
    simp only [Call.exec, he, resultState_ok]
    refine ⟨hk.insertions, hk.deletions, hk.vertexUpdates.append hv.vertexUpdates
      h.vertexUpdates.count_eq (keepVertexLines_onlySlot ..) ?_ ?_⟩
    · exact keepVertexLines_strings hc _ _ _
    · exact fun r => keepVertexLines_slot hc _ _ _ (hf r).1 (hf r).2
  | sendBatch status =>
    exact ⟨hk.insertions.release, hk.deletions.release, hk.vertexUpdates.release⟩

/-- Along a well-typed run the cover holds at every state. -/
theorem Kept.run {p : PendingBatch} {s : StingerStream} {k : StreamKeeps} (hk : Kept p s k)
    (h : Holds p s) {calls : List Call} (hwt : WellTypedRun p.onlyStrings calls) :
    Kept (p.run calls) (StingerClient.run s calls) (k.run s calls) := by
  induction calls generalizing p s k with
  | nil => exact hk
  | cons c cs ih =>
    obtain ⟨s', he, h'⟩ := h.step hwt.1
    have hmode : (p.step c).onlyStrings = c.nextMode p.onlyStrings := p.step_onlyStrings c
    have hk' := hk.step h hwt.1
    rw [he, resultState_ok] at hk'
    simpa [StingerClient.run, StreamKeeps.run, PendingBatch.run, he] using
      ih hk' h' (hmode ▸ hwt.2)

end StingerClient
