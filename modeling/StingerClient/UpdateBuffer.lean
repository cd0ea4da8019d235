import StingerClient.Python

/-!
# The growable ctypes arrays behind a `StingerStream`

Each of the stream's three sequences is four attributes of the Python object: `<seq>_size`, the
ctypes array `<seq>`, the list `<seq>_refs` of retired arrays, and `<seq>_count`. Every `add_*`
opens with the same doubling step, then assigns the fields of slot `<seq>_count` one line at a
time, and ends with `<seq>_count += 1`.
-/

namespace StingerClient

/-- One growable sequence: `<seq>_size`, `<seq>`, `<seq>_refs` and `<seq>_count`. -/
structure UpdateBuffer (α : Type) where
  size : Nat
  buffer : List α
  refs : List (List α)
  count : Nat
  deriving DecidableEq, Repr

namespace UpdateBuffer

variable {α : Type}

/-- `(T * n)()`: a zero-initialised ctypes array of `n` records. -/
def alloc [Inhabited α] (n : Nat) : List α := List.replicate n default

theorem alloc_getElem? [Inhabited α] {n k : Nat} (h : k < n) :
    (alloc n : List α)[k]? = some default := by
  simp [alloc, h]

/-- `ctypes.memmove(dst, src, ctypes.sizeof(T * n))` between two arrays of `T`: the first `n`
records of `src` over those of `dst`, or `none` when `n` runs past either array. -/
def memmove (dst src : List α) (n : Nat) : Option (List α) :=
  if n ≤ src.length ∧ n ≤ dst.length then some (src.take n ++ dst.drop n) else none

/-- The doubling step that opens every `add_*`. The size is doubled and the old array retired
before the copy, whose length `size / 2` is Python 2 floor division. -/
def grow [Inhabited α] : EStateM PyError (UpdateBuffer α) Unit := fun q =>
  if q.count ≥ q.size then
    let size := q.size * 2
    let tmp : List α := alloc size
    let refs := q.refs ++ [q.buffer]
    match memmove tmp q.buffer (size / 2) with
    | some buffer => .ok () { q with size, refs, buffer }
    | none => .error .memoryFault { q with size, refs }
  else .ok () q

/-- One line `self.<seq>[self.<seq>_count].<field> = v` with `v` already evaluated: the record at
the count is rewritten by `f`, and a count past the array raises `IndexError`. -/
def setAt (f : α → α) : EStateM PyError (UpdateBuffer α) Unit := fun q =>
  if q.count < q.buffer.length then .ok () { q with buffer := q.buffer.modify f q.count }
  else .error .indexError q

/-- `self.<seq>_count += 1`. -/
def incrCount : EStateM PyError (UpdateBuffer α) Unit :=
  modify fun q => { q with count := q.count + 1 }

/-- The sequence with slot `count` rewritten by `f`. -/
def mapSlot (q : UpdateBuffer α) (f : α → α) : UpdateBuffer α :=
  { q with buffer := q.buffer.modify f q.count }

/-- What the doubling step leaves on a well-formed sequence: when full, twice the size, the old
records followed by `size` zero records, and the old array kept in `refs`. -/
def grown [Inhabited α] (q : UpdateBuffer α) : UpdateBuffer α :=
  if q.count ≥ q.size then
    { q with size := q.size * 2, buffer := q.buffer ++ alloc q.size, refs := q.refs ++ [q.buffer] }
  else q

/-- The invariant of every reachable sequence. -/
structure Valid (q : UpdateBuffer α) : Prop where
  count_le : q.count ≤ q.size
  length_eq : q.buffer.length = q.size
  size_pos : 0 < q.size

@[simp] theorem mapSlot_size (q : UpdateBuffer α) (f : α → α) : (q.mapSlot f).size = q.size := rfl
@[simp] theorem mapSlot_refs (q : UpdateBuffer α) (f : α → α) : (q.mapSlot f).refs = q.refs := rfl
@[simp] theorem mapSlot_count (q : UpdateBuffer α) (f : α → α) :
    (q.mapSlot f).count = q.count := rfl
@[simp] theorem mapSlot_length (q : UpdateBuffer α) (f : α → α) :
    (q.mapSlot f).buffer.length = q.buffer.length := by simp [mapSlot]

theorem mapSlot_mapSlot (q : UpdateBuffer α) (f g : α → α) :
    (q.mapSlot f).mapSlot g = q.mapSlot (g ∘ f) := by
  simp [mapSlot, List.modify_modify_eq]

@[simp] theorem mapSlot_id (q : UpdateBuffer α) : q.mapSlot id = q := by
  simp [mapSlot]

theorem setAt_of_lt {q : UpdateBuffer α} (f : α → α) (h : q.count < q.buffer.length) :
    setAt f q = .ok () (q.mapSlot f) := by
  simp [setAt, mapSlot, h]

theorem grow_of_valid [Inhabited α] {q : UpdateBuffer α} (hq : q.Valid) :
    grow q = .ok () q.grown := by
  unfold grow grown
  split
  · have hlen := hq.length_eq
    have hhalf : q.size * 2 / 2 = q.size := by omega
    have hmove : memmove (alloc (q.size * 2) : List α) q.buffer (q.size * 2 / 2) =
        some (q.buffer ++ alloc q.size) := by
      rw [hhalf, memmove, if_pos (by simp [alloc, hlen]; omega)]
      simp [alloc, List.take_of_length_le hlen.le, show q.size * 2 - q.size = q.size by omega]
    simp only [hmove]
  · rfl

@[simp] theorem grown_count [Inhabited α] (q : UpdateBuffer α) : q.grown.count = q.count := by
  unfold grown; split <;> rfl

theorem grown_valid [Inhabited α] {q : UpdateBuffer α} (hq : q.Valid) :
    q.grown.count < q.grown.size ∧ q.grown.buffer.length = q.grown.size := by
  have := hq.length_eq
  have := hq.size_pos
  have := hq.count_le
  unfold grown
  split <;> simp [alloc, *] <;> omega

/-- The doubling keeps every slot below the old size and adds only zero records above it. -/
theorem grown_buffer [Inhabited α] (q : UpdateBuffer α) :
    q.grown.buffer = q.buffer ++ if q.count ≥ q.size then alloc q.size else [] := by
  unfold grown; split <;> simp [*]

/-- A block of slot lines: started with slot `count` inside the array, it rewrites that slot
and nothing else, and the only exception it raises is a `TypeError` from an argument. -/
def SlotProgram (m : EStateM PyError (UpdateBuffer α) Unit) : Prop :=
  ∀ q : UpdateBuffer α, q.count < q.buffer.length →
    ∃ f, m q = .ok () (q.mapSlot f) ∨ m q = .error .typeError (q.mapSlot f)

namespace SlotProgram

theorem setAt (f : α → α) : SlotProgram (UpdateBuffer.setAt f) :=
  fun _ h => ⟨f, .inl (setAt_of_lt f h)⟩

theorem bind {m : EStateM PyError (UpdateBuffer α) Unit}
    {k : Unit → EStateM PyError (UpdateBuffer α) Unit}
    (hm : SlotProgram m) (hk : ∀ u, SlotProgram (k u)) : SlotProgram (m >>= k) := by
  intro q hq
  obtain ⟨f, hf | hf⟩ := hm q hq
  · obtain ⟨g, hg | hg⟩ := hk () (q.mapSlot f) (by simpa using hq) <;>
      refine ⟨g ∘ f, ?_⟩ <;> simp [Bind.bind, EStateM.bind, hf, hg, mapSlot_mapSlot]
  · exact ⟨f, .inr (by simp [Bind.bind, EStateM.bind, hf])⟩

/-- A line whose right-hand side converts an argument with `ctypes.c_int64`. -/
theorem pyInt64_bind (x : PyVal) {k : Int → EStateM PyError (UpdateBuffer α) Unit}
    (hk : ∀ v, SlotProgram (k v)) : SlotProgram (pyInt64 x >>= k) := by
  intro q hq
  cases x with
  | int v => simpa [Bind.bind, EStateM.bind] using hk (cInt64 v) q hq
  | str n => exact ⟨id, .inr (by simp [Bind.bind, EStateM.bind])⟩

end SlotProgram

/-- The sequence an `add_*` leaves: grown, slot `count` rewritten by `f`, and the record counted
when the call returned. -/
def appended [Inhabited α] (q : UpdateBuffer α) (f : α → α) (returned : Bool) : UpdateBuffer α :=
  { q.grown.mapSlot f with count := q.count + returned.toNat }

theorem appended_false [Inhabited α] (q : UpdateBuffer α) (f : α → α) :
    q.appended f false = q.grown.mapSlot f := by
  rw [appended, Bool.toNat_false, Nat.add_zero, ← grown_count q]; rfl

/-- On a valid sequence, an `add_*` that grows, runs its slot lines and counts the record
raises nothing but a `TypeError` of its lines, and leaves the grown sequence rewritten at slot
`count` only, counted exactly when the lines returned. -/
theorem append_spec [Inhabited α] {q : UpdateBuffer α} (hq : q.Valid)
    {body : EStateM PyError (UpdateBuffer α) Unit} (hb : SlotProgram body) :
    ∃ f returned, (do grow; body; incrCount) q = pyResult returned (q.appended f returned) := by
  obtain ⟨hlt, hlen⟩ := grown_valid hq
  obtain ⟨f, hf | hf⟩ := hb q.grown (by omega)
  · refine ⟨f, true, ?_⟩
    simp [Bind.bind, EStateM.bind, grow_of_valid hq, hf, incrCount, modify, modifyGet,
      MonadStateOf.modifyGet, EStateM.modifyGet, appended, pyResult]
  · refine ⟨f, false, ?_⟩
    simp [Bind.bind, EStateM.bind, grow_of_valid hq, hf, appended_false, pyResult]

theorem append_ok [Inhabited α] {q : UpdateBuffer α} (hq : q.Valid)
    {body : EStateM PyError (UpdateBuffer α) Unit} {f : α → α}
    (hb : body q.grown = .ok () (q.grown.mapSlot f)) :
    (do grow; body; incrCount) q = .ok () (q.appended f true) := by
  simp [Bind.bind, EStateM.bind, grow_of_valid hq, hb, incrCount, modify, modifyGet,
    MonadStateOf.modifyGet, EStateM.modifyGet, appended]

end UpdateBuffer

end StingerClient
