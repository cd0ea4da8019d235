import StingerClient.Python

/-!
# `StingerDataArray`: typed views into an algorithm's per-vertex blob

A data description is a first token of one-character type tags followed by the field names. The
view of a field starts at the blob pointer plus `nv` times the widths of the tags before the
field, and is a ctypes pointer to the element type of the field's own tag. The vertex count comes
from `stinger_alg_max_vertices` and a name index from `get_mapping`; both belong to the engine
and are parameters here. Memory is a byte map over 64-bit addresses, read and written a whole
element at a time; `p[i]` on a ctypes pointer converts `i` to a `Py_ssize_t` and adds `i * sizeof`
to the pointer, both wrapping at 64 bits.
-/

namespace StingerClient

/-- The bytes of the process, by address. Pointers are 64-bit: an access takes its address
modulo `2 ^ 64`, so only `[0, 2 ^ 64)` is ever read or written. -/
abbrev Mem := Int → UInt8

namespace Mem

/-- Address `x` is one of the `w` bytes from `addr` on, counted modulo `2 ^ 64`. -/
def Covers (addr : Int) (w : Nat) (x : Int) : Prop :=
  0 ≤ x ∧ x < 2 ^ 64 ∧ (x - addr) % 2 ^ 64 < w

instance (addr : Int) (w : Nat) (x : Int) : Decidable (Covers addr w x) :=
  inferInstanceAs (Decidable (_ ∧ _ ∧ _))

/-- The `w` bytes from `addr` on. -/
def load (m : Mem) (addr : Int) (w : Nat) : List UInt8 :=
  (List.range w).map fun j : Nat => m ((addr + j) % 2 ^ 64)

/-- The `w` bytes from `addr` on set to `bytes 0, ..., bytes (w - 1)`. -/
def store (m : Mem) (addr : Int) (w : Nat) (bytes : Nat → UInt8) : Mem := fun x =>
  if Covers addr w x then bytes ((x - addr) % 2 ^ 64).toNat else m x

theorem store_apply_of_not_covers {m : Mem} {addr x : Int} {w : Nat} {bytes : Nat → UInt8}
    (h : ¬ Covers addr w x) : m.store addr w bytes x = m x := by
  simp [store, h]

theorem store_apply_of_covers {m : Mem} {addr x : Int} {w : Nat} {bytes : Nat → UInt8}
    (h : Covers addr w x) : m.store addr w bytes x = bytes ((x - addr) % 2 ^ 64).toNat := by
  simp [store, h]

/-- What a load sees after a store, byte by byte. -/
theorem load_store (m : Mem) (addr' : Int) (w' : Nat) (bytes : Nat → UInt8) (addr : Int)
    (w : Nat) : (m.store addr' w' bytes).load addr w = (List.range w).map fun j : Nat =>
      if Covers addr' w' ((addr + j) % 2 ^ 64)
      then bytes (((addr + j) % 2 ^ 64 - addr') % 2 ^ 64).toNat else m ((addr + j) % 2 ^ 64) :=
  rfl

end Mem

/-- The element types a view is cast to. -/
inductive CType where
  | cDouble
  | cFloat
  | cInt64
  | cInt32
  | cInt8
  deriving DecidableEq, Repr

/-- `ctypes.sizeof` of the element type. -/
def CType.sizeof : CType → Nat
  | .cDouble => 8
  | .cFloat => 4
  | .cInt64 => 8
  | .cInt32 => 4
  | .cInt8 => 1

/-- The width the offset sum gives a tag: 8 for `d` and `l`, 4 for `f` and `i`, 1 otherwise. -/
def tagWidth (c : Char) : Nat :=
  if c = 'd' ∨ c = 'l' then 8 else if c = 'f' ∨ c = 'i' then 4 else 1

/-- The cast `__init__` chooses for the field's tag; any tag but `d`, `f`, `l`, `i` is cast to
`c_int8`. -/
def castType (c : Char) : CType :=
  if c = 'd' then .cDouble
  else if c = 'f' then .cFloat
  else if c = 'l' then .cInt64
  else if c = 'i' then .cInt32
  else .cInt8

/-- The `data_ptr` argument: a Python int, a `c_void_p` whose `.value` is `None` when null, or
`None` itself, as a null `c_void_p` field of a ctypes structure reads. -/
inductive DataPtr where
  | int (a : Int)
  | voidP (value : Option Int)
  | none
  deriving DecidableEq, Repr

/-- `data_ptr if isinstance(data_ptr, int) else data_ptr.value`. -/
def DataPtr.value : DataPtr → Except PyError (Option Int)
  | .int a => .ok (some a)
  | .voidP v => .ok v
  | .none => .error .attributeError

structure StingerDataArray where
  fieldName : String
  dataType : Char
  nv : Nat
  /-- The int `data_ptr + offset * nv` that `ctypes.cast` makes the typed pointer `self.data`;
  the pointer holds it modulo `2 ^ 64`. -/
  data : Int
  ctype : CType
  deriving DecidableEq, Repr

namespace StingerDataArray

/-- The widths of the first `k` tags added up from 0: the reduce of `__init__`. -/
def offset (tags : List Char) (k : Nat) : Nat := ((tags.take k).map tagWidth).foldl (· + ·) 0

/-- `StingerDataArray.__init__`, with `nv` as `stinger_alg_max_vertices` returns it. -/
def init (dataPtr : DataPtr) (dataDesc fieldName : String) (nv : Nat) :
    Except PyError StingerDataArray := do
  let desc := pySplit dataDesc
  let ptr ← dataPtr.value
  let fieldIndex ← pyIndex (desc.drop 1) fieldName
  let some tags := desc.head? | throw .indexError
  let some dataType := tags.toList[fieldIndex]? | throw .indexError
  let offset := offset tags.toList fieldIndex
  let some ptr := ptr | throw .typeError
  pure { fieldName, dataType, nv, data := ptr + offset * nv, ctype := castType dataType }

/-- The index an `int or str` argument resolves to. -/
def resolve (getMapping : String → Int) : PyVal → Int
  | .str n => getMapping n
  | .int i => i

/-- Where `p[i]` finds element `i` of the view: the pointer is `data` modulo `2 ^ 64`, and the
offset `i * sizeof` is added at 64 bits. -/
def elemAddr (a : StingerDataArray) (i : Int) : Int := (a.data + i * a.ctype.sizeof) % 2 ^ 64

/-- `p[i]` on the view: an index that does not fit a `Py_ssize_t` raises `IndexError`, then a
NULL pointer raises `ValueError`, and otherwise element `i` is at `elemAddr`. -/
def itemAddr (a : StingerDataArray) (i : Int) : Except PyError Int :=
  if i < -2 ^ 63 ∨ 2 ^ 63 ≤ i then .error .indexError
  else if a.data % 2 ^ 64 = 0 then .error .valueError
  else .ok (a.elemAddr i)

/-- `__getitem__`: the bytes of element `i`, or `none` for the int 0 a negative index gets. -/
def getItem (a : StingerDataArray) (getMapping : String → Int) (m : Mem) (i : PyVal) :
    Except PyError (Option (List UInt8)) :=
  let i := resolve getMapping i
  if i ≥ 0 then (fun addr => some (m.load addr a.ctype.sizeof)) <$> a.itemAddr i else .ok none

/-- `__setitem__`, with `k` given as the bytes ctypes converts it to; the flag says whether `k`
or the int 0 is returned. A raise leaves memory as it was. -/
def setItem (a : StingerDataArray) (getMapping : String → Int) (m : Mem) (i : PyVal)
    (k : Nat → UInt8) : Except PyError (Mem × Bool) :=
  let i := resolve getMapping i
  if i ≥ 0 then (fun addr => (m.store addr a.ctype.sizeof k, true)) <$> a.itemAddr i
  else .ok (m, false)

end StingerDataArray

end StingerClient
