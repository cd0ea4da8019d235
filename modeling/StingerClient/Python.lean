import Mathlib.Data.List.Basic
import Mathlib.Data.Int.Defs
import Mathlib.Algebra.Group.Nat.Basic
import Mathlib.Algebra.Group.Int

/-!
# Python 2 values and the ctypes conversions the bindings rely on

The bindings are Python 2 code: a `str` is a byte string that `ctypes.c_char_p` accepts, and `/`
between two ints is floor division. A Python 2 `str` is modelled as a Lean `String` whose
characters stand for its bytes, one `Char` per byte, so a length or an index counts bytes. Arguments documented as `int or str` are `PyVal`s. A method
that raises leaves behind whatever it had already assigned, so every modelled method is an
`EStateM PyError` program and an exception is `EStateM.Result.error e s` with the state `s`
reached at the raise.
-/

namespace StingerClient

/-- A Python argument documented as "int or str". -/
inductive PyVal where
  | int (v : Int)
  | str (s : String)
  deriving DecidableEq, Repr

/-- `isinstance(x, str)`. -/
def PyVal.isStr : PyVal → Bool
  | .str _ => true
  | .int _ => false

/-- The exceptions the modelled code raises. `memoryFault` stands for a `ctypes.memmove` that
reads or writes past one of its buffers, which C leaves undefined. -/
inductive PyError where
  | typeError
  | indexError
  | valueError
  | attributeError
  | memoryFault
  deriving DecidableEq, Repr

/-- The value of a `c_char_p` field or variable: null, a raw address, or the bytes of a Python
string it points to. -/
inductive CharP where
  | null
  | addr (a : Int)
  | str (s : String)
  deriving DecidableEq, Repr

/-- `ctypes.c_int64(v)` on a Python int: the value wrapped to a signed 64-bit integer. -/
def cInt64 (v : Int) : Int := v.bmod (2 ^ 64)

/-- The result of a library function whose `restype` is left at ctypes' default `c_int`: the low
32 bits of the C return value, as a signed int. -/
def cInt (v : Int) : Int := v.bmod (2 ^ 32)

/-- The bytes before the first NUL: what `c_char_p.value` returns, and what a C function reads
from a `char *` it is given without a length. -/
def cString (s : String) : String := ⟨s.toList.takeWhile (· ≠ '\x00')⟩

/-- `ctypes.c_int64(x)` on an `int or str` argument: a `str` raises `TypeError`. -/
def pyInt64 {σ : Type} : PyVal → EStateM PyError σ Int
  | .int v => pure (cInt64 v)
  | .str _ => throw .typeError

/-- `ctypes.c_char_p(x)`: a string is pointed to, `0` is null, any other int is an address. -/
def cCharP : PyVal → CharP
  | .str s => .str s
  | .int v => if v = 0 then .null else .addr v

/-- The state a call leaves behind, whether it returned or raised. -/
def resultState {ε σ α : Type} : EStateM.Result ε σ α → σ
  | .ok _ s => s
  | .error _ s => s

@[simp] theorem resultState_ok {ε σ α : Type} (a : α) (s : σ) :
    resultState (EStateM.Result.ok a s : EStateM.Result ε σ α) = s := rfl

@[simp] theorem resultState_error {ε σ α : Type} (e : ε) (s : σ) :
    resultState (EStateM.Result.error e s : EStateM.Result ε σ α) = s := rfl

/-- The outcome of a call that raises nothing but a `TypeError`: it returned, or it raised one. -/
def pyResult {σ : Type} (returned : Bool) (s : σ) : EStateM.Result PyError σ Unit :=
  if returned then .ok () s else .error .typeError s

@[simp] theorem resultState_pyResult {σ : Type} (returned : Bool) (s : σ) :
    resultState (pyResult returned s) = s := by
  cases returned <;> rfl

/-- Run a program on one part of the state and keep the part it leaves behind, whether it
returns or raises: the methods below assign attributes of `self` one sequence at a time. -/
def zoom {ε σ τ α : Type} (view : σ → τ) (update : σ → τ → σ) (m : EStateM ε τ α) :
    EStateM ε σ α := fun s =>
  match m (view s) with
  | .ok a t => .ok a (update s t)
  | .error e t => .error e (update s t)

theorem zoom_pyResult {σ τ : Type} (view : σ → τ) (update : σ → τ → σ)
    {m : EStateM PyError τ Unit} (s : σ) {returned : Bool} {t : τ}
    (h : m (view s) = pyResult returned t) :
    zoom view update m s = pyResult returned (update s t) := by
  unfold zoom; rw [h]; cases returned <;> rfl

theorem zoom_ok {ε σ τ : Type} (view : σ → τ) (update : σ → τ → σ) {m : EStateM ε τ Unit}
    (s : σ) {t : τ} (h : m (view s) = .ok () t) : zoom view update m s = .ok () (update s t) := by
  unfold zoom; rw [h]

/-- A value already inside the signed 64-bit range is stored unchanged. -/
theorem cInt64_of_range {v : Int} (lo : -2 ^ 63 ≤ v) (hi : v < 2 ^ 63) : cInt64 v = v := by
  have : ((2 ^ 64 : Nat) : Int) = 18446744073709551616 := rfl
  simp only [cInt64, Int.bmod_def, this]
  split <;> omega

theorem cInt_of_range {v : Int} (lo : -2 ^ 31 ≤ v) (hi : v < 2 ^ 31) : cInt v = v := by
  have : ((2 ^ 32 : Nat) : Int) = 4294967296 := rfl
  simp only [cInt, Int.bmod_def, this]
  split <;> omega

/-- A string with no NUL byte is read whole. -/
theorem cString_of_not_mem {s : String} (h : '\x00' ∉ s.toList) : cString s = s := by
  have : s.toList.takeWhile (· ≠ '\x00') = s.toList :=
    List.takeWhile_eq_self_iff.mpr fun c hc => by simpa using ne_of_mem_of_not_mem hc h
  simp only [cString, this]; rfl

@[simp] theorem pyInt64_int {σ : Type} (v : Int) (s : σ) :
    (pyInt64 (.int v) : EStateM PyError σ Int) s = .ok (cInt64 v) s := rfl

@[simp] theorem pyInt64_str {σ : Type} (n : String) (s : σ) :
    (pyInt64 (.str n) : EStateM PyError σ Int) s = .error .typeError s := rfl

@[simp] theorem cCharP_str (n : String) : cCharP (.str n) = .str n := rfl

/-- Python's `list.index`: the position of the first occurrence, `ValueError` when absent. -/
def pyIndex (xs : List String) (x : String) : Except PyError Nat :=
  match xs with
  | [] => .error .valueError
  | y :: ys => if y = x then .ok 0 else (pyIndex ys x).map (· + 1)

/-- The whitespace set of Python 2's `str.split()`. -/
def isPySpace (c : Char) : Bool :=
  c = ' ' || c = '\t' || c = '\n' || c = '\r' || c = '\x0b' || c = '\x0c'

/-- Scan for `str.split()`: `acc` holds the current word, reversed. -/
def splitWords : List Char → List Char → List String
  | [], acc => if acc.isEmpty then [] else [String.mk acc.reverse]
  | c :: cs, acc =>
    if isPySpace c then
      if acc.isEmpty then splitWords cs [] else String.mk acc.reverse :: splitWords cs []
    else splitWords cs (c :: acc)

/-- `s.split()`: the maximal runs of non-whitespace characters, in order. -/
def pySplit (s : String) : List String := splitWords s.toList []

example : pySplit " dfi  x y\tz " = ["dfi", "x", "y", "z"] := by decide

/-- `list.index` finds `List.indexOf` exactly when the element is present. -/
theorem pyIndex_eq (xs : List String) (x : String) :
    pyIndex xs x = if x ∈ xs then .ok (xs.indexOf x) else .error .valueError := by
  induction xs with
  | nil => rfl
  | cons y ys ih =>
    by_cases hy : y = x
    · simp [pyIndex, hy, List.indexOf_cons_self]
    · by_cases hx : x ∈ ys <;>
        simp [pyIndex, hy, ih, hx, List.indexOf_cons_ne _ hy, Except.map, Ne.symm hy]

end StingerClient
