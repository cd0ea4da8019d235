import Mathlib.Algebra.Order.BigOperators.Group.List
import Mathlib.Algebra.Order.Ring.Nat
import StingerClient.DataArray

/-!
# Who frees an engine: the lifecycle of `Stinger` objects

`Stinger.__init__` either takes a fresh engine (from `stinger_new`, or from
`stinger_open_from_file` when a filename is given) and sets `self.free`, or wraps an address it
is handed and does not. `__del__` hands an owned engine to `stinger_free_all` and stores the NULL
that function returns back into `self.s`. The heap model below keeps the engines the process has
allocated and not freed; `stinger_free_all` on any other address (a second free, or a free of an
engine the server owns) is recorded as a bad free. On every interleaving of constructions and
`__del__` calls, explicit or by the collector and on any object any number of times, there is
none, every live engine has exactly one owner, and once every object has been deleted no engine
is left.

The callers in `stinger_net.py` reach the constructor with what they read from a ctypes
structure or from the library: `StingerAlg.stinger()` and `StingerRegisteredAlg.get_alg_data`
pass the `stinger` field (so a NULL field silently gives a fresh, empty engine), and
`StingerMon.stinger()` passes a `c_void_p` object, which the constructor can only refuse.
-/

namespace StingerClient

/-- The allocator behind `stinger_new` and `stinger_open_from_file`, as the wrapper relies on it:
a new engine sits at a non-null address that no live engine has. The address of a freed engine
may come back. -/
structure Allocator where
  pick : List Nat → Nat
  fresh : ∀ live, pick live ∉ live
  nonnull : ∀ live, pick live ≠ 0

/-- An allocator to run the model with: one past the sum of the live addresses. -/
def Allocator.bump : Allocator where
  pick live := live.sum + 1
  fresh live h := Nat.not_succ_le_self live.sum (List.le_sum_of_mem h)
  nonnull live := Nat.succ_ne_zero live.sum

/-- The `s` argument of `Stinger(s=...)`: `None`, a Python int, a `ctypes.c_void_p` object, or a
`Stinger` object as the docstring's type suggests. -/
inductive EngineArg where
  | none
  | int (a : Int)
  | voidP (value : Option Nat)
  | wrapper
  deriving DecidableEq, Repr

/-- `ctypes.c_void_p(a)` for a Python int: the address modulo 2^64, which reads back as `None`
when it is 0. -/
def voidPOfInt (a : Int) : Option Nat :=
  if (a % 2 ^ 64).toNat = 0 then none else some (a % 2 ^ 64).toNat

/-- A `Stinger` object: the engine `self.s` points at (`none` for NULL or `None`), and
`self.free`. -/
structure StingerObj where
  s : Option Nat
  free : Bool
  deriving DecidableEq, Repr

/-- The engines of the process: those allocated and not yet freed, the `Stinger` objects by
creation order, and the addresses `stinger_free_all` was handed while no live engine had them. -/
structure Heap where
  live : List Nat
  objects : List StingerObj
  badFrees : List Nat
  deriving DecidableEq, Repr

namespace Heap

def empty : Heap := ⟨[], [], []⟩

/-- A new object joins the others. -/
def add (h : Heap) (o : StingerObj) : Heap := { h with objects := h.objects ++ [o] }

/-- `stinger_new()`, and `stinger_open_from_file` when it opens: a fresh engine. -/
def stingerNew (alloc : Allocator) (h : Heap) : Nat × Heap :=
  (alloc.pick h.live, { h with live := h.live ++ [alloc.pick h.live] })

/-- `stinger_free_all(S)`: a live engine is freed; NULL is left alone; any other address is a
free of memory the library does not hold. The function returns NULL. -/
def stingerFreeAll (p : Option Nat) (h : Heap) : Heap :=
  match p with
  | none => h
  | some a => if a ∈ h.live then { h with live := h.live.erase a }
    else { h with badFrees := h.badFrees ++ [a] }

/-- Object `i` owns engine `a`: its `self.free` is set and `self.s` points at `a`. -/
def Owns (h : Heap) (i a : Nat) : Prop :=
  ∃ o, h.objects[i]? = some o ∧ o.free = true ∧ o.s = some a

end Heap

namespace StingerObj

/-- `Stinger(s, filename)`, returning the new object's index. With a filename,
`stinger_open_from_file` fills `self.s` when `opened` and leaves the `c_void_p(0)` it was given
otherwise; the object owns what it got either way. Without one, `s is None` takes a fresh engine
from `stinger_new`, and any other `s` goes through `ctypes.c_void_p`, which takes an int only;
the object then borrows. -/
def init (alloc : Allocator) (s : EngineArg) (filename : Option Bool) :
    EStateM PyError Heap Nat := fun h =>
  match filename, s with
  | some true, _ | none, .none =>
    .ok h.objects.length ((h.stingerNew alloc).2.add ⟨some (h.stingerNew alloc).1, true⟩)
  | some false, _ => .ok h.objects.length (h.add ⟨none, true⟩)
  | none, .int a => .ok h.objects.length (h.add ⟨voidPOfInt a, false⟩)
  | none, .voidP _ | none, .wrapper => .error .typeError h

/-- `__del__` of the `i`-th object: an owner hands `self.s` to `stinger_free_all` and keeps the
NULL it returns, which `restype = c_void_p` reads as `None`. -/
def del (i : Nat) (h : Heap) : Heap :=
  match h.objects[i]? with
  | some o =>
    if o.free then { h.stingerFreeAll o.s with objects := h.objects.set i { o with s := none } }
    else h
  | none => h

end StingerObj

/-- What the rest of the program does to `Stinger` objects: build one, or delete one. -/
inductive LifeOp where
  | init (s : EngineArg) (filename : Option Bool)
  | del (i : Nat)
  deriving DecidableEq, Repr

def LifeOp.exec (alloc : Allocator) (h : Heap) : LifeOp → Heap
  | .init s filename => resultState (StingerObj.init alloc s filename h)
  | .del i => StingerObj.del i h

/-- The heap after a sequence of operations. -/
def lifeRun (alloc : Allocator) (h : Heap) : List LifeOp → Heap
  | [] => h
  | op :: ops => lifeRun alloc (op.exec alloc h) ops

/-! ## The callers -/

/-- A `c_void_p` field of a ctypes structure as Python reads it: an int, or `None` when NULL. -/
def fieldArg : Option Nat → EngineArg
  | none => .none
  | some a => .int a

/-- `StingerAlg.stinger()`: `Stinger(s=self.alg.stinger)`, on the graph field of the registered
algorithm. -/
def StingerAlg.stinger (alloc : Allocator) (graph : Option Nat) : EStateM PyError Heap Nat :=
  StingerObj.init alloc (fieldArg graph) none

/-- `StingerRegisteredAlg.get_alg_data(name, desc)`: its arguments are evaluated first, the
`Stinger(s=self.stinger)` among them, then the data array is built over the `alg_data` field;
`nv` is what `stinger_alg_max_vertices` answers. -/
def StingerRegisteredAlg.getAlgData (alloc : Allocator) (algData graph : Option Nat)
    (name desc : String) (nv : Nat) : EStateM PyError Heap (StingerDataArray × Nat) := do
  let s ← StingerObj.init alloc (fieldArg graph) none
  let dataPtr : DataPtr := match algData with
    | none => .none
    | some a => .int a
  match StingerDataArray.init dataPtr desc name nv with
  | .ok a => pure (a, s)
  | .error e => throw e

/-- `StingerAlgState(alg, stinger)`: the algorithm state pointer and the `Stinger` object. -/
structure StingerAlgState where
  alg : Option Nat
  s : Nat
  deriving DecidableEq, Repr

/-- `StingerMon.stinger()`: what `stinger_mon_get_stinger` answers is wrapped in a `c_void_p`
object before it reaches `Stinger(s=...)`. -/
def StingerMon.stinger (alloc : Allocator) (answer : Option Nat) : EStateM PyError Heap Nat :=
  StingerObj.init alloc (.voidP answer) none

/-- `StingerMon.get_alg_state(name_or_int)`: `stinger_mon_get_alg_state_by_name` for a name and
`stinger_mon_get_alg_state` on the `c_int64` otherwise, whose answer is wrapped in a `c_void_p`;
then the monitor's `stinger()`. -/
def StingerMon.getAlgState (alloc : Allocator) (getAlgStateByName : String → Option Nat)
    (getAlgStateById : Int → Option Nat) (getStinger : Option Nat) (nameOrInt : PyVal) :
    EStateM PyError Heap StingerAlgState := do
  let alg := match nameOrInt with
    | .str name => getAlgStateByName name
    | .int i => getAlgStateById (cInt64 i)
  let s ← StingerMon.stinger alloc getStinger
  pure ⟨alg, s⟩

/-! ## Ownership -/

namespace Heap

/-- The engine object `j` would free: its `self.s` when it owns one. -/
def engineOf (h : Heap) (j : Nat) : Option Nat :=
  match h.objects[j]? with
  | some o => if o.free then o.s else none
  | none => none

theorem owns_iff_engineOf {h : Heap} {j a : Nat} : h.Owns j a ↔ h.engineOf j = some a := by
  unfold Owns engineOf
  cases h.objects[j]? with
  | none => simp
  | some o => cases o.free <;> simp

theorem Owns.lt {h : Heap} {i a : Nat} (hi : h.Owns i a) : i < h.objects.length := by
  obtain ⟨o, ho, -⟩ := hi
  exact (List.getElem?_eq_some_iff.mp ho).1

/-- A new object owns what it points at when it frees, and the others keep what they own. -/
theorem owns_add {h : Heap} {o : StingerObj} {i a : Nat} :
    (h.add o).Owns i a ↔ h.Owns i a ∨ (i = h.objects.length ∧ o.free = true ∧ o.s = some a) := by
  unfold Owns add
  rcases lt_trichotomy i h.objects.length with hlt | rfl | hgt
  · rw [List.getElem?_append_left hlt]
    simp [hlt.ne]
  · rw [List.getElem?_concat_length, List.getElem?_eq_none_iff.mpr le_rfl]
    simp
  · rw [List.getElem?_eq_none_iff.mpr (by simp only [List.length_append, List.length_singleton]; omega),
      List.getElem?_eq_none_iff.mpr hgt.le]
    simp [hgt.ne']

/-- After `__del__` of object `j`, the others own what they owned, and `j` owns nothing. -/
theorem owns_del {h : Heap} {i j a : Nat} :
    (StingerObj.del j h).Owns i a ↔ h.Owns i a ∧ i ≠ j := by
  unfold StingerObj.del
  rcases hj : h.objects[j]? with _ | o
  · refine ⟨fun hi => ⟨hi, ?_⟩, And.left⟩
    rintro rfl
    obtain ⟨o, ho, -⟩ := hi
    simp [hj] at ho
  · by_cases hfree : o.free = true
    · have hjl : j < h.objects.length := (List.getElem?_eq_some_iff.mp hj).1
      simp only [hfree, if_true]
      unfold Owns
      by_cases hij : i = j
      · subst hij; simp [List.getElem?_set, hjl]
      · simp [List.getElem?_set_ne (Ne.symm hij), hij]
    · simp only [hfree, if_false, Bool.false_eq_true]
      refine ⟨fun hi => ⟨hi, ?_⟩, And.left⟩
      rintro rfl
      obtain ⟨o', ho', hf, -⟩ := hi
      rw [hj, Option.some.injEq] at ho'
      exact hfree (ho' ▸ hf)

/-- What `__del__` of object `j` does to the engines: `stinger_free_all` on the engine `j` owns. -/
theorem del_live (j : Nat) (h : Heap) :
    (StingerObj.del j h).live = (h.stingerFreeAll (h.engineOf j)).live ∧
      (StingerObj.del j h).badFrees = (h.stingerFreeAll (h.engineOf j)).badFrees := by
  unfold StingerObj.del engineOf
  rcases h.objects[j]? with _ | o
  · exact ⟨rfl, rfl⟩
  · by_cases hf : o.free = true <;> simp [hf, stingerFreeAll]

/-- The ownership invariant: no bad free has happened, and the live engines are exactly the
engines the objects own, one owner each. -/
structure Sound (h : Heap) : Prop where
  noBadFree : h.badFrees = []
  nodup : h.live.Nodup
  live_iff : ∀ a, a ∈ h.live ↔ ∃ i, h.Owns i a
  owner_unique : ∀ {i j a : Nat}, h.Owns i a → h.Owns j a → i = j

theorem sound_empty : empty.Sound :=
  ⟨rfl, List.nodup_nil, fun a => by simp [Owns, empty], fun hi => by simp [Owns, empty] at hi⟩

/-- An object that owns nothing joins: a borrower, or an owner whose file did not open. -/
theorem Sound.add_nonowner {h : Heap} (hs : h.Sound) {o : StingerObj}
    (ho : o.free = true → o.s = none) : (h.add o).Sound := by
  have hown : ∀ {i a}, (h.add o).Owns i a ↔ h.Owns i a := fun {i a} => by
    rw [owns_add]
    refine or_iff_left_of_imp fun ⟨_, hf, hs⟩ => ?_
    simp [ho hf] at hs
  exact ⟨hs.noBadFree, hs.nodup, fun a => (hs.live_iff a).trans (exists_congr fun _ => hown.symm),
    fun hi hj => hs.owner_unique (hown.mp hi) (hown.mp hj)⟩

/-- A fresh engine joins with the object that took it. -/
theorem Sound.add_new {h : Heap} (hs : h.Sound) (alloc : Allocator) :
    ((h.stingerNew alloc).2.add ⟨some (h.stingerNew alloc).1, true⟩).Sound := by
  have hfresh := alloc.fresh h.live
  have hown : ∀ {i a}, ((h.stingerNew alloc).2.add ⟨some (h.stingerNew alloc).1, true⟩).Owns i a ↔
      h.Owns i a ∨ (i = h.objects.length ∧ a = alloc.pick h.live) := fun {i a} => by
    rw [owns_add]
    exact or_congr Iff.rfl (and_congr Iff.rfl
      ⟨fun ⟨_, h⟩ => (Option.some.inj h).symm, fun h => ⟨rfl, h ▸ rfl⟩⟩)
  refine ⟨hs.noBadFree, List.nodup_append.mpr ⟨hs.nodup, List.nodup_singleton _, ?_⟩, ?_, ?_⟩
  · simpa [List.disjoint_singleton] using hfresh
  · intro a
    simp only [stingerNew, add, List.mem_append, List.mem_singleton, hs.live_iff]
    constructor
    · rintro (⟨i, hi⟩ | rfl)
      · exact ⟨i, hown.mpr (.inl hi)⟩
      · exact ⟨h.objects.length, hown.mpr (.inr ⟨rfl, rfl⟩)⟩
    · rintro ⟨i, hi⟩
      rcases hown.mp hi with hi | ⟨-, rfl⟩
      · exact .inl ⟨i, hi⟩
      · exact .inr rfl
  · intro i j a hi hj
    rcases hown.mp hi with hi | ⟨rfl, rfl⟩
    · rcases hown.mp hj with hj | ⟨rfl, ha⟩
      · exact hs.owner_unique hi hj
      · exact absurd ((hs.live_iff _).mpr ⟨i, ha ▸ hi⟩) hfresh
    · rcases hown.mp hj with hj | ⟨rfl, -⟩
      · exact absurd ((hs.live_iff _).mpr ⟨j, hj⟩) hfresh
      · rfl

/-- `__del__` keeps the invariant: an owner frees its own engine, which is live. -/
theorem Sound.del {h : Heap} (hs : h.Sound) (j : Nat) : (StingerObj.del j h).Sound := by
  obtain ⟨hlive, hbad⟩ := del_live j h
  have hown : ∀ {i a}, (StingerObj.del j h).Owns i a ↔ h.Owns i a ∧ i ≠ j := owns_del
  have unique' : ∀ {i i' a}, (StingerObj.del j h).Owns i a → (StingerObj.del j h).Owns i' a →
      i = i' := fun hi hi' => hs.owner_unique (hown.mp hi).1 (hown.mp hi').1
  rcases hb : h.engineOf j with _ | b
  · rw [hb] at hlive hbad
    refine ⟨hbad.trans hs.noBadFree, hlive ▸ hs.nodup, fun a => ?_, unique'⟩
    rw [hlive, stingerFreeAll, hs.live_iff]
    refine exists_congr fun i => ⟨fun hi => hown.mpr ⟨hi, ?_⟩, fun hi => (hown.mp hi).1⟩
    rintro rfl
    simp [owns_iff_engineOf.mp hi] at hb
  · have hjb : h.Owns j b := owns_iff_engineOf.mpr hb
    have hbl : b ∈ h.live := (hs.live_iff b).mpr ⟨j, hjb⟩
    rw [hb] at hlive hbad
    simp only [stingerFreeAll, hbl, if_true] at hlive hbad
    refine ⟨hbad.trans hs.noBadFree, hlive ▸ hs.nodup.erase b, fun a => ?_, unique'⟩
    rw [hlive, hs.nodup.mem_erase_iff, hs.live_iff]
    constructor
    · rintro ⟨hab, i, hi⟩
      refine ⟨i, hown.mpr ⟨hi, ?_⟩⟩
      rintro rfl
      exact hab (Option.some.inj ((owns_iff_engineOf.mp hi).symm.trans hb))
    · rintro ⟨i, hi⟩
      obtain ⟨hi, hij⟩ := hown.mp hi
      exact ⟨fun hab => hij (hs.owner_unique hi (hab ▸ hjb)), i, hi⟩

/-- Every constructor branch keeps the invariant, and a refused `s` leaves the heap as it was. -/
theorem Sound.init {h : Heap} (hs : h.Sound) (alloc : Allocator) (s : EngineArg)
    (filename : Option Bool) : (resultState (StingerObj.init alloc s filename h)).Sound := by
  rcases filename with _ | _ | _
  · cases s with
    | none => exact hs.add_new alloc
    | int a => exact hs.add_nonowner (Bool.noConfusion ·)
    | voidP _ => exact hs
    | wrapper => exact hs
  · exact hs.add_nonowner fun _ => rfl
  · exact hs.add_new alloc

theorem Sound.lifeRun {h : Heap} (hs : h.Sound) (alloc : Allocator) (ops : List LifeOp) :
    (StingerClient.lifeRun alloc h ops).Sound := by
  induction ops generalizing h with
  | nil => exact hs
  | cons op ops ih =>
    cases op with
    | init s filename => exact ih (hs.init alloc s filename)
    | del j => exact ih (hs.del j)

end Heap

/-- On every interleaving of `Stinger` constructions (with any `s`, with or without a filename
that opens) and `__del__` calls (on any object, any number of times), `stinger_free_all` is only
ever handed NULL or a live engine: no engine is freed twice and no borrowed engine is freed.
Every live engine is owned by exactly one object, the one whose constructor allocated it. -/
theorem lifecycle_keeps_engine_ownership (alloc : Allocator) (ops : List LifeOp) :
    (lifeRun alloc .empty ops).Sound :=
  Heap.sound_empty.lifeRun alloc ops

theorem lifeRun_append (alloc : Allocator) (h : Heap) (ops ops' : List LifeOp) :
    lifeRun alloc h (ops ++ ops') = lifeRun alloc (lifeRun alloc h ops) ops' := by
  induction ops generalizing h with
  | nil => rfl
  | cons op ops ih => exact ih _

/-- Deleting a list of objects takes their engines from them and from nobody else. -/
theorem Heap.owns_dels (alloc : Allocator) {h : Heap} (js : List Nat) {i a : Nat} :
    (lifeRun alloc h (js.map .del)).Owns i a ↔ h.Owns i a ∧ i ∉ js := by
  induction js generalizing h with
  | nil => simp [lifeRun]
  | cons j js ih =>
    show (lifeRun alloc (StingerObj.del j h) (js.map .del)).Owns i a ↔ _
    rw [ih, owns_del, List.mem_cons, not_or, and_assoc]

/-- No engine leaks: after any run, once `__del__` has run on every object built so far, in any
order, no engine the wrapper allocated is left live. -/
theorem deleting_every_object_frees_every_engine (alloc : Allocator) (ops : List LifeOp)
    (js : List Nat) (hall : ∀ i < (lifeRun alloc .empty ops).objects.length, i ∈ js) :
    (lifeRun alloc .empty (ops ++ js.map .del)).live = [] := by
  rw [lifeRun_append]
  have hs := (Heap.sound_empty.lifeRun alloc ops).lifeRun alloc (js.map .del)
  refine List.eq_nil_iff_forall_not_mem.mpr fun a ha => ?_
  obtain ⟨i, hi⟩ := (hs.live_iff a).mp ha
  obtain ⟨hi, hni⟩ := (Heap.owns_dels alloc js).mp hi
  exact hni (hall i hi.lt)

theorem deleting_every_object_frees_every_engine_new_then_del :
    (∀ i < (lifeRun Allocator.bump .empty [.init .none none]).objects.length, i ∈ [0]) ∧
      (lifeRun Allocator.bump .empty ([.init .none none] ++ [0].map .del)).live = [] :=
  have hall : ∀ i < (lifeRun Allocator.bump .empty [.init .none none]).objects.length,
      i ∈ [0] := fun i hi => by
    simp only [List.mem_singleton]
    exact Nat.lt_one_iff.mp hi
  ⟨hall, deleting_every_object_frees_every_engine Allocator.bump [.init .none none] [0] hall⟩

/-- `StingerMon.get_alg_state` never returns: whatever it is asked and whatever the library
answers, the monitor's `stinger()` hands a `c_void_p` object to `Stinger(s=...)`, whose
`ctypes.c_void_p(s)` raises `TypeError`, and no object is built. -/
theorem get_alg_state_always_raises (alloc : Allocator) (getAlgStateByName : String → Option Nat)
    (getAlgStateById : Int → Option Nat) (getStinger : Option Nat) (nameOrInt : PyVal)
    (h : Heap) :
    StingerMon.getAlgState alloc getAlgStateByName getAlgStateById getStinger nameOrInt h =
      .error .typeError h := rfl

end StingerClient
