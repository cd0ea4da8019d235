import StingerClient.Stream

/-!
# Runs of a stream

A client drives a stream with any sequence of the four calls. A caller that catches an exception
goes on with the object as the raising call left it, so a run threads the state through raising
calls too. Every state a run reaches keeps its three sequences valid, and each `add_*` from such
a state keeps the records already counted and writes nothing but its own slot.
-/

namespace StingerClient

open UpdateBuffer StingerStream

/-- One call a client makes on a stream; `sendBatch` carries the status the C call returns. -/
inductive Call where
  | addInsert (vfrom vto etype : PyVal) (weight ts : Int) (insertStrings : Option Bool)
  | addDelete (vfrom vto etype : PyVal)
  | addVertexUpdate (vtx vtype : PyVal) (weight incrWeight : Int)
  | sendBatch (status : Int)
  deriving DecidableEq, Repr

def Call.exec : Call → EStateM PyError StingerStream Unit
  | .addInsert vfrom vto etype weight ts insertStrings =>
    StingerStream.addInsert vfrom vto etype weight ts insertStrings
  | .addDelete vfrom vto etype => StingerStream.addDelete vfrom vto etype
  | .addVertexUpdate vtx vtype weight incrWeight =>
    StingerStream.addVertexUpdate vtx vtype weight incrWeight
  | .sendBatch status => StingerStream.sendBatch fun _ => status

/-- The stream after a sequence of calls. -/
def run (s : StingerStream) : List Call → StingerStream
  | [] => s
  | c :: cs => run (resultState (c.exec s)) cs

@[simp] theorem run_nil (s : StingerStream) : run s [] = s := rfl

theorem run_append (s : StingerStream) (cs ds : List Call) :
    run s (cs ++ ds) = run (run s cs) ds := by
  induction cs generalizing s with
  | nil => rfl
  | cons c cs ih => exact ih _

/-- Whether every call of a run returns normally, each from the state the calls before it
reached. -/
def returns (s : StingerStream) : List Call → Bool
  | [] => true
  | c :: cs =>
    match c.exec s with
    | .ok _ s' => returns s' cs
    | .error _ _ => false

section Appended

variable {α : Type} [Inhabited α]

/-- What one `add_*` call does to the sequence it appends to, leaving `q'`. -/
structure Appended (q q' : UpdateBuffer α) (returned : Bool) : Prop where
  /-- The array doubles exactly when it was full. -/
  size_eq : q'.size = if q.count ≥ q.size then q.size * 2 else q.size
  /-- Slot `count` is the only one written: any other slot holds what the old array held
  there, or a zero record past its end. -/
  only_slot : ∀ k, k ≠ q.count → q'.buffer[k]? = (q.buffer ++ alloc (q'.size - q.size))[k]?
  /-- The record is counted exactly when the call returned. -/
  count_eq : q'.count = q.count + returned.toNat

/-- Every record already counted is kept, field for field, also across a doubling. -/
theorem Appended.prefix_kept {q q' : UpdateBuffer α} {returned : Bool}
    (h : Appended q q' returned) (hq : q.Valid) {k : Nat} (hk : k < q.count) :
    q'.buffer[k]? = q.buffer[k]? := by
  have := hq.count_le
  have := hq.length_eq
  rw [h.only_slot k (by omega), List.getElem?_append_left (by omega)]

theorem appended_appended {q : UpdateBuffer α} (hq : q.Valid) (f : α → α) (returned : Bool) :
    Appended q (q.appended f returned) returned := by
  have hlen := hq.length_eq
  refine ⟨?_, fun k hk => ?_, rfl⟩
  · simp only [appended, mapSlot_size]; unfold grown; split <;> rfl
  · have hk' : q.grown.count ≠ k := by simpa using Ne.symm hk
    simp only [appended, mapSlot, List.getElem?_modify_ne _ _ hk']
    unfold grown; split <;> simp [alloc, show q.size * 2 - q.size = q.size by omega]

/-- The written slot holds `f` of what the grown array held there. -/
theorem appended_slot {q : UpdateBuffer α} (hq : q.Valid) (f : α → α) (returned : Bool) :
    ∃ r, (q.appended f returned).buffer[q.count]? = some (f r) := by
  obtain ⟨hlt, hlen⟩ := grown_valid hq
  rw [grown_count] at hlt
  have hin : q.count < q.grown.buffer.length := by omega
  refine ⟨q.grown.buffer[q.count], ?_⟩
  simp [appended, mapSlot, List.getElem?_eq_getElem hin]

theorem grown_of_lt {q : UpdateBuffer α} (h : q.count < q.size) : q.grown = q := by
  simp [grown, Nat.not_le.mpr h]

/-- Below the count, nothing moves; the written slot holds `f` of what it held, the count
being below the size. -/
theorem appended_getElem_count {q : UpdateBuffer α} (h : q.count < q.size) (f : α → α)
    (returned : Bool) : (q.appended f returned).buffer[q.count]? = f <$> q.buffer[q.count]? := by
  simp [appended, mapSlot, grown_of_lt h]

theorem appended_getElem_zero {q : UpdateBuffer α} (h0 : q.count = 0) (hpos : 0 < q.size)
    (f : α → α) (returned : Bool) : (q.appended f returned).buffer[0]? = f <$> q.buffer[0]? := by
  have := appended_getElem_count (h0 ▸ hpos) f returned
  rwa [h0] at this

theorem appended_valid {q : UpdateBuffer α} (hq : q.Valid) (f : α → α) (returned : Bool) :
    (q.appended f returned).Valid := by
  obtain ⟨hlt, hlen⟩ := grown_valid hq
  rw [grown_count] at hlt
  have : returned.toNat ≤ 1 := Bool.toNat_le returned
  exact ⟨by simp only [appended, mapSlot_size]; omega, by simpa [appended] using hlen,
    by simp only [appended, mapSlot_size]; omega⟩

end Appended

namespace StingerStream

theorem init_valid (sockHandle : Int) (strings undirected : Bool) :
    (init sockHandle strings undirected).Valid :=
  ⟨⟨Nat.zero_le _, List.length_replicate _ _, Nat.succ_pos _⟩,
    ⟨Nat.zero_le _, List.length_replicate _ _, Nat.succ_pos _⟩,
    ⟨Nat.zero_le _, List.length_replicate _ _, Nat.succ_pos _⟩⟩

theorem reset_valid {s : StingerStream} (hs : s.Valid) : s.reset.Valid :=
  ⟨⟨Nat.zero_le _, hs.insertions.length_eq, hs.insertions.size_pos⟩,
    ⟨Nat.zero_le _, hs.deletions.length_eq, hs.deletions.size_pos⟩,
    ⟨Nat.zero_le _, hs.vertexUpdates.length_eq, hs.vertexUpdates.size_pos⟩⟩

end StingerStream

theorem Call.exec_valid {s : StingerStream} (hs : s.Valid) (c : Call) :
    (resultState (c.exec s)).Valid := by
  cases c with
  | addInsert vfrom vto etype weight ts insertStrings =>
    obtain ⟨f, returned, h⟩ := addInsert_spec hs.insertions vfrom vto etype weight ts insertStrings
    simp only [Call.exec, h, resultState_pyResult]
    exact ⟨appended_valid hs.insertions f returned, hs.deletions, hs.vertexUpdates⟩
  | addDelete vfrom vto etype =>
    obtain ⟨f, returned, h⟩ := addDelete_spec hs.deletions vfrom vto etype
    simp only [Call.exec, h, resultState_pyResult]
    exact ⟨hs.insertions, appended_valid hs.deletions f returned, hs.vertexUpdates⟩
  | addVertexUpdate vtx vtype weight incrWeight =>
    obtain ⟨f, returned, h⟩ := addVertexUpdate_spec hs.vertexUpdates vtx vtype weight incrWeight
    simp only [Call.exec, h, resultState_pyResult]
    exact ⟨hs.insertions, hs.deletions, appended_valid hs.vertexUpdates f returned⟩
  | sendBatch status => exact reset_valid hs

theorem run_valid {s : StingerStream} (hs : s.Valid) (calls : List Call) : (run s calls).Valid := by
  induction calls generalizing s with
  | nil => exact hs
  | cons c cs ih => exact ih (c.exec_valid hs)

/-- Every state a run reaches keeps its three sequences valid, starting from 5000 records each;
from it, each `add_*` raises nothing but a `TypeError` of its arguments and appends to its own
sequence only. -/
theorem add_keeps_counted_records (sockHandle : Int) (strings undirected : Bool)
    (calls : List Call) :
    let s₀ := init sockHandle strings undirected
    let s := run s₀ calls
    s₀.insertions.size = 5000 ∧ s₀.deletions.size = 5000 ∧ s₀.vertexUpdates.size = 5000 ∧
    s.Valid ∧
    (∀ vfrom vto etype weight ts insertStrings, ∃ q returned,
      addInsert vfrom vto etype weight ts insertStrings s =
        pyResult returned
          { s with onlyStrings := insertStrings.getD s.onlyStrings, insertions := q } ∧
      Appended s.insertions q returned) ∧
    (∀ vfrom vto etype, ∃ q returned,
      addDelete vfrom vto etype s = pyResult returned { s with deletions := q } ∧
      Appended s.deletions q returned) ∧
    (∀ vtx vtype weight incrWeight, ∃ q returned,
      addVertexUpdate vtx vtype weight incrWeight s = pyResult returned { s with vertexUpdates := q } ∧
      Appended s.vertexUpdates q returned) := by
  intro s₀ s
  have hs : s.Valid := run_valid (init_valid sockHandle strings undirected) calls
  refine ⟨rfl, rfl, rfl, hs, fun vfrom vto etype weight ts insertStrings => ?_,
    fun vfrom vto etype => ?_, fun vtx vtype weight incrWeight => ?_⟩
  · obtain ⟨f, returned, h⟩ := addInsert_spec hs.insertions vfrom vto etype weight ts insertStrings
    exact ⟨_, returned, h, appended_appended hs.insertions f returned⟩
  · obtain ⟨f, returned, h⟩ := addDelete_spec hs.deletions vfrom vto etype
    exact ⟨_, returned, h, appended_appended hs.deletions f returned⟩
  · obtain ⟨f, returned, h⟩ := addVertexUpdate_spec hs.vertexUpdates vtx vtype weight incrWeight
    exact ⟨_, returned, h, appended_appended hs.vertexUpdates f returned⟩

end StingerClient
