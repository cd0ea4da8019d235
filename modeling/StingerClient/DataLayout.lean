import StingerClient.DataArray

/-!
# The columns of a data description

Fields are stored column after column: field `k` spans `nv` elements from `nv` times the widths of
the tags before it. The width the offset sum gives a tag is the size of the type `__init__`
casts that tag to, for every character, so the columns of distinct fields are disjoint and lie
inside the blob. `__init__` raises on a `None` pointer before it looks at the descriptor, then
rejects a field that is absent or has no tag, and a null `c_void_p` last; any other tag is
accepted. `__getitem__` and `__setitem__` turn a negative index away, and ctypes raises for an
index from `2 ^ 63` on and for a NULL view; every other index is an address modulo `2 ^ 64`,
inside the column below `nv`, anywhere beyond it.
-/

namespace StingerClient

/-- The bytes `[start, start + len)`. -/
structure Region where
  start : Int
  len : Nat
  deriving DecidableEq, Repr

namespace Region

def Contains (r : Region) (x : Int) : Prop := r.start ≤ x ∧ x < r.start + r.len

def Disjoint (r r' : Region) : Prop := r.start + r.len ≤ r'.start ∨ r'.start + r'.len ≤ r.start

def Within (r r' : Region) : Prop := r'.start ≤ r.start ∧ r.start + r.len ≤ r'.start + r'.len

instance (r : Region) (x : Int) : Decidable (r.Contains x) :=
  inferInstanceAs (Decidable (_ ∧ _))

theorem Disjoint.not_contains {r r' : Region} (h : r.Disjoint r') {x : Int} (hx : r.Contains x) :
    ¬ r'.Contains x := by
  unfold Disjoint at h; unfold Contains at *; omega

/-- Regions inside disjoint regions are disjoint. -/
theorem Disjoint.mono {r s r' s' : Region} (h : r'.Disjoint s') (hr : r.Within r')
    (hs : s.Within s') : r.Disjoint s := by
  unfold Within at hr hs; unfold Disjoint at *; omega

theorem Disjoint.symm {r r' : Region} (h : r.Disjoint r') : r'.Disjoint r := Or.symm h

theorem Within.refl (r : Region) : r.Within r := ⟨Int.le_refl _, Int.le_refl _⟩

theorem Within.contains {r r' : Region} (h : r.Within r') {x : Int} (hx : r.Contains x) :
    r'.Contains x := by
  unfold Within at h; unfold Contains at *; omega

end Region

namespace StingerDataArray

/-- The field's column: `nv` elements from the view's address. -/
def column (a : StingerDataArray) : Region := ⟨a.data, a.nv * a.ctype.sizeof⟩

/-- The bytes of element `i` of the view. -/
def element (a : StingerDataArray) (i : Int) : Region :=
  ⟨a.data + i * a.ctype.sizeof, a.ctype.sizeof⟩

theorem offset_succ {tags : List Char} {k : Nat} {c : Char} (h : tags[k]? = some c) :
    offset tags (k + 1) = offset tags k + tagWidth c := by
  rw [offset, offset, List.take_succ, h]
  simp [List.foldl_append]

theorem offset_mono (tags : List Char) {j k : Nat} (h : j ≤ k) : offset tags j ≤ offset tags k := by
  obtain ⟨d, rfl⟩ := Nat.exists_eq_add_of_le h
  induction d with
  | zero => exact le_refl _
  | succ d ih =>
    refine (ih (by omega)).trans ?_
    cases hc : tags[j + d]? with
    | none =>
      have : tags.length ≤ j + d := List.getElem?_eq_none_iff.mp hc
      simp [offset, List.take_of_length_le (show tags.length ≤ j + d by omega),
        List.take_of_length_le (show tags.length ≤ j + (d + 1) by omega)]
    | some c => rw [← Nat.add_assoc, offset_succ hc]; omega

/-- The width the offset sum assumes for a tag is the size of the type the tag is cast to. -/
theorem castType_sizeof (c : Char) : (castType c).sizeof = tagWidth c := by
  unfold castType tagWidth
  by_cases hd : c = 'd'
  · simp [hd, CType.sizeof]
  by_cases hf : c = 'f'
  · simp [hf, CType.sizeof]
  by_cases hl : c = 'l'
  · simp [hl, CType.sizeof]
  by_cases hi : c = 'i'
  · simp [hi, CType.sizeof]
  simp [hd, hf, hl, hi, CType.sizeof]

theorem sizeof_pos (t : CType) : 0 < t.sizeof := by cases t <;> decide

/-- What `__init__` builds for a present field with a tag, from a non-null pointer. -/
theorem init_ok {dataPtr : DataPtr} {p : Int} (hp : dataPtr.value = .ok (some p))
    {D t f : String} {names : List String} (hD : pySplit D = t :: names) (hf : f ∈ names)
    {c : Char} (hc : t.toList[names.indexOf f]? = some c) (nv : Nat) :
    init dataPtr D f nv =
      .ok ⟨f, c, nv, p + offset t.toList (names.indexOf f) * nv, castType c⟩ := by
  have hc' : t.data[names.indexOf f]? = some c := hc
  simp [init, hD, hp, pyIndex_eq, hf, hc', bind, Except.bind, pure, Except.pure]

/-- The first `nv` elements of a view lie in its column. -/
theorem element_within (a : StingerDataArray) {i : Int} (h0 : 0 ≤ i) (hi : i < a.nv) :
    (a.element i).Within a.column := by
  have hw : (i + 1) * (a.ctype.sizeof : Int) ≤ a.nv * a.ctype.sizeof :=
    Int.mul_le_mul_of_nonneg_right (by omega) (by omega)
  have h0w : 0 ≤ i * (a.ctype.sizeof : Int) := Int.mul_nonneg h0 (by omega)
  rw [Int.add_mul, Int.one_mul] at hw
  unfold element column Region.Within
  push_cast
  omega

/-- Element `i` lies in the column exactly when `i < nv`. -/
theorem element_within_iff (a : StingerDataArray) {i : Int} (h0 : 0 ≤ i) :
    (a.element i).Within a.column ↔ i < a.nv := by
  refine ⟨fun h => ?_, element_within a h0⟩
  have hw : (0 : Int) < a.ctype.sizeof := by exact_mod_cast sizeof_pos a.ctype
  unfold element column Region.Within at h
  push_cast at h
  by_contra hn
  have : (a.nv : Int) * a.ctype.sizeof < (i + 1) * a.ctype.sizeof :=
    Int.mul_lt_mul_of_pos_right (by omega) hw
  rw [Int.add_mul, Int.one_mul] at this
  omega

/-- The column of field `k` of the layout: `nv` times the widths before it, `nv` times its own
width long. -/
def layoutColumn (p : Int) (nv : Nat) (tags : List Char) (k : Nat) (c : Char) : Region :=
  ⟨p + (nv * offset tags k : Nat), nv * tagWidth c⟩

/-- A column ends where the next one starts, and no later than the blob. -/
theorem layoutColumn_within (p : Int) (nv : Nat) {tags : List Char} {k m : Nat} {c : Char}
    (hc : tags[k]? = some c) (hk : k < m) :
    (layoutColumn p nv tags k c).Within ⟨p, nv * offset tags m⟩ := by
  have : nv * offset tags k + nv * tagWidth c ≤ nv * offset tags m := by
    rw [← Nat.mul_add, ← offset_succ hc]
    exact Nat.mul_le_mul_left _ (offset_mono _ hk)
  unfold layoutColumn Region.Within
  constructor <;> push_cast at * <;> omega

theorem layoutColumn_disjoint (p : Int) (nv : Nat) {tags : List Char} {j k : Nat} {cj ck : Char}
    (hj : tags[j]? = some cj) (hk : tags[k]? = some ck) (hjk : j ≠ k) :
    (layoutColumn p nv tags j cj).Disjoint (layoutColumn p nv tags k ck) := by
  have before : ∀ {j k c}, tags[j]? = some c → j < k →
      nv * offset tags j + nv * tagWidth c ≤ nv * offset tags k := fun hc h => by
    rw [← Nat.mul_add, ← offset_succ hc]
    exact Nat.mul_le_mul_left _ (offset_mono _ h)
  unfold layoutColumn Region.Disjoint
  rcases Nat.lt_or_gt_of_ne hjk with h | h
  · have := before hj h; left; push_cast at *; omega
  · have := before hk h; right; push_cast at *; omega

/-- For a named field with a tag, `__init__` succeeds with the column of the layout, cast to a
type of the tag's width. -/
theorem init_layout {dataPtr : DataPtr} {p : Int} (hp : dataPtr.value = .ok (some p))
    {D t f : String} {names : List String} (hD : pySplit D = t :: names)
    (htags : names.length ≤ t.length) (hf : f ∈ names) (nv : Nat) :
    ∃ a, init dataPtr D f nv = .ok a ∧ a.nv = nv ∧ t.toList[names.indexOf f]? = some a.dataType ∧
      a.column = layoutColumn p nv t.toList (names.indexOf f) a.dataType ∧
      a.ctype.sizeof = tagWidth a.dataType := by
  have hk : names.indexOf f < t.toList.length :=
    (List.indexOf_lt_length.mpr hf).trans_le htags
  refine ⟨_, init_ok hp hD hf (List.getElem?_eq_getElem hk) nv, rfl, List.getElem?_eq_getElem hk,
    ?_, castType_sizeof _⟩
  simp only [column, layoutColumn, castType_sizeof, Region.mk.injEq, and_true]
  push_cast
  rw [Int.mul_comm]

/-- Two distinct named fields of a descriptor whose first token tags every name get the columns
of the layout; the columns are disjoint and inside the blob, each view's element type has the
width of its tag, and no element below `nv` of one view overlaps one of the other. -/
theorem field_views_disjoint {dataPtr : DataPtr} {p : Int} (hp : dataPtr.value = .ok (some p))
    {D t : String} {names : List String} (hD : pySplit D = t :: names)
    (htags : names.length ≤ t.length) (nv : Nat) {x y : String} (hx : x ∈ names)
    (hy : y ∈ names) (hxy : x ≠ y) :
    ∃ a b, init dataPtr D x nv = .ok a ∧ init dataPtr D y nv = .ok b ∧
      t.toList[names.indexOf x]? = some a.dataType ∧ t.toList[names.indexOf y]? = some b.dataType ∧
      a.column = layoutColumn p nv t.toList (names.indexOf x) a.dataType ∧
      b.column = layoutColumn p nv t.toList (names.indexOf y) b.dataType ∧
      a.ctype.sizeof = tagWidth a.dataType ∧ b.ctype.sizeof = tagWidth b.dataType ∧
      a.column.Disjoint b.column ∧
      a.column.Within ⟨p, nv * offset t.toList names.length⟩ ∧
      b.column.Within ⟨p, nv * offset t.toList names.length⟩ ∧
      ∀ i j : Int, 0 ≤ i → i < nv → 0 ≤ j → j < nv → (a.element i).Disjoint (b.element j) := by
  obtain ⟨a, ha, rfl, hta, hca, hwa⟩ := init_layout hp hD htags hx nv
  obtain ⟨b, hb, hnv, htb, hcb, hwb⟩ := init_layout hp hD htags hy a.nv
  have hdisj : a.column.Disjoint b.column := by
    rw [hca, hcb]
    exact layoutColumn_disjoint p _ hta htb fun h => hxy ((List.indexOf_inj hx hy).mp h)
  refine ⟨a, b, ha, hb, hta, htb, hca, hcb, hwa, hwb, hdisj, ?_, ?_, fun i j hi hia hj hjb => ?_⟩
  · exact hca ▸ layoutColumn_within p _ hta (List.indexOf_lt_length.mpr hx)
  · exact hcb ▸ layoutColumn_within p _ htb (List.indexOf_lt_length.mpr hy)
  · exact hdisj.mono (element_within a hi hia) (element_within b hj (hnv ▸ hjb))

theorem field_views_disjoint_dfi :
    ∃ a b, init (.int 1000) "dfi x y z" "x" 10 = .ok a ∧
      init (.int 1000) "dfi x y z" "y" 10 = .ok b ∧
      "dfi".toList[["x", "y", "z"].indexOf "x"]? = some a.dataType ∧
      "dfi".toList[["x", "y", "z"].indexOf "y"]? = some b.dataType ∧
      a.column = layoutColumn 1000 10 "dfi".toList (["x", "y", "z"].indexOf "x") a.dataType ∧
      b.column = layoutColumn 1000 10 "dfi".toList (["x", "y", "z"].indexOf "y") b.dataType ∧
      a.ctype.sizeof = tagWidth a.dataType ∧ b.ctype.sizeof = tagWidth b.dataType ∧
      a.column.Disjoint b.column ∧
      a.column.Within ⟨1000, 10 * offset "dfi".toList 3⟩ ∧
      b.column.Within ⟨1000, 10 * offset "dfi".toList 3⟩ ∧
      ∀ i j : Int, 0 ≤ i → i < (10 : Nat) → 0 ≤ j → j < (10 : Nat) →
        (a.element i).Disjoint (b.element j) :=
  @field_views_disjoint (.int 1000) 1000 rfl "dfi x y z" "dfi" ["x", "y", "z"] rfl (by decide) 10
    "x" "y" (by decide) (by decide) (by decide)

/-- Everything `__init__` can do once the pointer's value is read: a `ValueError` for an absent
field, an `IndexError` for a field without a tag, and otherwise the view of the tag's column, or
a `TypeError` from a null `c_void_p`. -/
theorem init_cases {dataPtr : DataPtr} {v : Option Int} (hp : dataPtr.value = .ok v)
    (D f : String) (nv : Nat) :
    let names := (pySplit D).drop 1
    let tags := ((pySplit D).headD "").toList
    (f ∉ names ∧ init dataPtr D f nv = .error .valueError) ∨
    (f ∈ names ∧ tags.length ≤ names.indexOf f ∧ init dataPtr D f nv = .error .indexError) ∨
    (f ∈ names ∧ ∃ c, tags[names.indexOf f]? = some c ∧
      init dataPtr D f nv = match v with
        | some p => .ok ⟨f, c, nv, p + offset tags (names.indexOf f) * nv, castType c⟩
        | none => .error .typeError) := by
  intro names tags
  by_cases hf : f ∈ names
  · obtain ⟨t, rest, hD⟩ : ∃ t rest, pySplit D = t :: rest := by
      cases hD : pySplit D with
      | nil => simp [names, hD] at hf
      | cons t rest => exact ⟨t, rest, rfl⟩
    simp only [names, tags, hD, List.drop_succ_cons, List.drop_zero, List.headD_cons] at hf ⊢
    cases hc : t.toList[rest.indexOf f]? with
    | none =>
      have hc' : t.data[rest.indexOf f]? = none := hc
      exact .inr (.inl ⟨hf, List.getElem?_eq_none_iff.mp hc,
        by simp [init, hD, hp, pyIndex_eq, hf, hc', bind, Except.bind]; rfl⟩)
    | some c =>
      have hc' : t.data[rest.indexOf f]? = some c := hc
      refine .inr (.inr ⟨hf, c, rfl, ?_⟩)
      cases v <;> simp [init, hD, hp, pyIndex_eq, hf, hc', bind, Except.bind] <;> rfl
  · have hf' : f ∉ (pySplit D).tail := by simpa [names] using hf
    exact .inl ⟨hf, by simp [init, hp, pyIndex_eq, hf', bind, Except.bind]⟩

/-- `__init__` reads the pointer's value first, so `None` raises `AttributeError` whatever the
descriptor. From a pointer value it raises `ValueError` exactly when the field is absent and
`IndexError` exactly when it has no tag; past these checks a null `c_void_p` raises `TypeError`,
and a non-null pointer builds the view, casting any tag but `d`, `f`, `l`, `i` to `c_int8`. -/
theorem init_raises_iff_field_or_tag_missing (D f : String) (nv : Nat) :
    init .none D f nv = .error .attributeError ∧
    let names := (pySplit D).drop 1
    let tags := ((pySplit D).headD "").toList
    ((init (.voidP none) D f nv = .error .valueError ↔ f ∉ names) ∧
      (init (.voidP none) D f nv = .error .indexError ↔
        f ∈ names ∧ tags.length ≤ names.indexOf f) ∧
      (init (.voidP none) D f nv = .error .typeError ↔
        f ∈ names ∧ names.indexOf f < tags.length)) ∧
    ∀ (dataPtr : DataPtr) (p : Int), dataPtr.value = .ok (some p) →
      (init dataPtr D f nv = .error .valueError ↔ f ∉ names) ∧
      (init dataPtr D f nv = .error .indexError ↔ f ∈ names ∧ tags.length ≤ names.indexOf f) ∧
      ((∃ a, init dataPtr D f nv = .ok a ∧ tags[names.indexOf f]? = some a.dataType ∧
          a.ctype = castType a.dataType) ↔ f ∈ names ∧ names.indexOf f < tags.length) := by
  refine ⟨rfl, ?_⟩
  intro names tags
  refine ⟨?_, fun dataPtr p hp => ?_⟩
  · rcases init_cases (rfl : (DataPtr.voidP none).value = .ok none) D f nv with
      ⟨hf, h⟩ | ⟨hf, hk, h⟩ | ⟨hf, c, hc, h⟩
    · simp [h, hf]
    · simp [h, hf, hk]
    · simp [h, hf, (List.getElem?_eq_some_iff.mp hc).1]
  · rcases init_cases hp D f nv with ⟨hf, h⟩ | ⟨hf, hk, h⟩ | ⟨hf, c, hc, h⟩
    · simp [h, hf]
    · simp [h, hf, hk]
    · simp [h, hf, hc, (List.getElem?_eq_some_iff.mp hc).1]

theorem init_raises_iff_field_or_tag_missing_ld :
    let names := (pySplit "Ld x y").drop 1
    let tags := ((pySplit "Ld x y").headD "").toList
    (init (.int 1000) "Ld x y" "z" 10 = .error .valueError ↔ "z" ∉ names) ∧
    (init (.int 1000) "Ld x y" "z" 10 = .error .indexError ↔
      "z" ∈ names ∧ tags.length ≤ names.indexOf "z") ∧
    ((∃ a, init (.int 1000) "Ld x y" "z" 10 = .ok a ∧ tags[names.indexOf "z"]? = some a.dataType ∧
        a.ctype = castType a.dataType) ↔ "z" ∈ names ∧ names.indexOf "z" < tags.length) :=
  (init_raises_iff_field_or_tag_missing "Ld x y" "z" 10).2.2 (.int 1000) 1000 rfl

/-- An unknown tag raises nothing: on "Ld x y" field x is cast to `c_int8`, and field y starts
one byte per vertex after the blob. -/
theorem unknown_tag_accepted_as_byte :
    init (.int 1000) "Ld x y" "x" 10 = .ok ⟨"x", 'L', 10, 1000, .cInt8⟩ ∧
      init (.int 1000) "Ld x y" "y" 10 = .ok ⟨"y", 'd', 10, 1010, .cDouble⟩ :=
  ⟨rfl, rfl⟩

/-! ## Element access -/

section Access

variable (a : StingerDataArray) (getMapping : String → Int) (m : Mem) (i : PyVal)
  (k : Nat → UInt8)

theorem getItem_of_neg (h : resolve getMapping i < 0) : a.getItem getMapping m i = .ok none := by
  simp [getItem, Int.not_le.mpr h]

theorem setItem_of_neg (h : resolve getMapping i < 0) :
    a.setItem getMapping m i k = .ok (m, false) := by
  simp [setItem, Int.not_le.mpr h]

theorem getItem_of_nonneg (h : 0 ≤ resolve getMapping i) :
    a.getItem getMapping m i =
      (fun addr => some (m.load addr a.ctype.sizeof)) <$> a.itemAddr (resolve getMapping i) := by
  simp [getItem, h]

theorem setItem_of_nonneg (h : 0 ≤ resolve getMapping i) :
    a.setItem getMapping m i k =
      (fun addr => (m.store addr a.ctype.sizeof k, true)) <$> a.itemAddr (resolve getMapping i) := by
  simp [setItem, h]

end Access

theorem itemAddr_of_large (a : StingerDataArray) {r : Int} (h : 2 ^ 63 ≤ r) :
    a.itemAddr r = .error .indexError := by
  unfold itemAddr; rw [if_pos (Or.inr h)]

theorem itemAddr_of_null (a : StingerDataArray) {r : Int} (h0 : 0 ≤ r) (h : r < 2 ^ 63)
    (hn : a.data % 2 ^ 64 = 0) : a.itemAddr r = .error .valueError := by
  unfold itemAddr; rw [if_neg (by omega), if_pos hn]

theorem itemAddr_of_fits (a : StingerDataArray) {r : Int} (h0 : 0 ≤ r) (h : r < 2 ^ 63)
    (hn : a.data % 2 ^ 64 ≠ 0) : a.itemAddr r = .ok (a.elemAddr r) := by
  unfold itemAddr; rw [if_neg (by omega), if_neg hn]

theorem sizeof_dvd (t : CType) : (t.sizeof : Int) ∣ 2 ^ 64 := by cases t <;> decide

/-- Modulo `w * K`, the offset of byte `t` of element `x` keeps the byte and takes the element
modulo `K`. -/
theorem mul_add_emod_mul {w K : Int} (x : Int) {t : Int} (hK : 0 < K) (ht0 : 0 ≤ t)
    (ht : t < w) : (w * x + t) % (w * K) = w * (x % K) + t := by
  have hx : x % K + 1 ≤ K := Int.emod_lt_of_pos x hK
  have hle : w * (x % K) + w ≤ w * K := by
    have := Int.mul_le_mul_of_nonneg_left hx (show 0 ≤ w by omega)
    rwa [Int.mul_add, Int.mul_one] at this
  have h0 : 0 ≤ w * (x % K) := Int.mul_nonneg (by omega) (Int.emod_nonneg x (by omega))
  rw [← Int.emod_add_emod, Int.mul_emod_mul_of_pos _ _ (by omega)]
  exact Int.emod_eq_of_lt (by omega) (by omega)

/-- Byte `t` of element `j` is a byte of element `i` exactly when the offsets agree modulo
`2 ^ 64`, that is when `j ≡ i` modulo `2 ^ 64 / sizeof`; it is then byte `t` of element `i`. -/
theorem covers_elemAddr (a : StingerDataArray) (i j : Int) {t : Nat} (ht : t < a.ctype.sizeof) :
    (Mem.Covers (a.elemAddr i) a.ctype.sizeof ((a.elemAddr j + t) % 2 ^ 64) ↔
      (j - i) % (2 ^ 64 / a.ctype.sizeof) = 0) ∧
    ((j - i) % (2 ^ 64 / a.ctype.sizeof) = 0 →
      ((a.elemAddr j + t) % 2 ^ 64 - a.elemAddr i) % 2 ^ 64 = t) := by
  have hw : (0 : Int) < a.ctype.sizeof := by exact_mod_cast sizeof_pos a.ctype
  have hK : (0 : Int) < 2 ^ 64 / a.ctype.sizeof :=
    Int.ediv_pos_of_pos_of_dvd (by decide) (Int.le_of_lt hw) (sizeof_dvd a.ctype)
  have hoff : ((a.elemAddr j + t) % 2 ^ 64 - a.elemAddr i) % 2 ^ 64 =
      a.ctype.sizeof * ((j - i) % (2 ^ 64 / a.ctype.sizeof)) + t := by
    unfold elemAddr
    rw [← Int.sub_emod, Int.add_sub_assoc, Int.emod_add_emod,
      show a.data + j * a.ctype.sizeof + (t - (a.data + i * a.ctype.sizeof)) =
        a.ctype.sizeof * (j - i) + t by rw [Int.mul_sub, Int.mul_comm _ j, Int.mul_comm _ i]; omega]
    conv_lhs => rw [← Int.mul_ediv_cancel' (sizeof_dvd a.ctype)]
    exact mul_add_emod_mul _ hK (by omega) (by omega)
  have h0 := Int.emod_nonneg (j - i) (Int.ne_of_gt hK)
  unfold Mem.Covers
  rw [hoff]
  refine ⟨⟨fun h => ?_, fun h => ⟨Int.emod_nonneg _ (by decide), Int.emod_lt_of_pos _ (by decide),
    by rw [h]; omega⟩⟩, fun h => by rw [h]; omega⟩
  have h1 : (j - i) % (2 ^ 64 / a.ctype.sizeof) < 1 := Int.lt_of_mul_lt_mul_left
    (show (a.ctype.sizeof : Int) * ((j - i) % (2 ^ 64 / a.ctype.sizeof)) < a.ctype.sizeof * 1 by
      omega) (Int.le_of_lt hw)
  omega

/-- An element inside the address space: the bytes `p[i]` wraps to are its own bytes. -/
theorem covers_iff_contains (a : StingerDataArray) {r : Int} (h0 : 0 ≤ (a.element r).start)
    (h1 : (a.element r).start + (a.element r).len ≤ 2 ^ 64) (z : Int) :
    Mem.Covers (a.elemAddr r) a.ctype.sizeof z ↔ (a.element r).Contains z := by
  unfold element at h0 h1
  unfold Mem.Covers elemAddr element Region.Contains
  dsimp only at h0 h1 ⊢
  omega

/-- A write reads back at its own index and at every index whose element wraps around to the
same address, those `≡ i` modulo `2 ^ 64 / sizeof`; every other read is as before. -/
theorem set_item_then_get_item (a : StingerDataArray) (getMapping : String → Int) (m : Mem)
    (i : PyVal) (k : Nat → UInt8) (hview : a.data % 2 ^ 64 ≠ 0) (hi : 0 ≤ resolve getMapping i)
    (hi' : resolve getMapping i < 2 ^ 63) :
    ∃ m', a.setItem getMapping m i k = .ok (m', true) ∧
      ∀ j : PyVal, a.getItem getMapping m' j =
        if 0 ≤ resolve getMapping j ∧ resolve getMapping j < 2 ^ 63 ∧
            (resolve getMapping j - resolve getMapping i) % (2 ^ 64 / a.ctype.sizeof) = 0
        then .ok (some ((List.range a.ctype.sizeof).map k)) else a.getItem getMapping m j := by
  refine ⟨_, by rw [setItem_of_nonneg a _ m i k hi, itemAddr_of_fits a hi hi' hview]; rfl,
    fun j => ?_⟩
  rcases Int.lt_or_le (resolve getMapping j) 0 with hj | hj
  · rw [if_neg (by omega), getItem_of_neg a _ _ j hj, getItem_of_neg a _ _ j hj]
  rcases Int.lt_or_le (resolve getMapping j) (2 ^ 63) with hj' | hj'
  · rw [getItem_of_nonneg a _ _ j hj, getItem_of_nonneg a _ _ j hj, itemAddr_of_fits a hj hj' hview]
    simp only [Except.map_ok, Mem.load_store]
    split_ifs with halias
    · refine congrArg (fun l => Except.ok (some l)) (List.map_congr_left fun t ht => ?_)
      have ht := List.mem_range.mp ht
      have hc := covers_elemAddr a (resolve getMapping i) (resolve getMapping j) ht
      rw [if_pos (hc.1.mpr halias.2.2), hc.2 halias.2.2]
      rfl
    · refine congrArg (fun l => Except.ok (some l)) (List.map_congr_left fun t ht => ?_)
      have hc := covers_elemAddr a (resolve getMapping i) (resolve getMapping j)
        (List.mem_range.mp ht)
      rw [if_neg fun h => halias ⟨hj, hj', hc.1.mp h⟩]
  · rw [if_neg (by omega), getItem_of_nonneg a _ _ j hj, getItem_of_nonneg a _ _ j hj,
      itemAddr_of_large a hj']
    rfl

theorem set_item_then_get_item_score :
    let a : StingerDataArray := ⟨"score", 'd', 10, 1000, .cDouble⟩
    a.data % 2 ^ 64 ≠ 0 ∧ 0 ≤ resolve (fun _ => -1) (.int 3) ∧
      resolve (fun _ => -1) (.int 3) < 2 ^ 63 ∧
      ∃ m', a.setItem (fun _ => -1) (fun _ => 0) (.int 3) (fun _ => 9) = .ok (m', true) ∧
        ∀ j : PyVal, a.getItem (fun _ => -1) m' j =
          if 0 ≤ resolve (fun _ => -1) j ∧ resolve (fun _ => -1) j < 2 ^ 63 ∧
              (resolve (fun _ => -1) j - resolve (fun _ => -1) (.int 3)) %
                (2 ^ 64 / a.ctype.sizeof) = 0
          then .ok (some ((List.range a.ctype.sizeof).map fun _ => 9))
          else a.getItem (fun _ => -1) (fun _ => 0) j :=
  ⟨by decide, by decide, by decide,
    set_item_then_get_item _ _ _ _ _ (by decide) (by decide) (by decide)⟩

/-- Indices the `i >= 0` guard lets through that leave the column: on "dd x y" with ten vertices
at 1000, index 10 of field x is the first element of field y, and index 2^61 wraps around to
element 0 of x itself. -/
theorem set_item_past_nv_writes_next_field :
    ∃ a b, init (.int 1000) "dd x y" "x" 10 = .ok a ∧ init (.int 1000) "dd x y" "y" 10 = .ok b ∧
      b.column.Contains 1080 ∧
      a.getItem (fun _ => -1) (fun _ => 0) (.int 10) = .ok (some (Mem.load (fun _ => 0) 1080 8)) ∧
      a.setItem (fun _ => -1) (fun _ => 0) (.int 10) (fun _ => 7) =
        .ok (Mem.store (fun _ => 0) 1080 8 fun _ => 7, true) ∧
      a.setItem (fun _ => -1) (fun _ => 0) (.int (2 ^ 61)) (fun _ => 7) =
        .ok (Mem.store (fun _ => 0) 1000 8 fun _ => 7, true) :=
  ⟨_, _, rfl, rfl, by decide, rfl, rfl, rfl⟩

/-- Item access on the view of one field of a well-formed descriptor. A negative index returns
the int 0 and leaves memory as it was; an index from `2 ^ 63` on raises `IndexError`; on a NULL
view any other index raises `ValueError`; otherwise the access reads, or writes, exactly the
element at `elemAddr`, wrapping at 64 bits. When the blob lies in the address space, an index
below `nv` is an element of the field's own column, and a write there leaves the column of every
other field as it was. -/
theorem item_access_touches_only_element {dataPtr : DataPtr} {p : Int}
    (hp : dataPtr.value = .ok (some p)) {D t : String} {names : List String}
    (hD : pySplit D = t :: names) (htags : names.length ≤ t.length) (nv : Nat) {x : String}
    (hx : x ∈ names) {a : StingerDataArray} (ha : init dataPtr D x nv = .ok a)
    (getMapping : String → Int) (m : Mem) (i : PyVal) (k : Nat → UInt8) :
    (resolve getMapping i < 0 →
      a.getItem getMapping m i = .ok none ∧ a.setItem getMapping m i k = .ok (m, false)) ∧
    (2 ^ 63 ≤ resolve getMapping i →
      a.getItem getMapping m i = .error .indexError ∧
        a.setItem getMapping m i k = .error .indexError) ∧
    (0 ≤ resolve getMapping i → resolve getMapping i < 2 ^ 63 → a.data % 2 ^ 64 = 0 →
      a.getItem getMapping m i = .error .valueError ∧
        a.setItem getMapping m i k = .error .valueError) ∧
    (0 ≤ resolve getMapping i → resolve getMapping i < 2 ^ 63 → a.data % 2 ^ 64 ≠ 0 →
      a.getItem getMapping m i =
        .ok (some (m.load (a.elemAddr (resolve getMapping i)) a.ctype.sizeof)) ∧
      a.setItem getMapping m i k =
        .ok (m.store (a.elemAddr (resolve getMapping i)) a.ctype.sizeof k, true)) ∧
    (0 ≤ p → p + (nv * offset t.toList names.length : Nat) ≤ 2 ^ 64 →
      0 ≤ resolve getMapping i → resolve getMapping i < nv →
      (a.element (resolve getMapping i)).Within a.column ∧
      (∀ z, Mem.Covers (a.elemAddr (resolve getMapping i)) a.ctype.sizeof z ↔
        (a.element (resolve getMapping i)).Contains z) ∧
      ∀ y ∈ names, y ≠ x → ∀ b, init dataPtr D y nv = .ok b → ∀ m' flag,
        a.setItem getMapping m i k = .ok (m', flag) → ∀ z, b.column.Contains z → m' z = m z) := by
  refine ⟨fun h => ⟨getItem_of_neg a _ m i h, setItem_of_neg a _ m i k h⟩, fun h => ?_,
    fun h0 h hn => ?_, fun h0 h hn => ?_, fun hp0 hfit h0 hnv => ?_⟩
  · rw [getItem_of_nonneg a _ m i (by omega), setItem_of_nonneg a _ m i k (by omega),
      itemAddr_of_large a h]
    exact ⟨rfl, rfl⟩
  · rw [getItem_of_nonneg a _ m i h0, setItem_of_nonneg a _ m i k h0, itemAddr_of_null a h0 h hn]
    exact ⟨rfl, rfl⟩
  · rw [getItem_of_nonneg a _ m i h0, setItem_of_nonneg a _ m i k h0, itemAddr_of_fits a h0 h hn]
    exact ⟨rfl, rfl⟩
  obtain ⟨a', ha', hanv, hta, hca, -⟩ := init_layout hp hD htags hx nv
  obtain rfl : a = a' := Except.ok.inj (ha.symm.trans ha')
  have hin : (a.element (resolve getMapping i)).Within a.column :=
    (element_within_iff a h0).mpr (hanv ▸ hnv)
  have hblob : a.column.Within ⟨p, nv * offset t.toList names.length⟩ :=
    hca ▸ layoutColumn_within p _ hta (List.indexOf_lt_length.mpr hx)
  have hcov := by
    unfold Region.Within at hin hblob; dsimp only at hblob; push_cast at hfit
    exact covers_iff_contains a (r := resolve getMapping i) (by omega) (by omega)
  refine ⟨hin, hcov, fun y hy hxy b hb m' flag hset z hz => ?_⟩
  obtain ⟨b', hb', -, htb, hcb, -⟩ := init_layout hp hD htags hy nv
  obtain rfl : b = b' := Except.ok.inj (hb.symm.trans hb')
  have hdisj : a.column.Disjoint b.column := by
    rw [hca, hcb]
    exact layoutColumn_disjoint p _ hta htb fun h => hxy ((List.indexOf_inj hx hy).mp h).symm
  rcases Int.lt_or_le (resolve getMapping i) (2 ^ 63) with h | h
  · by_cases hn : a.data % 2 ^ 64 = 0
    · rw [setItem_of_nonneg a _ m i k h0, itemAddr_of_null a h0 h hn] at hset
      cases hset
    rw [setItem_of_nonneg a _ m i k h0, itemAddr_of_fits a h0 h hn] at hset
    cases hset
    refine Mem.store_apply_of_not_covers fun hc => ?_
    exact (hdisj.mono hin (.refl _)).not_contains ((hcov z).mp hc) hz
  · rw [setItem_of_nonneg a _ m i k h0, itemAddr_of_large a h] at hset
    cases hset

theorem item_access_touches_only_element_dfi :
    let a : StingerDataArray := ⟨"y", 'f', 10, 1080, .cFloat⟩
    let i : PyVal := .str "v"
    let getMapping : String → Int := fun _ => 3
    let m : Mem := fun _ => 0
    let k : Nat → UInt8 := fun _ => 1
    (resolve getMapping i < 0 →
      a.getItem getMapping m i = .ok none ∧ a.setItem getMapping m i k = .ok (m, false)) ∧
    (2 ^ 63 ≤ resolve getMapping i →
      a.getItem getMapping m i = .error .indexError ∧
        a.setItem getMapping m i k = .error .indexError) ∧
    (0 ≤ resolve getMapping i → resolve getMapping i < 2 ^ 63 → a.data % 2 ^ 64 = 0 →
      a.getItem getMapping m i = .error .valueError ∧
        a.setItem getMapping m i k = .error .valueError) ∧
    (0 ≤ resolve getMapping i → resolve getMapping i < 2 ^ 63 → a.data % 2 ^ 64 ≠ 0 →
      a.getItem getMapping m i =
        .ok (some (m.load (a.elemAddr (resolve getMapping i)) a.ctype.sizeof)) ∧
      a.setItem getMapping m i k =
        .ok (m.store (a.elemAddr (resolve getMapping i)) a.ctype.sizeof k, true)) ∧
    (0 ≤ (1000 : Int) → (1000 : Int) + (10 * offset "dfi".toList 3 : Nat) ≤ 2 ^ 64 →
      0 ≤ resolve getMapping i → resolve getMapping i < (10 : Nat) →
      (a.element (resolve getMapping i)).Within a.column ∧
      (∀ z, Mem.Covers (a.elemAddr (resolve getMapping i)) a.ctype.sizeof z ↔
        (a.element (resolve getMapping i)).Contains z) ∧
      ∀ y ∈ ["x", "y", "z"], y ≠ "y" → ∀ b, init (.int 1000) "dfi x y z" y 10 = .ok b →
        ∀ m' flag, a.setItem getMapping m i k = .ok (m', flag) →
          ∀ z, b.column.Contains z → m' z = m z) :=
  @item_access_touches_only_element (.int 1000) 1000 rfl "dfi x y z" "dfi" ["x", "y", "z"] rfl
    (by decide) 10 "y" (by decide) ⟨"y", 'f', 10, 1080, .cFloat⟩ rfl _ _ _ _

end StingerDataArray

end StingerClient
