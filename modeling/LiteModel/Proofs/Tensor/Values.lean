import LiteModel.Proofs.Tensor.Ancestry

/-! Values of 32 bits in tensors. Values are written as four bytes each and read four bytes at a
time, so that nothing is lost on either way as long as the bytes come in fours; that they do is what
the length of a storage says. -/
namespace LiteModel.Tensor

def valueBytes (values : List UInt32) : List UInt8 :=
  values.flatMap fun v => Word.bytes 4 v.toNat

theorem length_valueBytes (values : List UInt32) :
    (valueBytes values).length = values.length * 4 :=
  length_flatMap_bytes 4 values

theorem valueBytes_cons (v : UInt32) (rest : List UInt32) :
    valueBytes (v :: rest) = Word.bytes 4 v.toNat ++ valueBytes rest :=
  List.flatMap_cons

theorem words_append (v : UInt32) (rest : List UInt8) :
    words (Word.bytes 4 v.toNat ++ rest) = v :: words rest := by
  have small : v.toNat < Word.capacity 4 := v.toNat_lt
  have read : UInt32.ofNat (Word.ofBytes (Word.bytes 4 v.toNat)) = v := by
    rw [Word.ofBytes_bytes, Nat.mod_eq_of_lt small, UInt32.ofNat_toNat]
  exact congrArg (· :: words rest) read

theorem words_valueBytes (values : List UInt32) : words (valueBytes values) = values := by
  induction values with
  | nil => rfl
  | cons v rest ih => rw [valueBytes_cons, words_append, ih]

theorem valueBytes_words {bytes : List UInt8} (fours : 4 ∣ bytes.length) :
    valueBytes (words bytes) = bytes := by
  fun_induction words bytes with
  | case1 a b c d rest ih =>
    have others : 4 ∣ rest.length := by
      simp only [List.length_cons] at fours
      omega
    have small : Word.ofBytes [a, b, c, d] < 2 ^ 32 := Word.ofBytes_lt [a, b, c, d]
    have first : Word.bytes 4 (Word.ofBytes [a, b, c, d]) = [a, b, c, d] :=
      Word.bytes_ofBytes [a, b, c, d]
    rw [valueBytes_cons, UInt32.toNat_ofNat_of_lt' small, first, ih others]
    rfl
  | case2 bytes fewer =>
    -- fewer than four bytes come in fours only if there are none
    match bytes, fewer, fours with
    | [], _, _ => rfl
    | [_], _, fours => simp at fours
    | [_, _], _, fours => simp at fours
    | [_, _, _], _, fours => simp at fours
    | a :: b :: c :: d :: rest, fewer, _ => exact (fewer a b c d rest rfl).elim

variable {id : BufferId} {shape : Shape} {values : List UInt32} {t : Tensor}

/-- No list is as long as the largest size, which stands for the counts that are out of range; so the
length of a list is compared with the count itself. -/
theorem ofValues_eq (short : values.length < UInt64.size - 1) :
    ofValues id shape values =
      if values.length = shape.count then
        .ok ⟨shape, .f32, some (.ofBytes id (valueBytes values))⟩
      else .error (.sizeMismatch (min (shape.byteCount .f32) (UInt64.size - 1))
        (values.length * 4)) := by
  have same : values.length = shape.elementCount.toNat ↔ values.length = shape.count := by
    rw [Shape.toNat_elementCount_min]
    omega
  simp only [ofValues, same, Shape.toNat_byteSize_min]
  rfl

/-- The values are all that a tensor holds: as many as it has elements, no byte left over, and to
store them in its shape makes its bytes again. -/
structure Holds (t : Tensor) (values : List UInt32) : Prop where
  read : t.values? = some values
  count : values.length = t.shape.count
  whole : ∃ bytes, t.bytes? = some bytes ∧ bytes.length = values.length * 4
  again : ∀ id, ∃ u, ofValues id t.shape values = .ok u ∧ u.shape = t.shape ∧
    u.elementType = t.elementType ∧ u.bytes? = t.bytes?

theorem holds_stored (short : values.length < UInt64.size - 1)
    (count : values.length = shape.count) {x : Storage} (bytes : x.bytes = valueBytes values) :
    Holds ⟨shape, .f32, some x⟩ values where
  read := by
    show some (words x.bytes) = some values
    rw [bytes, words_valueBytes]
  count := count
  whole := ⟨x.bytes, rfl, by rw [bytes, length_valueBytes]⟩
  again other := by
    rw [ofValues_eq short, if_pos count]
    exact ⟨_, rfl, rfl, rfl, congrArg some bytes.symm⟩

/-- The length of a storage says that the bytes come in fours, one for each element. -/
theorem exists_holds (sized : t.Sized) (stored : t.isAllocated = true)
    (floats : t.elementType = .f32) (fits : t.shape.byteCount t.elementType < UInt64.size) :
    ∃ values, t.Holds values := by
  obtain ⟨shape, type, storage⟩ := t
  obtain ⟨x, rfl⟩ := Option.isSome_iff_exists.1 stored
  subst floats
  have inRange : shape.count * 4 < UInt64.size := fits
  have length : x.bytes.length = shape.count * 4 := sized x rfl fits
  have whole : valueBytes (words x.bytes) = x.bytes :=
    valueBytes_words (length ▸ Nat.dvd_mul_left 4 shape.count)
  have fours : (words x.bytes).length * 4 = x.bytes.length := by
    rw [← length_valueBytes, whole]
  have bound : UInt64.size = 2 ^ 64 := rfl
  exact ⟨words x.bytes, holds_stored (by omega) (by omega) whole.symm⟩

/-- Values of any bits come back from a tensor as they were put in, if they are as many as its
elements, and else are refused. The other way round, the values of a tensor that was made of zeros,
of bytes or of values are all that it holds. -/
theorem values_lossless :
    (∀ id shape values, values.length * 4 ≤ Construction.longest →
      (values.length = shape.count →
        ∃ t, ofValues id shape values = .ok t ∧ t.shape = shape ∧ t.elementType = .f32 ∧
          t.values? = some values) ∧
      (values.length ≠ shape.count →
        ofValues id shape values = .error
          (.sizeMismatch (min (shape.byteCount .f32) (UInt64.size - 1)) (values.length * 4)))) ∧
    ∀ (s : Session) c t, c.allocates = true → c.Feasible → s.construct c = .ok t →
      t.elementType = .f32 → ∃ values, t.Holds values := by
  constructor
  · intro id shape values short
    have bound : UInt64.size = 2 ^ 64 := rfl
    have most : Construction.longest = 2 ^ 63 - 1 := rfl
    have few : values.length < UInt64.size - 1 := by omega
    constructor
    · intro count
      exact ⟨_, (ofValues_eq few).trans (if_pos count), rfl, rfl, (holds_stored few count rfl).read⟩
    · intro other
      exact (ofValues_eq few).trans (if_neg other)
  · intro s c t stored feasible made floats
    have own := Construction.copied?_of_allocates stored
    exact exists_holds (Session.sized_of_construct made own)
      ((Session.isAllocated_of_construct made own).trans stored) floats
      (Session.byteCount_lt_of_construct made feasible stored)

def specials : List UInt32 := [0x7f800001, 0xff800000, 0x80000000]

def pair : Construction := .bytes (.vector 2) .f32 [1, 0, 0, 0, 0xff, 0xff, 0xff, 0xff]

theorem values_lossless_specials :
    specials.length * 4 ≤ Construction.longest ∧
    (specials.length = (Shape.vector 3).count ∧
      ∃ t, ofValues ⟨0⟩ (.vector 3) specials = .ok t ∧ t.shape = .vector 3 ∧
        t.elementType = .f32 ∧ t.values? = some specials) ∧
    (specials.length ≠ Shape.scalar.count ∧
      ofValues ⟨0⟩ .scalar specials = .error (.sizeMismatch 4 12)) ∧
    pair.allocates = true ∧ pair.Feasible ∧
    ∃ t, ({} : Session).construct pair = .ok t ∧ t.elementType = .f32 ∧
      ∃ values, t.Holds values := by
  obtain ⟨stored, made⟩ := values_lossless
  have short : specials.length * 4 ≤ Construction.longest := by decide
  have three : specials.length = (Shape.vector 3).count := rfl
  have notOne : specials.length ≠ Shape.scalar.count := by decide
  have feasible : pair.Feasible := by decide
  obtain ⟨accepted, -⟩ := stored ⟨0⟩ (.vector 3) specials short
  obtain ⟨-, refused⟩ := stored ⟨0⟩ .scalar specials short
  exact ⟨short, ⟨three, accepted three⟩, ⟨notOne, refused notOne⟩, rfl, feasible, _, rfl, rfl,
    made {} pair _ rfl feasible rfl rfl⟩

end LiteModel.Tensor
