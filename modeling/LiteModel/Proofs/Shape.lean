import Mathlib.Algebra.BigOperators.Ring.List
import Mathlib.Algebra.Ring.Nat
import LiteModel.Shape

/-! Sizes of shapes as numbers without a bound. A product that is taken from the left may be given
up too early only where a later factor is zero, and then no product is taken; so a checked size is
the product of the dimensions whenever that is a 64-bit size, and none otherwise. The order of the
dimensions does not matter. -/
namespace LiteModel

namespace Word

theorem mul?_eq_some_iff {a b c : UInt64} : mul? a b = some c ↔ a.toNat * b.toNat = c.toNat := by
  unfold mul?
  by_cases fits : a.toNat * b.toNat < UInt64.size
  · have exact : (a * b).toNat = a.toNat * b.toNat := by
      rw [UInt64.toNat_mul]
      exact Nat.mod_eq_of_lt fits
    rw [if_pos fits, Option.some.injEq, ← UInt64.toNat_inj, exact]
  · have small := c.toNat_lt
    have size : UInt64.size = 2 ^ 64 := rfl
    rw [if_neg fits]
    simp only [reduceCtorEq, false_iff]
    omega

theorem prod_eq_zero_iff {dims : List UInt64} :
    (dims.map UInt64.toNat).prod = 0 ↔ 0 ∈ dims := by
  have zero : ∀ d : UInt64, d.toNat = 0 ↔ d = 0 := fun d => UInt64.toNat_inj (b := 0)
  simp [List.prod_eq_zero_iff, zero]

/-- A product of factors that are not zero is none just when it is out of range: no partial product
is larger than the whole. -/
theorem foldlM_mul?_eq_some_iff {dims : List UInt64} (nonzero : 0 ∉ dims) {a c : UInt64} :
    dims.foldlM mul? a = some c ↔ a.toNat * (dims.map UInt64.toNat).prod = c.toNat := by
  induction dims generalizing a with
  | nil => simp [UInt64.toNat_inj]
  | cons d rest ih =>
    obtain ⟨-, others⟩ := not_or.1 (List.mem_cons.not.1 nonzero)
    simp only [List.foldlM_cons, Option.bind_eq_bind, Option.bind_eq_some_iff, mul?_eq_some_iff,
      ih others, List.map_cons, List.prod_cons]
    constructor
    · rintro ⟨b, first, whole⟩
      rw [← Nat.mul_assoc, first, whole]
    · intro whole
      rw [← Nat.mul_assoc] at whole
      have positive : 0 < (rest.map UInt64.toNat).prod :=
        Nat.pos_of_ne_zero (prod_eq_zero_iff.not.2 others)
      have fits : a.toNat * d.toNat < 2 ^ 64 :=
        Nat.lt_of_le_of_lt (Nat.le_mul_of_pos_right _ positive) (whole ▸ c.toNat_lt)
      have exact : (UInt64.ofNat (a.toNat * d.toNat)).toNat = a.toNat * d.toNat :=
        UInt64.toNat_ofNat_of_lt' fits
      exact ⟨UInt64.ofNat (a.toNat * d.toNat), exact.symm, by rw [exact, whole]⟩

theorem prod_of_foldlM_mul? {dims : List UInt64} {a c : UInt64}
    (h : dims.foldlM mul? a = some c) : a.toNat * (dims.map UInt64.toNat).prod = c.toNat := by
  induction dims generalizing a with
  | nil =>
    cases h
    simp
  | cons d rest ih =>
    rw [List.foldlM_cons, Option.bind_eq_bind, Option.bind_eq_some_iff] at h
    obtain ⟨b, first, others⟩ := h
    rw [List.map_cons, List.prod_cons, ← Nat.mul_assoc, mul?_eq_some_iff.1 first, ih others]

def inRange? (n : Nat) : Option Nat := if n < UInt64.size then some n else none

theorem isSome_inRange?_iff {n : Nat} : (inRange? n).isSome = true ↔ n < UInt64.size := by
  unfold inRange?
  split <;> simp_all

theorem map_toNat_eq_inRange? {size? : Option UInt64} {n : Nat}
    (exact : ∀ c, size? = some c ↔ n = c.toNat) : size?.map UInt64.toNat = inRange? n := by
  unfold inRange?
  split
  next fits =>
    have same : (UInt64.ofNat n).toNat = n := UInt64.toNat_ofNat_of_lt' fits
    rw [(exact _).2 same.symm, Option.map_some, same]
  next beyond =>
    rw [Option.map_eq_none_iff, Option.eq_none_iff_forall_ne_some]
    intro c given
    exact beyond ((exact c).1 given ▸ c.toNat_lt)

theorem toNat_getD_largest {size? : Option UInt64} {n : Nat}
    (exact : ∀ c, size? = some c ↔ n = c.toNat) :
    (size?.getD largest).toNat = min n (UInt64.size - 1) := by
  have top : largest.toNat = UInt64.size - 1 := rfl
  rw [← Option.getD_map UInt64.toNat, map_toNat_eq_inRange? exact, top, inRange?]
  split
  · rw [Option.getD_some]
    omega
  · rw [Option.getD_none]
    omega

end Word

namespace Shape

def count (s : Shape) : Nat := (s.dims.map UInt64.toNat).prod

def byteCount (s : Shape) (t : ElementType) : Nat := s.count * t.byteSize

variable {s : Shape} {t : ElementType}

theorem count_eq_zero_iff : s.count = 0 ↔ s.isEmpty = true := by
  rw [count, Word.prod_eq_zero_iff, isEmpty, List.contains_iff_mem]

theorem elementCount?_eq_some_iff {c : UInt64} : s.elementCount? = some c ↔ s.count = c.toNat := by
  unfold elementCount?
  by_cases empty : s.isEmpty = true
  · rw [if_pos empty, count_eq_zero_iff.2 empty, Option.some.injEq, ← UInt64.toNat_inj]
    rfl
  · have nonzero : 0 ∉ s.dims := by simpa [isEmpty] using empty
    have one : (1 : UInt64).toNat = 1 := rfl
    rw [if_neg empty, Word.foldlM_mul?_eq_some_iff nonzero, one, Nat.one_mul, count]

theorem byteSize?_eq_some_iff {n : UInt64} : s.byteSize? t = some n ↔ s.byteCount t = n.toNat := by
  have width : (UInt64.ofNat t.byteSize).toNat = t.byteSize := by cases t <;> rfl
  simp only [byteSize?, Option.bind_eq_bind, Option.bind_eq_some_iff, elementCount?_eq_some_iff,
    Word.mul?_eq_some_iff, width, byteCount]
  constructor
  · rintro ⟨c, elements, bytes⟩
    rw [elements, bytes]
  · intro bytes
    have fits : s.count < 2 ^ 64 :=
      Nat.lt_of_le_of_lt (Nat.le_mul_of_pos_right _ t.byteSize_pos) (bytes ▸ n.toNat_lt)
    have exact : (UInt64.ofNat s.count).toNat = s.count := UInt64.toNat_ofNat_of_lt' fits
    exact ⟨UInt64.ofNat s.count, exact.symm, by rw [exact, bytes]⟩

theorem toNat_byteSize_min : (s.byteSize t).toNat = min (s.byteCount t) (UInt64.size - 1) :=
  Word.toNat_getD_largest fun _ => byteSize?_eq_some_iff

theorem toNat_elementCount_min : s.elementCount.toNat = min s.count (UInt64.size - 1) :=
  Word.toNat_getD_largest fun _ => elementCount?_eq_some_iff

theorem toNat_byteSize (fits : s.byteCount t < UInt64.size) :
    (s.byteSize t).toNat = s.byteCount t := by
  rw [toNat_byteSize_min]
  omega

theorem toNat_elementCount (fits : s.count < UInt64.size) : s.elementCount.toNat = s.count := by
  rw [toNat_elementCount_min]
  omega

theorem isSome_byteSize?_iff : (s.byteSize? t).isSome = true ↔ s.byteCount t < UInt64.size := by
  have size := Word.map_toNat_eq_inRange? fun n => byteSize?_eq_some_iff (s := s) (t := t) (n := n)
  rw [← Option.isSome_map (f := UInt64.toNat), size, Word.isSome_inRange?_iff]

/-- What the sizes of a shape are by the product of its dimensions: the product itself and the bytes
of as many elements, as long as they are in range. -/
structure Measures (s : Shape) (t : ElementType) (product : Nat) : Prop where
  elementCount? : s.elementCount?.map UInt64.toNat = Word.inRange? product
  byteSize? : (s.byteSize? t).map UInt64.toNat = Word.inRange? (product * t.byteSize)
  elementCount : s.elementCount.toNat = min product (UInt64.size - 1)
  byteSize : (s.byteSize t).toNat = min (product * t.byteSize) (UInt64.size - 1)

theorem measures_count : s.Measures t s.count where
  elementCount? := Word.map_toNat_eq_inRange? fun _ => elementCount?_eq_some_iff
  byteSize? := Word.map_toNat_eq_inRange? fun _ => byteSize?_eq_some_iff
  elementCount := toNat_elementCount_min
  byteSize := toNat_byteSize_min

structure Sizes where
  elementCount? : Option UInt64
  byteSize? : Option UInt64
  elementCount : UInt64
  byteSize : UInt64

def sizes (s : Shape) (t : ElementType) : Sizes :=
  ⟨s.elementCount?, s.byteSize? t, s.elementCount, s.byteSize t⟩

theorem Measures.unique {u : Shape} {product : Nat} (first : s.Measures t product)
    (second : u.Measures t product) : s.sizes t = u.sizes t := by
  have apart : Function.Injective (Option.map UInt64.toNat) :=
    Option.map_injective fun _ _ => UInt64.toNat_inj.1
  rw [sizes, sizes, Sizes.mk.injEq]
  exact ⟨apart (first.elementCount?.trans second.elementCount?.symm),
    apart (first.byteSize?.trans second.byteSize?.symm),
    UInt64.toNat_inj.1 (first.elementCount.trans second.elementCount.symm),
    UInt64.toNat_inj.1 (first.byteSize.trans second.byteSize.symm)⟩

theorem count_perm {u : Shape} (order : s.dims.Perm u.dims) : s.count = u.count :=
  (order.map UInt64.toNat).prod_eq

/-- Sizes are exact, or out of range and known to be: taking the product from the left and giving
up where it leaves the range loses nothing, in whatever order the dimensions stand. -/
theorem measures_product (s : Shape) (t : ElementType) :
    s.Measures t (s.dims.map UInt64.toNat).prod ∧
      ∀ u : Shape, s.dims.Perm u.dims → s.sizes t = u.sizes t := by
  refine ⟨measures_count, fun u order => ?_⟩
  have other : u.Measures t s.count := count_perm order ▸ measures_count
  exact measures_count.unique other

def zeroLast : Shape := ⟨[0x8000000000000000, 2, 0]⟩

def zeroFirst : Shape := ⟨[0, 0x8000000000000000, 2]⟩

theorem measures_product_zeroLast : zeroLast.dims.Perm zeroFirst.dims ∧
    zeroLast.Measures .f32 0 ∧ zeroLast.sizes .f32 = zeroFirst.sizes .f32 := by
  have order : zeroLast.dims.Perm zeroFirst.dims := by decide
  obtain ⟨exact, alike⟩ := measures_product zeroLast .f32
  exact ⟨order, exact, alike zeroFirst order⟩

end Shape

end LiteModel
