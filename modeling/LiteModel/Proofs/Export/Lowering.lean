import LiteModel.Export.Assembly
import LiteModel.Container.Summary
import LiteModel.Proofs.Sequencing
import LiteModel.Proofs.Container.RoundTrip

/-! The options that lowering gives an operator and what a container keeps of them. A softmax scale
is a finite number whatever text it was read from, so the container gives back an equal one: a zero
may lose its sign and nothing else is lost. -/
namespace LiteModel

open Sequencing

namespace Decimal.Binary32

def unsigned (bits : UInt32) : Nat := bits.toNat % 0x80000000

def IsFinite (bits : UInt32) : Prop := unsigned bits < 0x7f800000

/-- Equality of the values that two words of bits stand for. Zeros of either sign are equal, and an
undefined value equals nothing. -/
def SameValue (a b : UInt32) : Prop :=
  (unsigned a ≤ 0x7f800000 ∧ a = b) ∨ (unsigned a = 0 ∧ unsigned b = 0)

theorem IsFinite.refl {bits : UInt32} (h : IsFinite bits) : SameValue bits bits :=
  .inl ⟨Nat.le_of_lt h, rfl⟩

theorem isFinite_ofNat {n : Nat} (h : n < 0x7f800000) : IsFinite (UInt32.ofNat n) := by
  have fits : (UInt32.ofNat n).toNat = n := UInt32.toNat_ofNat_of_lt' (by
    rw [UInt32.size]
    omega)
  have whole : n % 0x80000000 = n := Nat.mod_eq_of_lt (by omega)
  rw [IsFinite, unsigned, fits, whole]
  exact h

theorem IsFinite.negative {bits : UInt32} (h : IsFinite bits) : IsFinite (bits ||| 0x80000000) := by
  have same : unsigned (bits ||| 0x80000000) = unsigned bits := by
    have split := Nat.or_mod_two_pow (a := bits.toNat) (b := 0x80000000) (n := 31)
    have sign : 0x80000000 % 2 ^ 31 = 0 := by decide
    rw [sign, Nat.or_zero] at split
    rw [unsigned, UInt32.toNat_or]
    exact split
  rw [IsFinite, same]
  exact h

theorem isFinite_zero : IsFinite 0 := by
  unfold IsFinite unsigned
  decide

theorem ofRatio?_finite {num den : Nat} {bits : UInt32} (h : ofRatio? num den = some bits) :
    IsFinite bits := by
  have guarded : ∀ n, (if n < 0x7f800000 then some (UInt32.ofNat n) else none) = some bits →
      IsFinite bits := by
    intro n hn
    by_cases below : n < 0x7f800000
    · rw [if_pos below] at hn
      cases hn
      exact isFinite_ofNat below
    · rw [if_neg below] at hn
      cases hn
  unfold ofRatio? at h
  by_cases zero : num = 0
  · rw [if_pos zero] at h
    cases h
    exact isFinite_zero
  · rw [if_neg zero] at h
    exact guarded _ h

theorem Magnitude.bits?_finite {m : Magnitude} {bits : UInt32} (h : m.bits? = some bits) :
    IsFinite bits := by
  unfold Magnitude.bits? at h
  dsimp only at h
  split at h
  · cases h
    exact isFinite_zero
  · split at h
    · cases h
    · split at h
      · exact ofRatio?_finite h
      · exact ofRatio?_finite h

theorem ofText?_finite {text : List Char} {bits : UInt32} (h : ofText? text = some bits) :
    IsFinite bits := by
  unfold ofText? at h
  simp only [Option.bind_eq_bind, Option.bind_eq_some_iff] at h
  obtain ⟨m, -, size, read, h⟩ := h
  have finite := Magnitude.bits?_finite read
  split at h
  · cases h
    exact finite.negative
  · cases h
    exact finite

theorem toNat_and_magnitude (bits : UInt32) : (bits &&& 0x7fffffff).toNat = unsigned bits := by
  rw [UInt32.toNat_and]
  exact Nat.and_two_pow_sub_one_eq_mod _ 31

theorem storedBeta_sameValue {bits : UInt32} (h : IsFinite bits) :
    SameValue (Container.Options.storedBeta bits) bits := by
  unfold Container.Options.storedBeta
  by_cases zero : bits &&& 0x7fffffff = 0
  · have nothing : unsigned bits = 0 := by
      rw [← toNat_and_magnitude, zero]
      rfl
    rw [if_pos zero]
    exact .inr ⟨by decide, nothing⟩
  · rw [if_neg zero]
    exact h.refl

end Decimal.Binary32

namespace OperatorOptions

def IsFinite : OperatorOptions → Prop
  | fullyConnected _ => True
  | softmax beta => Decimal.Binary32.IsFinite beta

inductive Same : OperatorOptions → OperatorOptions → Prop where
  | fullyConnected (activation : Activation) :
    Same (.fullyConnected activation) (.fullyConnected activation)
  | softmax {a b : UInt32} (values : Decimal.Binary32.SameValue a b) :
    Same (.softmax a) (.softmax b)

end OperatorOptions

namespace Operation

theorem property_ok {α : Type} {l : Layer} {key : String} {default a : α}
    {read? : String → Option α} (h : property l key default read? = .ok a) :
    a = default ∨ ∃ value, read? value = some a := by
  unfold property at h
  split at h
  · cases h
    exact .inl rfl
  next value _ =>
    split at h
    next read =>
      cases h
      exact .inr ⟨value, read⟩
    next => cases h

theorem optionsOf_finite {kind : OperatorKind} {l : Layer} {options : Option OperatorOptions}
    (h : optionsOf kind l = .ok options) : ∀ o ∈ options, o.IsFinite := by
  unfold optionsOf at h
  split at h
  · rw [bind_ok_iff] at h
    obtain ⟨activation, -, h⟩ := h
    cases h
    simp [OperatorOptions.IsFinite]
  · rw [bind_ok_iff] at h
    obtain ⟨beta, given, h⟩ := h
    cases h
    have finite : Decimal.Binary32.IsFinite beta := by
      rcases property_ok given with rfl | ⟨value, read⟩
      · unfold Decimal.Binary32.IsFinite
        decide
      · exact Decimal.Binary32.ofText?_finite read
    simpa [OperatorOptions.IsFinite] using finite
  · cases h
    simp

theorem ofLayer_ok {l : Layer} {o : Operation} (h : ofLayer l = .ok o) :
    OperatorKind.ofLayerType? l.layerType = some o.kind ∧ o.name = l.name ∧
      o.inputs = l.inputs ∧ o.outputs = l.outputs ∧ o.weights = l.weights := by
  unfold ofLayer at h
  split at h
  · cases h
  next kind known =>
    rw [bind_ok_iff] at h
    obtain ⟨options, -, h⟩ := h
    cases h
    exact ⟨known, rfl, rfl, rfl, rfl⟩

theorem ofLayer_finite {l : Layer} {o : Operation} (h : ofLayer l = .ok o) :
    ∀ options ∈ o.options, options.IsFinite := by
  unfold ofLayer at h
  split at h
  · cases h
  · rw [bind_ok_iff] at h
    obtain ⟨options, given, h⟩ := h
    cases h
    exact optionsOf_finite given

end Operation

/-- What a summary knows of an operator's options after they were stored. -/
theorem OperatorOptions.same_known? {options : Option OperatorOptions}
    (h : ∀ o ∈ options, o.IsFinite) :
    Option.Rel OperatorOptions.Same (Assembly.optionsOf options).stored.known? options := by
  cases options with
  | none => exact .none
  | some o =>
    have finite := h o rfl
    cases o with
    | fullyConnected activation =>
      have known : (Assembly.optionsOf (some (.fullyConnected activation))).stored.known? =
          some (.fullyConnected activation) := by
        simp [Assembly.optionsOf, Container.Options.stored, Container.Options.known?,
          Activation.ofCode?_code]
      rw [known]
      exact .some (.fullyConnected activation)
    | softmax beta => exact .some (.softmax (Decimal.Binary32.storedBeta_sameValue finite))

end LiteModel
