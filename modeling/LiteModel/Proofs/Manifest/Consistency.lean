import LiteModel.Manifest.Validation
import LiteModel.Proofs.Sequencing
import LiteModel.Proofs.Shape

/-! The rules of a manifest as one condition on the whole of it: what is known of a manifest once it
has passed them. Tensors and layers are both checked against the names seen before, so both have
distinct names, and the names of all tensors are those that references are looked up in. -/
namespace LiteModel.Manifest

open Sequencing

variable {m : Manifest}

/-- The element type is known and the size is in range. -/
def Sound (m : Manifest) (d : TensorDeclaration) : Prop :=
  ∃ type, ElementType.ofLabel? (m.labelOf d) = some type ∧ d.shape.byteCount type < 2 ^ 64

structure Consistent (m : Manifest) : Prop where
  nonempty : m.layers ≠ []
  labelled : ∃ type, ElementType.ofLabel? m.elementType = some type
  distinctTensors : m.tensorNames.Nodup
  sound : ∀ d ∈ m.tensors, m.Sound d
  distinctLayers : (m.layers.map (·.name)).Nodup
  declared : ∀ l ∈ m.layers, ∀ name ∈ l.references, name ∈ m.tensorNames
  endpoints : ∀ name ∈ m.inputs ++ m.outputs, name ∈ m.tensorNames

theorem elementTypeOf_ok_iff {d : TensorDeclaration} {type : ElementType} :
    m.elementTypeOf d = .ok type ↔ ElementType.ofLabel? (m.labelOf d) = some type := by
  unfold elementTypeOf
  cases ElementType.ofLabel? (m.labelOf d) <;> simp

theorem sound_iff {d : TensorDeclaration} : m.Sound d ↔
    ∃ type, m.elementTypeOf d = .ok type ∧ (d.shape.byteSize? type).isNone = false := by
  simp only [Sound, elementTypeOf_ok_iff, Option.isNone_eq_false_iff, Shape.isSome_byteSize?_iff]
  rfl

theorem checkTensor_ok_iff (m : Manifest) (seen : List String) (d : TensorDeclaration)
    (all : List String) :
    m.checkTensor seen d = .ok all ↔ d.name ∉ seen ∧ m.Sound d ∧ d.name :: seen = all := by
  simp only [checkTensor, sound_iff, refuse_ok_iff, bind_ok_iff, List.contains_iff_mem,
    Bool.not_eq_true, pure, Except.pure, Except.ok.injEq, ← exists_and_right, and_assoc]

theorem checkReferences_ok_iff (declared : List String) (referrer : String) (names : List String) :
    checkReferences declared referrer names = .ok () ↔ ∀ name ∈ names, name ∈ declared := by
  unfold checkReferences
  split
  next name missing =>
    simp only [reduceCtorEq, false_iff]
    intro all
    have absent := List.find?_some missing
    simp [all name (List.mem_of_find?_eq_some missing)] at absent
  next all => simpa using all

theorem checkLayer_ok_iff (declared seen : List String) (l : LayerDeclaration)
    (all : List String) : checkLayer declared seen l = .ok all ↔
      l.name ∉ seen ∧ (∀ name ∈ l.references, name ∈ declared) ∧ l.name :: seen = all := by
  rw [← checkReferences_ok_iff declared l.name]
  simp only [checkLayer, refuse_ok_iff, andThen_ok_iff, List.contains_iff_mem, pure, Except.pure,
    Except.ok.injEq]

theorem consistent_of_validate (h : m.validate = .ok ()) : m.Consistent := by
  simp only [validate, refuse_ok_iff, bind_ok_iff] at h
  obtain ⟨filled, labelled, declared, tensors, _, layers, endpoints⟩ := h
  obtain ⟨distinctTensors, -, sound, rfl⟩ := (foldlM_collect_ok_iff m.checkTensor_ok_iff).1 tensors
  obtain ⟨distinctLayers, -, references, -⟩ :=
    (foldlM_collect_ok_iff (checkLayer_ok_iff _)).1 layers
  have known : ∀ name, name ∈ (m.tensors.map (·.name)).reverse ++ [] → name ∈ m.tensorNames := by
    simp [tensorNames]
  exact {
    nonempty := by simpa using filled
    labelled := Option.ne_none_iff_exists'.1 (by simpa using labelled)
    distinctTensors, sound, distinctLayers
    declared := fun l layer name used => known name (references l layer name used)
    endpoints := fun name ending => known name ((checkReferences_ok_iff _ _ _).1 endpoints name ending) }

theorem validate_of_consistent (h : m.Consistent) : m.validate = .ok () := by
  have filled : ¬m.layers.isEmpty = true := by simpa using h.nonempty
  have labelled : ¬(ElementType.ofLabel? m.elementType).isNone = true := by
    obtain ⟨type, known⟩ := h.labelled
    simp [known]
  have known : ∀ name ∈ m.tensorNames, name ∈ m.tensorNames.reverse ++ [] := by simp
  -- the checks of tensors and of layers start from no names, so no name is there already
  have tensors : m.tensors.foldlM m.checkTensor [] = .ok (m.tensorNames.reverse ++ []) :=
    (foldlM_collect_ok_iff m.checkTensor_ok_iff).2
      ⟨h.distinctTensors, fun _ _ => List.not_mem_nil, h.sound, rfl⟩
  have layers : m.layers.foldlM (checkLayer (m.tensorNames.reverse ++ [])) [] =
      .ok ((m.layers.map (·.name)).reverse ++ []) :=
    (foldlM_collect_ok_iff (checkLayer_ok_iff _)).2
      ⟨h.distinctLayers, fun _ _ => List.not_mem_nil,
        fun l layer name used => known name (h.declared l layer name used), rfl⟩
  have endpoints : checkReferences (m.tensorNames.reverse ++ []) m.name (m.inputs ++ m.outputs) =
      .ok () :=
    (checkReferences_ok_iff _ _ _).2 fun name ending => known name (h.endpoints name ending)
  simp only [validate, refuse_ok_iff, bind_ok_iff]
  exact ⟨filled, labelled, _, tensors, _, layers, endpoints⟩

/-- A manifest passes its checks just when it is consistent as a whole, whatever the order of its
parts. A tensor without elements is never too large, wherever the zero stands among its dimensions. -/
theorem validate_ok_iff_consistent (m : Manifest) : (m.validate = .ok () ↔ m.Consistent) ∧
    ∀ (d : TensorDeclaration) (type : ElementType),
      ElementType.ofLabel? (m.labelOf d) = some type → 0 ∈ d.dims → m.Sound d := by
  refine ⟨⟨consistent_of_validate, validate_of_consistent⟩, fun d type known zero => ?_⟩
  have empty : d.shape.isEmpty = true := List.contains_iff_mem.2 zero
  refine ⟨type, known, ?_⟩
  rw [Shape.byteCount, Shape.count_eq_zero_iff.2 empty, Nat.zero_mul]
  decide

example : validate {
    name := "late zero"
    tensors := [⟨"x", [0x8000000000000000, 4, 0], none, .none⟩]
    layers := [⟨"act", "relu", ["x"], ["x"], [], .empty⟩] } = .ok () := by cbv

end LiteModel.Manifest
