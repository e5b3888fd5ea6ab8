import LiteModel.Tensor.Session
import LiteModel.Proofs.Shape

/-! Tensors that a session makes. A storage is as long as the shape and the element type of its
tensor say, if that is a size at all, and tensors with storages of one id are the same tensor: ids
are taken in turn, and a clone is a copy of all of a tensor. -/
namespace LiteModel.Tensor

/-- The storage has as many bytes as the elements take, unless no storage could. -/
def Sized (t : Tensor) : Prop := ∀ s, t.storage = some s →
  t.shape.byteCount t.elementType < UInt64.size →
    s.bytes.length = t.shape.byteCount t.elementType

theorem sized_of_storage_none {t : Tensor} (none : t.storage = none) : t.Sized := by
  intro s stored
  cases none.symm.trans stored

theorem sized_zeros (id : BufferId) (shape : Shape) (type : ElementType) :
    (zeros id shape type).Sized := by
  rintro s ⟨⟩ fits
  rw [Storage.bytes_zeros, List.length_replicate]
  exact Shape.toNat_byteSize fits

theorem sized_ofBytes {id : BufferId} {shape : Shape} {type : ElementType} {bytes : List UInt8}
    {t : Tensor} (h : ofBytes id shape type bytes = .ok t) : t.Sized := by
  unfold ofBytes at h
  dsimp only at h
  split at h
  next length =>
    cases h
    rintro s ⟨⟩ fits
    exact length.trans (Shape.toNat_byteSize fits)
  next => cases h

theorem length_flatMap_bytes (width : Nat) (values : List UInt32) :
    (values.flatMap fun v => Word.bytes width v.toNat).length = values.length * width := by
  simp only [List.length_flatMap, Word.length_bytes, List.map_const', List.sum_replicate_nat]

theorem sized_ofValues {id : BufferId} {shape : Shape} {values : List UInt32} {t : Tensor}
    (h : ofValues id shape values = .ok t) : t.Sized := by
  unfold ofValues at h
  split at h
  next length =>
    cases h
    rintro s ⟨⟩ fits
    have elements : shape.count < UInt64.size :=
      Nat.lt_of_le_of_lt (Nat.le_mul_of_pos_right _ (ElementType.byteSize_pos .f32)) fits
    rw [Storage.bytes_ofBytes, length_flatMap_bytes, length, Shape.toNat_elementCount elements]
    rfl
  next => cases h

def Construction.copied? : Construction → Option Nat
  | .clone position => some position
  | _ => none

namespace Session

/-- What holds of all tensors that a session made so far. -/
structure Sound (s : Session) : Prop where
  sized : ∀ t ∈ s.tensors, t.Sized
  taken : ∀ t ∈ s.tensors, ∀ b, t.storage = some b → b.id.number < s.nextBuffer
  owned : ∀ t ∈ s.tensors, ∀ u ∈ s.tensors, ∀ b c, t.storage = some b → u.storage = some c →
    b.id = c.id → t = u

variable {s next : Session} {t : Tensor}

theorem sound_empty : ({} : Session).Sound := by
  constructor <;> simp

theorem add_ok {c : Construction} (h : s.add c = .ok next) :
    ∃ t, s.construct c = .ok t ∧ next =
      ⟨s.tensors.push t, if c.allocates then s.nextBuffer + 1 else s.nextBuffer⟩ := by
  unfold Session.add at h
  cases made : s.construct c with
  | error e => simp [made, bind, Except.bind] at h
  | ok t =>
    simp only [made, bind, Except.bind, pure, Except.pure, Except.ok.injEq] at h
    exact ⟨t, rfl, h.symm⟩

theorem construct_clone {p : Nat} (h : s.construct (.clone p) = .ok t) :
    s.tensors[p]? = some t := by
  unfold construct at h
  dsimp only at h
  split at h
  next found =>
    cases h
    exact found
  next => cases h

theorem sized_of_construct {c : Construction} (h : s.construct c = .ok t)
    (own : c.copied? = none) : t.Sized := by
  cases c with
  | zeros shape type =>
    cases h
    exact sized_zeros _ _ _
  | bytes shape type data => exact sized_ofBytes h
  | values shape bits => exact sized_ofValues h
  | placeholder shape type =>
    cases h
    exact sized_of_storage_none rfl
  | uninitialized type =>
    cases h
    exact sized_of_storage_none rfl
  | clone position => cases own

theorem isAllocated_of_construct (h : s.construct c = .ok t) (own : c.copied? = none) :
    t.isAllocated = c.allocates := by
  cases c with
  | zeros => cases h; rfl
  | bytes =>
    unfold construct ofBytes at h
    dsimp only at h
    split at h <;> cases h
    rfl
  | values =>
    unfold construct ofValues at h
    dsimp only at h
    split at h <;> cases h
    rfl
  | placeholder => cases h; rfl
  | uninitialized => cases h; rfl
  | clone => cases own

theorem fresh_of_construct {c : Construction} (h : s.construct c = .ok t)
    (own : c.copied? = none) {b : Storage} (stored : t.storage = some b) :
    b.id = ⟨s.nextBuffer⟩ := by
  cases c with
  | zeros shape type =>
    cases h
    cases stored
    rfl
  | bytes shape type data =>
    unfold construct ofBytes at h
    dsimp only at h
    split at h <;> cases h
    cases stored
    rfl
  | values shape bits =>
    unfold construct ofValues at h
    dsimp only at h
    split at h <;> cases h
    cases stored
    rfl
  | placeholder shape type =>
    cases h
    cases stored
  | uninitialized type =>
    cases h
    cases stored
  | clone position => cases own

theorem construct_ok {c : Construction} (h : s.construct c = .ok t) : t ∈ s.tensors ∨
    t.Sized ∧ ∀ b, t.storage = some b → b.id = ⟨s.nextBuffer⟩ ∧ c.allocates = true := by
  cases own : c.copied? with
  | none =>
    refine .inr ⟨sized_of_construct h own, fun b stored => ⟨fresh_of_construct h own stored, ?_⟩⟩
    rw [← isAllocated_of_construct h own, isAllocated, stored, Option.isSome_some]
  | some p =>
    cases c with
    | clone position => exact .inl (Array.mem_of_getElem? (construct_clone h))
    | _ => cases own

theorem Sound.add {c : Construction} (h : s.Sound) (added : s.add c = .ok next) : next.Sound := by
  obtain ⟨t, made, rfl⟩ := add_ok added
  have later : s.nextBuffer ≤ if c.allocates then s.nextBuffer + 1 else s.nextBuffer := by
    split <;> omega
  rcases construct_ok made with copy | ⟨sized, fresh⟩
  · -- the tensors are those there were
    have same : ∀ u, u ∈ s.tensors.push t ↔ u ∈ s.tensors := by
      intro u
      rw [Array.mem_push]
      exact ⟨fun h => h.elim id fun e => e ▸ copy, .inl⟩
    refine ⟨fun u hu => h.sized u ((same u).1 hu), fun u hu b hb => ?_,
      fun u hu v hv => h.owned u ((same u).1 hu) v ((same v).1 hv)⟩
    exact Nat.lt_of_lt_of_le (h.taken u ((same u).1 hu) b hb) later
  · have apart : ∀ u ∈ s.tensors, ∀ b c, u.storage = some b → t.storage = some c →
        b.id ≠ c.id := by
      intro u hu b c hb hc same
      have below := h.taken u hu b hb
      rw [same, (fresh c hc).1] at below
      exact Nat.lt_irrefl _ below
    refine ⟨fun u hu => ?_, fun u hu b hb => ?_, fun u hu v hv b c hb hc same => ?_⟩
    · rcases Array.mem_push.1 hu with old | rfl
      · exact h.sized u old
      · exact sized
    · rcases Array.mem_push.1 hu with old | rfl
      · exact Nat.lt_of_lt_of_le (h.taken u old b hb) later
      · obtain ⟨next, taken⟩ := fresh b hb
        rw [next, if_pos taken]
        exact Nat.lt_succ_self _
    · rcases Array.mem_push.1 hu with oldU | rfl <;> rcases Array.mem_push.1 hv with oldV | rfl
      · exact h.owned u oldU v oldV b c hb hc same
      · exact absurd same (apart u oldU b c hb hc)
      · exact absurd same.symm (apart v oldV c b hc hb)
      · rfl

theorem Sound.run (h : s.Sound) (steps : List Construction) : (s.run steps).Sound := by
  induction steps generalizing s with
  | nil => exact h
  | cons c rest ih =>
    rw [Session.run]
    split
    next added => exact ih (h.add added)
    next => exact ih h

end Session

end LiteModel.Tensor
