import LiteModel.ModelDirectory
import LiteModel.Proofs.Sequencing
import LiteModel.Proofs.Shape

/-! Tensors out of an archive. The ranges of an archive follow one another up to the end of the
data, and each is as long as its shape and type say; so a tensor that is asked for by name is there
as stored, or it is missing, or its type is none that tensors have. Nothing else can go wrong. -/
namespace LiteModel

open Sequencing

namespace Weights

variable {entries : List (String × Tensor)} {name : String}

theorem ofList_eq (entries : List (String × Tensor)) : Weights.ofList entries = ⟨entries.reverse⟩ := by
  have onto : ∀ w : Weights, entries.foldl (fun w e => w.insert e.1 e.2) w =
      ⟨entries.reverse ++ w.entries⟩ := by
    induction entries with
    | nil => intro w; rfl
    | cons e rest ih =>
      intro w
      rw [List.foldl_cons, ih, List.reverse_cons, List.append_assoc]
      rfl
  rw [ofList, onto, List.append_nil]

theorem find?_ofList_eq_none (absent : name ∉ entries.map (·.1)) :
    (Weights.ofList entries).find? name = none := by
  rw [ofList_eq, find?, List.lookup_eq_none_iff]
  intro e member
  have different : name ≠ e.1 := fun same =>
    absent (List.mem_map.2 ⟨e, List.mem_reverse.1 member, same.symm⟩)
  simpa using different

theorem find?_ofList {x : Tensor} (distinct : (entries.map (·.1)).Nodup)
    (member : (name, x) ∈ entries) : (Weights.ofList entries).find? name = some x := by
  obtain ⟨before, after, rfl⟩ := List.append_of_mem member
  rw [List.map_append, List.map_cons, List.nodup_append, List.nodup_cons] at distinct
  rw [ofList_eq, find?, List.lookup_eq_some_iff]
  refine ⟨after.reverse, before.reverse, by simp, fun e later => ?_⟩
  have different : name ≠ e.1 := fun same =>
    distinct.2.1.1 (List.mem_map.2 ⟨e, List.mem_reverse.1 later, same.symm⟩)
  simpa using different

end Weights

namespace Archive

/-- The range of an entry lies in the data and is as long as the elements take. -/
structure Fits (a : Archive) (e : ArchiveEntry) : Prop where
  ordered : e.start ≤ e.stop
  inside : e.stop.toNat ≤ a.data.length
  sized : e.byteSize? = some (e.stop - e.start)

def Sound (a : Archive) : Prop := ∀ e ∈ a.entries, a.Fits e

/-- What an archive has under a name: a type, the dimensions and the bytes. -/
def stored? (a : Archive) (name : String) : Option (StoredType × List UInt64 × List UInt8) :=
  (a.find? name).map fun e => (e.type, e.dims, a.bytesOf e)

def restore (id : BufferId) (name : String) :
    Option (StoredType × List UInt64 × List UInt8) → Except LoadError Tensor
  | none => .error (.model (.weightNotFound name))
  | some (type, dims, bytes) =>
    match type.elementType? with
    | none => .error (.unsupportedType type)
    | some t => .ok ⟨⟨dims⟩, t, some (.ofBytes id bytes)⟩

variable {a : Archive} {e : ArchiveEntry}

theorem follow_ok {previous stop : UInt64} (h : e.follow previous = .ok stop) :
    e.start = previous ∧ e.start ≤ e.stop ∧ e.byteSize? = some (e.stop - e.start) ∧
      e.stop = stop := by
  unfold ArchiveEntry.follow at h
  split at h
  next => cases h
  next near =>
    obtain ⟨next, ordered⟩ := not_or.1 near
    split at h
    next => cases h
    next size computed =>
      split at h
      next same =>
        cases h
        exact ⟨not_not.1 next, UInt64.not_lt.1 ordered, same ▸ computed, rfl⟩
      next => cases h

theorem of_foldlM_follow {entries : List ArchiveEntry} {previous stop : UInt64}
    (h : entries.foldlM (fun previous e => e.follow previous) previous = .ok stop) :
    previous ≤ stop ∧ ∀ e ∈ entries, e.start ≤ e.stop ∧ e.stop ≤ stop ∧
      e.byteSize? = some (e.stop - e.start) := by
  induction entries generalizing previous with
  | nil =>
    cases h
    exact ⟨UInt64.le_refl _, by simp⟩
  | cons e rest ih =>
    rw [List.foldlM_cons, bind_ok_iff] at h
    obtain ⟨_, first, others⟩ := h
    obtain ⟨rfl, ordered, sized, rfl⟩ := follow_ok first
    obtain ⟨further, each⟩ := ih others
    exact ⟨UInt64.le_trans ordered further,
      List.forall_mem_cons.2 ⟨⟨ordered, further, sized⟩, each⟩⟩

theorem sound_of_ofBytes {bytes : List UInt8} (h : Archive.ofBytes bytes = .ok a) : a.Sound := by
  unfold Archive.ofBytes at h
  simp only [refuse_ok_iff] at h
  obtain ⟨-, -, -, h⟩ := h
  split at h
  next header _ =>
    split at h
    next entries _ =>
      obtain ⟨stop, passed, h⟩ := bind_ok_iff.1 h
      obtain ⟨-, each⟩ := of_foldlM_follow passed
      split at h
      next whole =>
        cases h
        intro e member
        obtain ⟨ordered, inside, sized⟩ := each e member
        exact ⟨ordered, whole ▸ UInt64.le_iff_toNat_le.1 inside, sized⟩
      next => cases h
    next => cases h
  next => cases h

theorem Fits.byteCount (h : a.Fits e) {t : ElementType} (known : e.type.elementType? = some t) :
    (Shape.mk e.dims).byteCount t = e.stop.toNat - e.start.toNat := by
  obtain ⟨count, elements, bytes⟩ := Option.bind_eq_some_iff.1 h.sized
  have product := Word.prod_of_foldlM_mul? elements
  have size := Word.mul?_eq_some_iff.1 bytes
  have width : (UInt64.ofNat t.byteSize).toNat = t.byteSize := by cases t <;> rfl
  have one : (1 : UInt64).toNat = 1 := rfl
  rw [StoredType.byteSize_of_elementType? known, width, ← product, one, Nat.one_mul,
    UInt64.toNat_sub_of_le _ _ h.ordered] at size
  exact size

theorem Fits.length_bytesOf (h : a.Fits e) :
    (a.bytesOf e).length = e.stop.toNat - e.start.toNat := by
  have inside := h.inside
  rw [bytesOf, List.length_take, List.length_drop]
  omega

/-- The bytes of an entry have the length that a tensor of its form asks for, so this last check
never fails. -/
theorem Sound.tensor_eq (h : a.Sound) (id : BufferId) (name : String) :
    a.tensor id name = restore id name (a.stored? name) := by
  unfold Archive.tensor stored?
  cases found : a.find? name with
  | none => rfl
  | some e =>
    have fits := h e (List.mem_of_find?_eq_some found)
    dsimp only [Option.map_some, restore]
    cases known : e.type.elementType? with
    | none => rfl
    | some t =>
      have small : (Shape.mk e.dims).byteCount t < UInt64.size := by
        rw [fits.byteCount known]
        exact Nat.lt_of_le_of_lt (Nat.sub_le _ _) e.stop.toNat_lt
      have length : (a.bytesOf e).length = ((Shape.mk e.dims).byteSize t).toNat := by
        rw [Shape.toNat_byteSize small, fits.byteCount known, fits.length_bytesOf]
      simp only [Tensor.ofBytes, length, if_true, Except.mapError]

theorem restore_ok_iff {id : BufferId} {name : String} {x : Tensor}
    {s : Option (StoredType × List UInt64 × List UInt8)} : restore id name s = .ok x ↔
      ∃ type dims bytes t, s = some (type, dims, bytes) ∧ type.elementType? = some t ∧
        ⟨⟨dims⟩, t, some (.ofBytes id bytes)⟩ = x := by
  cases s with
  | none => simp [restore]
  | some stored =>
    obtain ⟨type, dims, bytes⟩ := stored
    cases known : type.elementType? with
    | none => simp [restore, known]
    | some t => simp [restore, known]

section Weights

variable {names : List String}

theorem find?_of_weights {w : Weights} (distinct : names.Nodup) (h : a.weights names = .ok w) :
    (∀ (k : Nat) (name : String), names[k]? = some name →
      ∃ x, a.tensor ⟨k⟩ name = .ok x ∧ w.find? name = some x) ∧
    ∀ name, name ∉ names → w.find? name = none := by
  unfold weights at h
  obtain ⟨tensors, read, h⟩ := bind_ok_iff.1 h
  cases h
  have keys : tensors.map (·.1) = names := by
    rw [map_eq_of_mapM (q := fun place => place.1) read, List.zipIdx_map_fst]
    rintro place _ given
    obtain ⟨x, -, same⟩ := bind_ok_iff.1 given
    cases same
    rfl
  constructor
  · intro k name place
    have numbered : names.zipIdx[k]? = some (name, k) := by simp [place]
    obtain ⟨entry, there, given⟩ := forall₂_getElem? (mapM_ok_iff.1 read) numbered
    obtain ⟨x, here, same⟩ := bind_ok_iff.1 given
    cases same
    exact ⟨x, here, Weights.find?_ofList (keys ▸ distinct) (List.mem_of_getElem? there)⟩
  · intro name absent
    exact Weights.find?_ofList_eq_none (keys ▸ absent)

theorem exists_weights (each : ∀ name ∈ names, ∀ id, ∃ x, a.tensor id name = .ok x) :
    ∃ w, a.weights names = .ok w := by
  cases given : a.weights names with
  | ok w => exact ⟨w, rfl⟩
  | error e =>
    unfold weights at given
    rcases bind_error_iff.1 given with failed | ⟨_, -, failed⟩
    · obtain ⟨⟨name, k⟩, place, refused⟩ := exists_of_mapM_error failed
      obtain ⟨x, here⟩ := each name (List.fst_mem_of_mem_zipIdx place) ⟨k⟩
      simp [here, bind, Except.bind, pure, Except.pure] at refused
    · cases failed

theorem weights_congr {b : Archive} (ha : a.Sound) (hb : b.Sound)
    (agree : ∀ name ∈ names, a.stored? name = b.stored? name) : a.weights names = b.weights names := by
  unfold weights
  rw [mapM_congr fun place member => ?_]
  have same := agree place.1 (List.fst_mem_of_mem_zipIdx member)
  dsimp only
  rw [ha.tensor_eq, hb.tensor_eq, same]

end Weights

end Archive

end LiteModel
