import LiteModel.Proofs.Tensor

/-! Where the tensors of a session come from. Each is made by one call of a constructor, or is a
clone of an earlier one and so has the call that made that one for an ancestor. Tensors have one
buffer just when they have one ancestor; all that a tensor is, it is by its ancestor. -/
namespace LiteModel.Tensor

def bufferId? (t : Tensor) : Option BufferId := t.storage.map (·.id)

namespace Construction

theorem copied?_of_allocates {c : Construction} (stored : c.allocates = true) :
    c.copied? = none := by
  cases c with
  | clone => cases stored
  | _ => rfl

def longest : Nat := 0x7fffffffffffffff

/-- What a machine can be asked for: its lists are no longer than addresses reach, and zeros are
asked for only where they can be allocated. -/
def Feasible : Construction → Prop
  | .zeros shape type => (shape.byteSize type).toNat ≤ longest
  | .bytes _ _ data => data.length ≤ longest
  | .values _ bits => bits.length * 4 ≤ longest
  | .placeholder .. | .uninitialized _ | .clone _ => True

instance : (c : Construction) → Decidable c.Feasible
  | .zeros shape type => inferInstanceAs (Decidable ((shape.byteSize type).toNat ≤ longest))
  | .bytes _ _ data => inferInstanceAs (Decidable (data.length ≤ longest))
  | .values _ bits => inferInstanceAs (Decidable (bits.length * 4 ≤ longest))
  | .placeholder .. | .uninitialized _ | .clone _ => inferInstanceAs (Decidable True)

end Construction

namespace Session

/-- The constructions that succeed. Each makes one tensor, so that a tensor and the call that made
it have the same place. -/
def successes (s : Session) : List Construction → List Construction
  | [] => []
  | c :: rest =>
    match s.add c with
    | .ok next => c :: next.successes rest
    | .error _ => s.successes rest

end Session

/-- Among these calls, the one at the second place is that of a constructor from which the tensor at
the first place descends, by cloning any number of times. -/
inductive Ancestor (calls : List Construction) : Nat → Nat → Prop where
  | self {p : Nat} {c : Construction} (call : calls[p]? = some c) (own : c.copied? = none) :
    Ancestor calls p p
  | copy {p q a : Nat} (call : calls[p]? = some (.clone q)) (origin : Ancestor calls q a) :
    Ancestor calls p a

namespace Ancestor

variable {calls : List Construction} {p a b : Nat}

theorem own (h : Ancestor calls p a) : ∃ c, calls[a]? = some c ∧ c.copied? = none := by
  induction h with
  | self call own => exact ⟨_, call, own⟩
  | copy _ _ ih => exact ih

theorem unique (first : Ancestor calls p a) (second : Ancestor calls p b) : a = b := by
  induction first with
  | self call own =>
    cases second with
    | self => rfl
    | copy again =>
      cases call.symm.trans again
      cases own
  | copy call _ ih =>
    cases second with
    | self again own =>
      cases call.symm.trans again
      cases own
    | copy again origin =>
      cases call.symm.trans again
      exact ih origin

theorem exists_of_earlier (earlier : ∀ p q : Nat, calls[p]? = some (.clone q) → q < p)
    (place : p < calls.length) : ∃ a, Ancestor calls p a := by
  induction p using Nat.strongRecOn with
  | _ p ih =>
  have call : calls[p]? = some calls[p] := List.getElem?_eq_getElem place
  cases copied : calls[p].copied? with
  | none => exact ⟨p, .self call copied⟩
  | some q =>
    have clone : calls[p] = .clone q := by
      cases made : calls[p] <;> rw [made] at copied <;> cases copied
      rfl
    rw [clone] at call
    have before := earlier p q call
    obtain ⟨a, origin⟩ := ih q before (Nat.lt_trans before place)
    exact ⟨a, .copy call origin⟩

end Ancestor

theorem byteCount_lt_of_byteSize {shape : Shape} {type : ElementType}
    (asked : (shape.byteSize type).toNat ≤ Construction.longest) :
    shape.byteCount type < UInt64.size := by
  have bound : UInt64.size = 2 ^ 64 := rfl
  have most : Construction.longest = 2 ^ 63 - 1 := rfl
  rw [Shape.toNat_byteSize_min] at asked
  omega

theorem byteCount_lt_of_elementCount {shape : Shape} {type : ElementType}
    (asked : shape.elementCount.toNat * type.byteSize ≤ Construction.longest) :
    shape.byteCount type < UInt64.size := by
  have bound : UInt64.size = 2 ^ 64 := rfl
  have most : Construction.longest = 2 ^ 63 - 1 := rfl
  rw [Shape.toNat_elementCount_min] at asked
  by_cases fits : shape.count ≤ UInt64.size - 1
  · rw [Nat.min_eq_left fits] at asked
    rw [Shape.byteCount]
    omega
  · rw [Nat.min_eq_right (Nat.le_of_not_le fits)] at asked
    have large := Nat.le_mul_of_pos_right (UInt64.size - 1) type.byteSize_pos
    omega

namespace Session

variable {s next : Session} {c : Construction} {t : Tensor} {calls : List Construction}

theorem byteCount_lt_of_construct (h : s.construct c = .ok t) (feasible : c.Feasible)
    (stored : c.allocates = true) : t.shape.byteCount t.elementType < UInt64.size := by
  cases c with
  | zeros shape type =>
    cases h
    exact byteCount_lt_of_byteSize feasible
  | bytes shape type data =>
    unfold construct ofBytes at h
    dsimp only at h
    split at h
    next length =>
      cases h
      exact byteCount_lt_of_byteSize (length ▸ feasible)
    next => cases h
  | values shape bits =>
    unfold construct ofValues at h
    dsimp only at h
    split at h
    next length =>
      cases h
      exact byteCount_lt_of_elementCount (length ▸ feasible)
    next => cases h
  | placeholder | uninitialized | clone => cases stored

def Stores (calls : List Construction) (s : Session) (a : Nat) (x : Storage) : Prop :=
  ∃ c t, calls[a]? = some c ∧ c.copied? = none ∧ s.tensors[a]? = some t ∧ t.storage = some x

/-- How the tensors of a session go together with the calls that made them. -/
structure Traced (calls : List Construction) (s : Session) : Prop where
  length : s.tensors.size = calls.length
  earlier : ∀ p q : Nat, calls[p]? = some (.clone q) → q < p
  copied : ∀ p q : Nat, calls[p]? = some (.clone q) → s.tensors[p]? = s.tensors[q]?
  allocated : ∀ (p : Nat) c t, calls[p]? = some c → c.copied? = none → s.tensors[p]? = some t →
    t.isAllocated = c.allocates
  inRange : ∀ t ∈ s.tensors, t.isAllocated = true →
    t.shape.byteCount t.elementType < UInt64.size
  apart : ∀ a b x y, Stores calls s a x → Stores calls s b y → x.id = y.id → a = b

theorem traced_empty : Traced [] {} := by
  constructor <;> simp [Stores]

theorem getElem?_concat {α : Type} {xs : List α} {x y : α} {i : Nat}
    (h : (xs ++ [x])[i]? = some y) : xs[i]? = some y ∨ i = xs.length ∧ x = y := by
  rw [List.getElem?_append] at h
  split at h
  · exact .inl h
  · rw [List.getElem?_singleton] at h
    split at h
    · exact .inr ⟨by omega, Option.some.inj h⟩
    · cases h

namespace Traced

theorem getElem?_push (h : Traced calls s) {p : Nat} {u : Tensor}
    (found : (s.tensors.push t)[p]? = some u) :
    s.tensors[p]? = some u ∨ p = calls.length ∧ t = u := by
  rw [Array.getElem?_push] at found
  split at found
  next last => exact .inr ⟨last.trans h.length, Option.some.inj found⟩
  next => exact .inl found

theorem lt_length (h : Traced calls s) {p : Nat} {u : Tensor} (found : s.tensors[p]? = some u) :
    p < calls.length := by
  rw [← h.length]
  exact (Array.getElem?_eq_some_iff.1 found).1

theorem stores_push (h : Traced calls s) {a : Nat} {x : Storage} {n : Nat}
    (stores : Stores (calls ++ [c]) ⟨s.tensors.push t, n⟩ a x) :
    Stores calls s a x ∨ a = calls.length ∧ c.copied? = none ∧ t.storage = some x := by
  obtain ⟨d, u, call, own, place, stored⟩ := stores
  rcases getElem?_concat call with old | ⟨rfl, rfl⟩ <;>
    rcases h.getElem?_push place with there | ⟨last, rfl⟩
  · exact .inl ⟨d, u, old, own, there, stored⟩
  · have before := (List.getElem?_eq_some_iff.1 old).1
    omega
  · have before := h.lt_length there
    omega
  · exact .inr ⟨rfl, own, stored⟩

/-- A call that comes after others has another id than they. -/
theorem not_shared (sound : s.Sound) (made : s.construct c = .ok t) (own : c.copied? = none)
    {a : Nat} {x y : Storage} (old : Stores calls s a x) (new : t.storage = some y) :
    x.id ≠ y.id := by
  intro same
  obtain ⟨-, u, -, -, place, stored⟩ := old
  have below := sound.taken u (Array.mem_of_getElem? place) x stored
  rw [same, fresh_of_construct made own new] at below
  exact Nat.lt_irrefl _ below

theorem add (h : Traced calls s) (sound : s.Sound) (feasible : c.Feasible)
    (added : s.add c = .ok next) : Traced (calls ++ [c]) next := by
  obtain ⟨t, made, rfl⟩ := add_ok added
  refine ⟨?_, ?_, ?_, ?_, ?_, ?_⟩
  · simp [h.length]
  · intro p q call
    rcases getElem?_concat call with old | ⟨rfl, rfl⟩
    · exact h.earlier p q old
    · exact h.lt_length (construct_clone made)
  · intro p q call
    rcases getElem?_concat call with old | ⟨rfl, rfl⟩
    · have before := h.earlier p q old
      have place := (List.getElem?_eq_some_iff.1 old).1
      rw [Array.getElem?_push, Array.getElem?_push, h.length, if_neg (by omega), if_neg (by omega)]
      exact h.copied p q old
    · have found := construct_clone made
      have before := h.lt_length found
      rw [Array.getElem?_push, Array.getElem?_push, h.length, if_pos rfl, if_neg (by omega), found]
  · intro p d u call own place
    rcases getElem?_concat call with old | ⟨rfl, rfl⟩ <;>
      rcases h.getElem?_push place with there | ⟨last, rfl⟩
    · exact h.allocated p d u old own there
    · have before := (List.getElem?_eq_some_iff.1 old).1
      omega
    · have before := h.lt_length there
      omega
    · exact isAllocated_of_construct made own
  · intro u member stored
    rcases Array.mem_push.1 member with old | rfl
    · exact h.inRange u old stored
    · cases own : c.copied? with
      | none =>
        exact byteCount_lt_of_construct made feasible
          ((isAllocated_of_construct made own).symm.trans stored)
      | some p =>
        cases c with
        | clone position => exact h.inRange u (Array.mem_of_getElem? (construct_clone made)) stored
        | _ => cases own
  · intro a b x y storesA storesB same
    rcases h.stores_push storesA with oldA | ⟨rfl, ownA, newA⟩ <;>
      rcases h.stores_push storesB with oldB | ⟨rfl, ownB, newB⟩
    · exact h.apart a b x y oldA oldB same
    · exact absurd same (not_shared sound made ownB oldA newB)
    · exact absurd same.symm (not_shared sound made ownA oldB newA)
    · rfl

theorem run (h : Traced calls s) (sound : s.Sound) {steps : List Construction}
    (feasible : ∀ c ∈ steps, c.Feasible) :
    Traced (calls ++ s.successes steps) (s.run steps) := by
  induction steps generalizing calls s with
  | nil => simpa [successes, Session.run] using h
  | cons c rest ih =>
    obtain ⟨now, later⟩ := List.forall_mem_cons.1 feasible
    rw [successes, Session.run]
    cases added : s.add c with
    | error e => exact ih h sound later
    | ok next =>
      have following := ih (h.add sound now added) (sound.add added) later
      rwa [List.append_assoc, List.singleton_append] at following

theorem getElem?_ancestor (h : Traced calls s) {p a : Nat} (descent : Ancestor calls p a) :
    s.tensors[p]? = s.tensors[a]? := by
  induction descent with
  | self => rfl
  | copy call _ ih => exact (h.copied _ _ call).trans ih

theorem stores_ancestor (h : Traced calls s) {p a : Nat} {x : Storage}
    (descent : Ancestor calls p a) (place : s.tensors[p]? = some t) (stored : t.storage = some x) :
    Stores calls s a x := by
  obtain ⟨c, call, own⟩ := descent.own
  exact ⟨c, t, call, own, (h.getElem?_ancestor descent).symm.trans place, stored⟩

theorem exists_ancestor (h : Traced calls s) {p : Nat} (place : s.tensors[p]? = some t) :
    ∃ a, Ancestor calls p a :=
  Ancestor.exists_of_earlier h.earlier (h.lt_length place)

end Traced

/-- What a list of tensors owes to the calls that made them. -/
structure Descends (calls : List Construction) (tensors : Array Tensor) : Prop where
  ancestor : ∀ (p : Nat) t, tensors[p]? = some t → ∃! a, Ancestor calls p a
  shared : ∀ (p q : Nat) t u i j, tensors[p]? = some t → tensors[q]? = some u →
    t.bufferId? = some i → u.bufferId? = some j →
      (i = j ↔ ∃ a, Ancestor calls p a ∧ Ancestor calls q a)
  same : ∀ t ∈ tensors, ∀ u ∈ tensors, ∀ i, t.bufferId? = some i → u.bufferId? = some i →
    t.shape = u.shape ∧ t.elementType = u.elementType ∧ t.bytes? = u.bytes?
  length : ∀ t ∈ tensors, ∀ bytes, t.bytes? = some bytes →
    bytes.length = t.shape.byteCount t.elementType
  allocated : ∀ (p a : Nat) t c, tensors[p]? = some t → Ancestor calls p a → calls[a]? = some c →
    t.isAllocated = c.allocates

/-- Whatever is constructed one after the other, with or without success: two tensors have one
buffer just when they are clones, however often, of what one call made. -/
theorem run_descends {steps : List Construction} (feasible : ∀ c ∈ steps, c.Feasible) :
    Descends (({} : Session).successes steps) (({} : Session).run steps).tensors := by
  have sound : (({} : Session).run steps).Sound := sound_empty.run steps
  have traced : Traced (({} : Session).successes steps) (({} : Session).run steps) :=
    traced_empty.run sound_empty feasible
  refine ⟨fun p t place => ?_, fun p q t u i j placeP placeQ idP idQ => ?_,
    fun t here u there i idT idU => ?_, fun t member bytes stored => ?_,
    fun p a t c place descent call => ?_⟩
  · obtain ⟨a, descent⟩ := traced.exists_ancestor place
    exact ⟨a, descent, fun b other => other.unique descent⟩
  · obtain ⟨x, storedP, rfl⟩ := Option.map_eq_some_iff.1 idP
    obtain ⟨y, storedQ, rfl⟩ := Option.map_eq_some_iff.1 idQ
    constructor
    · intro same
      obtain ⟨a, ofP⟩ := traced.exists_ancestor placeP
      obtain ⟨b, ofQ⟩ := traced.exists_ancestor placeQ
      have one := traced.apart a b x y (traced.stores_ancestor ofP placeP storedP)
        (traced.stores_ancestor ofQ placeQ storedQ) same
      exact ⟨a, ofP, one ▸ ofQ⟩
    · rintro ⟨a, ofP, ofQ⟩
      have equal := (traced.getElem?_ancestor ofP).trans (traced.getElem?_ancestor ofQ).symm
      rw [placeP, placeQ, Option.some.injEq] at equal
      subst equal
      cases storedP.symm.trans storedQ
      rfl
  · obtain ⟨x, storedT, rfl⟩ := Option.map_eq_some_iff.1 idT
    obtain ⟨y, storedU, same⟩ := Option.map_eq_some_iff.1 idU
    have equal : t = u := sound.owned t here u there x y storedT storedU same.symm
    exact ⟨congrArg _ equal, congrArg _ equal, congrArg _ equal⟩
  · obtain ⟨x, holds, rfl⟩ := Option.map_eq_some_iff.1 stored
    have allocated : t.isAllocated = true := by rw [isAllocated, holds, Option.isSome_some]
    exact sound.sized t member x holds (traced.inRange t member allocated)
  · obtain ⟨d, again, own⟩ := descent.own
    cases call.symm.trans again
    exact traced.allocated a c t call own ((traced.getElem?_ancestor descent).symm.trans place)

def mixed : List Construction :=
  [.zeros (.vector 2) .f32, .clone 0, .bytes (.vector 3) .u8 [1, 2], .placeholder (.vector 9) .i8,
    .values (.matrix Word.largest Word.largest) [0], .clone 1, .bytes ⟨[Word.largest, 0]⟩ .f32 [],
    .values .scalar [0x7fc00001], .clone 2, .uninitialized .bf16, .clone 3]

def mixedCalls : List Construction :=
  [.zeros (.vector 2) .f32, .clone 0, .placeholder (.vector 9) .i8, .clone 1,
    .bytes ⟨[Word.largest, 0]⟩ .f32 [], .values .scalar [0x7fc00001], .clone 2,
    .uninitialized .bf16, .clone 3]

theorem run_descends_mixed : (∀ c ∈ mixed, c.Feasible) ∧
    ({} : Session).successes mixed = mixedCalls ∧
    Descends mixedCalls (({} : Session).run mixed).tensors := by
  have feasible : ∀ c ∈ mixed, c.Feasible := by decide
  have successes : ({} : Session).successes mixed = mixedCalls := by cbv
  exact ⟨feasible, successes, successes ▸ run_descends feasible⟩

end Session

end LiteModel.Tensor
