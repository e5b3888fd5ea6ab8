import LiteModel.Proofs.Container.Cost
import LiteModel.Proofs.Sequencing

/-! Reading bytes that are known. `File.Holds` says that given bytes stand at a position, and what a
read there gives follows from the bytes: numbers, slices, texts, and the members of a list. -/
namespace LiteModel.Container

def File.Holds (file : File) (position : Nat) (bs : List UInt8) : Prop :=
  ∃ front rest, file = (front ++ bs ++ rest).toArray ∧ front.length = position

variable {file : File} {position : Nat}

namespace File.Holds

variable {xs ys : List UInt8}

theorem le_size (h : file.Holds position xs) : position + xs.length ≤ file.size := by
  obtain ⟨front, rest, rfl, rfl⟩ := h
  simp only [List.size_toArray, List.length_append]
  omega

theorem left (h : file.Holds position (xs ++ ys)) : file.Holds position xs := by
  obtain ⟨front, rest, rfl, start⟩ := h
  exact ⟨front, ys ++ rest, by simp only [List.append_assoc], start⟩

theorem right (h : file.Holds position (xs ++ ys)) : file.Holds (position + xs.length) ys := by
  obtain ⟨front, rest, rfl, rfl⟩ := h
  exact ⟨front ++ xs, rest, by simp only [List.append_assoc], List.length_append⟩

theorem getElem? {b : UInt8} (h : file.Holds position (b :: xs)) : file[position]? = some b := by
  obtain ⟨front, rest, rfl, rfl⟩ := h
  simp

theorem byte? {b : UInt8} (h : file.Holds position (b :: xs)) :
    file.byte? position = some b.toNat := by
  rw [File.byte?, h.getElem?, Option.map_some]

theorem tail {b : UInt8} (h : file.Holds position (b :: xs)) : file.Holds (position + 1) xs := by
  rw [← List.singleton_append] at h
  exact h.right

theorem word? {width n : Nat} (h : file.Holds position (Word.bytes width n)) :
    file.word? width position = some (n % Word.capacity width) := by
  rw [← Word.ofBytes_bytes]
  induction width generalizing position n with
  | zero => rfl
  | succ width ih =>
    have low := h.byte?
    have high := ih h.tail
    simp [File.word?, low, high, Word.bytes, Word.ofBytes]

theorem hasWord {width n : Nat} (h : file.Holds position (Word.bytes width n))
    (aligned : position % width = 0) (small : n < Word.capacity width) :
    file.HasWord width position n where
  aligned := aligned
  inside := by simpa using h.le_size
  read := by rw [h.word?, Nat.mod_eq_of_lt small]

theorem slice? (h : file.Holds position xs) : file.slice? position xs.length = some xs := by
  have inside := h.le_size
  obtain ⟨front, rest, rfl, rfl⟩ := h
  rw [File.slice?, if_pos inside]
  simp

theorem text? {s : String} (h : file.Holds position s.toUTF8.data.toList) :
    file.text? position s.toUTF8.data.toList.length = some s := by
  have valid : s.toUTF8.IsValidUTF8 := s.isValidUTF8
  have decoded : String.fromUTF8? ⟨s.toUTF8.data.toList.toArray⟩ = some s := dif_pos valid
  rw [File.text?, h.slice?]
  exact decoded

theorem entry {width i v : Nat} {values : List Nat}
    (h : file.Holds position (values.flatMap (Word.bytes width))) (hi : values[i]? = some v) :
    file.Holds (position + width * i) (Word.bytes width v) := by
  induction values generalizing position i with
  | nil => cases hi
  | cons first rest ih =>
    rw [List.flatMap_cons] at h
    cases i with
    | zero =>
      cases hi
      exact h.left
    | succ i =>
      have next := ih h.right hi
      rw [Word.length_bytes] at next
      rwa [Nat.mul_succ, Nat.add_comm (width * i), ← Nat.add_assoc]

end File.Holds

theorem length_words (width : Nat) (values : List Nat) :
    (values.flatMap (Word.bytes width)).length = width * values.length := by
  induction values with
  | nil => rfl
  | cons v rest ih =>
    rw [List.flatMap_cons, List.length_append, ih, Word.length_bytes, List.length_cons]
    rw [Nat.mul_succ, Nat.add_comm]

theorem File.list?_of_members {α : Type} {read : Nat → Option α} {width : Nat} {values : List α}
    (count : file.word? 4 position = some values.length)
    (members : ∀ i a, values[i]? = some a → read (position + 4 + width * i) = some a) :
    file.list? width read position = some values := by
  rw [File.list?, count, Option.bind_eq_bind, Option.bind_some, Sequencing.mapM_some_iff,
    List.forall₂_iff_get]
  refine ⟨List.length_range, fun i _ below => ?_⟩
  simpa using members i values[i] (List.getElem?_eq_getElem below)

def File.Points (file : File) (position target : Nat) : Prop :=
  ∃ n, file.HasWord 4 position n ∧ position + n = target

theorem File.Points.target? {target : Nat} (h : file.Points position target) :
    file.target? position = some target := by
  obtain ⟨n, word, rfl⟩ := h
  simp [File.target?, word.read]

theorem Check.Uses.points {target : Nat} {check : Nat → Check Unit} {d : Usage}
    (h : file.Points position target) (there : (check target).Uses () d) :
    (Check.reference file check position).Uses () (Usage.bytes 4 + d) := by
  obtain ⟨n, word, rfl⟩ := h
  exact .reference word there

end LiteModel.Container
