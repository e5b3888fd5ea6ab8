/-! Machine words as bytes, least significant byte first, and checked arithmetic on 64-bit sizes.
`ofBytes_bytes` says that reading the bytes of a number gives it back modulo the width, and
`bytes_ofBytes` that writing a number that was read gives its bytes back. -/
namespace LiteModel.Word

def bytes : (width n : Nat) → List UInt8
  | 0, _ => []
  | width + 1, n => n.toUInt8 :: bytes width (n / 256)

def ofBytes : List UInt8 → Nat
  | [] => 0
  | b :: rest => b.toNat + 256 * ofBytes rest

@[simp] theorem length_bytes (width n : Nat) : (bytes width n).length = width := by
  induction width generalizing n with
  | zero => rfl
  | succ width ih => simp [bytes, ih]

def capacity : (width : Nat) → Nat
  | 0 => 1
  | width + 1 => 256 * capacity width

theorem ofBytes_bytes (width n : Nat) : ofBytes (bytes width n) = n % capacity width := by
  induction width generalizing n with
  | zero => simp [bytes, ofBytes, capacity, Nat.mod_one]
  | succ width ih =>
    rw [bytes, ofBytes, ih, capacity, Nat.mod_mul]
    simp

theorem ofBytes_lt (bs : List UInt8) : ofBytes bs < capacity bs.length := by
  induction bs with
  | nil => simp [ofBytes, capacity]
  | cons b rest ih =>
    have := b.toNat_lt
    simp only [ofBytes, List.length_cons, capacity]
    omega

theorem bytes_ofBytes (bs : List UInt8) : bytes bs.length (ofBytes bs) = bs := by
  induction bs with
  | nil => rfl
  | cons b rest ih =>
    have low := b.toNat_lt
    have head : (b.toNat + 256 * ofBytes rest).toUInt8 = b := by
      rw [← UInt8.toNat_inj, Nat.toUInt8, UInt8.toNat_ofNat']
      omega
    have tail : (b.toNat + 256 * ofBytes rest) / 256 = ofBytes rest := by omega
    rw [List.length_cons, ofBytes, bytes, head, tail, ih]

def mul? (a b : UInt64) : Option UInt64 :=
  if a.toNat * b.toNat < UInt64.size then some (a * b) else none

def total (sizes : List Nat) : Nat := sizes.foldr (· + ·) 0

def largest : UInt64 := UInt64.ofNat (UInt64.size - 1)

end LiteModel.Word
