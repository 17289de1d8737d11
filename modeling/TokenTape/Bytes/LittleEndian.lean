/-!
Numbers as bytes, the least significant byte first. At every width the two functions are
inverse to each other: on the numbers that fit, and on all byte strings of that width.
-/
namespace TokenTape.LittleEndian

/-- The lowest `width` bytes of a number. -/
def encode : (width : Nat) → Nat → List UInt8
  | 0, _ => []
  | width + 1, n => n.toUInt8 :: encode width (n / 256)

/-- The number that a byte string stands for. -/
def decode : List UInt8 → Nat
  | [] => 0
  | byte :: rest => byte.toNat + 256 * decode rest

@[simp] theorem length_encode (width n : Nat) : (encode width n).length = width := by
  induction width generalizing n with
  | zero => rfl
  | succ width ih => simp [encode, ih]

theorem decode_lt (bytes : List UInt8) : decode bytes < Nat.pow 256 bytes.length := by
  induction bytes with
  | nil => simp [decode]
  | cons byte rest ih =>
    have := byte.toNat_lt
    simp only [decode, List.length_cons, Nat.pow_eq, Nat.pow_succ] at ih ⊢
    omega

theorem decode_encode {width n : Nat} (fits : n < Nat.pow 256 width) :
    decode (encode width n) = n := by
  induction width generalizing n with
  | zero => simp only [Nat.pow_eq, Nat.pow_zero] at fits; simp [encode, decode]; omega
  | succ width ih =>
    have : n / 256 < Nat.pow 256 width := by
      simp only [Nat.pow_eq, Nat.pow_succ] at fits ⊢
      omega
    simp only [encode, decode, ih this, Nat.toUInt8, UInt8.toNat_ofNat']
    omega

theorem encode_decode (bytes : List UInt8) : encode bytes.length (decode bytes) = bytes := by
  induction bytes with
  | nil => rfl
  | cons byte rest ih =>
    have := byte.toNat_lt
    have quotient : (byte.toNat + 256 * decode rest) / 256 = decode rest := by omega
    simp only [List.length_cons, encode, decode, quotient, ih, List.cons.injEq, and_true]
    apply UInt8.toNat_inj.mp
    simp only [Nat.toUInt8, UInt8.toNat_ofNat']
    omega

end TokenTape.LittleEndian
