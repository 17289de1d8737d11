import TokenTape.Value.Record
/-!
Which bytes are records. Each width that is read for an opening byte is the one that was written, so
bytes that are read as a value are the record of that value, and of no other. Where nothing can be
read, no record stands, and `Unreadable` tells why (`records_read_back`).
-/
namespace TokenTape.Value

/-- A payload of the width that its opening byte asks for is the payload of the value it stands
for. -/
theorem encode_ofPayload {opening : UInt8} {payload : List UInt8}
    (known : payloadSize? opening = some payload.length) :
    (ofPayload opening payload).encode = opening :: payload := by
  have fits := LittleEndian.decode_lt payload
  have same := LittleEndian.encode_decode payload
  unfold payloadSize? at known
  split at known
  · next void =>
    obtain rfl := List.length_eq_zero_iff.mp (Option.some.inj known).symm
    subst void
    rfl
  split at known
  · next wide =>
    rw [← Option.some.inj known] at fits same
    have number : (LittleEndian.decode payload).toUInt64.toNat = LittleEndian.decode payload :=
      Nat.mod_eq_of_lt fits
    rcases wide with rfl | rfl
    · simp [ofPayload, encode, discriminator, Value.payload, number, same]
    · simp [ofPayload, encode, discriminator, Value.payload, number, same]
  split at known
  · next word =>
    subst word
    rw [← Option.some.inj known] at fits same
    have number : (LittleEndian.decode payload).toUInt32.toNat = LittleEndian.decode payload :=
      Nat.mod_eq_of_lt fits
    simp [ofPayload, encode, discriminator, Value.payload, number, same]
  · cases known

/-- Bytes that are read as a value start with the record of that value. -/
theorem encode_of_decode {bytes rest : List UInt8} {value : Value}
    (read : decode bytes = (.ok value, rest)) : bytes = value.encode ++ rest := by
  cases bytes with
  | nil => cases read
  | cons opening bytes =>
    simp only [decode] at read
    split at read
    · cases read
    · next size known =>
      split at read
      · cases read
      · next enough =>
        cases read
        have width : (bytes.take size).length = size := by
          have short := List.length_take_le size bytes
          omega
        rw [encode_ofPayload (by rw [known, width]), List.cons_append, List.take_append_drop]

/-- Why no value is read from some bytes. -/
inductive Unreadable : List UInt8 → Damage → Prop
  | missing : Unreadable [] .missingValue
  | unknown {opening : UInt8} (closed : payloadSize? opening = none) (rest : List UInt8) :
      Unreadable (opening :: rest) (.unknownValue opening)
  | short {opening : UInt8} {size : Nat} (opens : payloadSize? opening = some size)
      {rest : List UInt8} (fewer : rest.length < size) :
      Unreadable (opening :: rest) (.shortValue size rest.length)

/-- The damage that is told is the one that is there. -/
theorem decode_eq_error_iff {bytes rest : List UInt8} {damage : Damage} :
    decode bytes = (.error damage, rest) ↔ Unreadable bytes damage ∧ rest = bytes.tail := by
  constructor
  · intro failed
    cases bytes with
    | nil =>
      cases failed
      exact ⟨.missing, rfl⟩
    | cons opening bytes =>
      simp only [decode] at failed
      split at failed
      · next closed =>
        cases failed
        exact ⟨.unknown closed rest, rfl⟩
      · next size opens =>
        split at failed
        · next short =>
          have fewer : bytes.length < size := by
            rw [List.length_take] at short
            omega
          rw [List.take_of_length_le (Nat.le_of_lt fewer)] at failed
          cases failed
          exact ⟨.short opens fewer, rfl⟩
        · cases failed
  · rintro ⟨unreadable, rfl⟩
    cases unreadable with
    | missing => rfl
    | unknown closed rest => simp only [decode, closed, List.tail_cons]
    | @short opening size opens rest fewer =>
      have whole : rest.take size = rest := List.take_of_length_le (Nat.le_of_lt fewer)
      simp only [decode, opens, whole, if_pos fewer, List.tail_cons]

/-- A byte that has a width opens a record of some value. -/
theorem isSome_payloadSize?_iff {opening : UInt8} :
    (payloadSize? opening).isSome ↔ ∃ value : Value, value.discriminator = opening := by
  constructor
  · intro opens
    unfold payloadSize? at opens
    split at opens
    · next void => exact ⟨.void, void.symm⟩
    split at opens
    · next wide =>
      rcases wide with rfl | rfl
      · exact ⟨.integer 0, rfl⟩
      · exact ⟨.float ⟨0⟩, rfl⟩
    split at opens
    · next word => exact ⟨.word ⟨0⟩, word.symm⟩
    · cases opens
  · rintro ⟨value, rfl⟩
    rw [payloadSize?_discriminator]
    rfl

/-- Bytes are read as a value just when they start with its record, and all behind the record is left.
The size that is told of a record counts its opening byte and the payload that this byte asks for.
Nothing is read just where there are no bytes, or the first one opens no record, or too few follow it;
so no record is the beginning of another. -/
theorem records_read_back :
    (∀ (bytes rest : List UInt8) (value : Value),
      decode bytes = (.ok value, rest) ↔ bytes = value.encode ++ rest) ∧
    (∀ value : Value, value.encode.length = value.encodedSize ∧
      ∃ size, payloadSize? value.discriminator = some size ∧ value.encodedSize = 1 + size) ∧
    (∀ (bytes rest : List UInt8) (damage : Damage),
      decode bytes = (.error damage, rest) ↔ Unreadable bytes damage ∧ rest = bytes.tail) ∧
    (∀ opening : UInt8,
      (payloadSize? opening).isSome ↔ ∃ value : Value, value.discriminator = opening) ∧
    ∀ value other : Value, value.encode <+: other.encode ↔ value = other := by
  refine ⟨?read, ?sizes, fun _ _ _ => decode_eq_error_iff, fun _ => isSome_payloadSize?_iff, ?apart⟩
  case read =>
    intro bytes rest value
    constructor
    · exact encode_of_decode
    · rintro rfl
      exact decode_encode_append value rest
  case sizes =>
    intro value
    have size := value.length_encode
    refine ⟨size, _, payloadSize?_discriminator value, ?_⟩
    rw [← size, encode, List.length_cons, Nat.add_comm]
  case apart =>
    intro value other
    constructor
    · rintro ⟨rest, longer⟩
      have first := decode_encode_append value rest
      have second := decode_encode_append other []
      rw [List.append_nil, ← longer, first] at second
      cases second
      rfl
    · rintro rfl
      exact List.prefix_rfl

end TokenTape.Value
