import TokenTape.Bytes.LittleEndian
import TokenTape.Token
/-!
The record of a value on a tape: a byte that tells the kind of value, then a payload whose
width depends on that byte alone. `decode` reads back exactly what `encode` writes, so no
record is the beginning of another.
-/
namespace TokenTape.Value

/-- The byte that opens the record. -/
def discriminator : Value → UInt8
  | void => 0
  | integer _ => 1
  | float _ => 2
  | word _ => 3

/-- The width of the payload that follows an opening byte, if the byte opens a record. -/
def payloadSize? (discriminator : UInt8) : Option Nat :=
  if discriminator = 0 then some 0
  else if discriminator = 1 ∨ discriminator = 2 then some 8
  else if discriminator = 3 then some 4
  else none

/-- The bytes after the opening byte. -/
def payload : Value → List UInt8
  | void => []
  | integer n => LittleEndian.encode 8 n.toUInt64.toNat
  | float x => LittleEndian.encode 8 x.bits.toNat
  | word w => LittleEndian.encode 4 w.raw.toNat

/-- The record of a value. -/
def encode (value : Value) : List UInt8 :=
  value.discriminator :: value.payload

/-- The number of bytes of the record. -/
def encodedSize : Value → Nat
  | void => 1
  | integer _ => 9
  | float _ => 9
  | word _ => 5

/-- The value with a given opening byte and payload of the right width. -/
def ofPayload (discriminator : UInt8) (payload : List UInt8) : Value :=
  let number := LittleEndian.decode payload
  if discriminator = 1 then integer number.toUInt64.toInt64
  else if discriminator = 2 then float ⟨number.toUInt64⟩
  else if discriminator = 3 then word ⟨number.toUInt32⟩
  else void

/-- Reads one record from the front of some bytes and tells which bytes are left. A record
that cannot be read has used its opening byte, if there is one. -/
def decode : List UInt8 → Except Damage Value × List UInt8
  | [] => (.error .missingValue, [])
  | opening :: rest =>
    match payloadSize? opening with
    | none => (.error (.unknownValue opening), rest)
    | some size =>
      let payload := rest.take size
      if payload.length < size then (.error (.shortValue size payload.length), rest)
      else (.ok (ofPayload opening payload), rest.drop size)

@[simp] theorem length_encode (value : Value) : value.encode.length = value.encodedSize := by
  cases value <;> simp [encode, payload, encodedSize]

theorem payloadSize?_discriminator (value : Value) :
    payloadSize? value.discriminator = some value.payload.length := by
  cases value <;> simp [payload, payloadSize?, discriminator]

theorem ofPayload_payload (value : Value) : ofPayload value.discriminator value.payload = value := by
  cases value with
  | void => rfl
  | integer n =>
    have fits : n.toUInt64.toNat < Nat.pow 256 8 := n.toUInt64.toNat_lt
    simp [ofPayload, discriminator, payload, LittleEndian.decode_encode fits]
  | float x =>
    have fits : x.bits.toNat < Nat.pow 256 8 := x.bits.toNat_lt
    simp [ofPayload, discriminator, payload, LittleEndian.decode_encode fits]
  | word w =>
    have fits : w.raw.toNat < Nat.pow 256 4 := w.raw.toNat_lt
    simp [ofPayload, discriminator, payload, LittleEndian.decode_encode fits]

/-- A record is read back from the front of any bytes, and all that follows is left. -/
theorem decode_encode_append (value : Value) (rest : List UInt8) :
    decode (value.encode ++ rest) = (.ok value, rest) := by
  simp [encode, decode, payloadSize?_discriminator, ofPayload_payload]

end TokenTape.Value
