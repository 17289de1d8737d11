import TokenTape.Bytes.Text
/-!
Characters as bytes. The bytes of a text are told character by character: one byte for each ASCII
character, and for any other a first byte and some that continue it, all of them out of the ASCII
range. So an ASCII character can be told from one byte (`charOf_of_ascii`,
`le_of_mem_utf8EncodeChar`), and a text whose bytes start with those of another starts with its
characters (`bytesOf_append_inj`).
-/
namespace TokenTape.Utf8

theorem encode_ofList (text : List Char) :
    encode (String.ofList text) = text.flatMap String.utf8EncodeChar := by
  simp [encode, List.utf8Encode]

theorem decode?_encode (text : List Char) :
    decode? (text.flatMap String.utf8EncodeChar) = some (String.ofList text) := by
  have bytes : ByteArray.mk (text.flatMap String.utf8EncodeChar).toArray =
      (String.ofList text).toByteArray := by
    rw [String.toByteArray_ofList]
    simp [List.utf8Encode, ByteArray.ext_iff]
  rw [decode?, bytes, String.fromUTF8?, dif_pos (String.ofList text).isValidUTF8]
  rfl

/-- Only the newline has a byte that is a newline. -/
theorem newline_not_mem {c : Char} (other : c ≠ '\n') : 10 ∉ String.utf8EncodeChar c := by
  have value : c.val.toNat ≠ 10 := fun same => other (Char.ext (UInt32.toNat_inj.mp same))
  fun_cases String.utf8EncodeChar c <;>
  · rename_i v _
    intro member
    simp only [List.mem_cons, List.not_mem_nil, or_false, ← UInt8.toNat_inj,
      UInt8.toNat_ofNat', UInt8.reduceToNat, v] at member
    omega

/-- The bytes of a list of characters. -/
def bytesOf (text : List Char) : List UInt8 := text.flatMap String.utf8EncodeChar

@[simp] theorem bytesOf_nil : bytesOf [] = [] := rfl

@[simp] theorem bytesOf_cons (c : Char) (text : List Char) :
    bytesOf (c :: text) = String.utf8EncodeChar c ++ bytesOf text := rfl

@[simp] theorem bytesOf_append (first second : List Char) :
    bytesOf (first ++ second) = bytesOf first ++ bytesOf second := List.flatMap_append

/-- A byte is a newline as often as a character is. -/
theorem count_bytesOf (text : List Char) : (bytesOf text).count 10 = text.count '\n' := by
  induction text with
  | nil => rfl
  | cons c text ih =>
    rw [bytesOf_cons, List.count_append, ih, List.count_cons]
    by_cases newline : c = '\n'
    · subst c
      rw [Nat.add_comm]
      rfl
    · have none : (String.utf8EncodeChar c).count 10 = 0 :=
        List.count_eq_zero.mpr (newline_not_mem newline)
      rw [none, if_neg (by simpa using newline), Nat.zero_add, Nat.add_zero]

/-- Whether a byte goes on with a character that an earlier byte has started. -/
def isContinuation (byte : UInt8) : Bool := 128 ≤ byte && byte < 192

theorem isContinuation_iff {byte : UInt8} :
    isContinuation byte = true ↔ 128 ≤ byte.toNat ∧ byte.toNat < 192 := by
  simp [isContinuation, UInt8.le_iff_toNat_le, UInt8.lt_iff_toNat_lt]

/-- A first byte and the bytes that continue it. -/
theorem utf8EncodeChar_eq_cons (c : Char) :
    ∃ first rest, String.utf8EncodeChar c = first :: rest ∧ isContinuation first = false ∧
      ∀ byte ∈ rest, isContinuation byte = true := by
  have first {n : Nat} (range : n % 256 < 128 ∨ 192 ≤ n % 256) :
      isContinuation (UInt8.ofNat n) = false := by
    rw [Bool.eq_false_iff, ne_eq, isContinuation_iff, UInt8.toNat_ofNat']
    omega
  have rest {n : Nat} (range : 128 ≤ n ∧ n < 192) : isContinuation (UInt8.ofNat n) = true := by
    rw [isContinuation_iff, UInt8.toNat_ofNat']
    omega
  fun_cases String.utf8EncodeChar c with
  | case1 => exact ⟨_, [], rfl, first (by omega), List.forall_mem_nil _⟩
  | _ =>
    refine ⟨_, _, rfl, first (by omega), ?_⟩
    intro byte member
    simp only [List.mem_cons, List.not_mem_nil, or_false] at member
    rcases member with rfl | rfl | rfl
    all_goals exact rest (by omega)

theorem bytesOf_eq_nil_iff {text : List Char} : bytesOf text = [] ↔ text = [] := by
  cases text with
  | nil => simp
  | cons c text =>
    obtain ⟨first, rest, bytes, -⟩ := utf8EncodeChar_eq_cons c
    simp [bytes]

/-! ## ASCII -/

theorem isDigit_iff {c : Char} : c.isDigit = true ↔ 48 ≤ c.toNat ∧ c.toNat ≤ 57 := by
  simp [Char.isDigit, UInt32.le_iff_toNat_le]

theorem isAlpha_iff {c : Char} :
    c.isAlpha = true ↔ 65 ≤ c.toNat ∧ c.toNat ≤ 90 ∨ 97 ≤ c.toNat ∧ c.toNat ≤ 122 := by
  have letter : c.isAlpha = (decide (65 ≤ c.val ∧ c.val ≤ 90) ||
      decide (97 ≤ c.val) && decide (c.val ≤ 122)) := rfl
  simp [letter, UInt32.le_iff_toNat_le]

/-- An ASCII character is one byte. -/
theorem utf8EncodeChar_of_ascii {c : Char} (ascii : c.toNat < 128) :
    String.utf8EncodeChar c = [UInt8.ofNat c.toNat] := by
  have small : c.val.toNat ≤ 127 := Nat.le_of_lt_succ ascii
  unfold String.utf8EncodeChar
  rw [if_pos small]
  rfl

/-- The character whose number is the byte: itself, for an ASCII character. -/
def charOf (byte : UInt8) : Char := Char.ofNat byte.toNat

theorem toNat_charOf (byte : UInt8) : (charOf byte).toNat = byte.toNat := by
  have valid : byte.toNat.isValidChar := Or.inl (Nat.lt_trans byte.toNat_lt (by decide))
  rw [charOf, Char.ofNat, dif_pos valid]
  rfl

theorem charOf_of_ascii {c : Char} (ascii : c.toNat < 128) : charOf (UInt8.ofNat c.toNat) = c := by
  apply Char.toNat_inj.mp
  rw [toNat_charOf, UInt8.toNat_ofNat', Nat.mod_eq_of_lt (by omega)]

theorem map_charOf_bytesOf {text : List Char} (ascii : ∀ c ∈ text, c.toNat < 128) :
    (bytesOf text).map charOf = text := by
  induction text with
  | nil => rfl
  | cons c text ih =>
    obtain ⟨first, rest⟩ := List.forall_mem_cons.mp ascii
    rw [bytesOf_cons, utf8EncodeChar_of_ascii first, List.singleton_append, List.map_cons, ih rest,
      charOf_of_ascii first]

/-- No byte of any other character is an ASCII character. -/
theorem le_of_mem_utf8EncodeChar {c : Char} (wide : 128 ≤ c.toNat) {byte : UInt8}
    (member : byte ∈ String.utf8EncodeChar c) : 128 ≤ byte.toNat := by
  have large : ¬ c.val.toNat ≤ 127 := Nat.not_le.mpr wide
  revert member
  fun_cases String.utf8EncodeChar c with
  | case1 => contradiction
  | _ =>
    intro member
    simp only [List.mem_cons, List.not_mem_nil, or_false] at member
    rcases member with rfl | rfl | rfl | rfl
    all_goals
      rw [UInt8.toNat_ofNat']
      omega

theorem utf8Size_eq_one_iff {c : Char} : c.utf8Size = 1 ↔ c.toNat < 128 := by
  rw [Char.utf8Size_eq_one_iff, UInt32.le_iff_toNat_le]
  exact Nat.lt_succ_iff.symm

theorem charOf_ne_of_wide {byte : UInt8} (wide : 128 ≤ byte.toNat) {c : Char} (ascii : c.toNat < 128) :
    charOf byte ≠ c := by
  rintro rfl
  rw [toNat_charOf] at ascii
  omega

/-- What does not tell other characters apart is told from the first byte of a character. -/
theorem apply_charOf_head {α : Type} {f : Char → α} {other : α} (wide : ∀ c, 128 ≤ c.toNat → f c = other)
    {c : Char} {first : UInt8} {rest : List UInt8} (bytes : String.utf8EncodeChar c = first :: rest) :
    f (charOf first) = f c := by
  by_cases ascii : c.toNat < 128
  · rw [utf8EncodeChar_of_ascii ascii] at bytes
    cases bytes
    rw [charOf_of_ascii ascii]
  · have wideFirst : 128 ≤ first.toNat := le_of_mem_utf8EncodeChar (Nat.le_of_not_lt ascii) (by simp [bytes])
    rw [wide c (Nat.le_of_not_lt ascii), wide (charOf first) (by rwa [toNat_charOf])]

/-- A property that only ASCII characters have is told from the first byte of a character. -/
theorem class_charOf_head {p : Char → Bool} (ascii : ∀ c, p c = true → c.toNat < 128) {c : Char}
    {first : UInt8} {rest : List UInt8} (bytes : String.utf8EncodeChar c = first :: rest) :
    p (charOf first) = p c := by
  have wide (d : Char) (large : 128 ≤ d.toNat) : p d = false := by
    rw [Bool.eq_false_iff]
    exact fun holds => absurd (ascii d holds) (Nat.not_lt.mpr large)
  exact apply_charOf_head wide bytes

theorem charOf_head_eq_iff {c d : Char} (ascii : d.toNat < 128) {first : UInt8} {rest : List UInt8}
    (bytes : String.utf8EncodeChar c = first :: rest) : charOf first = d ↔ c = d := by
  have same : (charOf first == d) = (c == d) := by
    refine class_charOf_head (p := (· == d)) ?_ bytes
    intro e equal
    rwa [eq_of_beq equal]
  rw [← beq_iff_eq, same, beq_iff_eq]

/-- Where a character ends can be told from its bytes. -/
theorem utf8EncodeChar_append_inj {c d : Char} {behind after : List UInt8}
    (same : String.utf8EncodeChar c ++ behind = String.utf8EncodeChar d ++ after) :
    c = d ∧ behind = after := by
  have decoded := congrArg (fun bytes => bytes.toByteArray.utf8DecodeChar? 0) same
  simp only [List.toByteArray_append, ByteArray.utf8DecodeChar?_utf8EncodeChar_append,
    Option.some.injEq] at decoded
  subst decoded
  exact ⟨rfl, List.append_cancel_left same⟩

/-- A text whose bytes start with those of another starts with that other text. -/
theorem bytesOf_append_inj {front text : List Char} {behind : List UInt8}
    (same : bytesOf front ++ behind = bytesOf text) :
    ∃ rest, text = front ++ rest ∧ behind = bytesOf rest := by
  induction front generalizing text with
  | nil => exact ⟨text, rfl, same⟩
  | cons c front ih =>
    match text with
    | [] =>
      have empty := (List.append_eq_nil_iff.mp same).1
      cases bytesOf_eq_nil_iff.mp empty
    | d :: text =>
      rw [bytesOf_cons, bytesOf_cons, List.append_assoc] at same
      obtain ⟨rfl, later⟩ := utf8EncodeChar_append_inj same
      obtain ⟨rest, rfl, left⟩ := ih later
      exact ⟨rest, rfl, left⟩

theorem bytesOf_inj {one other : List Char} (same : bytesOf one = bytesOf other) : one = other := by
  obtain ⟨rest, rfl, none⟩ := bytesOf_append_inj ((List.append_nil _).trans same)
  rw [bytesOf_eq_nil_iff.mp none.symm, List.append_nil]

theorem bytesOf_prefix_iff {front text : List Char} : bytesOf front <+: bytesOf text ↔ front <+: text := by
  constructor
  · rintro ⟨behind, same⟩
    obtain ⟨rest, rfl, -⟩ := bytesOf_append_inj same
    exact List.prefix_append _ _
  · rintro ⟨rest, rfl⟩
    rw [bytesOf_append]
    exact List.prefix_append _ _

/-- An ASCII character is told from the byte that it is, at the front of a text and at its end. -/
theorem head?_bytesOf {c : Char} (ascii : c.toNat < 128) {text : List Char} :
    (bytesOf text).head? = some (UInt8.ofNat c.toNat) ↔ text.head? = some c := by
  have byte : bytesOf [c] = [UInt8.ofNat c.toNat] := by
    rw [bytesOf_cons, utf8EncodeChar_of_ascii ascii]
    rfl
  constructor
  · intro found
    obtain ⟨rest, whole⟩ := List.head?_eq_some_iff.mp found
    have front : bytesOf [c] <+: bytesOf text := ⟨rest, by rw [byte, whole]; rfl⟩
    obtain ⟨more, rfl⟩ := bytesOf_prefix_iff.mp front
    rfl
  · intro found
    obtain ⟨rest, rfl⟩ := List.head?_eq_some_iff.mp found
    rw [bytesOf_cons, utf8EncodeChar_of_ascii ascii]
    rfl

theorem getLast?_bytesOf {c : Char} (ascii : c.toNat < 128) {text : List Char} :
    (bytesOf text).getLast? = some (UInt8.ofNat c.toNat) ↔ text.getLast? = some c := by
  rcases List.eq_nil_or_concat text with rfl | ⟨before, d, rfl⟩
  · simp
  · rw [List.concat_eq_append, List.getLast?_concat, bytesOf_append, bytesOf_cons, bytesOf_nil,
      List.append_nil, Option.some.injEq]
    by_cases small : d.toNat < 128
    · rw [utf8EncodeChar_of_ascii small, List.getLast?_concat, Option.some.injEq]
      constructor
      · intro same
        rw [← charOf_of_ascii small, same, charOf_of_ascii ascii]
      · rintro rfl
        rfl
    · obtain ⟨first, rest, bytes, -⟩ := utf8EncodeChar_eq_cons d
      have nonempty : String.utf8EncodeChar d ≠ [] := by simp [bytes]
      have wide := le_of_mem_utf8EncodeChar (Nat.le_of_not_lt small) (List.getLast_mem nonempty)
      rw [List.getLast?_append, List.getLast?_eq_some_getLast nonempty, Option.some_or,
        Option.some.injEq]
      constructor
      · intro same
        rw [same, UInt8.toNat_ofNat'] at wide
        omega
      · rintro rfl
        exact absurd ascii small

/-- No text starts inside a character. -/
theorem not_bytesOf_prefix {byte : UInt8} (continues : isContinuation byte = true) {c : Char}
    {text : List Char} {rest : List UInt8} : ¬ bytesOf (c :: text) <+: byte :: rest := by
  obtain ⟨first, more, bytes, starts, -⟩ := utf8EncodeChar_eq_cons c
  rw [bytesOf_cons, bytes, List.cons_append, List.cons_prefix_cons]
  rintro ⟨rfl, -⟩
  rw [continues] at starts
  cases starts

end TokenTape.Utf8
