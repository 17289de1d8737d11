import TokenTape.Proofs.Scanner.Scan
import TokenTape.Tape.Packing
/-!
What packing comes to, told from the tokens that are left and from the bytes that they take on
a tape. While tokens are written, at least one byte of the free space must stay unused; in the
end all bytes must fit into it twice. `pack_outcome` puts the two limits and the failures of the
scanner in order: whichever is met first decides, and only a tape that is handed out counts
against the quota.
-/
namespace TokenTape

/-! ## The bytes of tokens -/

/-- The bytes of a number, each by its place, the least significant first. -/
def LittleEndian.places (width n : Nat) : List UInt8 :=
  (List.range width).map fun place => (n / Nat.pow 256 place).toUInt8

theorem LittleEndian.encode_eq_places (width n : Nat) : encode width n = places width n := by
  induction width generalizing n with
  | zero => rfl
  | succ width ih =>
    have first : n / Nat.pow 256 0 = n := Nat.div_one n
    have later (place : Nat) : n / Nat.pow 256 (place + 1) = n / 256 / Nat.pow 256 place := by
      rw [Nat.div_div_eq_div_mul, Nat.mul_comm]
      rfl
    rw [encode, ih, places, places, List.range_succ_eq_map, List.map_cons, List.map_map, first]
    exact congrArg _ (List.map_congr_left fun place _ => congrArg Nat.toUInt8 (later place).symm)

/-- The bytes that tell a value: a number for what kind of value it is, then all its bits. -/
def Value.record : Value → List UInt8
  | .void => [0]
  | .integer n => 1 :: LittleEndian.places 8 n.toUInt64.toNat
  | .float x => 2 :: LittleEndian.places 8 x.bits.toNat
  | .word w => 3 :: LittleEndian.places 4 w.raw.toNat

theorem Value.encode_eq_record (value : Value) : value.encode = value.record := by
  cases value <;> simp only [encode, discriminator, payload, record, LittleEndian.encode_eq_places]

namespace Token

/-- Marks stand before everything else that a token leaves on a tape. -/
theorem encode_eq (token : Token) (marks : Nat) :
    token.encode marks = List.replicate marks Kind.endOfLine.tag ++
      token.kind.tag :: (token.value.toList.map Value.encode).flatten := by
  have ones : (List.replicate marks [Kind.endOfLine.tag]).flatten =
      List.replicate marks Kind.endOfLine.tag := by
    simp
  simp only [encode, pieces, List.flatten_append, List.flatten_cons, ones, List.singleton_append]

/-- A token takes at least the byte of its tag. -/
theorem length_encode_pos (token : Token) (marks : Nat) : 0 < (token.encode marks).length := by
  rw [encode_eq, List.length_append, List.length_cons]
  omega

end Token

namespace Located

/-- What tokens leave on a tape, told apart from the pieces that are written: for each token its
tag and, if it carries a value, the record of that value. With line marks on, there is one mark
before a token for every line that it starts below the token before it; the first is compared with
a given line. -/
def encodeAll (marks : Bool) (line : Nat) : List Located → List UInt8
  | [] => []
  | located :: rest =>
    List.replicate (if marks then located.line - line else 0) Kind.endOfLine.tag ++
      located.token.kind.tag ::
        (located.token.value.toList.flatMap Value.record ++ encodeAll marks located.line rest)

theorem encodeAll_nil (marks : Bool) (line : Nat) : encodeAll marks line [] = [] := rfl

/-- These are the bytes that are written, one token after the other. -/
theorem encodeAll_cons (marks : Bool) (line : Nat) (located : Located) (rest : List Located) :
    encodeAll marks line (located :: rest) =
      located.token.encode (if marks then located.line - line else 0) ++
        encodeAll marks located.line rest := by
  have records : located.token.value.toList.flatMap Value.record =
      (located.token.value.toList.map Value.encode).flatten := by
    rw [List.flatMap_def]
    exact congrArg _ (List.map_congr_left fun value _ => value.encode_eq_record.symm)
  rw [encodeAll, Token.encode_eq, records, List.append_assoc, List.cons_append]

theorem encodeAll_length_pos {marks : Bool} {line : Nat} {tokens : List Located}
    (some : tokens ≠ []) : 0 < (encodeAll marks line tokens).length := by
  match tokens with
  | [] => contradiction
  | located :: rest =>
    rw [encodeAll_cons, List.length_append]
    exact Nat.add_pos_left (located.token.length_encode_pos _) _

end Located

/-! ## Scratch memory -/

namespace Scratch

/-- How many bytes of the capacity are not written yet. -/
def room (scratch : Scratch) : Nat := scratch.capacity - scratch.bytes.size

/-- The scratch memory with more bytes behind the others. -/
def append (scratch : Scratch) (more : List UInt8) : Scratch :=
  ⟨scratch.bytes ++ more, scratch.capacity⟩

@[simp] theorem append_room (scratch : Scratch) (more : List UInt8) :
    (scratch.append more).room = scratch.room - more.length := by
  simp only [append, room, ← Array.length_toList, Array.toList_appendList, List.length_append]
  omega

@[simp] theorem append_append (scratch : Scratch) (first second : List UInt8) :
    (scratch.append first).append second = scratch.append (first ++ second) := by
  have bytes : scratch.bytes ++ first ++ second = scratch.bytes ++ (first ++ second) :=
    Array.ext' (by simp)
  simp only [append, bytes]

theorem append_bytes (scratch : Scratch) (more : List UInt8) :
    (scratch.append more).bytes.toList = scratch.bytes.toList ++ more := by
  simp [append]

theorem put?_eq (scratch : Scratch) (piece : List UInt8) :
    scratch.put? piece = if piece.length < scratch.room then some (scratch.append piece) else none :=
  rfl

/-- Piece by piece or all at once, the same bytes fit: the check before the last piece is the
strongest. -/
theorem putAll?_cons_eq (scratch : Scratch) (piece : List UInt8) (pieces : List (List UInt8)) :
    scratch.putAll? (piece :: pieces) =
      if (piece :: pieces).flatten.length < scratch.room then
        some (scratch.append (piece :: pieces).flatten)
      else none := by
  induction pieces generalizing scratch piece with
  | nil =>
    rw [putAll?, put?_eq]
    by_cases fits : piece.length < scratch.room <;> simp [fits, putAll?]
  | cons second pieces ih =>
    rw [putAll?, put?_eq]
    by_cases fits : piece.length < scratch.room
    · simp only [if_pos fits, ih, append_room, append_append]
      simp only [List.flatten_cons, List.length_append, ← List.append_assoc]
      by_cases all : piece.length + second.length + pieces.flatten.length < scratch.room
      · rw [if_pos (by omega), if_pos all]
      · rw [if_neg (by omega), if_neg all]
    · have exceeds : ¬ (piece :: second :: pieces).flatten.length < scratch.room := by
        simp only [List.flatten_cons, List.length_append]
        omega
      rw [if_neg fits, if_neg exceeds]

end Scratch

/-- A token is written as a whole or not at all, as far as the scratch memory is handed on. -/
theorem Token.putAll?_pieces (token : Token) (marks : Nat) (scratch : Scratch) :
    scratch.putAll? (token.pieces marks) =
      if (token.encode marks).length < scratch.room then some (scratch.append (token.encode marks))
      else none := by
  unfold encode
  match shape : token.pieces marks with
  | [] => simp [pieces] at shape
  | piece :: pieces => exact scratch.putAll?_cons_eq piece pieces

/-! ## Writing and packing -/

namespace Scanner
variable {scanner after : Scanner}

theorem writeFrom_of_failed (marks : Bool) (line : Nat) (scratch : Scratch)
    {diagnosis : Diagnosis} (taken : scanner.next = (.error diagnosis, after)) :
    scanner.writeFrom marks line scratch = (.error diagnosis, after) := by
  rw [writeFrom]
  split
  · next found =>
    rw [taken] at found
    cases found
    rfl
  · next found =>
    rw [taken] at found
    cases found

/-- One round of writing, when the scanner gives a token. -/
theorem writeFrom_of_taken (marks : Bool) (line : Nat) (scratch : Scratch) {token : Token}
    (taken : scanner.next = (.ok token, after)) :
    scanner.writeFrom marks line scratch =
      match scratch.putAll? (token.pieces (if marks then after.tokenLine - line else 0)) with
      | none => (.error (.outOfMemory after.file after.line), after)
      | some next =>
        if token.isEnd then (.ok next, after)
        else after.writeFrom marks (max line after.tokenLine) next := by
  rw [writeFrom]
  split
  · next found =>
    rw [taken] at found
    cases found
  · next found =>
    rw [taken] at found
    cases found
    dsimp only
    generalize scratch.putAll? _ = written
    cases written with
    | none => rfl
    | some next =>
      dsimp only
      split <;> rename_i ended <;> simp [ended]

/-- The same round, with the token written as a whole. -/
theorem writeFrom_of_token (marks : Bool) (line : Nat) (scratch : Scratch) {token : Token}
    (taken : scanner.next = (.ok token, after)) :
    scanner.writeFrom marks line scratch =
      let bytes := token.encode (if marks then after.tokenLine - line else 0)
      if bytes.length < scratch.room then
        if token.isEnd then (.ok (scratch.append bytes), after)
        else after.writeFrom marks (max line after.tokenLine) (scratch.append bytes)
      else (.error (.outOfMemory after.file after.line), after) := by
  rw [writeFrom_of_taken marks line scratch taken, Token.putAll?_pieces]
  generalize token.encode _ = bytes
  by_cases fits : bytes.length < scratch.room <;> simp only [fits, ↓reduceIte]

/-- If all bytes fit with one to spare, the scan alone decides how the writing ends. -/
theorem writeFrom_of_fits (marks : Bool) {line : Nat} (scratch : Scratch) (scanner : Scanner)
    (reached : line ≤ scanner.line)
    (fits : scanner.scan.tokens = [] ∨
      (Located.encodeAll marks line scanner.scan.tokens).length < scratch.room) :
    scanner.writeFrom marks line scratch =
      (match scanner.scan.failure with
        | some diagnosis => .error diagnosis
        | none => .ok (scratch.append (Located.encodeAll marks line scanner.scan.tokens)),
      scanner.scan.final) := by
  induction scanner using scan_induction generalizing line scratch with
  | failed scanner diagnosis after taken =>
    rw [scan_of_failed taken, writeFrom_of_failed marks line scratch taken]
  | ended scanner token after taken ended =>
    have below := Nat.le_trans reached (next_lines taken).1
    rw [scan_of_ended taken ended] at fits ⊢
    simp only [Located.encodeAll_cons, Located.encodeAll_nil, List.append_nil, List.cons_ne_nil,
      false_or] at fits ⊢
    rw [writeFrom_of_token marks line scratch taken, Nat.max_eq_right below]
    simp only [if_pos fits, if_pos ended]
  | going scanner token after taken going ih =>
    have below := Nat.le_trans reached (next_lines taken).1
    rw [scan_of_going taken going] at fits ⊢
    simp only [Scan.cons_tokens, Scan.cons_failure, Scan.cons_final, Located.encodeAll_cons,
      List.cons_ne_nil, false_or, List.length_append] at fits ⊢
    rw [writeFrom_of_token marks line scratch taken, Nat.max_eq_right below]
    simp only [if_pos (Nat.lt_of_le_of_lt (Nat.le_add_right _ _) fits), going,
      Bool.false_eq_true, if_false]
    rw [ih _ (next_lines taken).2 (Or.inr ?_), Scratch.append_append]
    rw [Scratch.append_room]
    omega

/-- If they do not, the writing stops behind one of the tokens for want of memory, whatever the
scanner would have met later. -/
theorem writeFrom_of_overflow (marks : Bool) {line : Nat} (scratch : Scratch) (scanner : Scanner)
    (reached : line ≤ scanner.line) (some : scanner.scan.tokens ≠ [])
    (exceeds : scratch.room ≤ (Located.encodeAll marks line scanner.scan.tokens).length) :
    ∃ located ∈ scanner.scan.tokens, (scanner.writeFrom marks line scratch).1 =
      .error (.outOfMemory scanner.file located.reached) := by
  induction scanner using scan_induction generalizing line scratch with
  | failed scanner diagnosis after taken =>
    rw [scan_of_failed taken] at some
    contradiction
  | ended scanner token after taken ended =>
    have below := Nat.le_trans reached (next_lines taken).1
    rw [scan_of_ended taken ended] at exceeds ⊢
    simp only [Located.encodeAll_cons, Located.encodeAll_nil, List.append_nil] at exceeds
    rw [writeFrom_of_token marks line scratch taken, Nat.max_eq_right below]
    simp only [if_neg (Nat.not_lt.mpr exceeds)]
    exact ⟨_, List.mem_singleton_self _, by rw [next_file taken]⟩
  | going scanner token after taken going ih =>
    have below := Nat.le_trans reached (next_lines taken).1
    rw [scan_of_going taken going] at exceeds ⊢
    simp only [Scan.cons_tokens, Located.encodeAll_cons, List.length_append] at exceeds ⊢
    rw [writeFrom_of_token marks line scratch taken, Nat.max_eq_right below]
    generalize token.encode (if marks then after.tokenLine - line else 0) = bytes at exceeds ⊢
    by_cases fits : bytes.length < scratch.room
    · simp only [if_pos fits, going, Bool.false_eq_true, if_false]
      -- The token fits, so what does not fit is among the later ones, and there are some.
      have later : after.scan.tokens ≠ [] := by
        intro none
        rw [none] at exceeds
        simp only [Located.encodeAll_nil, List.length_nil] at exceeds
        omega
      have exceedsLater : (scratch.append bytes).room ≤
          (Located.encodeAll marks after.tokenLine after.scan.tokens).length := by
        rw [Scratch.append_room]
        omega
      obtain ⟨located, member, stopped⟩ := ih _ (next_lines taken).2 later exceedsLater
      exact ⟨located, List.mem_cons_of_mem _ member, by rw [stopped, next_file taken]⟩
    · simp only [if_neg fits]
      exact ⟨_, List.mem_cons_self, by rw [next_file taken]⟩

/-- The end of packing, when all tokens have been written: the bytes are committed if scratch
memory and copy fit together. -/
theorem pack_of_written (marks : Bool) (quota : Quota) {bytes : List UInt8}
    (some : 0 < bytes.length)
    (wrote : scanner.writeFrom marks scanner.line (.empty quota.free) =
      (.ok ((Scratch.empty quota.free).append bytes), after)) :
    scanner.pack marks quota =
      if 2 * bytes.length ≤ quota.free then
        ⟨.ok ⟨bytes⟩, ⟨quota.limit, quota.committed + bytes.length⟩, after⟩
      else ⟨.error (.outOfMemory after.file after.line), quota, after⟩ := by
  have written : ((Scratch.empty quota.free).append bytes).bytes.toList = bytes := by
    rw [Scratch.append_bytes]
    rfl
  have size : ((Scratch.empty quota.free).append bytes).bytes.size = bytes.length := by
    rw [← Array.length_toList, written]
  unfold pack
  rw [wrote]
  simp only [size, written]
  by_cases twice : 2 * bytes.length ≤ quota.free
  · -- What fits twice into the free space fits once below the limit.
    have once : quota.committed + bytes.length ≤ quota.limit := by
      have free : quota.free = quota.limit - quota.committed := rfl
      omega
    rw [if_neg (Nat.not_lt.mpr twice), Quota.commit?_eq_some_iff.mpr ⟨once, rfl⟩, if_pos twice]
  · rw [if_pos (Nat.lt_of_not_le twice), if_neg twice]

/-- A failed writing is told as it is and commits nothing. -/
theorem pack_of_failed (marks : Bool) (quota : Quota) {diagnosis : Diagnosis}
    (failed : (scanner.writeFrom marks scanner.line (.empty quota.free)).1 = .error diagnosis) :
    (scanner.pack marks quota).result = .error diagnosis ∧
      (scanner.pack marks quota).quota = quota := by
  unfold pack
  match wrote : scanner.writeFrom marks scanner.line (.empty quota.free) with
  | (.error other, after) =>
    rw [wrote] at failed
    cases failed
    exact ⟨rfl, rfl⟩
  | (.ok written, after) =>
    rw [wrote] at failed
    cases failed

/-- Packing has run out of memory behind one of the tokens and has committed nothing. -/
def RanOut (scanner : Scanner) (marks : Bool) (quota : Quota) : Prop :=
  (∃ located ∈ scanner.scan.tokens,
    (scanner.pack marks quota).result = .error (.outOfMemory scanner.file located.reached)) ∧
    (scanner.pack marks quota).quota = quota

/-- A scan that reaches the end of input is packed just when its bytes fit twice. -/
theorem pack_of_complete (marks : Bool) (quota : Quota) (scanner : Scanner)
    (complete : scanner.scan.failure = none) :
    let bytes := Located.encodeAll marks scanner.line scanner.scan.tokens
    (2 * bytes.length ≤ quota.free → scanner.pack marks quota =
      ⟨.ok ⟨bytes⟩, ⟨quota.limit, quota.committed + bytes.length⟩, scanner.scan.final⟩) ∧
      (quota.free < 2 * bytes.length → scanner.RanOut marks quota) := by
  intro bytes
  obtain ⟨before, last, tokens, -, line, -⟩ := scanner.scan_ends complete
  have some : 0 < bytes.length := Located.encodeAll_length_pos (by simp [tokens])
  by_cases fits : bytes.length < quota.free
  · have wrote := writeFrom_of_fits marks (.empty quota.free) scanner (Nat.le_refl _) (Or.inr fits)
    rw [complete] at wrote
    have packed := pack_of_written marks quota some wrote
    constructor
    · intro twice
      rw [packed, if_pos twice]
    · intro exceeds
      rw [if_neg (Nat.not_le.mpr exceeds), scan_final_file, ← line] at packed
      refine ⟨⟨last, ?_, by rw [packed]⟩, by rw [packed]⟩
      rw [tokens]
      exact List.mem_append_right _ (List.mem_singleton_self last)
  · refine ⟨fun twice => absurd twice (by omega), fun _ => ?_⟩
    obtain ⟨located, member, stopped⟩ := writeFrom_of_overflow marks (.empty quota.free) scanner
      (Nat.le_refl _) (by simp [tokens]) (Nat.not_lt.mp fits)
    obtain ⟨told, kept⟩ := pack_of_failed marks quota stopped
    exact ⟨⟨located, member, told⟩, kept⟩

/-- A failure of the scanner comes out just when all tokens before it could be written. -/
theorem pack_of_failure (marks : Bool) (quota : Quota) (scanner : Scanner) {diagnosis : Diagnosis}
    (failure : scanner.scan.failure = some diagnosis) :
    let tokens := scanner.scan.tokens
    let bytes := Located.encodeAll marks scanner.line tokens
    (tokens = [] ∨ bytes.length < quota.free →
      (scanner.pack marks quota).result = .error diagnosis ∧
        (scanner.pack marks quota).quota = quota) ∧
      (¬ (tokens = [] ∨ bytes.length < quota.free) → scanner.RanOut marks quota) := by
  intro tokens bytes
  constructor
  · intro fits
    have wrote := writeFrom_of_fits marks (.empty quota.free) scanner (Nat.le_refl _) fits
    rw [failure] at wrote
    exact pack_of_failed marks quota (congrArg Prod.fst wrote)
  · intro exceeds
    obtain ⟨some, full⟩ := not_or.mp exceeds
    obtain ⟨located, member, stopped⟩ := writeFrom_of_overflow marks (.empty quota.free) scanner
      (Nat.le_refl _) some (Nat.not_lt.mp full)
    obtain ⟨told, kept⟩ := pack_of_failed marks quota stopped
    exact ⟨⟨located, member, told⟩, kept⟩

/-- Which tapes packing hands out. -/
theorem pack_eq_ok_iff {marks : Bool} {quota : Quota} {tape : Tape} :
    (scanner.pack marks quota).result = .ok tape ↔
      scanner.scan.failure = none ∧
        tape = ⟨Located.encodeAll marks scanner.line scanner.scan.tokens⟩ ∧
        2 * tape.size ≤ quota.free := by
  constructor
  · intro packed
    match failure : scanner.scan.failure with
    | none =>
      obtain ⟨written, full⟩ := pack_of_complete marks quota scanner failure
      by_cases twice :
          2 * (Located.encodeAll marks scanner.line scanner.scan.tokens).length ≤ quota.free
      · rw [written twice] at packed
        cases packed
        exact ⟨rfl, rfl, twice⟩
      · obtain ⟨⟨located, -, told⟩, -⟩ := full (Nat.lt_of_not_le twice)
        rw [told] at packed
        cases packed
    | some diagnosis =>
      obtain ⟨failed, full⟩ := pack_of_failure marks quota scanner failure
      by_cases fits : scanner.scan.tokens = [] ∨
          (Located.encodeAll marks scanner.line scanner.scan.tokens).length < quota.free
      · rw [(failed fits).1] at packed
        cases packed
      · obtain ⟨⟨located, -, told⟩, -⟩ := full fits
        rw [told] at packed
        cases packed
  · rintro ⟨complete, rfl, twice⟩
    rw [(pack_of_complete marks quota scanner complete).1 twice]

/-- Packing succeeds just when the scanner reaches the end of input and all bytes fit twice into
what is free; then exactly these bytes are handed out and committed. A failure of the scanner is
told if the bytes of the tokens before it leave some free space unused, or if there are none.
Otherwise memory has run out behind one of the tokens. Whatever the failure, nothing is
committed. -/
theorem pack_outcome (scanner : Scanner) (marks : Bool) (quota : Quota) :
    let tokens := scanner.scan.tokens
    let bytes := Located.encodeAll marks scanner.line tokens
    let free := quota.limit - quota.committed
    let packing := scanner.pack marks quota
    match scanner.scan.failure with
    | none =>
      if 2 * bytes.length ≤ free then
        packing.result = .ok ⟨bytes⟩ ∧
          packing.quota = { quota with committed := quota.committed + bytes.length }
      else scanner.RanOut marks quota
    | some diagnosis =>
      if tokens = [] ∨ bytes.length < free then
        packing.result = .error diagnosis ∧ packing.quota = quota
      else scanner.RanOut marks quota := by
  intro tokens bytes free packing
  split
  · next complete =>
    obtain ⟨written, full⟩ := pack_of_complete marks quota scanner complete
    split
    · next twice =>
      simp only [packing, written twice]
      exact ⟨rfl, rfl⟩
    · next exceeds => exact full (Nat.lt_of_not_le exceeds)
  · next diagnosis failure =>
    obtain ⟨failed, full⟩ := pack_of_failure marks quota scanner failure
    split
    · next fits => exact failed fits
    · next exceeds => exact full exceeds

end Scanner
end TokenTape
