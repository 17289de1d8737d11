import TokenTape.Listing
import TokenTape.Proofs.Reading.Lines
/-!
How a listing falls into lines. What is printed is cut after its newlines, so the printed lines are
the lines that were meant just when none of these has a newline of its own
(`Listing.printedLines_unlines_iff`). Numbers, the names of kinds and JSON never have one
(`Json.render_unbroken`); a caption has one where it shows a text that has one
(`Token.caption_unbroken`).
-/
namespace TokenTape

/-- A text without a newline. -/
def Unbroken (text : String) : Prop := '\n' ∉ text.toList

instance (text : String) : Decidable (Unbroken text) := inferInstanceAs (Decidable (¬ _))

theorem unbroken_append {first second : String} :
    Unbroken (first ++ second) ↔ Unbroken first ∧ Unbroken second := by
  simp [Unbroken, not_or]

theorem Unbroken.append {first second : String} (before : Unbroken first) (behind : Unbroken second) :
    Unbroken (first ++ second) :=
  unbroken_append.mpr ⟨before, behind⟩

theorem unbroken_ofList {chars : List Char} : Unbroken (String.ofList chars) ↔ '\n' ∉ chars := by
  simp [Unbroken]

/-! ## Numbers -/

theorem not_mem_toDigits {c : Char} (other : c.isDigit = false) (n : Nat) : c ∉ Nat.toDigits 10 n := by
  intro member
  have digit := Nat.isDigit_of_mem_toDigits (by decide) (Nat.le_refl 10) member
  rw [other] at digit
  cases digit

theorem not_mem_nat {c : Char} (other : c.isDigit = false) (n : Nat) : c ∉ (toString n).toList := by
  rw [Nat.toString_eq_ofList_toDigits, String.toList_ofList]
  exact not_mem_toDigits other n

/-- An integer is written with digits and a sign. -/
theorem not_mem_int {c : Char} (other : c.isDigit = false) (sign : c ≠ '-') (n : Int) :
    c ∉ (toString n).toList := by
  rw [Int.toString_eq_repr, Int.repr_eq_if]
  split
  · exact not_mem_nat other n.toNat
  · rw [String.toList_append, List.mem_append, not_or]
    exact ⟨List.not_mem_cons_of_ne_of_not_mem sign List.not_mem_nil, not_mem_nat other (-n).toNat⟩

theorem unbroken_nat (n : Nat) : Unbroken (toString n) := not_mem_nat (by decide) n

theorem unbroken_int (n : Int) : Unbroken (toString n) := not_mem_int (by decide) (by decide) n

namespace Decimal

theorem newline_not_mem_digits (x : Decimal) : '\n' ∉ x.toDigits.digits := by
  unfold toDigits
  dsimp only
  split
  · decide
  · intro member
    have kept := (List.dropWhile_suffix _).subset (List.mem_reverse.mp member)
    exact not_mem_toDigits (by decide) _ (List.mem_reverse.mp kept)

namespace Digits

variable {x : Digits}

theorem positional_unbroken (plain : '\n' ∉ x.digits) : Unbroken x.positional := by
  have zeros (count : Nat) : '\n' ∉ List.replicate count '0' := by
    intro member
    exact absurd (List.eq_of_mem_replicate member) (by decide)
  unfold positional
  split
  · apply Unbroken.append (by decide)
    rw [unbroken_ofList, List.mem_append, not_or]
    exact ⟨zeros _, plain⟩
  · rw [unbroken_ofList, List.mem_append, List.mem_append, List.mem_cons]
    rintro ((whole | padding) | point | fraction)
    · exact plain (List.take_subset _ _ whole)
    · exact zeros _ padding
    · exact absurd point (by decide)
    · split at fraction
      · exact absurd fraction (by decide)
      · exact plain (List.drop_subset _ _ fraction)

theorem scientific_unbroken (plain : '\n' ∉ x.digits) : Unbroken x.scientific := by
  obtain ⟨digits, leading⟩ := x
  refine .append (.append (unbroken_ofList.mpr ?_) ?_) (unbroken_nat _)
  · match digits with
    | [] => exact plain
    | [_] => exact plain
    | digit :: next :: more =>
      simp only [List.mem_cons, not_or] at plain ⊢
      exact ⟨plain.1, by decide, plain.2⟩
  · split <;> decide

end Digits
end Decimal

theorem unbroken_sign (negative : Bool) : Unbroken (if negative then "-" else "") := by
  cases negative <;> decide

theorem Binary64.caption_unbroken (x : Binary64) : Unbroken x.caption := by
  have sign := unbroken_sign x.negative
  unfold caption
  dsimp only
  split
  · decide
  · exact sign.append (by decide)
  · split
    · exact (sign.append (unbroken_nat _)).append (by decide)
    · exact sign.append (Decimal.Digits.positional_unbroken (Decimal.newline_not_mem_digits _))

/-! ## JSON -/

namespace Json

theorem escaped_unbroken (c : Char) : Unbroken (escaped c) := by
  have control : ∀ n : Fin 32, Unbroken (Hex.padded 4 n) := by decide
  unfold escaped
  split
  · decide
  split
  · decide
  split
  · decide
  split
  · decide
  split
  · decide
  split
  · decide
  split
  · decide
  split
  · next small => exact .append (by decide) (control ⟨c.toNat, small⟩)
  · next other _ _ _ => simpa [Unbroken] using Ne.symm other

theorem quoted_unbroken (text : String) : Unbroken (quoted text) := by
  have onto (written : String) (chars : List Char) (plain : Unbroken written) :
      Unbroken (chars.foldl (fun written c => written ++ escaped c) written) := by
    induction chars generalizing written with
    | nil => exact plain
    | cons c chars ih => exact ih _ (plain.append (escaped_unbroken c))
  unfold quoted
  rw [String.foldl_eq_foldl_toList]
  exact (onto _ _ (by decide)).append (by decide)

theorem ofBinary64_unbroken (x : Binary64) : Unbroken (ofBinary64 x) := by
  have sign := unbroken_sign x.negative
  unfold ofBinary64
  dsimp only
  split
  · split
    · exact sign.append (by decide)
    · apply sign.append
      have plain := Decimal.newline_not_mem_digits
      split
      · exact Decimal.Digits.positional_unbroken (plain _)
      · exact Decimal.Digits.scientific_unbroken (plain _)
  · decide

mutual

/-- A JSON value is written on one line. -/
theorem render_unbroken : ∀ json : Json, Unbroken json.render
  | .null => by decide
  | .integer n => unbroken_int n
  | .number x => ofBinary64_unbroken x
  | .string text => quoted_unbroken text
  | .object members => by
    rw [render]
    exact .append (.append (by decide) (renderMembers_unbroken members)) (by decide)

theorem renderMembers_unbroken : ∀ members : List (String × Json), Unbroken (renderMembers members)
  | [] => by decide
  | [(name, value)] => by
    rw [renderMembers]
    exact .append ((quoted_unbroken name).append (by decide)) (render_unbroken value)
  | (name, value) :: next :: more => by
    rw [renderMembers]
    · have later := renderMembers_unbroken (next :: more)
      have first := render_unbroken value
      exact ((((quoted_unbroken name).append (by decide)).append first).append (by decide)).append later
    · exact List.cons_ne_nil next more

end

end Json

/-! ## Captions -/

theorem Kind.name_unbroken (kind : Kind) : Unbroken kind.name := by
  match kind with
  | symbol s => cases s <;> decide
  | atom a => cases a <;> decide
  | keyword k => cases k <;> decide
  | endOfLine => decide
  | endOfInput => decide

theorem graphicCharacter?_ne_newline {code : Int64} {c : Char} (found : graphicCharacter? code = some c) :
    c ≠ '\n' := by
  unfold graphicCharacter? at found
  dsimp only at found
  split at found
  · next graphic =>
    cases found
    have every : ∀ n : Fin 127, 33 ≤ n.val → Char.ofNat n ≠ '\n' := by decide
    exact every ⟨code.toInt.toNat, by omega⟩ (by dsimp only; omega)
  · cases found

/-- What a caption shows of a value has no newline, unless it shows a text that has one. -/
theorem Value.caption?_unbroken {vocabulary : Vocabulary} {value : Value} (kind : Kind)
    (plain : ∀ word text, value = .word word → vocabulary.text? word = some text → Unbroken text)
    {shown : String} (shows : value.caption? vocabulary kind = some shown) : Unbroken shown := by
  cases value with
  | void => cases shows
  | integer n =>
    simp only [caption?] at shows
    split at shows
    · next graphic =>
      cases shows
      have other := unbroken_ofList.mpr (List.not_mem_cons_of_ne_of_not_mem
        (graphicCharacter?_ne_newline graphic).symm List.not_mem_nil)
      exact .append (.append (by decide) other) (by decide)
    · cases shows
      exact unbroken_int _
  | float x =>
    cases shows
    exact x.caption_unbroken
  | word w =>
    simp only [caption?] at shows
    split at shows
    · next text named =>
      cases shows
      exact .append (.append (by decide) (plain w text rfl named)) (by decide)
    · next named _ =>
      cases shows
      exact plain w shown rfl named
    · cases shows
      exact .append (by decide) (unbroken_nat _)

/-- A caption starts with the name of the kind. -/
theorem Token.caption_eq (vocabulary : Vocabulary) (token : Token) :
    token.caption vocabulary = token.kind.name ++
      match token.value.bind (Value.caption? vocabulary token.kind) with
      | some text => " " ++ text
      | none => "" := by
  cases shown : token.value.bind (Value.caption? vocabulary token.kind) with
  | some text =>
    simp only [caption, shown]
    exact String.append_assoc
  | none =>
    simp only [caption, shown]
    exact String.append_empty.symm

theorem Token.caption_unbroken {vocabulary : Vocabulary} {token : Token}
    (plain : ∀ word text, token.value = some (.word word) → vocabulary.text? word = some text →
      Unbroken text) : Unbroken (token.caption vocabulary) := by
  rw [caption_eq]
  apply token.kind.name_unbroken.append
  split
  · next text shows =>
    obtain ⟨value, carried, shows⟩ := Option.bind_eq_some_iff.mp shows
    apply Unbroken.append (by decide)
    apply Value.caption?_unbroken token.kind ?_ shows
    rintro word text rfl named
    exact plain word text carried named
  · decide

namespace Listing

/-! ## Printed lines -/

/-- The lines of an output, each with its newline, and last what stands behind all newlines. -/
def printedLines (output : String) : List String :=
  (cutAfter (· == '\n') output.toList).map String.ofList

theorem ofText_eq_printedLines (output : String) :
    LineSource.ofText output = (printedLines output).map .line := by
  rw [LineSource.ofText, printedLines, List.map_map]
  rfl

theorem oneLine_of_mem {text : List Char} {source : LineSource} (broken : InLines text source)
    {more : String} (member : .line more ∈ source) : OneLine more.toList := by
  induction source generalizing text with
  | nil => cases member
  | cons reply source ih =>
    cases reply with
    | failure reason => exact broken.elim
    | line first =>
      rcases List.mem_cons.mp member with same | later
      · cases same
        exact broken.2.1
      · exact ih broken.2.2 later

/-- A printed line has no newline but at its end. -/
theorem newline_not_mem_of_printed {output line : String} (printed : line ∈ printedLines output) :
    '\n' ∉ line.toList.dropLast := by
  have broken : InLines "".toList (LineSource.ofText output) := inLines_ofText (Or.inl rfl) output
  rw [ofText_eq_printedLines] at broken
  exact (oneLine_of_mem broken (List.mem_map_of_mem printed)).2

/-- A line without a newline of its own is printed as one line. -/
theorem printedLines_line {line : String} (plain : Unbroken line) (more : String) :
    printedLines (line ++ "\n" ++ more) = (line ++ "\n") :: printedLines more := by
  have inside : ∀ c ∈ line.toList, (c == '\n') = false := by
    intro c member
    exact beq_eq_false_iff_ne.mpr fun newline => plain (newline ▸ member)
  have cut : cutAfter (· == '\n') (line.toList ++ '\n' :: more.toList) =
      (line.toList ++ ['\n']) :: cutAfter (· == '\n') more.toList := by
    rw [cutAfter, cutOnto_append inside, cutOnto, if_pos (beq_self_eq_true _), cutOnto_done]
    simp [cutAfter]
  have whole : (line ++ "\n" ++ more).toList = line.toList ++ '\n' :: more.toList := by simp
  rw [printedLines, whole, cut, List.map_cons, String.ofList_append, String.ofList_toList]
  rfl

/-- The lines of an output are printed one after the other. -/
theorem unlines_cons (line : String) (lines : List String) :
    unlines (line :: lines) = line ++ "\n" ++ unlines lines := by
  have onto (text : String) (lines : List String) :
      lines.foldl (fun text line => text ++ line ++ "\n") text = text ++ unlines lines := by
    unfold unlines
    induction lines generalizing text with
    | nil => exact String.append_empty.symm
    | cons line lines ih =>
      rw [List.foldl_cons, List.foldl_cons, ih, ih ("" ++ line ++ "\n"), String.empty_append]
      simp only [String.append_assoc]
  unfold unlines
  rw [List.foldl_cons, String.empty_append]
  exact onto _ lines

/-- The printed lines are the lines that were meant, just when none of these has a newline. -/
theorem printedLines_unlines_iff {lines : List String} :
    printedLines (unlines lines) = lines.map (· ++ "\n") ↔ ∀ line ∈ lines, Unbroken line := by
  constructor
  · intro printed line member
    have held : line ++ "\n" ∈ printedLines (unlines lines) := by
      rw [printed]
      exact List.mem_map_of_mem member
    have inside := newline_not_mem_of_printed held
    rwa [String.toList_append, show "\n".toList = ['\n'] from rfl, List.dropLast_concat] at inside
  · intro plain
    induction lines with
    | nil => rfl
    | cons line lines ih =>
      have further := ih fun other held => plain other (List.mem_cons_of_mem line held)
      rw [unlines_cons, printedLines_line (plain line List.mem_cons_self), further, List.map_cons]

end Listing
end TokenTape
