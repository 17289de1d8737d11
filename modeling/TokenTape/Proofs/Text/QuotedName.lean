import Mathlib.Data.List.TakeWhile
import TokenTape.Bytes.Text
import TokenTape.Text.QuotedName
/-!
What can be told from a name between quotes. Every character of it shows itself, whatever the name
has in it (`render_visible`), and the name is read back up to its closing quote, whatever follows, so
no two names are quoted alike (`render_append_inj`, `render_injective`). A code point is told by its
hexadecimal digits, which end at the brace behind them.
-/
namespace TokenTape.QuotedName

/-! ## Code points in hexadecimal -/

/-- The digits of a number are among the sixteen digits that there are. -/
theorem mem_hexDigits {n : Nat} {c : Char} (member : c ∈ Nat.toDigits 16 n) :
    ∃ digit : Fin 16, c = Nat.digitChar digit := by
  induction n using Nat.strongRecOn with
  | ind n ih =>
    rw [Nat.toDigits_eq_if (by decide)] at member
    split at member
    · next small => exact ⟨⟨n, small⟩, List.mem_singleton.mp member⟩
    · next large =>
      rcases List.mem_append.mp member with first | last
      · exact ih (n / 16) (by omega) first
      · exact ⟨⟨n % 16, Nat.mod_lt n (by decide)⟩, List.mem_singleton.mp last⟩

/-- The number that hexadecimal digits mean. -/
def hexadecimal (digits : List Char) : Nat :=
  digits.foldl (fun n digit => 16 * n + (Hex.digitValue? digit).getD 0) 0

theorem hexadecimal_toDigits (n : Nat) : hexadecimal (Nat.toDigits 16 n) = n := by
  have value : ∀ digit : Fin 16, (Hex.digitValue? (Nat.digitChar digit)).getD 0 = digit := by decide
  induction n using Nat.strongRecOn with
  | ind n ih =>
    rw [Nat.toDigits_eq_if (by decide)]
    split
    · next small => simpa [hexadecimal] using value ⟨n, small⟩
    · next large =>
      have last := value ⟨n % 16, Nat.mod_lt n (by decide)⟩
      have first := ih (n / 16) (by omega)
      rw [hexadecimal, List.foldl_append, ← hexadecimal, first]
      simp only [List.foldl_cons, List.foldl_nil, last]
      omega

theorem byCodePoint_toList (c : Char) :
    (byCodePoint c).toList = '\\' :: 'u' :: '\x7b' :: (Nat.toDigits 16 c.toNat ++ ['\x7d']) := by
  simp [byCodePoint]

/-! ## Reading back -/

/-- The character that a mark behind a backslash stands for. -/
def unmarked? : Char → Option Char
  | '"' => some '"'
  | '\\' => some '\\'
  | 't' => some '\t'
  | 'n' => some '\n'
  | 'r' => some '\r'
  | '0' => some '\x00'
  | _ => none

/-- Reads one character of a name between quotes; none is read at the closing quote. -/
def readCharacter? : List Char → Option (Char × List Char)
  | [] => none
  | '"' :: _ => none
  | '\\' :: 'u' :: '\x7b' :: rest =>
    let digits := rest.takeWhile (· != '\x7d')
    some (Char.ofNat (hexadecimal digits), (rest.dropWhile (· != '\x7d')).tail)
  | '\\' :: mark :: rest => (unmarked? mark).map (·, rest)
  | c :: rest => some (c, rest)

theorem readCharacter?_byCodePoint (c : Char) (rest : List Char) :
    readCharacter? ((byCodePoint c).toList ++ rest) = some (c, rest) := by
  have other : ∀ digit : Fin 16, (Nat.digitChar digit != '\x7d') = true := by decide
  have digits : ∀ digit ∈ Nat.toDigits 16 c.toNat, (digit != '\x7d') = true := by
    intro digit member
    obtain ⟨value, rfl⟩ := mem_hexDigits member
    exact other value
  rw [byCodePoint_toList]
  simp only [List.cons_append, List.append_assoc, List.nil_append, readCharacter?]
  rw [List.takeWhile_append_of_pos digits, List.dropWhile_append_of_pos digits]
  simp [hexadecimal_toDigits]

/-- How a character is written inside the quotes: by a mark behind a backslash, as it is, or by its code
point. -/
inductive Writes (c : Char) : String → Prop
  | mark (mark : Char) (means : unmarked? mark = some c) : Writes c (String.ofList ['\\', mark])
  | itself (visible : isVisible c = true) (noQuote : c ≠ '"') (noBackslash : c ≠ '\\') :
      Writes c (String.singleton c)
  | codePoint : Writes c (byCodePoint c)

theorem writes_escaped (c : Char) : Writes c (escaped c) := by
  unfold escaped
  split
  · next quote => exact quote ▸ .mark '"' rfl
  split
  · next backslash => exact backslash ▸ .mark '\\' rfl
  split
  · next tab => exact tab ▸ .mark 't' rfl
  split
  · next newline => exact newline ▸ .mark 'n' rfl
  split
  · next carriage => exact carriage ▸ .mark 'r' rfl
  split
  · next null => exact null ▸ .mark '0' rfl
  split
  · next noQuote noBackslash _ _ _ _ visible => exact .itself visible noQuote noBackslash
  · exact .codePoint

/-- A character is read back from the way it is written inside the quotes. -/
theorem readCharacter?_escaped (c : Char) (rest : List Char) :
    readCharacter? ((escaped c).toList ++ rest) = some (c, rest) := by
  generalize written : escaped c = text
  have writes : Writes c text := written ▸ writes_escaped c
  cases writes with
  | mark mark means =>
    unfold unmarked? at means
    split at means <;> cases means <;> rfl
  | itself _ noQuote noBackslash =>
    rw [String.toList_singleton, List.singleton_append]
    unfold readCharacter?
    split <;> simp_all
  | codePoint => exact readCharacter?_byCodePoint c rest

theorem render_toList (name : String) :
    (render name).toList = '"' :: (name.toList.flatMap (escaped · |>.toList) ++ ['"']) := by
  have onto (written : String) (chars : List Char) :
      (chars.foldl (fun written c => written ++ escaped c) written).toList =
        written.toList ++ chars.flatMap (escaped · |>.toList) := by
    induction chars generalizing written with
    | nil => simp
    | cons c chars ih => simp [ih]
  rw [render, String.foldl_eq_foldl_toList, String.toList_append, onto]
  rfl

/-- A quoted name ends at its own closing quote: what is quoted and what follows can be told apart. -/
theorem render_append_inj {name other : String} {first second : List Char} :
    (render name).toList ++ first = (render other).toList ++ second ↔ name = other ∧ first = second := by
  have inside (chars others : List Char)
      (same : chars.flatMap (escaped · |>.toList) ++ '"' :: first =
        others.flatMap (escaped · |>.toList) ++ '"' :: second) : chars = others ∧ first = second := by
    induction chars generalizing others with
    | nil =>
      cases others with
      | nil => exact ⟨rfl, (List.cons.inj same).2⟩
      | cons d others =>
        have read := congrArg readCharacter? same
        rw [List.flatMap_cons, List.append_assoc, readCharacter?_escaped] at read
        cases read
    | cons c chars ih =>
      have read := congrArg readCharacter? same
      rw [List.flatMap_cons, List.append_assoc, readCharacter?_escaped] at read
      cases others with
      | nil => cases read
      | cons d others =>
        rw [List.flatMap_cons, List.append_assoc, readCharacter?_escaped] at read
        obtain ⟨rfl, rest⟩ := Prod.mk.inj (Option.some.inj read)
        obtain ⟨rfl, behind⟩ := ih others rest
        exact ⟨rfl, behind⟩
  constructor
  · intro same
    rw [render_toList, render_toList] at same
    simp only [List.cons_append, List.append_assoc, List.nil_append, List.cons.injEq, true_and] at same
    obtain ⟨chars, behind⟩ := inside _ _ same
    exact ⟨String.toList_inj.mp chars, behind⟩
  · rintro ⟨rfl, rfl⟩
    rfl

/-- No two names are quoted alike. -/
theorem render_injective : Function.Injective render := by
  intro name other same
  have alike : (render name).toList ++ [] = (render other).toList ++ [] := by rw [same]
  exact (render_append_inj.mp alike).1

/-! ## Visible characters -/

theorem escaped_visible {c d : Char} (member : d ∈ (escaped c).toList) : isVisible d = true := by
  have graphic (range : 32 ≤ d.toNat ∧ d.toNat ≤ 126) : isVisible d = true :=
    (isVisible_iff_of_ascii (by omega)).mpr range
  generalize written : escaped c = text at member
  have writes : Writes c text := written ▸ writes_escaped c
  cases writes with
  | mark mark means =>
    apply graphic
    rw [String.toList_ofList, List.mem_cons, List.mem_singleton] at member
    rcases member with rfl | rfl
    · decide
    · unfold unmarked? at means
      split at means <;> first | decide | cases means
  | itself visible =>
    rw [String.toList_singleton, List.mem_singleton] at member
    rwa [member]
  | codePoint =>
    apply graphic
    simp only [byCodePoint_toList, List.mem_cons, List.mem_append, List.not_mem_nil, or_false] at member
    rcases member with rfl | rfl | rfl | digit | rfl
    · decide
    · decide
    · decide
    · have digits : ∀ digit : Fin 16,
          32 ≤ (Nat.digitChar digit).toNat ∧ (Nat.digitChar digit).toNat ≤ 126 := by
        decide
      obtain ⟨value, rfl⟩ := mem_hexDigits digit
      exact digits value
    · decide

/-- No character of a quoted name is in one of the ranges that are hidden. -/
theorem render_visible (name : String) :
    ∀ c ∈ (render name).toList, ∀ ranges ∈ Ranges.hidden, ∀ range ∈ ranges,
      ¬ (range.1 ≤ c.toNat ∧ c.toNat ≤ range.2) := by
  intro c member
  refine isVisible_iff.mp ?_
  have quote : isVisible '"' = true := (isVisible_iff_of_ascii (by decide)).mpr (by decide)
  simp only [render_toList, List.mem_cons, List.mem_append, List.mem_flatMap, List.not_mem_nil,
    or_false] at member
  rcases member with rfl | ⟨d, -, written⟩ | rfl
  · exact quote
  · exact escaped_visible written
  · exact quote

end TokenTape.QuotedName
