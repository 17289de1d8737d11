import TokenTape.Proofs.Bytes.Utf8
import TokenTape.Reading.LineSource
/-!
A text read line by line. A reader over the bytes of a text gives the same lines whether it cuts
bytes or characters (`ofBytes_encode`), because no other character has a byte that looks like a
newline. Behind a text that is empty or ends in a newline, such lines break the input at its
newlines alone (`inLines_ofText`), and joined they are the text again (`text_ofText`).
-/
namespace TokenTape

/-! ## Cutting bytes and cutting characters -/

section Cutting
variable {α : Type} {ends : α → Bool}

theorem cutOnto_done (done : List (List α)) (current xs : List α) :
    cutOnto ends done current xs = done.reverse ++ cutOnto ends [] current xs := by
  induction xs generalizing done current with
  | nil =>
    simp only [cutOnto]
    split <;> simp
  | cons x rest ih =>
    simp only [cutOnto]
    split
    · rw [ih, ih [_], List.reverse_cons, List.append_assoc]
      rfl
    · exact ih done _

/-- What does not end a piece goes on with it. -/
theorem cutOnto_append {before : List α} (inside : ∀ x ∈ before, ends x = false)
    (done : List (List α)) (current xs : List α) :
    cutOnto ends done current (before ++ xs) = cutOnto ends done (before.reverse ++ current) xs := by
  induction before generalizing current with
  | nil => rfl
  | cons x rest ih =>
    rw [List.cons_append, cutOnto, inside x List.mem_cons_self]
    simp [ih fun y held => inside y (List.mem_cons_of_mem x held)]

end Cutting

private theorem cutOnto_encode (line text : List Char) :
    cutOnto (· == 10) [] (line.flatMap String.utf8EncodeChar).reverse
        (text.flatMap String.utf8EncodeChar) =
      (cutOnto (· == '\n') [] line.reverse text).map (·.flatMap String.utf8EncodeChar) := by
  induction text generalizing line with
  | nil =>
    cases line with
    | nil => rfl
    | cons c line => simp [cutOnto]
  | cons c rest ih =>
    rw [List.flatMap_cons]
    by_cases newline : c = '\n'
    · subst c
      have byte : String.utf8EncodeChar '\n' = [10] := rfl
      simp only [byte, List.singleton_append, cutOnto, beq_self_eq_true, ↓reduceIte]
      rw [cutOnto_done, cutOnto_done [('\n' :: line.reverse).reverse]]
      have later := ih []
      simp only [List.flatMap_nil, List.reverse_nil] at later
      rw [later]
      simp [byte]
    · have inside : ∀ byte ∈ String.utf8EncodeChar c, (byte == 10) = false := by
        intro byte held
        exact beq_eq_false_iff_ne.mpr (fun same => Utf8.newline_not_mem newline (same ▸ held))
      have later := ih (line ++ [c])
      rw [cutOnto_append inside, cutOnto, if_neg (by simpa using newline)]
      simpa using later

/-- What a reply gives to read; a failure gives nothing. -/
def Reply.text : Reply → List Char
  | .line more => more.toList
  | .failure _ => []

namespace LineSource

/-- The bytes of a text are read as its lines, each valid for itself. -/
theorem ofBytes_encode (text : String) : ofBytes (Utf8.encode text) = ofText text := by
  have whole : Utf8.encode text = text.toList.flatMap String.utf8EncodeChar := by
    rw [← Utf8.encode_ofList, String.ofList_toList]
  have cut := cutOnto_encode [] text.toList
  simp only [List.flatMap_nil, List.reverse_nil] at cut
  rw [ofBytes, whole, cutAfter, cut, List.map_map]
  apply List.map_congr_left
  intro line _
  simp [replyOfBytes, Utf8.decode?_encode]

/-- All that the replies still have to say, joined. -/
def text (source : LineSource) : List Char := source.flatMap Reply.text

@[simp] theorem text_nil : text [] = [] := rfl

@[simp] theorem text_cons (reply : Reply) (source : LineSource) :
    text (reply :: source) = reply.text ++ text source := rfl

theorem text_suffix {rest source : LineSource} (suffix : rest <:+ source) :
    text rest <:+ text source := by
  obtain ⟨before, rfl⟩ := suffix
  exact ⟨text before, List.flatMap_append.symm⟩

theorem text_map_line (pieces : List (List Char)) :
    text (pieces.map fun piece => .line (String.ofList piece)) = pieces.flatten := by
  induction pieces with
  | nil => rfl
  | cons piece rest ih => simp [Reply.text, ih]

theorem text_ofText (whole : String) : (ofText whole).text = whole.toList := by
  rw [ofText, text_map_line, flatten_cutAfter]

end LineSource

/-! ## Input that is broken at newlines -/

/-- Some text with a newline nowhere but at its end. -/
def OneLine (text : List Char) : Prop := text ≠ [] ∧ '\n' ∉ text.dropLast

/-- A text that may go on behind a newline only: each reply is one line, and whatever a further
reply continues is used up or ends in a newline. -/
def InLines : List Char → LineSource → Prop
  | _, [] => True
  | text, .line more :: source =>
    (text = [] ∨ text.getLast? = some '\n') ∧ OneLine more.toList ∧ InLines more.toList source
  | _, .failure _ :: _ => False

namespace InLines

/-- What is left of a text goes on where the text did. -/
theorem of_suffix {text rest : List Char} {source : LineSource} (inLines : InLines text source)
    (suffix : rest <:+ text) : InLines rest source := by
  match source with
  | [] => trivial
  | .line more :: source =>
    refine ⟨?_, inLines.2⟩
    obtain ⟨before, rfl⟩ := suffix
    by_cases used : rest = []
    · exact Or.inl used
    · refine Or.inr ?_
      rcases inLines.1 with empty | ends
      · exact absurd (List.append_eq_nil_iff.mp empty).2 used
      · rwa [List.getLast?_append, List.getLast?_eq_some_getLast used, Option.some_or,
          ← List.getLast?_eq_some_getLast used] at ends

/-- A text that goes on and has something left has its newline left. -/
theorem newline_mem {text : List Char} {source : LineSource} (inLines : InLines text source)
    (more : source ≠ []) (some : text ≠ []) : '\n' ∈ text := by
  match source with
  | [] => contradiction
  | .line line :: source =>
    rcases inLines.1 with empty | ends
    · contradiction
    · exact List.mem_of_getLast? ends

private theorem of_cut {start line : List Char} (inside : '\n' ∉ line)
    (boundary : start = [] ∨ start.getLast? = some '\n') (text : List Char) :
    InLines start ((cutOnto (· == '\n') [] line text).map fun piece =>
      .line (String.ofList piece)) := by
  induction text generalizing start line with
  | nil =>
    cases line with
    | nil => trivial
    | cons c line =>
      refine ⟨boundary, ⟨by simp, ?_⟩, trivial⟩
      intro member
      have held := List.dropLast_subset _ member
      simp only [String.toList_ofList, List.mem_reverse] at held
      exact inside held
  | cons c rest ih =>
    rw [cutOnto]
    by_cases newline : c = '\n'
    · subst c
      rw [if_pos (beq_self_eq_true _), cutOnto_done]
      refine ⟨boundary, ⟨by simp, ?_⟩, ?_⟩
      · simpa using inside
      · exact ih (by simp) (Or.inr (by simp))
    · rw [if_neg (by simpa using newline)]
      refine ih ?_ boundary
      rintro (_ | ⟨_, held⟩)
      · contradiction
      · exact inside held

end InLines

/-- The lines of a text break the input at newlines, wherever a line may begin. -/
theorem inLines_ofText {start : String} (boundary : start = "" ∨ ∃ before, start = before ++ "\n")
    (text : String) : InLines start.toList (.ofText text) := by
  apply InLines.of_cut List.not_mem_nil
  rcases boundary with rfl | ⟨before, rfl⟩
  · exact Or.inl rfl
  · exact Or.inr (by simp)

end TokenTape
