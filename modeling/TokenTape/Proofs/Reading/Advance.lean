import TokenTape.Proofs.Reading.Lines
import TokenTape.Reading.Reader
/-!
How a reader moves through its input. Whatever is read, the text that is left is the end of the
text that was there, or the end of a reply that was asked for meanwhile. So input that is broken
at newlines stays so, and a newline with something behind it in the same text is found only
before the first request.
-/
namespace TokenTape

/-- Input moved on within a text, or into a reply that continues it and on from there. -/
inductive Advances : List Char → LineSource → List Char → LineSource → Prop
  | within {text rest : List Char} {source : LineSource} (suffix : rest <:+ text) :
      Advances text source rest source
  | asked {text rest : List Char} {reply : Reply} {source left : LineSource}
      (further : Advances reply.text source rest left) : Advances text (reply :: source) rest left

namespace Advances

variable {text middle rest : List Char} {source between left : LineSource}

theorem refl (text : List Char) (source : LineSource) : Advances text source text source :=
  .within (List.suffix_refl text)

theorem trans (first : Advances text source middle between)
    (second : Advances middle between rest left) : Advances text source rest left := by
  induction first with
  | within suffix =>
    cases second with
    | within further => exact .within (further.trans suffix)
    | asked further => exact .asked further
  | asked _ ih => exact .asked (ih second)

/-- What can still be asked for becomes no more. -/
theorem source_suffix (advances : Advances text source rest left) : left <:+ source := by
  induction advances with
  | within suffix => exact List.suffix_refl _
  | asked _ ih => exact ih.trans (List.suffix_cons _ _)

theorem inLines (advances : Advances text source rest left) (lines : InLines text source) :
    InLines rest left := by
  induction advances with
  | within suffix => exact lines.of_suffix suffix
  | @asked _ _ reply _ _ _ ih =>
    cases reply with
    | line more => exact ih lines.2.2
    | failure reason => exact lines.elim

/-- Behind a request the text is the rest of one line. -/
theorem within_or_line (advances : Advances text source rest left) (lines : InLines text source) :
    rest <:+ text ∧ left = source ∨ '\n' ∉ rest.dropLast := by
  induction advances with
  | within suffix => exact Or.inl ⟨suffix, rfl⟩
  | @asked _ rest reply _ _ _ ih =>
    cases reply with
    | failure reason => exact lines.elim
    | line more =>
      refine Or.inr ?_
      rcases ih lines.2.2 with ⟨⟨before, whole⟩, -⟩ | line
      · intro member
        have inside := lines.2.1.2
        rw [show more.toList = before ++ rest from whole.symm,
          List.dropLast_append_of_ne_nil (List.ne_nil_of_mem (List.dropLast_subset _ member))]
          at inside
        exact inside (List.mem_append_right before member)
      · exact line

end Advances

theorem Body.read_advances (closer : Closer) (memory : Bool) (reversed text : List Char)
    (source : LineSource) :
    Advances text source (Body.read closer memory reversed text source).text
      (Body.read closer memory reversed text source).source := by
  fun_induction Body.read closer memory reversed text source with
  | case1 => exact .within (List.suffix_cons _ _)
  | case2 _ _ _ _ _ _ _ ih => exact Advances.trans (.within (List.suffix_cons _ _)) ih
  | case3 => exact .refl _ _
  | case4 => exact .asked (.refl _ _)
  | case5 _ _ _ _ ih => exact .asked ih

namespace Reader

theorem settle_advances (reader : Reader) :
    Advances reader.text reader.source reader.settle.2.text reader.settle.2.source := by
  fun_induction settle reader with
  | case1 => exact .asked (.refl _ _)
  | case2 _ _ _ _ ih => exact .asked ih
  | case3 text source line tokenLine ih =>
    have comment : text.dropWhile (· != '\n') <:+ '/' :: '/' :: text :=
      (List.dropWhile_suffix _).trans (List.suffix_append ['/', '/'] text)
    exact Advances.trans (.within comment) ih
  | case4 text source line tokenLine body reader reason ended =>
    exact Advances.trans (.within (List.suffix_append ['/', '*'] text))
      (Body.read_advances .comment false [] text source)
  | case5 text source line tokenLine body reader _ ih =>
    have opening := Advances.trans (.within (List.suffix_append ['/', '*'] text))
      (Body.read_advances .comment false [] text source)
    exact opening.trans ih
  | case6 c text source line tokenLine _ _ _ ih =>
    exact Advances.trans (.within (List.suffix_cons c text)) ih
  | case7 => exact .refl _ _
  | case8 => exact .refl _ _

theorem take_advances (reader : Reader) :
    Advances reader.text reader.source reader.take.2.text reader.take.2.source := by
  obtain ⟨stray, text, source, line, tokenLine⟩ := reader
  match stray, text with
  | byte :: stray, text => exact .refl _ _
  | [], [] => exact .refl _ _
  | [], c :: rest =>
    simp only [take]
    split
    · exact .within ((List.dropWhile_suffix _).trans (List.suffix_cons c rest))
    split
    · exact .within ((Numeral.read_suffix (c :: rest)).trans (List.dropWhile_suffix _))
    split
    · have body := Body.read_advances .quote false [] rest source
      split <;> exact Advances.trans (.within (List.suffix_cons c rest)) body
    split
    · split
      · next code after =>
        split
        · exact .within (List.suffix_append [c, code, '\''] after)
        · exact .within (List.suffix_cons c _)
      · exact .within (List.suffix_cons c rest)
    split
    · next symbol after found =>
      exact .within ⟨symbol.spelling, Symbol.spelling_append_of_front? found⟩
    · exact .within (List.suffix_cons c rest)

theorem next_advances (reader : Reader) :
    Advances reader.text reader.source reader.next.2.text reader.next.2.source := by
  have settled := settle_advances reader
  unfold next
  split
  · next reason stopped found =>
    rw [found] at settled
    exact settled
  · next stopped found =>
    rw [found] at settled
    exact settled.trans (take_advances stopped)

end Reader
end TokenTape
