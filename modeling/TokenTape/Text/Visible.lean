import TokenTape.Text.Extender
import TokenTape.Text.Unassigned
/-!
Characters that show themselves. A character is visible if it is assigned and has a shape of
its own; of the blanks only the space counts as visible. All of ASCII from the space to the
tilde is visible, and no control is.
-/
namespace TokenTape

namespace Ranges

/-- Controls: the code points of general category Cc. -/
def controls : Ranges := [(0x0, 0x1f), (0x7f, 0x9f)]

/-- Format characters: the code points of general category Cf. -/
def formats : Ranges :=
  [(0xad, 0xad), (0x600, 0x605), (0x61c, 0x61c), (0x6dd, 0x6dd), (0x70f, 0x70f), (0x890, 0x891),
    (0x8e2, 0x8e2), (0x180e, 0x180e), (0x200b, 0x200f), (0x202a, 0x202e), (0x2060, 0x2064),
    (0x2066, 0x206f), (0xfeff, 0xfeff), (0xfff9, 0xfffb), (0x110bd, 0x110bd), (0x110cd, 0x110cd),
    (0x13430, 0x1343f), (0x1bca0, 0x1bca3), (0x1d173, 0x1d17a), (0xe0001, 0xe0001),
    (0xe0020, 0xe007f)]

/-- Separators other than the space: the code points of categories Zs, Zl and Zp. -/
def separators : Ranges :=
  [(0xa0, 0xa0), (0x1680, 0x1680), (0x2000, 0x200a), (0x2028, 0x2029), (0x202f, 0x202f),
    (0x205f, 0x205f), (0x3000, 0x3000)]

/-- Code points for private use: general category Co. -/
def privateUse : Ranges :=
  [(0xe000, 0xf8ff), (0xf0000, 0xffffd), (0x100000, 0x10fffd)]

/-- Letters that are ignored by default: the fillers of Hangul, which have no shape. -/
def fillers : Ranges := [(0x115f, 0x1160), (0x3164, 0x3164), (0xffa0, 0xffa0)]

/-- Everything that does not show itself. -/
def hidden : List Ranges :=
  [controls, formats, separators, privateUse, fillers, extenders, unassigned]

/-- All these tables can be searched. -/
theorem ascending_hidden : ∀ ranges ∈ hidden, ranges.ascending = true := by decide +kernel

end Ranges

/-- Whether the character at a code point shows itself. -/
def isVisibleCode (n : Nat) : Bool := Ranges.hidden.all fun ranges => !ranges.contains n

/-- Whether a character shows itself. -/
def isVisible (c : Char) : Bool := isVisibleCode c.toNat

/-- A search of the tables finds what their ranges hold: a character shows itself just when no range
of code points that are hidden holds it. -/
theorem isVisible_iff {c : Char} :
    isVisible c = true ↔
      ∀ ranges ∈ Ranges.hidden, ∀ range ∈ ranges, ¬ (range.1 ≤ c.toNat ∧ c.toNat ≤ range.2) := by
  have found {ranges : Ranges} (member : ranges ∈ Ranges.hidden) :=
    Ranges.contains_iff (n := c.toNat) (Ranges.ascending_hidden ranges member)
  simp only [isVisible, isVisibleCode, List.all_eq_true, Bool.not_eq_true', ← Bool.not_eq_true]
  constructor
  · intro none ranges member range held inside
    exact none ranges member ((found member).mpr ⟨range, held, inside⟩)
  · intro none ranges member some
    obtain ⟨range, held, inside⟩ := (found member).mp some
    exact none ranges member range held inside

/-- The visible characters of ASCII run from the space to the tilde. -/
theorem isVisible_iff_of_ascii {c : Char} (ascii : c.toNat < 128) :
    isVisible c = true ↔ 32 ≤ c.toNat ∧ c.toNat ≤ 126 := by
  have every : ∀ n : Fin 128, isVisibleCode n.val = true ↔ 32 ≤ n.val ∧ n.val ≤ 126 := by
    decide +kernel
  exact every ⟨c.toNat, ascii⟩

end TokenTape
