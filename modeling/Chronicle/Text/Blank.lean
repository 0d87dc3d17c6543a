/-!
# White space

The characters with the Unicode property `White_Space`, and the removal of
leading ones.
-/

namespace Chronicle

/-- The code points of white space, as closed ranges. -/
def blankRanges : List (Nat × Nat) :=
  [(0x09, 0x0D), (0x20, 0x20), (0x85, 0x85), (0xA0, 0xA0), (0x1680, 0x1680), (0x2000, 0x200A),
    (0x2028, 0x2029), (0x202F, 0x202F), (0x205F, 0x205F), (0x3000, 0x3000)]

def isBlank (c : Char) : Bool :=
  blankRanges.any fun (low, high) => low ≤ c.toNat && c.toNat ≤ high

def trimBlanks (cs : List Char) : List Char := cs.dropWhile isBlank

theorem isBlank_of_isWhitespace (c : Char) (blank : c.isWhitespace) : isBlank c := by
  simp only [Char.isWhitespace, Bool.or_eq_true, decide_eq_true_eq] at blank
  rcases blank with ((rfl | rfl) | rfl) | rfl <;> decide

example : (blankRanges.map fun (low, high) => high - low + 1).sum = 25 := by decide

end Chronicle
