import ProgramInterface.Text.Basic
import ProgramInterface.Text.CaseTable

/-!
# Case of letters

Full case mappings: one code point may map to several (`İ` to an `i` with a dot above, `ß` to
`SS`).
-/

namespace ProgramInterface

/-- The shift that a table gives for a number, if an entry covers it. -/
def CaseTable.shift? : List (Nat × Nat × Nat × Int) → Nat → Option Int
  | [], _ => none
  | (first, last, step, shift) :: rest, n =>
    if first ≤ n ∧ n ≤ last ∧ (n - first) % step = 0 then some shift
    else CaseTable.shift? rest n

namespace CodePoint

/-- The code points that a table of special mappings and a table of shifts give for one. -/
def mapCase (special : List (Nat × List Nat)) (simple : List (Nat × Nat × Nat × Int))
    (c : CodePoint) : Text :=
  match special.lookup c.val with
  | some targets => targets.filterMap ofNat?
  | none =>
    match CaseTable.shift? simple c.val with
    | some shift => (ofNat? (c.val + shift).toNat).toList
    | none => [c]

/-- The lower-case form of a code point standing alone. -/
def lower (c : CodePoint) : Text :=
  c.mapCase CaseTable.lowerSpecial CaseTable.lower

/-- The upper-case form of a code point. -/
def upper (c : CodePoint) : Text :=
  c.mapCase CaseTable.upperSpecial CaseTable.upper

end CodePoint

namespace Text

/-- A text in upper case. -/
def upper (t : Text) : Text :=
  t.flatMap CodePoint.upper

/-- A text with its first code point in lower case. -/
def lowerFirst : Text → Text
  | [] => []
  | c :: rest => c.lower ++ rest

end Text

end ProgramInterface
