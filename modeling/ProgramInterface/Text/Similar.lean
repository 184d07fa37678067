import ProgramInterface.Text.Basic

/-!
# Similar texts

The similarity of two texts is twice the number of code points in matching runs, as a share of all
their code points. The matching runs are the longest common run and, to the left and to the right of
it, the matching runs of what stands there.
-/

namespace ProgramInterface

namespace Text

/-- The number of code points that two texts begin with in common. -/
def commonStart : Text → Text → Nat
  | c :: s, d :: t => if c = d then commonStart s t + 1 else 0
  | _, _ => 0

/-- A run that two texts have in common: where it begins in each of them, and its length. -/
structure Run where
  first : Nat
  second : Nat
  length : Nat

/-- The longer of two runs, the first one if they are equally long. -/
def Run.longer (r s : Run) : Run :=
  if r.length < s.length then s else r

/-- The longest run of `s` from its beginning that stands somewhere in `t`, where `s` and `t` begin at
given places. -/
def longestFrom (first second : Nat) (best : Run) (s : Text) : Text → Run
  | [] => best
  | d :: t =>
    longestFrom first (second + 1) (best.longer ⟨first, second, commonStart s (d :: t)⟩) s t

/-- The longest run that two texts have in common; of several the one that begins first in the first
text, and then in the second. -/
def longestRun (first : Nat) (best : Run) (s t : Text) : Run :=
  match s with
  | [] => best
  | c :: rest => longestRun (first + 1) (longestFrom first 0 best (c :: rest) t) rest t

/-- The number of code points in matching runs; `fuel` bounds how often a text is divided. -/
def matchingFrom : Nat → Text → Text → Nat
  | 0, _, _ => 0
  | fuel + 1, s, t =>
    let run := longestRun 0 ⟨0, 0, 0⟩ s t
    if run.length = 0 then 0
    else
      run.length + matchingFrom fuel (s.take run.first) (t.take run.second) +
        matchingFrom fuel (s.drop (run.first + run.length)) (t.drop (run.second + run.length))

/-- The number of code points in matching runs. -/
def matching (s t : Text) : Nat :=
  matchingFrom (s.length + 1) s t

/-- How many similar texts are looked for at most. -/
def similarLimit : Nat := 3

/-- Whether the first of two texts is at least as similar to a word as the second. -/
def isCloser (word s t : Text) : Bool :=
  matching t word * (s.length + word.length) ≤ matching s word * (t.length + word.length)

/-- The texts among some that are similar to a word by at least three fifths, the most similar ones
first. -/
def similarTo (word : Text) (texts : List Text) : List Text :=
  let similar := texts.filter fun t => 3 * (t.length + word.length) ≤ 10 * matching t word
  (similar.mergeSort fun s t => isCloser word s t).take similarLimit

end Text

end ProgramInterface
