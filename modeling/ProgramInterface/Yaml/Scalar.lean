import ProgramInterface.Number.IntegerText
import ProgramInterface.Yaml.Place

/-!
# Scalars in a YAML text

Plain, quoted and block scalars: what they say, and where they end. A line end inside a plain or
quoted scalar counts as a space, and each further one as itself.
-/

namespace ProgramInterface

namespace Yaml

/-- The text of a line end and of the line ends after it: the first one alone counts as a space, and
in front of others it is left out, unless it has a character of its own. -/
def foldBreaks (first : Char) (others : List Char) : List Char :=
  if first ≠ '\n' then first :: others
  else if others.isEmpty then [' ']
  else others

/-! ## Plain scalars -/

/-- The number of characters up to where a plain scalar breaks off. In a flow collection brackets,
commas and question marks end it too. -/
def plainRun (inFlow : Bool) (n : Nat) : List Char → Nat
  | [] => n
  | c :: rest =>
    let flowEnd (c : Char) : Bool := [',', '[', ']', '\x7b', '\x7d'].contains c
    if isBlank c then n
    else if c = ':' ∧ (endsOrBlank rest ∨ (inFlow ∧ rest.head?.any flowEnd)) then n
    else if inFlow ∧ (flowEnd c ∨ c = '?') then n
    else plainRun inFlow (n + 1) rest

/-- The spaces and line ends at a place, the last one first; nothing, if a marker of a document
follows a line end. -/
def breaksFrom (breaks : List Char) : Nat → Place → Option (List Char) × Place
  | 0, place => (some breaks, place)
  | fuel + 1, place =>
    if place.sees ' ' then breaksFrom breaks fuel place.step
    else
      match place.lineBreak? with
      | none => (some breaks, place)
      | some (c, next) =>
        if atDocumentMarker next.rest then (none, next)
        else breaksFrom (c :: breaks) fuel next

/-- What separates two parts of a plain scalar: the text it counts as, empty if nothing separates
them, or nothing in front of a marker of a document; whether a line ends there; and the place
behind. -/
def plainGap (place : Place) : Option (List Char) × Bool × Place :=
  let (spaces, place) := place.takeWhile (· = ' ')
  match place.lineBreak? with
  | none => (some spaces, false, place)
  | some (first, next) =>
    if atDocumentMarker next.rest then (none, true, next)
    else
      let (breaks, behind) := breaksFrom [] (next.rest.length + 1) next
      (breaks.map fun breaks => foldBreaks first breaks.reverse, true, behind)

/-- A plain scalar from one of its parts on: `done` is what was read, last first, `gap` what separates
it from this part, and `crossed` whether a line ended in that gap. Gives the scalar, whether a line
end was skipped behind it, and the place behind that. -/
def plainFrom (inFlow : Bool) (indent : Int) (done gap : List Char) (crossed : Bool) :
    Nat → Place → List Char × Bool × Place
  | 0, place => (done.reverse, crossed, place)
  | fuel + 1, place =>
    let run := plainRun inFlow 0 place.rest
    if place.sees '#' ∨ run = 0 then (done.reverse, crossed, place)
    else
      let done := (place.rest.take run).reverse ++ (gap.reverse ++ done)
      match plainGap (place.advance run) with
      | (none, crossed, behind) => (done.reverse, crossed, behind)
      | (some gap, crossed, behind) =>
        if gap.isEmpty ∨ behind.sees '#' ∨ (!inFlow ∧ (behind.column : Int) < indent) then
          (done.reverse, crossed, behind)
        else plainFrom inFlow indent done gap crossed fuel behind

/-- A plain scalar, whether a line end was skipped behind it, and the place behind that; in a block its
further lines stand at a column of at least `indent`. -/
def plainScalar (inFlow : Bool) (indent : Int) (place : Place) : List Char × Bool × Place :=
  plainFrom inFlow indent [] [] false (place.rest.length + 1) place

/-! ## Quoted scalars -/

/-- The character that a letter stands for behind a backslash. -/
def escapedChar? (c : Char) : Option Char :=
  match c with
  | '0' => some '\x00'
  | 'a' => some '\x07'
  | 'b' => some '\x08'
  | 't' => some '\t'
  | '\t' => some '\t'
  | 'n' => some '\n'
  | 'v' => some '\x0B'
  | 'f' => some '\x0C'
  | 'r' => some '\r'
  | 'e' => some '\x1B'
  | ' ' => some ' '
  | '"' => some '"'
  | '\\' => some '\\'
  | '/' => some '/'
  | 'N' => some '\x85'
  | '_' => some '\xA0'
  | 'L' => some '\u2028'
  | 'P' => some '\u2029'
  | _ => none

/-- The number of hexadecimal digits behind a letter that begins an escape by number. -/
def escapeWidth? (c : Char) : Option Nat :=
  match c with
  | 'x' => some 2
  | 'u' => some 4
  | 'U' => some 8
  | _ => none

/-- The code point with a number that an escape gives. -/
def numberedPoint (n : Nat) : Except Fault CodePoint :=
  match CodePoint.ofNat? n with
  | some point => .ok point
  | none =>
    if n < Nat.pow 2 31 then .error (.value "chr() arg not in range(0x110000)")
    else .error (@Fault.overflow .character)

/-- The line ends at a place inside a quoted scalar, the blanks around them left out. A marker of a
document at the beginning of a line is a fault. -/
def quotedBreaks (done : List Char) : Nat → Place → Except Fault (List Char × Place)
  | 0, place => .ok (done.reverse, place)
  | fuel + 1, place =>
    if atDocumentMarker place.rest then .error .malformed
    else
      let behind := (place.takeWhile fun c => c = ' ' || c = '\t').2
      match behind.lineBreak? with
      | none => .ok (done.reverse, behind)
      | some (c, next) => quotedBreaks (c :: done) fuel next

/-- An escape behind its backslash: the code points it stands for and the place behind it. -/
def readEscape (place : Place) : Except Fault (Text × Place) :=
  match place.head? with
  | none => .error .malformed
  | some c =>
    match escapedChar? c, escapeWidth? c with
    | some char, _ => .ok ([.scalar char], place.step)
    | none, some width =>
      let digits := (place.rest.drop 1).take width
      let values := digits.filterMap (IntegerText.digitIn? 16)
      if values.length = width then
        (numberedPoint (IntegerText.ofDigits 16 values)).map fun point =>
          ([point], place.advance (width + 1))
      else .error .malformed
    | none, none =>
      match place.lineBreak? with
      | some (_, next) =>
        (quotedBreaks [] (next.rest.length + 1) next).map fun (breaks, behind) =>
          (Text.ofChars breaks, behind)
      | none => .error .malformed

/-- The blanks and line ends at a place inside a quoted scalar, as they count in it. -/
def quotedGap (place : Place) : Except Fault (List Char × Place) :=
  let (blanks, behind) := place.takeWhile fun c => c = ' ' || c = '\t'
  match behind.lineBreak? with
  | none => if behind.rest.isEmpty then .error .malformed else .ok (blanks, behind)
  | some (first, next) =>
    (quotedBreaks [] (next.rest.length + 1) next).map fun (others, behind) =>
      (foldBreaks first others, behind)

/-- The rest of a quoted scalar; `done` is what was read, last first. -/
def quotedFrom (double : Bool) (done : Text) : Nat → Place → Except Fault (Text × Place)
  | 0, _ => .error .malformed
  | fuel + 1, place =>
    match place.rest with
    | [] => .error .malformed
    | c :: rest =>
      if double ∧ c = '"' then .ok (done.reverse, place.step)
      else if double ∧ c = '\\' then
        match readEscape place.step with
        | .ok (points, behind) => quotedFrom double (points.reverse ++ done) fuel behind
        | .error fault => .error fault
      else if !double ∧ c = '\'' then
        if rest.head? = some '\'' then
          quotedFrom double (.scalar '\'' :: done) fuel (place.advance 2)
        else .ok (done.reverse, place.step)
      else if isBlank c then
        match quotedGap place with
        | .ok (gap, behind) =>
          quotedFrom double ((Text.ofChars gap).reverse ++ done) fuel behind
        | .error fault => .error fault
      else quotedFrom double (.scalar c :: done) fuel place.step

/-- A quoted scalar that begins with its quote, and the place behind it. -/
def quotedScalar (double : Bool) (place : Place) : Except Fault (Text × Place) :=
  quotedFrom double [] (place.rest.length + 1) place.step

/-! ## Block scalars -/

/-- What becomes of the line ends at the end of a block scalar. -/
inductive Chomping where
  | strip
  | clip
  | keep
  deriving DecidableEq

/-- The sign that tells what becomes of the last line ends. -/
def chomping? : Option Char → Option Chomping
  | some '+' => some .keep
  | some '-' => some .strip
  | _ => none

/-- The digit that tells how far a block scalar is moved in. -/
def increment? (c : Option Char) : Option Nat :=
  c.bind fun c => if '0' ≤ c ∧ c ≤ '9' then some (c.toNat - '0'.toNat) else none

/-- The signs behind the mark of a block scalar: a chomping sign and a digit, in either order. -/
def blockHeader (place : Place) : Except Fault (Chomping × Option Nat × Place) := do
  let (chomping, increment, place) :=
    match chomping? place.head? with
    | some chomping =>
      match increment? place.step.head? with
      | some n => (chomping, some n, place.advance 2)
      | none => (chomping, none, place.step)
    | none =>
      match increment? place.head? with
      | some n =>
        match chomping? place.step.head? with
        | some chomping => (chomping, some n, place.advance 2)
        | none => (.clip, some n, place.step)
      | none => (.clip, none, place)
  if increment = some 0 ∨ !endsOrSpace place.rest then throw .malformed
  let place := place.skipSpaces.skipComment
  if !endsLine place.rest then throw .malformed
  return (chomping, increment, place.skipBreak)

/-- The line ends in front of the first line of a block scalar, the last one first, the greatest column
reached by the spaces between them, and the place behind. -/
def leadingBreaks (breaks : List Char) (widest : Nat) : Nat → Place → List Char × Nat × Place
  | 0, place => (breaks.reverse, widest, place)
  | fuel + 1, place =>
    if place.sees ' ' then
      let next := place.step
      leadingBreaks breaks (max widest next.column) fuel next
    else
      match place.lineBreak? with
      | some (c, next) => leadingBreaks (c :: breaks) widest fuel next
      | none => (breaks.reverse, widest, place)

/-- The place behind the spaces at the head of the rest, up to a column. -/
def skipTo (column : Nat) (place : Place) : Place :=
  let spaces := (place.rest.takeWhile (· = ' ')).length
  place.advance (min spaces (column - place.column))

/-- The line ends at a place inside a block scalar and the place behind them and the spaces in front
of the next line. -/
def innerBreaks (indent : Nat) (breaks : List Char) : Nat → Place → List Char × Place
  | 0, place => (breaks.reverse, place)
  | fuel + 1, place =>
    let place := skipTo indent place
    match place.lineBreak? with
    | some (c, next) => innerBreaks indent (c :: breaks) fuel next
    | none => (breaks.reverse, place)

/-- Whether a line of a block scalar begins with text rather than a blank. -/
def beginsText (place : Place) : Bool :=
  !(place.sees ' ' || place.sees '\t')

/-- The lines of a block scalar from one on: `done` is what was read, last first, and `breaks` the line
ends in front of this line. -/
def blockFrom (folded : Bool) (chomping : Chomping) (indent : Nat) (done breaks : List Char) :
    Nat → Place → List Char × Place
  | 0, place => (done.reverse, place)
  | fuel + 1, place =>
    let (line, behind) := place.takeWhile fun c => !isBreak c
    let done := line.reverse ++ (breaks.reverse ++ done)
    let (lineEnd, next) :=
      match behind.lineBreak? with
      | some (c, next) => ([c], next)
      | none => ([], behind)
    let (breaks, next) := innerBreaks indent [] (next.rest.length + 1) next
    if next.column = indent ∧ !next.rest.isEmpty then
      let joint : List Char :=
        if folded ∧ lineEnd = ['\n'] ∧ beginsText place ∧ beginsText next then
          if breaks.isEmpty then [' '] else []
        else lineEnd
      blockFrom folded chomping indent (joint ++ done) breaks fuel next
    else
      let tail : List Char :=
        match chomping with
        | .strip => []
        | .clip => lineEnd
        | .keep => lineEnd ++ breaks
      (done.reverse ++ tail, next)

/-- A block scalar that begins with its mark, and the place behind it; `indent` is the column of the
collection it stands in. -/
def blockScalar (folded : Bool) (indent : Int) (place : Place) :
    Except Fault (List Char × Place) := do
  let (chomping, increment, place) ← blockHeader place.step
  let least : Nat := max 1 (indent + 1).toNat
  let (breaks, column, place) :=
    match increment with
    | none =>
      let (breaks, widest, behind) := leadingBreaks [] 0 (place.rest.length + 1) place
      (breaks, max least widest, behind)
    | some n =>
      let column := least + n - 1
      let (breaks, behind) := innerBreaks column [] (place.rest.length + 1) place
      (breaks, column, behind)
  if place.column = column ∧ !place.rest.isEmpty then
    return blockFrom folded chomping column [] breaks (place.rest.length + 1) place
  else
    let tail : List Char :=
      match chomping with
      | .keep => breaks
      | _ => []
    return (tail, place)

end Yaml

end ProgramInterface
