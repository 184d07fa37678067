import Mathlib.Data.List.Infix
import ProgramInterface.Proofs.Grammar.Words

/-!
# Types as they are written

A `TypeTerm` is a type in the sense of the grammar together with its text: primitive types, paths,
generic types, tuples, arrays, slices and references, without comments but with white space wherever
the grammar has it. `TypeTerm.IsWritten` says that the texts are spelled so. The text of such a type
contains `Vec<` if and only if a generic type at or below it has a path that ends in `Vec` and no white
space behind the path (`TypeTerm.marker_infix_iff`).
-/

namespace ProgramInterface

/-! ## Pieces of a text -/

open Lexical

/-- Whether a text is made of pieces with white space between them, at least where two of them would
run together. -/
inductive Spread : List (List Char) → List Char → Prop where
  | last (piece : List Char) : Spread [piece] piece
  | cons {piece gap next text : List Char} {pieces : List (List Char)} (hgap : IsBlank gap)
      (hapart : gap = [] → runTogether piece next = false) (hrest : Spread (next :: pieces) text) :
      Spread (piece :: next :: pieces) (piece ++ gap ++ text)

/-- A piece may stand at the next one if the two do not run together. -/
theorem Spread.tight {piece next text : List Char} {pieces : List (List Char)}
    (hapart : runTogether piece next = false) (hrest : Spread (next :: pieces) text) :
    Spread (piece :: next :: pieces) (piece ++ text) := by
  have hspread : Spread (piece :: next :: pieces) (piece ++ [] ++ text) :=
    .cons (List.forall_mem_nil _) (fun _ => hapart) hrest
  rwa [List.append_nil] at hspread

/-- Some items with commas between them, and with one behind the last if it is `trailing`. -/
def commaSeparated (trailing : Bool) : List (List Char) → List (List Char)
  | [] => []
  | [item] => if trailing then [item, [',']] else [item]
  | item :: next :: rest => item :: [','] :: commaSeparated trailing (next :: rest)

/-- The names of a path with double colons between them: those in front of the last one, and the last
one. -/
def pathPieces (last : List Char) : List (List Char) → List (List Char)
  | [] => [last]
  | name :: rest => name :: "::".toList :: pathPieces last rest

/-- Whether a text is made of items in brackets, with commas between them and perhaps one behind the
last. -/
def IsBracketed (opening closing : Char) (items : List (List Char)) (text : List Char) : Prop :=
  ∃ trailing, Spread ([opening] :: (commaSeparated trailing items ++ [[closing]])) text

/-! ## Types -/

/-- A path: names with double colons between them. -/
structure PathTerm where
  qualifiers : List (List Char)
  last : List Char
  text : List Char

/-- The first name of a path. -/
def PathTerm.head (path : PathTerm) : List Char :=
  path.qualifiers.headD path.last

/-- The words that a path does not begin with: they begin other types, stand in front of types, or are
literals. -/
def reservedWords : List (List Char) :=
  ["impl", "for", "async", "const", "unsafe", "extern", "fn", "dyn", "mut", "true", "false"].map
    String.toList

/-- A type as it is written, or a lifetime, which may stand among the arguments of one. What has parts
has its whole text beside them; the white space behind the path of a generic type is told apart. -/
inductive TypeTerm where
  | lifetime (text : List Char)
  | primitive (text : List Char)
  | path (path : PathTerm)
  | generic (path : PathTerm) (gap : List Char) (arguments : List TypeTerm) (text : List Char)
  | tuple (elements : List TypeTerm) (text : List Char)
  | array (element : TypeTerm) (length : Option (List Char)) (text : List Char)
  | reference (lifetime : List Char) (referent : TypeTerm) (text : List Char)

/-- A generic type: its path, the white space behind it, and its arguments. -/
structure GenericTerm where
  path : PathTerm
  gap : List Char
  arguments : List TypeTerm

/-- Whether the path of a generic type ends in `Vec`. -/
def GenericTerm.IsVector (generic : GenericTerm) : Prop :=
  "Vec".toList <:+ generic.path.last

instance (generic : GenericTerm) : Decidable generic.IsVector :=
  inferInstanceAs (Decidable ("Vec".toList <:+ generic.path.last))

/-- Whether a generic type is written with the marker of vectors: its path ends in `Vec`, with no white
space behind. -/
def GenericTerm.IsMarked (generic : GenericTerm) : Prop :=
  generic.gap = [] ∧ generic.IsVector

/-- Whether a path is spelled with its names. -/
structure PathTerm.IsSpelled (path : PathTerm) : Prop where
  qualifiers : ∀ name ∈ path.qualifiers, IsWholeName name
  last : IsWholeName path.last
  text : Spread (pathPieces path.last path.qualifiers) path.text

/-- Whether a path is spelled with its names, and not as another type is. -/
structure PathTerm.IsWritten (path : PathTerm) : Prop extends path.IsSpelled where
  head : path.head ∉ reservedWords
  single : path.qualifiers = [] → path.last ∉ primitiveNames

namespace TypeTerm

/-- The text of a type. -/
def text : TypeTerm → List Char
  | .lifetime text => text
  | .primitive text => text
  | .path spelled => spelled.text
  | .generic _ _ _ text => text
  | .tuple _ text => text
  | .array _ _ text => text
  | .reference _ _ text => text

/-- Whether a term is a type and no lifetime. -/
def IsType : TypeTerm → Prop
  | lifetime _ => False
  | _ => True

mutual

/-- The generic types at or below a type, in pre-order. -/
def generics : TypeTerm → List GenericTerm
  | .lifetime _ => []
  | .primitive _ => []
  | .path _ => []
  | .generic spelled gap arguments _ => ⟨spelled, gap, arguments⟩ :: genericsOfAll arguments
  | .tuple elements _ => genericsOfAll elements
  | .array element _ _ => element.generics
  | .reference _ referent _ => referent.generics

/-- The generic types at or below some types. -/
def genericsOfAll : List TypeTerm → List GenericTerm
  | [] => []
  | type :: rest => type.generics ++ genericsOfAll rest

end

/-- Whether the text of a type is spelled with its parts, and the texts of those with theirs. -/
inductive IsWritten : TypeTerm → Prop where
  | lifetime {text : List Char} (h : IsWholeLifetime text) : IsWritten (.lifetime text)
  | primitive {text : List Char} (h : text ∈ primitiveNames) : IsWritten (.primitive text)
  | path {path : PathTerm} (h : path.IsWritten) : IsWritten (.path path)
  | generic {path : PathTerm} {gap list : List Char} {arguments : List TypeTerm}
      (hpath : path.IsWritten) (hgap : IsBlank gap) (hsome : arguments ≠ [])
      (harguments : ∀ argument ∈ arguments, argument.IsWritten)
      (hlist : IsBracketed '<' '>' (arguments.map text) list) :
      IsWritten (.generic path gap arguments (path.text ++ gap ++ list))
  | tuple {elements : List TypeTerm} {text : List Char} (hsome : elements ≠ [])
      (htypes : ∀ element ∈ elements, element.IsType)
      (helements : ∀ element ∈ elements, element.IsWritten)
      (htext : IsBracketed '(' ')' (elements.map TypeTerm.text) text) :
      IsWritten (.tuple elements text)
  | slice {element : TypeTerm} {text : List Char} (htype : element.IsType)
      (helement : element.IsWritten) (htext : Spread [['['], element.text, [']']] text) :
      IsWritten (.array element none text)
  | array {element : TypeTerm} {length text : List Char} (htype : element.IsType)
      (helement : element.IsWritten) (hlength : IsWholeInteger length)
      (htext : Spread [['['], element.text, [';'], length, [']']] text) :
      IsWritten (.array element (some length) text)
  | reference {lifetime text : List Char} {referent : TypeTerm} (hlifetime : IsWholeLifetime lifetime)
      (htype : referent.IsType) (hreferent : referent.IsWritten)
      (htext : Spread [['&'], lifetime, referent.text] text) :
      IsWritten (.reference lifetime referent text)

end TypeTerm

namespace TypeTerm

/-- A name with one argument and no white space. -/
def applied (name : String) (argument : TypeTerm) : TypeTerm :=
  .generic ⟨[], name.toList, name.toList⟩ [] [argument]
    (name.toList ++ [] ++ ('<' :: argument.text ++ ['>']))

theorem written_applied {name : String} {argument : TypeTerm} (hname : IsWholeName name.toList)
    (hword : name.toList ∉ reservedWords ++ primitiveNames) (hargument : argument.IsWritten) :
    (applied name argument).IsWritten := by
  rw [List.mem_append, not_or] at hword
  have hpath : (PathTerm.mk [] name.toList name.toList).IsWritten :=
    ⟨⟨nofun, hname, .last _⟩, hword.1, fun _ => hword.2⟩
  refine .generic hpath nofun (by simp) (by simpa using hargument) ⟨false, ?_⟩
  have hclosing : runTogether argument.text ['>'] = false :=
    Bool.and_eq_false_imp.2 fun _ => by decide
  exact .tight rfl (.tight hclosing (.last _))

end TypeTerm

/-! ## The marker of vectors in a text -/

/-- The text that marks a vector. -/
def marker : List Char :=
  "Vec<".toList

theorem vec_no_gap : ∀ c ∈ "Vec".toList, isGap c = false := by
  decide

theorem no_marker {text : List Char} (h : '<' ∉ text) : ¬ marker <:+: text :=
  fun hfound => h (hfound.subset (by decide))

/-- Where the marker is cut in two, name characters meet, or it is cut in front of its bracket. -/
theorem marker_split {front back : List Char} (h : marker = front ++ back) :
    front = [] ∨ back = [] ∨ (front = "Vec".toList ∧ back = ['<']) ∨
      runTogether front back = true := by
  have hcuts : ∀ n < 5, marker.take n = [] ∨ marker.drop n = [] ∨
      (marker.take n = "Vec".toList ∧ marker.drop n = ['<']) ∨
      runTogether (marker.take n) (marker.drop n) = true := by decide
  have hlength : front.length < 5 := by
    have := congrArg List.length h
    simp only [List.length_append, show marker.length = 4 from rfl] at this
    omega
  have hcut := hcuts front.length hlength
  rwa [h, List.take_left, List.drop_left] at hcut

/-- What ends in one word and begins with another runs together if the words do. -/
theorem run_together_of_part {front back start rest : List Char} (hstart : start <:+ front)
    (hrest : rest <+: back) (h : runTogether start rest = true) :
    runTogether front back = true := by
  obtain ⟨before, rfl⟩ := hstart
  obtain ⟨behind, rfl⟩ := hrest
  unfold runTogether at h ⊢
  rw [Bool.and_eq_true, Option.any_eq_true, Option.any_eq_true] at h ⊢
  obtain ⟨⟨c, hc, hnext⟩, d, hd, hnext'⟩ := h
  exact ⟨⟨c, by simp [List.getLast?_append, hc], hnext⟩, d, by simp [List.head?_append, hd], hnext'⟩

/-- The marker lies in two texts one after the other if it lies in one of them, unless it lies across
their border. -/
theorem marker_infix_append {front back : List Char} (hapart : runTogether front back = false)
    (hplain : back.head? ≠ some '<') :
    marker <:+: front ++ back ↔ marker <:+: front ∨ marker <:+: back := by
  rw [List.infix_append_iff]
  constructor
  · rintro (hfront | hback | ⟨start, rest, hmarker, hstart, hrest⟩)
    · exact .inl hfront
    · exact .inr hback
    rcases marker_split hmarker with rfl | rfl | ⟨_, rfl⟩ | hrun
    · exact .inr (hmarker ▸ hrest.isInfix)
    · rw [List.append_nil] at hmarker
      exact .inl (hmarker ▸ hstart.isInfix)
    · obtain ⟨behind, rfl⟩ := hrest
      exact absurd rfl hplain
    · exact absurd (run_together_of_part hstart hrest hrun) (by simp [hapart])
  · exact fun h => h.elim .inl fun hback => .inr (.inl hback)

/-- In front of a bracket the marker lies across the border too, if the first text ends in `Vec`. -/
theorem marker_infix_bracket {front back : List Char} (hbracket : back.head? = some '<') :
    marker <:+: front ++ back ↔
      marker <:+: front ∨ "Vec".toList <:+ front ∨ marker <:+: back := by
  obtain ⟨tail, rfl⟩ : ∃ tail, back = '<' :: tail := by
    cases back with
    | nil => cases hbracket
    | cons c tail => exact ⟨tail, by rw [Option.some.inj hbracket]⟩
  rw [List.infix_append_iff]
  constructor
  · rintro (hfront | hback | ⟨start, rest, hmarker, hstart, hrest⟩)
    · exact .inl hfront
    · exact .inr (.inr hback)
    rcases marker_split hmarker with rfl | rfl | ⟨rfl, _⟩ | hrun
    · exact .inr (.inr (hmarker ▸ hrest.isInfix))
    · rw [List.append_nil] at hmarker
      exact .inl (hmarker ▸ hstart.isInfix)
    · exact .inr (.inl hstart)
    · have hnot : runTogether front ('<' :: tail) = false := by
        rw [runTogether, List.head?_cons, Option.any_some, show isNameNext '<' = false by decide,
          Bool.and_false]
      exact absurd (run_together_of_part hstart hrest hrun) (by simp [hnot])
  · rintro (hfront | hvec | hback)
    · exact .inl hfront
    · exact .inr (.inr ⟨"Vec".toList, ['<'], rfl, hvec, tail, rfl⟩)
    · exact .inr (.inl hback)

/-! ## The marker in spread texts -/

/-- Whether a text begins with a character other than a sharp bracket. -/
def BeginsPlain (text : List Char) : Prop :=
  ∃ c rest, text = c :: rest ∧ c ≠ '<'

theorem begins_plain_of_char {c : Char} (h : c ≠ '<') : BeginsPlain [c] :=
  ⟨c, [], rfl, h⟩

/-- A word without sharp brackets begins with none. -/
theorem begins_plain_of_word {text : List Char} (hsome : text ≠ []) (h : '<' ∉ text) :
    BeginsPlain text := by
  obtain ⟨c, rest, rfl⟩ := List.exists_cons_of_ne_nil hsome
  exact ⟨c, rest, rfl, fun hc => h (hc ▸ List.mem_cons_self ..)⟩

theorem Spread.exists_head {piece text : List Char} {pieces : List (List Char)}
    (h : Spread (piece :: pieces) text) : ∃ rest, text = piece ++ rest := by
  cases h with
  | last => exact ⟨[], (List.append_nil _).symm⟩
  | cons => exact ⟨_, List.append_assoc ..⟩

/-- A text begins as its first piece does. -/
theorem Spread.head {piece text : List Char} {pieces : List (List Char)}
    (h : Spread (piece :: pieces) text) (hpiece : piece ≠ []) : text.head? = piece.head? := by
  obtain ⟨rest, rfl⟩ := h.exists_head
  exact List.head?_append_of_ne_nil _ hpiece

/-- The marker lies neither in white space nor across its borders. -/
theorem marker_infix_gap {piece gap text : List Char} (hgap : IsBlank gap)
    (hapart : gap = [] → runTogether piece text = false) (hplain : text.head? ≠ some '<') :
    marker <:+: piece ++ gap ++ text ↔ marker <:+: piece ∨ marker <:+: text := by
  cases gap with
  | nil =>
      rw [List.append_nil]
      exact marker_infix_append (hapart rfl) hplain
  | cons c gap =>
      have hhead := hgap.not_name_next (List.mem_cons_self ..)
      have hlast := hgap.not_name_next (List.getLast_mem (List.cons_ne_nil c gap))
      have hbefore : runTogether piece (c :: gap) = false := by
        simp [runTogether, hhead.1]
      have hbehind : runTogether (piece ++ c :: gap) text = false := by
        simp [runTogether, List.getLast?_eq_some_getLast, hlast.1]
      have hblank : ¬ marker <:+: c :: gap :=
        no_marker fun hmem => (hgap.not_name_next hmem).2 rfl
      rw [marker_infix_append hbehind hplain,
        marker_infix_append hbefore (by simpa using hhead.2), or_iff_left hblank]

/-- The marker lies in a text if it lies in one of its pieces, unless one begins with a bracket. -/
theorem Spread.marker_infix_iff {pieces : List (List Char)} {text : List Char}
    (h : Spread pieces text) (hplain : ∀ piece ∈ pieces.tail, BeginsPlain piece) :
    marker <:+: text ↔ ∃ piece ∈ pieces, marker <:+: piece := by
  induction h with
  | last piece => simp
  | @cons piece gap next text pieces hgap hapart hrest ih =>
      obtain ⟨c, tail, rfl, hc⟩ := hplain next (List.mem_cons_self ..)
      have hhead : text.head? = some c := hrest.head (List.cons_ne_nil c tail)
      have hinner := ih fun other hother => hplain other (List.mem_cons_of_mem _ hother)
      rw [List.exists_mem_cons_iff, ← hinner]
      refine marker_infix_gap hgap (fun hnil => ?_) (by simpa [hhead] using hc)
      have hapart := hapart hnil
      rwa [runTogether, hhead]

/-- Every character of a text is one of a piece or white space. -/
theorem Spread.mem {pieces : List (List Char)} {text : List Char} (h : Spread pieces text) {c : Char}
    (hc : c ∈ text) : (∃ piece ∈ pieces, c ∈ piece) ∨ isGap c = true := by
  induction h with
  | last piece => exact .inl ⟨piece, List.mem_cons_self .., hc⟩
  | @cons piece gap next text pieces hgap _ _ ih =>
      rcases List.mem_append.1 hc with hfront | htext
      · rcases List.mem_append.1 hfront with hpiece | hblank
        · exact .inl ⟨piece, List.mem_cons_self .., hpiece⟩
        · exact .inr (hgap c hblank)
      · exact (ih htext).imp_left fun ⟨found, hfound, hmem⟩ =>
          ⟨found, List.mem_cons_of_mem _ hfound, hmem⟩

theorem Spread.length_le {pieces : List (List Char)} {text : List Char} (h : Spread pieces text) :
    ∀ piece ∈ pieces, piece.length ≤ text.length := by
  induction h with
  | last piece => simp
  | cons _ _ _ ih =>
      intro piece hpiece
      rw [List.length_append, List.length_append]
      rcases List.mem_cons.1 hpiece with rfl | hpiece
      · omega
      · have := ih piece hpiece
        omega

/-- Behind a first piece that is not empty every piece is shorter than the text. -/
theorem Spread.length_lt {first text : List Char} {pieces : List (List Char)}
    (h : Spread (first :: pieces) text) (hfirst : first ≠ []) {piece : List Char}
    (hpiece : piece ∈ pieces) : piece.length < text.length := by
  cases h with
  | last => cases hpiece
  | cons _ _ hrest =>
      have hpos := List.length_pos_of_ne_nil hfirst
      have := hrest.length_le piece hpiece
      rw [List.length_append, List.length_append]
      omega

theorem mem_comma_separated {trailing : Bool} {items : List (List Char)} {piece : List Char} :
    piece ∈ commaSeparated trailing items → piece = [','] ∨ piece ∈ items := by
  fun_induction commaSeparated trailing items with
  | case1 => exact .inr
  | case2 => simp [or_comm]
  | case3 => exact .inr
  | case4 item next rest ih =>
      intro h
      rcases List.mem_cons.1 h with rfl | h
      · exact .inr (List.mem_cons_self ..)
      · rcases List.mem_cons.1 h with rfl | h
        · exact .inl rfl
        · exact (ih h).imp_right (List.mem_cons_of_mem _)

theorem mem_comma_separated_of_mem {trailing : Bool} {items : List (List Char)} {item : List Char}
    (h : item ∈ items) : item ∈ commaSeparated trailing items := by
  fun_induction commaSeparated trailing items with
  | case1 => exact h
  | case2 => exact List.mem_cons.2 (.inl (List.mem_singleton.1 h))
  | case3 => exact h
  | case4 first next rest ih =>
      rcases List.mem_cons.1 h with rfl | h
      · exact List.mem_cons_self ..
      · exact List.mem_cons_of_mem _ (List.mem_cons_of_mem _ (ih h))

theorem no_marker_short {text : List Char} (h : text.length < 4) : ¬ marker <:+: text :=
  fun hfound => Nat.not_lt.2 hfound.length_le h

theorem IsBracketed.length_lt {opening closing : Char} {items : List (List Char)} {text : List Char}
    (h : IsBracketed opening closing items text) {item : List Char} (hitem : item ∈ items) :
    item.length < text.length :=
  h.choose_spec.length_lt (List.cons_ne_nil _ _)
    (List.mem_append_left _ (mem_comma_separated_of_mem hitem))

/-- The marker lies in a list in brackets if it lies in one of its items. -/
theorem IsBracketed.marker_infix_iff {opening closing : Char} {items : List (List Char)}
    {text : List Char} (h : IsBracketed opening closing items text) (hclosing : closing ≠ '<')
    (hplain : ∀ item ∈ items, BeginsPlain item) :
    marker <:+: text ↔ ∃ item ∈ items, marker <:+: item := by
  obtain ⟨trailing, hspread⟩ := h
  have hpieces : ∀ piece ∈ commaSeparated trailing items ++ [[closing]], BeginsPlain piece := by
    intro piece hpiece
    rcases List.mem_append.1 hpiece with hitem | hlast
    · rcases mem_comma_separated hitem with rfl | hitem
      · exact ⟨',', [], rfl, by decide⟩
      · exact hplain piece hitem
    · exact ⟨closing, [], List.mem_singleton.1 hlast, hclosing⟩
  rw [hspread.marker_infix_iff hpieces]
  constructor
  · rintro ⟨piece, hpiece, hmarker⟩
    rcases List.mem_cons.1 hpiece with rfl | hpiece
    · exact absurd hmarker (no_marker_short (by simp))
    · rcases List.mem_append.1 hpiece with hitem | hlast
      · rcases mem_comma_separated hitem with rfl | hitem
        · exact absurd hmarker (no_marker_short (by simp))
        · exact ⟨piece, hitem, hmarker⟩
      · rw [List.mem_singleton.1 hlast] at hmarker
        exact absurd hmarker (no_marker_short (by simp))
  · rintro ⟨item, hitem, hmarker⟩
    exact ⟨item, List.mem_cons_of_mem _ (List.mem_append_left _
      (mem_comma_separated_of_mem hitem)), hmarker⟩

/-! ## Paths -/

/-- Behind the first of several pieces stands white space and what the others spread to. -/
theorem Spread.exists_tail {piece text : List Char} {pieces : List (List Char)}
    (h : Spread (piece :: pieces) text) (hsome : pieces ≠ []) : ∃ gap rest, IsBlank gap ∧
      (gap = [] → ∀ next ∈ pieces.head?, runTogether piece next = false) ∧ Spread pieces rest ∧
        text = piece ++ gap ++ rest := by
  cases h with
  | last => exact absurd rfl hsome
  | cons hgap hapart hrest =>
      refine ⟨_, _, hgap, fun hnil next hnext => ?_, hrest, rfl⟩
      exact Option.some.inj hnext ▸ hapart hnil

theorem path_pieces_ne_nil (last : List Char) (qualifiers : List (List Char)) :
    pathPieces last qualifiers ≠ [] := by
  cases qualifiers <;> exact List.cons_ne_nil _ _

theorem mem_path_pieces {last piece : List Char} {qualifiers : List (List Char)} :
    piece ∈ pathPieces last qualifiers ↔
      piece = last ∨ (qualifiers ≠ [] ∧ piece = "::".toList) ∨ piece ∈ qualifiers := by
  induction qualifiers with
  | nil => simp [pathPieces]
  | cons name rest ih =>
      rw [pathPieces, List.mem_cons, List.mem_cons, ih]
      simp only [List.mem_cons, ne_eq, reduceCtorEq, not_false_eq_true, true_and]
      tauto

/-- In front of the last name of a path stands a colon or white space. -/
theorem Spread.exists_last {qualifiers : List (List Char)} {last text : List Char}
    (h : Spread (pathPieces last qualifiers) text) : (qualifiers = [] ∧ text = last) ∨
      ∃ init c, text = init ++ c :: last ∧ (c = ':' ∨ isGap c = true) := by
  induction qualifiers generalizing text with
  | nil =>
      cases h
      exact .inl ⟨rfl, rfl⟩
  | cons name rest ih =>
      obtain ⟨gap, behind, _, _, hbehind, rfl⟩ := h.exists_tail (List.cons_ne_nil _ _)
      obtain ⟨inner, text, hinner, _, htext, rfl⟩ :=
        hbehind.exists_tail (path_pieces_ne_nil last rest)
      right
      rcases ih htext with ⟨_, rfl⟩ | ⟨init, c, rfl, hc⟩
      · rcases List.eq_nil_or_concat inner with rfl | ⟨blank, c, rfl⟩
        · exact ⟨name ++ gap ++ [':'], ':', by simp, .inl rfl⟩
        · exact ⟨name ++ gap ++ ("::".toList ++ blank), c, by simp,
            .inr (hinner c (by simp))⟩
      · exact ⟨name ++ gap ++ ("::".toList ++ inner ++ init), c, by simp, hc⟩

namespace PathTerm

namespace IsWritten

variable {path : PathTerm}

theorem no_bracket (h : path.IsWritten) : '<' ∉ path.text := by
  intro hmem
  rcases h.text.mem hmem with ⟨piece, hpiece, hbracket⟩ | hgap
  · rcases mem_path_pieces.1 hpiece with rfl | ⟨_, rfl⟩ | hqualifier
    · exact h.last.no_bracket hbracket
    · exact absurd hbracket (by decide)
    · exact (h.qualifiers piece hqualifier).no_bracket hbracket
  · exact absurd hgap (by decide)

/-- A path begins with a name. -/
theorem exists_name (h : path.IsWritten) :
    ∃ name rest, IsWholeName name ∧ path.text = name ++ rest := by
  have hspread := h.text
  cases hqualifiers : path.qualifiers with
  | nil =>
      rw [hqualifiers] at hspread
      exact ⟨_, _, h.last, hspread.exists_head.choose_spec⟩
  | cons name others =>
      rw [hqualifiers] at hspread
      exact ⟨_, _, h.qualifiers name (hqualifiers ▸ List.mem_cons_self ..),
        hspread.exists_head.choose_spec⟩

theorem begins_plain (h : path.IsWritten) : BeginsPlain path.text := by
  obtain ⟨name, rest, hname, htext⟩ := h.exists_name
  refine begins_plain_of_word (fun hnil => ?_) h.no_bracket
  rw [hnil, eq_comm, List.append_eq_nil_iff] at htext
  exact hname.ne_nil htext.1

theorem text_of_single (h : path.IsWritten) (hsingle : path.qualifiers = []) :
    path.text = path.last := by
  have hspread := h.text
  rw [hsingle] at hspread
  generalize path.text = text at hspread
  cases hspread
  rfl

theorem text_cases (h : path.IsWritten) : (path.qualifiers = [] ∧ path.text = path.last) ∨
    ∃ init c, path.text = init ++ c :: path.last ∧ (c = ':' ∨ isGap c = true) :=
  h.text.exists_last

/-- A path ends in `Vec` if its last name does. -/
theorem vec_suffix_iff (h : path.IsWritten) :
    "Vec".toList <:+ path.text ↔ "Vec".toList <:+ path.last := by
  rcases h.text_cases with ⟨_, htext⟩ | ⟨init, c, htext, hc⟩
  · rw [htext]
  constructor
  · intro hvec
    have hnot : c ∉ "Vec".toList := by
      rcases hc with rfl | hgap
      · decide
      · exact fun hmem => absurd (vec_no_gap c hmem) (by simp [hgap])
    have hlast : c :: path.last <:+ path.text := ⟨init, htext.symm⟩
    rcases List.suffix_or_suffix_of_suffix hvec hlast with hsuffix | hsuffix
    · rcases List.suffix_cons_iff.1 hsuffix with heq | hsuffix
      · exact absurd (heq ▸ List.mem_cons_self ..) hnot
      · exact hsuffix
    · exact absurd (hsuffix.subset (List.mem_cons_self ..)) hnot
  · intro hvec
    exact hvec.trans ⟨init ++ [c], by rw [htext, List.append_assoc]; rfl⟩

end IsWritten

end PathTerm


/-! ## The marker in types -/

namespace TypeTerm

theorem mem_generics_of_all {generic : GenericTerm} {types : List TypeTerm} :
    generic ∈ genericsOfAll types ↔ ∃ type ∈ types, generic ∈ type.generics := by
  induction types with
  | nil => simp [genericsOfAll]
  | cons type rest ih => simp [genericsOfAll, ih]

/-- A text that spreads from a first piece begins as the piece does. -/
theorem begins_plain_of_spread {piece text : List Char} {pieces : List (List Char)}
    (h : Spread (piece :: pieces) text) (hpiece : BeginsPlain piece) : BeginsPlain text := by
  obtain ⟨rest, rfl⟩ := h.exists_head
  obtain ⟨c, tail, rfl, hc⟩ := hpiece
  exact ⟨c, tail ++ rest, rfl, hc⟩

/-- No type begins with a bracket of arguments. -/
theorem IsWritten.begins_plain {type : TypeTerm} (h : type.IsWritten) : BeginsPlain type.text := by
  cases h with
  | lifetime h =>
      obtain ⟨rest, rfl, _⟩ := h.cons
      exact ⟨_, _, rfl, by decide⟩
  | primitive h =>
      have hnames : ∀ name ∈ primitiveNames, name ≠ [] ∧ '<' ∉ name := by decide
      exact begins_plain_of_word (hnames _ h).1 (hnames _ h).2
  | path h => exact h.begins_plain
  | @generic path gap list arguments hpath =>
      obtain ⟨c, rest, htext, hc⟩ := hpath.begins_plain
      exact ⟨c, rest ++ gap ++ list, by rw [text, htext]; simp, hc⟩
  | tuple _ _ _ htext => exact begins_plain_of_spread htext.choose_spec ⟨_, _, rfl, by decide⟩
  | slice _ _ htext => exact begins_plain_of_spread htext ⟨_, _, rfl, by decide⟩
  | array _ _ _ htext => exact begins_plain_of_spread htext ⟨_, _, rfl, by decide⟩
  | reference _ _ _ htext => exact begins_plain_of_spread htext ⟨_, _, rfl, by decide⟩

/-- The text of a generic type contains the marker at its own bracket or in an argument. -/
theorem marker_infix_generic {path : PathTerm} {gap list : List Char} {arguments : List TypeTerm}
    (hpath : path.IsWritten) (hgap : IsBlank gap)
    (hplain : ∀ argument ∈ arguments, BeginsPlain argument.text)
    (hlist : IsBracketed '<' '>' (arguments.map text) list) :
    marker <:+: path.text ++ gap ++ list ↔ (gap = [] ∧ "Vec".toList <:+ path.last) ∨
      ∃ argument ∈ arguments, marker <:+: argument.text := by
  have hbracket : list.head? = some '<' := hlist.choose_spec.head (List.cons_ne_nil _ _)
  have hfront : ¬ marker <:+: path.text ++ gap := by
    refine no_marker fun hmem => ?_
    rcases List.mem_append.1 hmem with hmem | hmem
    · exact hpath.no_bracket hmem
    · exact (hgap.not_name_next hmem).2 rfl
  have hvec : "Vec".toList <:+ path.text ++ gap ↔ gap = [] ∧ "Vec".toList <:+ path.last := by
    rcases List.eq_nil_or_concat gap with rfl | ⟨blank, c, rfl⟩
    · rw [List.append_nil, hpath.vec_suffix_iff]
      simp
    · -- White space behind the path is none of the letters.
      refine iff_of_false (fun hsuffix => ?_) (by simp)
      rw [List.concat_eq_append, ← List.append_assoc, List.suffix_concat_iff] at hsuffix
      obtain hnil | ⟨letters, hletters, _⟩ := hsuffix
      · exact absurd hnil (by decide)
      · have hc : c ∈ "Vec".toList := hletters ▸ List.mem_append_right _ (List.mem_singleton_self c)
        exact Bool.false_ne_true ((vec_no_gap c hc).symm.trans (hgap c (by simp)))
  rw [marker_infix_bracket hbracket, or_iff_right hfront, hvec,
    hlist.marker_infix_iff (by decide) (List.forall_mem_map.2 hplain)]
  simp only [List.mem_map, exists_exists_and_eq_and]

theorem exists_of_all {types : List TypeTerm}
    (h : ∀ type ∈ types, (marker <:+: type.text ↔ ∃ generic ∈ type.generics, generic.IsMarked)) :
    (∃ type ∈ types, marker <:+: type.text) ↔
      ∃ generic ∈ genericsOfAll types, generic.IsMarked := by
  constructor
  · rintro ⟨type, htype, hmarker⟩
    obtain ⟨generic, hgeneric, hmarked⟩ := (h type htype).1 hmarker
    exact ⟨generic, mem_generics_of_all.2 ⟨type, htype, hgeneric⟩, hmarked⟩
  · rintro ⟨generic, hgeneric, hmarked⟩
    obtain ⟨type, htype, hmem⟩ := mem_generics_of_all.1 hgeneric
    exact ⟨type, htype, (h type htype).2 ⟨generic, hmem, hmarked⟩⟩

/-- The text of a type contains the marker of vectors if and only if a generic type at or below it is
written with it: its path ends in `Vec`, with no white space behind. -/
theorem marker_infix_iff {type : TypeTerm} (h : type.IsWritten) :
    marker <:+: type.text ↔ ∃ generic ∈ type.generics, generic.IsMarked := by
  have hopening (c : Char) : ¬ marker <:+: [c] := no_marker_short (by simp)
  -- Parts that begin plainly cut no marker in two, so it stands within one of them.
  induction h with
  | lifetime h => exact iff_of_false (no_marker h.no_bracket) (by simp [generics])
  | primitive h =>
      have hnames : ∀ name ∈ primitiveNames, '<' ∉ name := by decide
      exact iff_of_false (no_marker (hnames _ h)) (by simp [generics])
  | path h => exact iff_of_false (no_marker h.no_bracket) (by simp [generics])
  | generic hpath hgap _ harguments hlist ih =>
      rw [text, marker_infix_generic hpath hgap (fun argument hargument =>
        (harguments argument hargument).begins_plain) hlist, exists_of_all ih, generics,
        List.exists_mem_cons_iff]
      rfl
  | tuple _ _ helements htext ih =>
      rw [text, htext.marker_infix_iff (by decide) (List.forall_mem_map.2 fun element helement =>
        (helements element helement).begins_plain), generics, ← exists_of_all ih]
      simp only [List.mem_map, exists_exists_and_eq_and]
  | slice _ helement htext ih =>
      have hplain : ∀ piece ∈ [_, [']']], BeginsPlain piece := List.forall_mem_cons.2
        ⟨helement.begins_plain, List.forall_mem_singleton.2 (begins_plain_of_char (by decide))⟩
      rw [generics]
      refine Iff.trans ?_ ih
      rw [text, htext.marker_infix_iff hplain]
      simp [hopening]
  | array _ helement hlength htext ih =>
      have hplain : ∀ piece ∈ [_, [';'], _, [']']], BeginsPlain piece := List.forall_mem_cons.2
        ⟨helement.begins_plain, List.forall_mem_cons.2 ⟨begins_plain_of_char (by decide),
          List.forall_mem_cons.2 ⟨begins_plain_of_word (by rintro rfl; cases hlength) hlength.no_bracket,
            List.forall_mem_singleton.2 (begins_plain_of_char (by decide))⟩⟩⟩
      rw [generics]
      refine Iff.trans ?_ ih
      rw [text, htext.marker_infix_iff hplain]
      simp [hopening, no_marker hlength.no_bracket]
  | @reference lifetime text referent hlifetime _ hreferent htext ih =>
      have hplain : ∀ piece ∈ [lifetime, referent.text], BeginsPlain piece := List.forall_mem_cons.2
        ⟨(IsWritten.lifetime hlifetime).begins_plain,
          List.forall_mem_singleton.2 hreferent.begins_plain⟩
      rw [generics]
      refine Iff.trans ?_ ih
      rw [TypeTerm.text, htext.marker_infix_iff hplain]
      simp [hopening, no_marker hlifetime.no_bracket]

end TypeTerm

end ProgramInterface
