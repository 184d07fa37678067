import ProgramInterface.Generate
import ProgramInterface.Proofs.Catalogue.Errors
import ProgramInterface.Proofs.Text.Utf8

/-!
# When a source has a description

Generation fails in two ways. A source that is not UTF-8 has no syntax tree, and a tree has no
description if the code of an error is too long to be shown; nothing else in a source keeps it from
having one (`generate_outcome`). The second way is open because a literal in base 16, 8 or 2 is read
whatever its length, while a number is shown in base 10, where its length is limited.
-/

namespace ProgramInterface

/-- Whether a source can stand as UTF-8: a text by holding no surrogate, bytes by encoding
characters. -/
def Source.IsUtf8 : Source → Prop
  | text t => t.WellFormed
  | bytes b => b.toByteArray.IsValidUTF8

/-- Whether every error code above a threshold is short enough to be shown. -/
def CodesFit (threshold : Int) (root : Node) : Prop :=
  ∀ code ∈ errorCodes threshold root, code.natAbs < IntegerText.decimalBound

theorem Source.decode_is_ok_iff {source : Source} :
    (∃ s, source.decode = .ok s) ↔ source.IsUtf8 := by
  cases source with
  | text t =>
      refine Iff.trans ?_ Utf8.encode_is_ok_iff
      show (∃ s, (Utf8.encode t).mapError _ = .ok s) ↔ _
      cases Utf8.encode t <;> simp [Except.mapError]
  | bytes b =>
      refine Iff.trans ?_ Utf8.decode_is_ok_iff
      show (∃ s, (Utf8.decode b).mapError _ = .ok s) ↔ _
      cases Utf8.decode b <;> simp [Except.mapError]

/-- A source has a syntax tree if and only if it is UTF-8. -/
theorem Source.parse_is_ok_iff {source : Source} :
    (∃ root, source.parse = .ok root) ↔ source.IsUtf8 := by
  rw [← decode_is_ok_iff, parse]
  cases source.decode <;> simp [Except.map]

theorem Source.parse_text (s : String) :
    (text (Text.ofString s)).parse = .ok (Grammar.sourceFile s) := by
  rw [parse, decode, Utf8.encode_eq_ok.2 rfl]
  rfl

theorem Source.parse_bytes (s : String) :
    (bytes (Utf8.encodeChars s.toList)).parse = .ok (Grammar.sourceFile s) := by
  have hdecode : Utf8.decode (Utf8.encodeChars s.toList) = .ok s := Utf8.decode_eq_ok.2 rfl
  rw [parse, decode, hdecode]
  rfl

/-- The description of a syntax tree, with an entry for every error code whatever its length. -/
def description (settings : GenerationSettings) (root : Node) : Document :=
  { version := formatVersion
    name := programName root
    instructions := instructions settings.mode root
    accounts := accountLayouts root
    types := typeEntries settings.mode root
    errors := (errorCodes settings.threshold root).map ErrorEntry.showing }

/-- Whether a syntax tree has a description, and which it is. -/
theorem describe_eq_some {settings : GenerationSettings} {root : Node} {document : Document} :
    describe? settings root = some document ↔
      CodesFit settings.threshold root ∧ document = description settings root := by
  have hfits : (∀ code ∈ errorCodes settings.threshold root, IntegerText.fits code = true) ↔
      CodesFit settings.threshold root :=
    forall₂_congr fun _ _ => IntegerText.fits_iff
  rw [← hfits, describe?]
  constructor
  · intro h
    obtain ⟨errors, herrors, rfl⟩ := Option.map_eq_some_iff.1 h
    obtain ⟨hcodes, rfl⟩ := error_entries_eq_some.1 herrors
    exact ⟨hcodes, rfl⟩
  · rintro ⟨hcodes, rfl⟩
    rw [error_entries_eq_some.2 ⟨hcodes, rfl⟩]
    rfl

/-- A syntax tree has a description if and only if its error codes can be shown. -/
theorem describe_is_some_iff {settings : GenerationSettings} {root : Node} :
    (∃ document, describe? settings root = some document) ↔ CodesFit settings.threshold root :=
  ⟨fun ⟨_, h⟩ => (describe_eq_some.1 h).1, fun h => ⟨_, describe_eq_some.2 ⟨h, rfl⟩⟩⟩

theorem describe_eq_none_iff {settings : GenerationSettings} {root : Node} :
    describe? settings root = none ↔ ¬ CodesFit settings.threshold root := by
  rw [← describe_is_some_iff]
  cases describe? settings root <;> simp

/-- A description that is generated is the description of the source's tree. -/
theorem generate_eq_ok {settings : GenerationSettings} {source : Source} {document : Document} :
    generate settings source = .ok document ↔
      ∃ root, source.parse = .ok root ∧ describe? settings root = some document := by
  unfold generate
  cases source.parse with
  | error fault => simp
  | ok root =>
      simp only [Except.ok.injEq, exists_eq_left']
      cases describe? settings root <;> simp

/-- Whether a source has a description is told by running the generation. -/
theorem exists_of_generate (settings : GenerationSettings) (source : Source)
    (h : (generate settings source).toOption.isSome = true) :
    ∃ document, generate settings source = .ok document := by
  cases hgenerate : generate settings source with
  | error fault =>
      rw [hgenerate] at h
      cases h
  | ok document => exact ⟨document, rfl⟩

/-- What comes out of generation: a fault of the source if it is not UTF-8, a description if it is
and its error codes can be shown, and otherwise the fault of a code that is too long. From a tree
the codes alone decide. -/
theorem generate_outcome (settings : GenerationSettings) (source : Source) :
    ((∃ fault, generate settings source = .error (.source fault)) ↔ ¬ source.IsUtf8) ∧
    ((∃ document, generate settings source = .ok document) ↔
      ∃ root, source.parse = .ok root ∧ CodesFit settings.threshold root) ∧
    (generate settings source = .error .codeTooLong ↔
      ∃ root, source.parse = .ok root ∧ ¬ CodesFit settings.threshold root) ∧
    ((∃ root, source.parse = .ok root) ↔ source.IsUtf8) ∧
    ∀ root, (∃ document, describe? settings root = some document) ↔
      CodesFit settings.threshold root := by
  refine ⟨?_, ?_, ?_, Source.parse_is_ok_iff, fun root => describe_is_some_iff⟩
  · rw [← Source.parse_is_ok_iff, generate]
    cases source.parse with
    | error fault => simp
    | ok root =>
        dsimp only
        cases describe? settings root <;> simp
  · simp only [generate_eq_ok, ← describe_is_some_iff]
    rw [exists_comm]
    simp only [exists_and_left]
  · rw [generate]
    cases source.parse with
    | error fault => simp
    | ok root =>
        simp only [Except.ok.injEq, exists_eq_left', ← describe_eq_none_iff]
        cases describe? settings root <;> simp

/-- The node of an integer literal at the beginning of a source. -/
def literalNode (literal : String) : Node :=
  ⟨.integerLiteral, true, none, 0, literal.utf8ByteSize, literal, []⟩

/-- The tree of a source that is one integer literal. -/
def literalTree (literal : String) : Node :=
  ⟨.sourceFile, true, none, 0, literal.utf8ByteSize, literal, [literalNode literal]⟩

/-- A literal whose number is too long to be shown keeps its tree from having a description. -/
theorem describe_literal_tree {settings : GenerationSettings} {literal : String} {n : Nat}
    (hvalue : IntegerLiteral.value? (Text.ofString literal) = some n)
    (habove : settings.threshold < n) (hlong : IntegerText.decimalBound ≤ n) :
    describe? settings (literalTree literal) = none := by
  refine describe_eq_none_iff.2 fun hfit => ?_
  have hcode : (n : Int) ∈ errorCodes settings.threshold (literalTree literal) := by
    refine List.mem_filter.2
      ⟨List.mem_filterMap.2 ⟨literalNode literal, ?_, hvalue⟩, decide_eq_true habove⟩
    rw [Node.matching_eq_filter_preorder]
    exact List.mem_filter.2 ⟨List.mem_cons_of_mem _ (List.mem_cons_self ..), rfl⟩
  have hshort := hfit n hcode
  rw [Int.natAbs_natCast] at hshort
  exact absurd hlong (Nat.not_le.2 hshort)

/-- With 3600 digits in base 16 a literal is read, but its number is too long to be shown. -/
theorem long_literal_undescribed :
    describe? ⟨500, false⟩ (literalTree (String.ofList ('0' :: 'x' :: List.replicate 3600 'f'))) =
      none := by
  refine describe_literal_tree (n := 16 ^ 3600 - 1) ?_ ?_ (by decide +kernel)
  · rw [Text.ofString, String.toList_ofList]
    decide +kernel
  · have habove : 500 < 16 ^ 3600 - 1 := by decide +kernel
    exact Int.ofNat_lt.2 habove

end ProgramInterface
