import ProgramInterface.Catalogue.Errors
import ProgramInterface.Proofs.Number.Digits
import ProgramInterface.Proofs.Number.Literal

/-!
# Entries of error codes

A program has entries for its error codes if and only if each code is short enough to be shown, and
then there is one for every code in the order of the codes (`error_entries_eq_some`). A higher
threshold only leaves codes out (`error_codes_filter`), and no literal of a source gives a negative
one (`error_codes_nonneg`).
-/

namespace ProgramInterface

/-- The entry that shows an error code, whatever its length. -/
def ErrorEntry.showing (code : Int) : ErrorEntry :=
  ⟨code, "CustomError" ++ Text.ofInt code, "Custom program error " ++ Text.ofInt code⟩

/-- A code has an entry if and only if it is short enough. -/
theorem ErrorEntry.of_code_eq_some {code : Int} {entry : ErrorEntry} :
    ofCode? code = some entry ↔ IntegerText.fits code = true ∧ entry = showing code := by
  unfold ofCode?
  cases hfits : IntegerText.fits code with
  | true => exact ⟨fun h => ⟨rfl, (Option.some.inj h).symm⟩, fun h => congrArg some h.2.symm⟩
  | false => exact ⟨nofun, nofun⟩

theorem ErrorEntry.map_of_code_eq_some {codes : List Int} {entries : List ErrorEntry} :
    codes.mapM ofCode? = some entries ↔
      (∀ code ∈ codes, IntegerText.fits code = true) ∧ entries = codes.map showing := by
  induction codes generalizing entries with
  | nil =>
      rw [List.mapM_nil, List.map_nil]
      exact ⟨fun h => ⟨nofun, (Option.some.inj h).symm⟩, fun h => congrArg some h.2.symm⟩
  | cons code rest ih =>
      rw [List.mapM_cons, List.forall_mem_cons, List.map_cons]
      constructor
      · intro h
        obtain ⟨entry, hentry, h⟩ := Option.bind_eq_some_iff.1 h
        obtain ⟨others, hothers, h⟩ := Option.bind_eq_some_iff.1 h
        obtain ⟨hfits, rfl⟩ := of_code_eq_some.1 hentry
        obtain ⟨hrest, rfl⟩ := ih.1 hothers
        cases h
        exact ⟨⟨hfits, hrest⟩, rfl⟩
      · rintro ⟨⟨hfits, hrest⟩, rfl⟩
        rw [of_code_eq_some.2 ⟨hfits, rfl⟩, ih.2 ⟨hrest, rfl⟩]
        rfl

/-- Whether a program has entries for its error codes, and which they are. -/
theorem error_entries_eq_some {threshold : Int} {root : Node} {entries : List ErrorEntry} :
    errorEntries? threshold root = some entries ↔
      (∀ code ∈ errorCodes threshold root, IntegerText.fits code = true) ∧
        entries = (errorCodes threshold root).map ErrorEntry.showing :=
  ErrorEntry.map_of_code_eq_some

/-- Above a higher threshold stand those of the codes that lie above it, in the same order. -/
theorem error_codes_filter {low high : Int} (h : low ≤ high) (root : Node) :
    errorCodes high root = (errorCodes low root).filter (high < ·) := by
  unfold errorCodes
  rw [List.filter_filter]
  refine List.filter_congr fun code _ => ?_
  rw [Bool.eq_iff_iff]
  simp only [decide_eq_true_eq, Bool.and_eq_true]
  omega

/-- The error codes of a source are natural numbers. -/
theorem error_codes_nonneg {threshold code : Int} {root : Node} (h : root.LiteralsRead)
    (hcode : code ∈ errorCodes threshold root) : 0 ≤ code := by
  obtain ⟨literal, hliteral, hvalue⟩ := List.mem_filterMap.1 (List.mem_filter.1 hcode).1
  rw [Node.matching_eq_filter_preorder] at hliteral
  obtain ⟨hbelow, hmatch⟩ := List.mem_filter.1 hliteral
  have hkind : literal.kind = .integerLiteral := by
    simpa [QueryKind.isMatch, QueryKind.nodeKinds] using hmatch
  exact IntegerLiteral.value_nonneg (h literal hbelow hkind) hvalue

end ProgramInterface
