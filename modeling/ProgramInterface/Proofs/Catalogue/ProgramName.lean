import ProgramInterface.Catalogue.ProgramName
import ProgramInterface.Path
import ProgramInterface.Proofs.Grammar.Lexical
import ProgramInterface.Proofs.Number.Literal
import ProgramInterface.Proofs.Path
import ProgramInterface.Proofs.Syntax.Places
import ProgramInterface.Proofs.Text.WellFormed

/-!
# The names that programs get

A program is named after a module of its source, or `solana_program` (`program_name_cases`). Modules
are named by words of the source, in which no stroke stands, so the name of a program with an ending
behind it is one name of a path (`Text.IsProgramName.path`).
-/

namespace ProgramInterface

/-! ## Words as names -/

namespace Lexical

theorem IsName.no_stroke {text : String} (h : IsName text) : '/' ∉ text.toList := by
  obtain ⟨source, n, hn, rfl⟩ := h
  rw [String.toList_ofList]
  intro hstroke
  have hnone : ¬ ('/' = '#' ∨ isNameStart '/' = true ∨ isNameNext '/' = true) := by decide
  exact hnone (name_chars hn '/' hstroke)

end Lexical

/-! ## Names of programs -/

/-- Whether a module somewhere in a tree has a given name. -/
def Node.IsModuleName (root : Node) (name : String) : Prop :=
  ∃ module ∈ root.preorder, module.kind = .modItem ∧
    ∃ child, module.child? .name = some child ∧ child.text = name

/-- The names that the program of a source can have, told by the syntax tree. -/
def Text.IsProgramName (name : Text) (root : Node) : Prop :=
  name = defaultProgramName ∨
    ∃ word : String, word ≠ "" ∧ root.IsModuleName word ∧ name = word ++ Text.ofString "_program"

theorem naming_module {root module : Node} (h : namingModule? root = some module) :
    module ∈ root.preorder ∧ module.kind = .modItem := by
  obtain ⟨handler, hhandler, hchoice⟩ := Option.bind_eq_some_iff.1 h
  have hplaced : handler ∈ (Placed.ofRoot root).walk :=
    (List.mem_filter.1 (List.mem_of_find?_eq_some hhandler)).1
  rcases Option.or_eq_some_iff.1 hchoice with habove | ⟨_, hfirst⟩
  · have hkind := List.find?_some habove
    exact ⟨Placed.mem_preorder_of_above hplaced (List.mem_of_find?_eq_some habove),
      of_decide_eq_true hkind⟩
  · have hmem := List.mem_of_mem_head? hfirst
    rw [Node.matching_eq_filter_preorder] at hmem
    obtain ⟨hpreorder, hmatch⟩ := List.mem_filter.1 hmem
    exact ⟨hpreorder, by simpa [QueryKind.isMatch, QueryKind.nodeKinds] using hmatch⟩

/-- A program is named after a module, or by default. -/
theorem program_name_cases (root : Node) : (programName root).IsProgramName root := by
  unfold programName
  split
  · exact .inl rfl
  · rename_i module hmodule
    obtain ⟨hmem, hkind⟩ := naming_module hmodule
    dsimp only
    split
    · exact .inl rfl
    · rename_i hsome
      cases hchild : module.child? .name with
      | none => simp [Node.childText, hchild, Text.ofString, Text.ofChars] at hsome
      | some child =>
          have htext : module.childText .name = child.text := by
            rw [Node.childText, hchild, Option.elim_some]
          rw [htext] at hsome ⊢
          refine .inr ⟨child.text, ?_, ⟨module, hmem, hkind, child, hchild, rfl⟩, rfl⟩
          rintro hempty
          simp [hempty, Text.ofString, Text.ofChars] at hsome

namespace Text.IsProgramName

variable {name : Text} {root : Node}

/-- The word that a module of a source has as its name is a name of the source. -/
theorem isName_of_module (hroot : root.Regular) {word : String} (h : root.IsModuleName word) :
    Lexical.IsName word := by
  obtain ⟨module, hmodule, _, child, hchild, rfl⟩ := h
  have hmem : child ∈ root.preorder :=
    Node.mem_preorder_trans (Node.mem_preorder_child hchild) hmodule
  have hrole : child.role = some .name := by
    unfold Node.child? at hchild
    simpa using List.find?_some hchild
  exact (hroot child hmem).name_read hrole

theorem no_stroke (h : name.IsProgramName root) (hroot : root.Regular) : .scalar '/' ∉ name := by
  obtain rfl | ⟨word, _, hword, rfl⟩ := h
  · decide
  · have hplain := (isName_of_module hroot hword).no_stroke
    intro hmem
    rcases List.mem_append.1 hmem with hfront | hback
    · obtain ⟨c, hc, hstroke⟩ := List.mem_map.1 hfront
      cases hstroke
      exact hplain hc
    · exact absurd hback (by decide)

/-- The file that is named for a program: the path of one name. -/
theorem path (h : name.IsProgramName root) (hroot : root.Regular) :
    Path.ofText (name ++ ".json") = ⟨.relative, [name ++ Text.ofString ".json"]⟩ := by
  have hlong : 5 ≤ (name ++ Text.ofString ".json").length := by
    have hending : (Text.ofString ".json").length = 5 := rfl
    rw [List.length_append, hending]
    omega
  have hwell : Path.WellFormed ⟨.relative, [name ++ Text.ofString ".json"]⟩ := by
    intro part hpart
    rw [List.mem_singleton] at hpart
    subst hpart
    refine ⟨Path.is_name_iff.2 ⟨fun hnil => ?_, fun hpoint => ?_⟩, ?_⟩
    · rw [hnil] at hlong
      cases hlong
    · rw [hpoint] at hlong
      exact absurd hlong (by decide)
    · intro hmem
      rcases List.mem_append.1 hmem with hfront | hback
      · exact h.no_stroke hroot hfront
      · exact absurd hback (by decide)
  exact Path.of_text_text hwell

end Text.IsProgramName

end ProgramInterface
