import ProgramInterface.Proofs.Description.RoundTrip
import ProgramInterface.Proofs.Json.Strict
import ProgramInterface.Proofs.Schema.Nesting
import ProgramInterface.Proofs.Schema.Normal
import ProgramInterface.Proofs.Schema.Preimage
import ProgramInterface.Tools

/-!
# Validating descriptions

What comes out of a validation goes into it again and stays as it is (`validation_normalizes`), as an
object always, and as text if and only if the strict dialect of JSON reads all parts of it where they
stand. A description that is given as an object is judged like its text (`text_judged_like_object`).
-/

namespace ProgramInterface

namespace Schema

/-- The names of the members of descriptions and of the types in them. -/
def documentNames : List Text :=
  ["version", "name", "instructions", "accounts", "types", "errors", "args", "type", "isMut",
    "isSigner", "kind", "fields", "variants", "code", "msg", "vec", "tuple", "option",
    "defined"].map Text.ofString

theorem name_well_formed {name : Text} (h : name ∈ documentNames) : name.WellFormed := by
  obtain ⟨word, _, rfl⟩ := List.mem_map.1 h
  exact Text.well_formed_of_string word

theorem document_stable : document.isStable documentNames = true := by
  decide

/-! ## Integers -/

theorem wide_strict {n : Int} (h : isWide n = true) : (Json.Value.int n).IsStrict := by
  rw [isWide, Bool.and_eq_true, decide_eq_true_eq, decide_eq_true_eq] at h
  have hsmall : n.natAbs < Nat.pow 10 19 := by
    simp only [Nat.pow_eq] at h ⊢
    omega
  have hlength := (Text.length_of_nat_le_iff (by decide)).2 hsmall
  rw [Json.Value.IsStrict, IntegerText.fits_iff_length]
  unfold IntegerText.decimalLimit
  omega

theorem not_surrogate_of_digit {c : CodePoint} (h : Json.isDigit c = true) :
    c.isSurrogate = false := by
  rw [Json.isDigit, Bool.and_eq_true, decide_eq_true_eq, decide_eq_true_eq] at h
  have hlow : c.val < 0xD800 := by omega
  rw [CodePoint.eq_scalar_of_val rfl hlow]
  rfl

/-- An integer is only taken from digits that the strict dialect reads. -/
theorem integer_of_text_strict {t : Text} {n : Int} (h : integerOfText t = .ok n) :
    (Json.Value.int n).IsStrict := by
  unfold integerOfText at h
  split at h
  · cases h
  · dsimp only at h
    split at h
    · cases h
    · split at h
      · rename_i hread
        split at h
        · rename_i hdigits
          cases h
          refine (Json.read_strict (fun c hc => ?_) hread).parts _ (Json.Value.mem_parts_self _)
          have hchar := List.all_eq_true.1 hdigits c hc
          rw [Bool.or_eq_true, decide_eq_true_eq] at hchar
          rcases hchar with hdigit | rfl
          · exact not_surrogate_of_digit hdigit
          · rfl
        · cases h
      · cases h

/-- An integer that a strict part stands for is strict. -/
theorem integer_of_strict {source : Json.Value} {n : Int} (h : integerOf source = .ok n)
    (hsource : source.IsStrict) : (Json.Value.int n).IsStrict := by
  cases source with
  | int m =>
      cases h
      exact hsource
  | bool b =>
      cases h
      exact wide_strict (by cases b <;> rfl)
  | float x =>
      simp only [integerOf, integerOfFloat] at h
      split at h
      · cases h
      · split_ifs at h with _ hwide
        cases h
        exact wide_strict hwide
  | text t => exact integer_of_text_strict h
  | _ => cases h

/-! ## Normal forms as texts -/

variable {whole normal part : Json.Value}

/-- What is made of strict parts is strict. -/
theorem Derived.strict (h : Derived documentNames whole part)
    (hwhole : whole.All Json.Value.IsStrict) : part.IsStrict := by
  cases part with
  | text t =>
      obtain ht | ⟨w, rfl⟩ := h
      · exact hwhole _ ht
      · exact Text.well_formed_of_string w
  | int n =>
      obtain ⟨source, hsource, hn⟩ := h
      exact integer_of_strict hn (hwhole source hsource)
  | object members => exact fun m hm => name_well_formed (h.2 m hm)
  | _ => trivial

/-- A strict part of a normal form is read back after it was written. -/
theorem Derived.readable (h : Derived documentNames whole part) (hstrict : part.IsStrict) :
    part.IsReadable true := by
  refine Json.readable_iff.2 ⟨?_, hstrict⟩
  cases part with
  | float x => exact h
  | object members => exact h.1
  | _ => trivial

theorem check_strict {origin : Origin} (h : document.check origin whole = .ok normal)
    (hwhole : whole.StrictAt 0) : normal.StrictAt 0 where
  parts := fun part hpart =>
    (check_derived document document_stable h part hpart).strict hwhole.parts
  within := by
    have hnormal := check_nesting_le document h
    have hwithin := hwhole.within
    omega

/-- A strict normal form is read back after it was written. -/
theorem normal_returns {origin : Origin} (h : document.check origin whole = .ok normal)
    (hstrict : normal.All Json.Value.IsStrict) : normal.Returns true :=
  (Json.returns_iff normal).2 fun part hpart =>
    (check_derived document document_stable h part hpart).readable (hstrict part hpart)

/-- A text is accepted if the strict dialect reads it as a value that is. -/
theorem check_document_text_eq_ok {t : Text} (h : checkDocumentText t = .ok normal) :
    ∃ whole, whole.StrictAt 0 ∧ document.check .text whole = .ok normal := by
  unfold checkDocumentText at h
  split at h
  · cases h
  · rename_i hplain
    have ht : t.WellFormed := by simpa [Text.WellFormed] using hplain
    split at h
    · rename_i whole hread
      exact ⟨whole, Json.read_strict ht hread, h⟩
    · cases h

/-- Within the limit on the nesting of texts it makes no difference how a description came. -/
theorem check_document_origin {v : Json.Value} (h : v.nesting ≤ Json.nestingLimit) :
    document.check .object v = document.check .text v := by
  refine check_origin document ?_
  unfold Json.nestingLimit at h
  unfold nestingLimit
  omega

end Schema

/-! ## Validation -/

open Schema

/-- A written value that comes back is judged like the value. -/
theorem encoded_judged {v : Json.Value} (h : v.Returns true) (hnesting : v.nesting ≤ Json.nestingLimit)
    (layout : Json.Layout) :
    ∃ t, v.encode? layout = some t ∧ Tool.checkAny (.text t) = checkObject v := by
  refine ⟨v.write layout 0, ?_, ?_⟩
  · rw [Json.Value.encode?, if_pos h.is_writable]
  · rw [checkObject, check_document_origin hnesting]
    exact check_document_text h hnesting layout

/-- Validation gives no text a normal form that the strict dialect would not read. -/
theorem check_text_strict {t : Text} {dump : Json.Value}
    (h : Tool.checkAny (.text t) = .ok dump) : dump.StrictAt 0 := by
  obtain ⟨whole, hstrict, hcheck⟩ := check_document_text_eq_ok h
  exact check_strict hcheck hstrict

/-- What is validated is checked as an object, also if it was a text. -/
theorem exists_checked {value dump : Json.Value} (h : Tool.checkAny value = .ok dump) :
    ∃ whole, document.check .object whole = .ok dump := by
  cases value with
  | text t =>
      obtain ⟨whole, hstrict, hcheck⟩ := check_document_text_eq_ok h
      refine ⟨whole, (check_document_origin ?_).trans hcheck⟩
      have hwithin := hstrict.within
      omega
  | _ => exact ⟨_, h⟩

/-- What validation makes of a description is validated as it is: it names its members by the names
of the schema only, and its texts are accepted, with the same outcome, if and only if the strict
dialect reads all of its parts where they stand. That is always so if the description was a text
itself. -/
theorem validation_normalizes {value dump : Json.Value} (h : Tool.checkAny value = .ok dump) :
    Tool.checkAny dump = .ok dump ∧
      (∀ members, .object members ∈ dump.parts → ∀ m ∈ members, m.1 ∈ documentNames) ∧
      (∀ layout, (∃ t, dump.encode? layout = some t ∧ Tool.checkAny (.text t) = .ok dump) ↔
        dump.StrictAt 0) ∧
      ((∃ t, value = .text t) → dump.StrictAt 0) := by
  obtain ⟨whole, hcheck⟩ := exists_checked h
  have hnormal : document.check .object dump = .ok dump :=
    check_normal document document_stable hcheck
  have hderived := check_derived document document_stable hcheck
  obtain ⟨_, members, _, rfl, _⟩ := check_record_eq_ok hcheck
  refine ⟨hnormal, fun inner hinner => (hderived _ hinner).2, fun layout => ⟨?_, fun hstrict => ?_⟩,
    fun ⟨t, ht⟩ => check_text_strict (ht ▸ h)⟩
  · rintro ⟨t, _, ht⟩
    exact check_text_strict ht
  · obtain ⟨t, hencode, hjudged⟩ := encoded_judged (normal_returns hcheck hstrict.parts)
      (by have hwithin := hstrict.within; omega) layout
    exact ⟨t, hencode, hjudged.trans hnormal⟩

/-- The text of the lenient description is accepted, and so is every text of what comes out. -/
theorem lenient_text_normalizes : ∃ dump,
    Tool.checkAny (.text (lenientDescription.write .line 0)) = .ok dump ∧
      Tool.checkAny dump = .ok dump ∧
      ∀ layout, ∃ t, dump.encode? layout = some t ∧ Tool.checkAny (.text t) = .ok dump := by
  have haccepted : (Tool.checkAny (.text (lenientDescription.write .line 0))).isOk = true := by
    decide +kernel
  cases hdump : Tool.checkAny (.text (lenientDescription.write .line 0)) with
  | error faults => rw [hdump] at haccepted; cases haccepted
  | ok dump =>
      obtain ⟨hnormal, _, htext, hstrict⟩ := validation_normalizes hdump
      exact ⟨dump, rfl, hnormal, fun layout => (htext layout).2 (hstrict ⟨_, rfl⟩)⟩

/-! ## Descriptions that are lost as text -/

/-- Whether a description is accepted as an object and is its own normal form, while its texts are
not accepted with this outcome. -/
def IsLostAsText (dump : Json.Value) : Prop :=
  Tool.checkAny dump = .ok dump ∧
    ∀ layout, ∃ t, dump.encode? layout = some t ∧ Tool.checkAny (.text t) ≠ .ok dump

/-- A description with some account layouts and error codes. -/
def vaultDescription (accounts : List AccountLayout) (errors : List ErrorEntry) : Document where
  version := "0.1.0"
  name := "vault_program"
  instructions := []
  accounts
  types := []
  errors

/-- A description that is accepted as an object is lost as text if the strict dialect does not read
it. -/
theorem Document.is_lost {accounts : List AccountLayout} {errors : List ErrorEntry}
    (hfields : Origin.object.AdmitsFields (vaultDescription accounts errors).fields)
    (hcodes : ∀ entry ∈ errors, IntegerText.fits entry.code = true)
    (hstrict : ¬ (vaultDescription accounts errors).toJson.StrictAt 0) :
    IsLostAsText (vaultDescription accounts errors).toJson := by
  have hreturns : (vaultDescription accounts errors).toJson.Returns false :=
    document_returns hcodes nofun
  refine ⟨check_document ⟨Text.well_formed_of_string _, nofun⟩
    ⟨Text.well_formed_of_string _, nofun⟩ hfields, fun layout => ⟨_, if_pos hreturns.is_writable, ?_⟩⟩
  exact fun haccepted => hstrict (check_text_strict haccepted)

/-- Bytes in as many vectors as given, each in the one before it. -/
def nestedBytes : Nat → Shape
  | 0 => .primitive "u8"
  | depth + 1 => .vector (nestedBytes depth)

theorem nesting_nested_bytes (depth : Nat) : (nestedBytes depth).nesting = depth := by
  induction depth with
  | zero => rfl
  | succ depth ih => rw [nestedBytes, Shape.nesting, ih]

/-- An account layout with one field. -/
def nestedLayout (depth : Nat) : AccountLayout :=
  ⟨"Vault", [⟨"notes", nestedBytes depth⟩]⟩

/-- A name with a surrogate and a type nested beyond the limit of texts are kept in objects and lost
in texts. -/
theorem surrogate_and_depth_lost :
    IsLostAsText (vaultDescription [] [⟨600, [.surrogate 0], "late"⟩]).toJson ∧
      IsLostAsText (vaultDescription [nestedLayout Json.nestingLimit] []).toJson := by
  constructor
  · refine Document.is_lost (fun _ hfield => absurd hfield List.not_mem_nil) ?_ fun hstrict => ?_
    · exact List.forall_mem_singleton.2 (IntegerText.fits_iff_length.2 (by decide))
    · have herrors : Json.Value.lookup? "errors" ((vaultDescription []
          [⟨600, [.surrogate 0], "late"⟩]).toJson.members?.getD []) = some _ := rfl
      have hname : Text.WellFormed [.surrogate 0] := hstrict.parts (.text [.surrogate 0])
        (Json.Value.parts_subset (Json.Value.mem_parts_of_lookup herrors)
          (Json.Value.mem_parts_of_item (.head _) (.tail _ (.tail _ (.head _)))))
      exact Bool.noConfusion (hname _ (.head _))
  · refine Document.is_lost (List.forall_mem_singleton.2 ?_) (List.forall_mem_nil _)
      fun hstrict => ?_
    · rw [nesting_nested_bytes]
      decide
    · have hfield : ⟨"notes", nestedBytes Json.nestingLimit⟩ ∈
          (vaultDescription [nestedLayout Json.nestingLimit] []).fields := .head _
      have hlt := nesting_lt_of_mem_fields hfield
      rw [nesting_nested_bytes] at hlt
      have hwithin := hstrict.within
      omega

/-! ## Objects and their texts -/

/-- An object of strict parts, without floating-point numbers and with different names in each of its
objects, is judged like its text with any indentation if it is not nested beyond the limit of texts:
both are rejected for the same faults, or both are accepted and give the same. -/
theorem text_judged_like_object {members : List (Text × Json.Value)}
    (hnames : ∀ inner, .object inner ∈ (Json.Value.object members).parts →
      (inner.map (·.1)).Nodup)
    (hnumbers : ∀ x, .float x ∉ (Json.Value.object members).parts)
    (hstrict : (Json.Value.object members).All Json.Value.IsStrict)
    (hnesting : (Json.Value.object members).nesting ≤ Json.nestingLimit) (layout : Json.Layout) :
    ∃ t, (Json.Value.object members).encode? layout = some t ∧
      Tool.checkAny (.text t) = Tool.checkAny (.object members) := by
  refine encoded_judged ((Json.returns_iff _).2 fun part hpart => ?_) hnesting layout
  refine Json.readable_iff.2 ⟨?_, hstrict part hpart⟩
  cases part with
  | float x => exact absurd hpart (hnumbers x)
  | object inner => exact hnames inner hpart
  | _ => trivial

/-- The members of a description without a name, whose error has a member too many. -/
def surplusMembers : List (Text × Json.Value) :=
  [("version", .ofString "0.1.0"), ("errors", .array [.record [("code", .ofString " 6_00 "),
    ("name", .ofString "Late"), ("index", .int (-7))]])]

theorem surplus_judged_like_object :
    ∃ t, (Json.Value.object surplusMembers).encode? .line = some t ∧
      Tool.checkAny (.text t) = Tool.checkAny (.object surplusMembers) := by
  have hentry : (Json.Value.record [("code", .ofString " 6_00 "), ("name", .ofString "Late"),
      ("index", .int (-7))]).Returns true :=
    Json.record_returns (by decide) ⟨fun _ => Text.well_formed_of_string _,
      fun _ => Text.well_formed_of_string _, IntegerText.fits_iff_length.2 (by decide)⟩
  have hreturns : (Json.Value.object surplusMembers).Returns true := by
    show (Json.Value.record [("version", _), ("errors", .array [_])]).Returns true
    exact Json.record_returns (by decide) ⟨fun _ => Text.well_formed_of_string _, hentry, trivial⟩
  have hread := (Json.returns_iff _).1 hreturns
  exact text_judged_like_object (fun inner hinner => (hread _ hinner).1)
    (fun x hx => hread _ hx)
    (fun part hpart => (Json.readable_iff.1 (hread part hpart)).2) (by decide) .line

end ProgramInterface
