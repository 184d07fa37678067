import ProgramInterface.Proofs.Catalogue.Types
import ProgramInterface.Proofs.Description.RoundTrip
import ProgramInterface.Proofs.Grammar.Enumeration
import ProgramInterface.Proofs.Settings.Load
import ProgramInterface.Tools

/-!
# Tools compose

What the tool that generates descriptions answers with is a description to the tool that checks them
(`tools_compose`), as an object and as text, as long as it keeps to the limits on nesting and, as text,
to the limit on size. A description can be longer than its source, so a source within the limit may have
a description beyond it (`long_description_rejected`).
-/

namespace ProgramInterface

namespace Schema

/-- A source is accepted if it is a text without surrogates that is neither empty nor too long. -/
theorem check_source_eq_ok {value checked : Json.Value} :
    checkSource value = .ok checked ↔
      ∃ t, value = .text t ∧ t.WellFormed ∧ t ≠ [] ∧ t.length ≤ sizeLimit ∧ checked = .text t := by
  rw [checkSource, under_eq_ok]
  cases value with
  | text t =>
      have hlimits : ¬ (1 = 0 ∧ some sizeLimit = none) := nofun
      have hsurrogate : t.any CodePoint.isSurrogate = true ↔ ¬ t.WellFormed := by
        simp [Text.WellFormed]
      have hempty : t.length < 1 ↔ t = [] := by
        rw [Nat.lt_one_iff, List.length_eq_zero_iff]
      rw [checkText, if_neg hlimits]
      simp only [hsurrogate, hempty, Json.Value.text.injEq, exists_eq_left']
      by_cases hplain : t.WellFormed
      · by_cases hsome : t = []
        · simp [hsome, reject]
        · by_cases hlong : sizeLimit < t.length
          · simp [hplain, hsome, hlong, Nat.not_le.2 hlong, reject]
          · simp [hplain, hsome, hlong, Nat.not_lt.1 hlong, eq_comm]
      · simp [hplain, reject]
  | _ => simp [checkText, reject]

/-- A text is accepted as a description if it is not blank and keeps to the limit. -/
theorem check_description_text {t : Text} (hblank : isEmptyText t = false)
    (hshort : t.length ≤ sizeLimit) : checkDescription (.text t) = .ok (.text t) := by
  rw [checkDescription, hblank, if_neg (Nat.not_lt.2 hshort)]
  rfl

/-- A text beyond the limit is refused as a description. -/
theorem check_description_too_large {t : Text} (hblank : isEmptyText t = false)
    (hlong : sizeLimit < t.length) :
    checkDescription (.text t) = .error [⟨[.key "idl"], .rule ("IDL text too large: " ++
      toString t.length ++ " > " ++ toString sizeLimit)⟩] := by
  rw [checkDescription, hblank, if_pos hlong]
  rfl

end Schema

namespace Tool

variable {environment : Environment} {tree : FileTree} {arguments : List (Text × Json.Value)}

/-! ## Answers -/

/-- A source among the arguments is a text without surrogates that is neither empty nor too long. -/
theorem source_of_eq_ok {source : Source} :
    sourceOf arguments = .ok source ↔
      ∃ t, argumentOf "source" arguments = .text t ∧ t.WellFormed ∧ t ≠ [] ∧
        t.length ≤ Schema.sizeLimit ∧ source = .text t := by
  constructor
  · intro h
    unfold sourceOf at h
    split at h
    · rename_i checked hcheck
      cases h
      obtain ⟨t, htext, hplain, hsome, hshort, hchecked⟩ := Schema.check_source_eq_ok.1 hcheck
      exact ⟨t, htext, hplain, hsome, hshort, congrArg Source.text (Json.Value.text.inj hchecked)⟩
    · rename_i hother hcheck
      obtain ⟨t, _, _, _, _, hchecked⟩ := Schema.check_source_eq_ok.1 hcheck
      exact absurd hchecked (hother t)
    · cases h
  · rintro ⟨t, htext, hplain, hsome, hshort, rfl⟩
    rw [sourceOf, Schema.check_source_eq_ok.2 ⟨t, htext, hplain, hsome, hshort, rfl⟩]

theorem source_of_ne_description (text : Text) :
    sourceOf arguments ≠ .error (.description text) := by
  unfold sourceOf
  split <;> simp

/-- A tool has a description if settings are loaded for it and the description is generated with
them. -/
theorem describe_eq_ok {tool : Tool} {source : Source} {document : Document} :
    (describe environment tree tool source).value = .ok (.ok document) ↔
      ∃ settings, (Settings.load environment tree (Settings.defaultFile environment.home)).value =
          .ok settings ∧
        ProgramInterface.generate settings.generation source = .ok document := by
  rw [describe, Logged.value_bind]
  cases (Settings.load environment tree (Settings.defaultFile environment.home)).value with
  | error fault =>
      rcases fault with fault | fault
      · simp
      · cases fault <;> simp
  | ok settings =>
      simp only [Logged.value_bind, value_generateLogged, Except.ok.injEq, exists_eq_left']
      cases ProgramInterface.generate settings.generation source with
      | error fault => cases fault <;> simp
      | ok document => simp

/-- In place of a description stands the answer that there is none. -/
theorem describe_ne_description (environment : Environment) (tree : FileTree) (tool : Tool)
    (source : Source) (text : Text) :
    (describe environment tree tool source).value ≠ .ok (.error (.description text)) := by
  rw [describe, Logged.value_bind]
  cases (Settings.load environment tree (Settings.defaultFile environment.home)).value with
  | error fault =>
      rcases fault with fault | fault
      · simp
      · cases fault <;> simp
  | ok settings =>
      simp only [Logged.value_bind, value_generateLogged]
      cases ProgramInterface.generate settings.generation source with
      | error fault => cases fault <;> simp
      | ok document => simp

/-- What the tool that generates descriptions answers with is the text of a description. -/
theorem answer_generate_eq_ok {source : Source} {text : Text} :
    (answerGenerate environment tree source).value = .ok (.description text) ↔
      ∃ document, (describe environment tree generate source).value = .ok (.ok document) ∧
        document.encode? (some indent) = some text := by
  rw [answerGenerate, Logged.value_bind]
  have hanswer := describe_ne_description environment tree generate source text
  cases hdescribe : (describe environment tree generate source).value with
  | error failure => simp
  | ok made =>
      rw [hdescribe] at hanswer
      cases made with
      | error answer => simpa using hanswer
      | ok document => cases hencode : document.encode? (some indent) <;> simp [hencode]

/-- The tool that generates descriptions answers with a text if and only if the source that it is
given fits its limits, settings are loaded for it, and the source has a description with them that can
be written; then it answers with what the description is written as. -/
theorem call_generate_eq_ok {text : Text} :
    (call environment tree (Text.ofString generate.name) arguments).value =
        .ok (.description text) ↔
      ∃ t settings document, argumentOf "source" arguments = .text t ∧ t.WellFormed ∧ t ≠ [] ∧
        t.length ≤ Schema.sizeLimit ∧
        (Settings.load environment tree (Settings.defaultFile environment.home)).value =
          .ok settings ∧
        ProgramInterface.generate settings.generation (.text t) = .ok document ∧
        document.encode? (some indent) = some text := by
  have hname : ofName? (Text.ofString generate.name) = some generate := by decide
  rw [call, hname]
  dsimp only
  constructor
  · intro h
    cases hsource : sourceOf arguments with
    | error answer =>
        rw [hsource] at h
        cases h
        exact absurd hsource (source_of_ne_description text)
    | ok source =>
        rw [hsource] at h
        obtain ⟨t, htext, hplain, hsome, hshort, rfl⟩ := source_of_eq_ok.1 hsource
        obtain ⟨document, hdescribe, hencode⟩ := answer_generate_eq_ok.1 h
        obtain ⟨settings, hload, hgenerate⟩ := describe_eq_ok.1 hdescribe
        exact ⟨t, settings, document, htext, hplain, hsome, hshort, hload, hgenerate, hencode⟩
  · rintro ⟨t, settings, document, htext, hplain, hsome, hshort, hload, hgenerate, hencode⟩
    rw [source_of_eq_ok.2 ⟨t, htext, hplain, hsome, hshort, rfl⟩]
    exact answer_generate_eq_ok.2
      ⟨document, describe_eq_ok.2 ⟨settings, hload, hgenerate⟩, hencode⟩

section

variable {value description : Json.Value}

theorem argument_of_single (name : String) (value : Json.Value) :
    argumentOf name [(Text.ofString name, value)] = value := by
  rw [argumentOf, Schema.lookup_single]
  rfl

theorem validate_named : ofName? (Text.ofString validate.name) = some validate := by
  decide

/-- A value that is refused as a description is answered with its faults. -/
theorem call_validate_refused {faults : List Schema.Fault}
    (h : Schema.checkDescription value = .error faults) :
    (call environment tree (Text.ofString validate.name) [(Text.ofString "idl", value)]).value =
      .ok (.rejected "ValidateIdlInput" faults) := by
  rw [call, validate_named, argument_of_single, h]
  rfl

/-- A value that is accepted as a description is checked. -/
theorem call_validate_accepted (h : Schema.checkDescription value = .ok description) :
    (call environment tree (Text.ofString validate.name) [(Text.ofString "idl", value)]).value =
      .ok (answerValidate description).value := by
  rw [call, validate_named, argument_of_single, h]
  rfl

/-- A description that is accepted as an argument and fits the schema is valid. -/
theorem call_validate_eq {model : Json.Value} {name : Text}
    (haccepted : Schema.checkDescription value = .ok value) (hfits : checkAny value = .ok model)
    (hname : model.member? "name" = some (.text name)) :
    (call environment tree (Text.ofString validate.name) [(Text.ofString "idl", value)]).value =
      .ok (.valid name) := by
  rw [call_validate_accepted haccepted]
  simp [answerValidate, hfits, hname, Json.Value.text?]

end

/-- A text beyond the limit is refused for its size. -/
theorem call_validate_too_large (environment : Environment) (tree : FileTree) {t : Text}
    (hblank : Schema.isEmptyText t = false) (hlong : Schema.sizeLimit < t.length) :
    (call environment tree (Text.ofString validate.name)
        [(Text.ofString "idl", .text t)]).value =
      .ok (.rejected "ValidateIdlInput" [⟨[.key "idl"], .rule ("IDL text too large: " ++
        toString t.length ++ " > " ++ toString Schema.sizeLimit)⟩]) :=
  call_validate_refused (Schema.check_description_too_large hblank hlong)

end Tool

/-! ## Texts of descriptions -/

/-- The text of a description is what its value is written as. -/
theorem write_of_encode {document : Document} {indent : Option Int} {text : Text}
    (h : document.encode? indent = some text) :
    text = document.toJson.write (Document.layout indent) 0 := by
  rw [Document.encode?, Json.Value.encode?] at h
  split at h
  · exact (Option.some.inj h).symm
  · cases h

/-- A description is written as an object, which begins with a brace. -/
theorem document_not_blank (document : Document) (layout : Json.Layout) :
    Schema.isEmptyText (document.toJson.write layout 0) = false := by
  have hhead : ∃ rest, document.toJson.write layout 0 = .scalar '\x7b' :: rest := ⟨_, rfl⟩
  obtain ⟨rest, hwrite⟩ := hhead
  rw [hwrite]
  rfl

/-- A text that is written for a description is longer than the name of each of its types. -/
theorem length_type_name {document : Document} {entry : TypeEntry} (h : entry ∈ document.types)
    (layout : Json.Layout) :
    entry.name.length + 25 ≤ (document.toJson.write layout 0).length := by
  have hname := Json.length_le_write_text layout.asciiOnly entry.name
  have hentry : (Json.Value.write layout 3 (.text entry.name)).length + "name".length + 6 ≤
      (entry.toJson.write layout 2).length := Json.length_member (by simp)
  have hitem : (entry.toJson.write layout 2).length + 2 ≤
      ((Json.Value.array (document.types.map TypeEntry.toJson)).write layout 1).length :=
    Json.length_item (List.mem_map_of_mem h)
  have htypes : ((Json.Value.array (document.types.map TypeEntry.toJson)).write layout 1).length +
      "types".length + 6 ≤ (document.toJson.write layout 0).length := Json.length_member (by simp)
  rw [Json.Value.write] at hentry
  have hlengths : "name".length = 4 ∧ "types".length = 5 := by decide
  omega

/-! ## Composition -/

/-- Every description that the tool for descriptions answers with is valid to the tool that checks
them, under the name that it holds: the object that its text is read as, unless its types are nested too
deep, and the text itself, unless it is nested too deep or larger than the limit. A larger text is
refused for its size. -/
theorem tools_compose {environment : Environment} {tree : FileTree}
    {arguments : List (Text × Json.Value)} {text : Text}
    (h : (Tool.call environment tree (Text.ofString "arch_generate_idl") arguments).value =
      .ok (.description text)) :
    ∃ document : Document, Json.read .plain text = .ok document.toJson ∧
      ∀ other files,
        (Schema.Origin.object.AdmitsFields document.fields →
          (Tool.call other files (Text.ofString "arch_validate_idl")
            [(Text.ofString "idl", document.toJson)]).value = .ok (.valid document.name)) ∧
        (text.length ≤ Schema.sizeLimit → document.toJson.nesting ≤ Json.nestingLimit →
          (Tool.call other files (Text.ofString "arch_validate_idl")
            [(Text.ofString "idl", .text text)]).value = .ok (.valid document.name)) ∧
        (Schema.sizeLimit < text.length →
          (Tool.call other files (Text.ofString "arch_validate_idl")
            [(Text.ofString "idl", .text text)]).value =
              .ok (.rejected "ValidateIdlInput" [⟨[.key "idl"], .rule ("IDL text too large: " ++
                toString text.length ++ " > " ++ toString Schema.sizeLimit)⟩])) := by
  obtain ⟨t, settings, document, _, _, _, _, _, hgenerate, hencode⟩ :=
    Tool.call_generate_eq_ok.1 h
  have hwell := generate_well_formed hgenerate
  obtain ⟨hobject, written, hwritten, hfits⟩ := hwell.round_trip (some Tool.indent)
  obtain rfl : written = text := Option.some.inj (hwritten.symm.trans hencode)
  obtain rfl := write_of_encode hencode
  have hblank := document_not_blank document (Document.layout (some Tool.indent))
  refine ⟨document, Json.read_write hwell.returns.any_layout (Json.admits_plain _) 0,
    fun other files => ⟨fun hfields => ?_, fun hshort hnesting => ?_, fun hlong => ?_⟩⟩
  · exact Tool.call_validate_eq rfl (hobject hfields) rfl
  · exact Tool.call_validate_eq (Schema.check_description_text hblank hshort) (hfits hnesting) rfl
  · exact Tool.call_validate_too_large other files hblank hlong

/-- Whether a tool answers with a description whose text is within the limits on size and nesting. -/
def Tool.isPlainDescription : Except Tool.Failure Tool.Answer → Bool
  | .ok (.description text) =>
    match Json.read .plain text with
    | .ok value => text.length ≤ Schema.sizeLimit && value.nesting ≤ Json.nestingLimit
    | .error _ => false
  | _ => false

theorem Tool.exists_plain_description {outcome : Except Tool.Failure Tool.Answer}
    (h : isPlainDescription outcome = true) :
    ∃ text, outcome = .ok (.description text) ∧ text.length ≤ Schema.sizeLimit ∧
      ∀ value, Json.read .plain text = .ok value → value.nesting ≤ Json.nestingLimit := by
  unfold isPlainDescription at h
  split at h
  · rename_i text
    split at h
    · rename_i value hread
      rw [Bool.and_eq_true, decide_eq_true_eq, decide_eq_true_eq] at h
      refine ⟨text, rfl, h.1, fun other hother => ?_⟩
      cases hread.symm.trans hother
      exact h.2
    · cases h
  · cases h

/-- A source with a nested type, a variant without fields and an error code as the arguments of a
request. -/
def nestedRequest : List (Text × Json.Value) :=
  [(Text.ofString "source",
    .text (Text.ofString "enum E\x7bA,B(Vec<(u8,T)>)\x7d const C:u64=600;"))]

/-- The description of a short source is valid as an object and as text. -/
theorem tools_compose_nested : ∃ (document : Document) (text : Text),
    (Tool.call bareRoot noFiles (Text.ofString "arch_generate_idl") nestedRequest).value =
      .ok (.description text) ∧
    Json.read .plain text = .ok document.toJson ∧
    (Tool.call bareRoot noFiles (Text.ofString "arch_validate_idl")
      [(Text.ofString "idl", document.toJson)]).value = .ok (.valid document.name) ∧
    (Tool.call bareRoot noFiles (Text.ofString "arch_validate_idl")
      [(Text.ofString "idl", .text text)]).value = .ok (.valid document.name) := by
  have hdescription : Tool.isPlainDescription (Tool.call bareRoot noFiles
      (Text.ofString "arch_generate_idl") nestedRequest).value = true := by decide +kernel
  obtain ⟨text, hcall, hshort, hshallow⟩ := Tool.exists_plain_description hdescription
  obtain ⟨document, hread, hcompose⟩ := tools_compose hcall
  have hnesting := hshallow _ hread
  obtain ⟨hobject, htext, _⟩ := hcompose bareRoot noFiles
  exact ⟨document, text, hcall, hread, hobject (admits_fields_of_nesting hnesting),
    htext hshort hnesting⟩

/-! ## Descriptions beyond the limit -/

/-- A tree without integer literals has no error codes. -/
theorem error_codes_eq_nil {root : Node}
    (h : ∀ node ∈ root.preorder, node.kind ≠ .integerLiteral) (threshold : Int) :
    errorCodes threshold root = [] := by
  have hnone : root.matching .integer = [] := by
    rw [Node.matching_eq_filter_preorder, List.filter_eq_nil_iff]
    exact fun node hnode => by simpa [QueryKind.isMatch, QueryKind.nodeKinds] using h node hnode
  rw [errorCodes, literalValues, hnone]
  rfl

/-- An enumeration has a description with any settings, which shows it as a type. -/
theorem generate_enumeration (settings : GenerationSettings) {letters : List Char}
    (h : ∀ c ∈ letters, isNameNext c = true) :
    ∃ document, generate settings (.text (Text.ofString (enumerationSource letters))) =
        .ok document ∧
      ∃ entry ∈ document.types, entry.name = Text.ofString (String.ofList ('A' :: letters)) := by
  obtain ⟨⟨item, hitem, hkind, hname⟩, hliterals⟩ := source_file_enumeration h
  have hfit : CodesFit settings.threshold (Grammar.sourceFile (enumerationSource letters)) := by
    rw [CodesFit, error_codes_eq_nil hliterals]
    exact List.forall_mem_nil _
  have hmem : itemName item ∈
      (structsAndEnumsOf (Grammar.sourceFile (enumerationSource letters))).map itemName :=
    List.mem_map_of_mem (List.mem_filter.2 ⟨hitem, decide_eq_true (.inr hkind)⟩)
  have hitemName : itemName item = Text.ofString (String.ofList ('A' :: letters)) :=
    congrArg Text.ofString hname
  have hsome : itemName item ≠ [] := by
    rw [hitemName]
    simp [Text.ofString, Text.ofChars]
  obtain ⟨entry, hentry, hnamed⟩ := List.mem_map.1
    (((type_names settings.mode _).mem_iff _).2 ⟨hsome, hmem⟩)
  exact ⟨_, generate_eq_ok.2 ⟨_, Source.parse_text _, describe_eq_some.2 ⟨hfit, rfl⟩⟩, entry, hentry,
    hnamed.trans hitemName⟩

theorem length_enumeration_source (letters : List Char) :
    (Text.ofString (enumerationSource letters)).length = letters.length + 8 := by
  rw [Text.length_of_string, enumerationSource, String.length_ofList]
  simp [enumerationChars]

/-- The source with one enumeration as the arguments of a request. -/
def enumerationRequest (letters : List Char) : List (Text × Json.Value) :=
  [(Text.ofString "source", .text (Text.ofString (enumerationSource letters)))]

/-- A source with one enumeration is answered with a text that is longer than the source. -/
theorem call_generate_enumeration {letters : List Char} (h : ∀ c ∈ letters, isNameNext c = true)
    (hshort : letters.length + 8 ≤ Schema.sizeLimit) :
    ∃ (document : Document) (text : Text),
      (Tool.call bareRoot noFiles (Text.ofString "arch_generate_idl")
        (enumerationRequest letters)).value = .ok (.description text) ∧
      text = document.toJson.write (Document.layout (some Tool.indent)) 0 ∧
      letters.length + 26 ≤ text.length := by
  obtain ⟨document, hgenerate, entry, hentry, hname⟩ :=
    generate_enumeration Settings.default.generation h
  obtain ⟨_, text, hencode, _⟩ := (generate_well_formed hgenerate).round_trip (some Tool.indent)
  refine ⟨document, text, ?_, write_of_encode hencode, ?_⟩
  · refine Tool.call_generate_eq_ok.2 ⟨_, Settings.default, document,
      Tool.argument_of_single .., Text.well_formed_of_string (enumerationSource letters), ?_, ?_,
      load_no_files, hgenerate, hencode⟩
    · exact List.ne_nil_of_length_pos (by rw [length_enumeration_source]; omega)
    · rwa [length_enumeration_source]
  · -- The name stands among at least 25 other characters in the text, and among 7 in the source.
    have hlength := length_type_name hentry (Document.layout (some Tool.indent))
    have hletters : entry.name.length = letters.length + 1 := by
      rw [hname, Text.length_of_string, String.length_ofList, List.length_cons]
    rw [write_of_encode hencode]
    omega

/-- A source that is exactly as large as the limit has a description whose text the tool that checks
descriptions does not find valid. -/
theorem long_description_rejected :
    ∃ text,
      (Tool.call bareRoot noFiles (Text.ofString "arch_generate_idl")
        (enumerationRequest (List.replicate 1048568 'A'))).value = .ok (.description text) ∧
      ∀ name, (Tool.call bareRoot noFiles (Text.ofString "arch_validate_idl")
        [(Text.ofString "idl", .text text)]).value ≠ .ok (.valid name) := by
  have hletters : ∀ c ∈ List.replicate 1048568 'A', isNameNext c = true := fun c hc => by
    rw [List.eq_of_mem_replicate hc]
    decide +kernel
  have hlimit : Schema.sizeLimit = 1048576 := by decide
  obtain ⟨document, text, hcall, hwritten, hlong⟩ := call_generate_enumeration hletters
    (by rw [List.length_replicate, hlimit])
  rw [List.length_replicate] at hlong
  have hblank : Schema.isEmptyText text = false := by
    rw [hwritten]
    exact document_not_blank document _
  have hrejected := Tool.call_validate_too_large bareRoot noFiles hblank (by omega)
  exact ⟨text, hcall, fun name hvalid => nomatch hvalid.symm.trans hrejected⟩

end ProgramInterface
