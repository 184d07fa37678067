import ProgramInterface.Log.Router
import ProgramInterface.Proofs.Json.Parts
import ProgramInterface.Proofs.Json.Surrogates

/-!
# Records as lines of JSON

A record is written as an object on one line of printable ASCII. What is read from that line tells the
record (`Tells`): its level, logger and message, the facts among the values that were attached to it and
no others, and the failure if there is one. There is such a line exactly if the message can be filled and
the calendar shows the time of the record (`json_line_tells`).
-/

namespace ProgramInterface

namespace Log

/-! ## What is attached to a record -/

/-- Whether a value may be a fact, what it holds aside: a text without surrogates, an integer that is not
longer than can be written, or a map from such texts; no floating-point number. -/
def IsFactPart : Json.Value → Prop
  | .int n => (Text.ofNat n.natAbs).length ≤ IntegerText.decimalLimit
  | .float _ => False
  | .text t => t.WellFormed
  | .object members => (members.map (·.1)).Nodup ∧ ∀ m ∈ members, m.1.WellFormed
  | _ => True

instance : DecidablePred IsFactPart
  | .int _ => inferInstanceAs (Decidable (_ ≤ _))
  | .float _ => inferInstanceAs (Decidable False)
  | .text t => inferInstanceAs (Decidable t.WellFormed)
  | .object _ => inferInstanceAs (Decidable (_ ∧ _))
  | .null | .bool _ | .array _ => inferInstanceAs (Decidable True)

theorem fact_part_readable {v : Json.Value} (h : IsFactPart v) : v.IsReadable true := by
  cases v with
  | null | bool _ | array _ => trivial
  | int n => exact IntegerText.fits_iff_length.2 h
  | float x => cases h
  | text t => exact fun _ => h
  | object members => exact ⟨h.1, fun m hm _ => h.2 m hm⟩

/-- A value of such parts comes back after it was written. -/
theorem fact_returns {v : Json.Value} (h : v.All IsFactPart) : v.Returns true :=
  (Json.returns_iff v).2 fun part hpart => fact_part_readable (h part hpart)

theorem Fact.word_injective {fact other : Fact}
    (h : Text.ofString fact.word = Text.ofString other.word) : fact = other := by
  revert h
  cases fact <;> cases other <;> decide

theorem Fact.mem_all (fact : Fact) : fact ∈ Fact.all := by
  cases fact <;> decide

theorem mem_facts_of {fact : Fact} {value : Json.Value} {attached : List (Text × Json.Value)} :
    (fact, value) ∈ factsOf attached ↔ Json.Value.lookup? fact.word attached = some value := by
  simp [factsOf, List.mem_filterMap, Fact.mem_all]

/-- No fact is there twice. -/
theorem facts_of_nodup (attached : List (Text × Json.Value)) :
    ((factsOf attached).map (·.1)).Nodup := by
  have hfound : (factsOf attached).map (·.1) =
      Fact.all.filter fun fact => (Json.Value.lookup? fact.word attached).isSome := by
    rw [factsOf, List.map_filterMap, ← List.filterMap_eq_filter]
    refine congrArg (List.filterMap · Fact.all) (funext fun fact => ?_)
    cases hvalue : Json.Value.lookup? fact.word attached <;> simp [Option.guard, hvalue]
  rw [hfound]
  exact List.Nodup.filter _ (by decide)

/-! ## The members of a record -/

/-- The names in front of the facts. -/
def headNames : List Text :=
  ["timestamp", "level", "logger", "message"]

/-- The name of the failure. -/
def failureName : Text := "exception"

theorem word_not_head (fact : Fact) : Text.ofString fact.word ∉ headNames := by
  cases fact <;> decide

theorem word_not_failure (fact : Fact) : Text.ofString fact.word ≠ failureName := by
  cases fact <;> decide

theorem members_names (stamp message : Text) (record : Record) :
    (members stamp message record).map (·.1) =
      headNames ++ record.context.map (fun fact => Text.ofString fact.1.word) ++
        record.problem.toList.map fun _ => failureName := by
  simp [members, headNames, failureName, Function.comp_def]

/-- Neither a fact nor the failure takes the name of another member. -/
theorem members_distinct (stamp message : Text) {record : Record}
    (h : (record.context.map (·.1)).Nodup) : ((members stamp message record).map (·.1)).Nodup := by
  have hwords : (record.context.map fun fact => Text.ofString fact.1.word).Nodup := by
    have hmap := h.map (f := fun fact => Text.ofString fact.word) fun _ _ => Fact.word_injective
    rwa [List.map_map] at hmap
  have hproblem : (record.problem.toList.map fun _ => failureName).Nodup := by
    cases record.problem <;> simp
  rw [members_names, List.nodup_append', List.nodup_append']
  refine ⟨⟨by decide, hwords, ?_⟩, hproblem, ?_⟩
  · intro name hhead hword
    obtain ⟨fact, _, rfl⟩ := List.mem_map.1 hword
    exact word_not_head fact.1 hhead
  · intro name hbefore hfailure
    obtain ⟨_, _, rfl⟩ := List.mem_map.1 hfailure
    rcases List.mem_append.1 hbefore with hhead | hword
    · exact absurd hhead (by decide)
    · obtain ⟨fact, _, hfact⟩ := List.mem_map.1 hword
      exact word_not_failure fact.1 hfact

/-- Members stand in front of the facts, for facts, and for a failure. -/
theorem mem_members_names {stamp message : Text} {record : Record} {name : Text} :
    name ∈ (members stamp message record).map (·.1) ↔
      name ∈ headNames ∨ (∃ fact ∈ record.context, name = Text.ofString fact.1.word) ∨
        name = failureName ∧ record.problem.isSome = true := by
  rw [members_names, List.mem_append, List.mem_append, or_assoc]
  refine or_congr_right (or_congr ?_ ?_)
  · simp [eq_comm]
  · cases record.problem <;> simp

theorem members_names_well_formed {stamp message : Text} {record : Record} {m : Text × Json.Value}
    (h : m ∈ members stamp message record) : m.1.WellFormed := by
  rcases mem_members_names.1 (List.mem_map_of_mem h) with hhead | ⟨fact, _, hword⟩ | ⟨hfailure, _⟩
  · have hall : ∀ name ∈ headNames, Text.WellFormed name := by decide
    exact hall _ hhead
  · exact hword ▸ Text.well_formed_of_string _
  · exact hfailure ▸ Text.well_formed_of_string _

theorem fact_mem_members (stamp message : Text) {record : Record} {fact : Fact × Json.Value}
    (h : fact ∈ record.context) :
    (Text.ofString fact.1.word, fact.2) ∈ members stamp message record := by
  simp only [members, List.mem_append]
  exact .inl (.inr (List.mem_map_of_mem h))

/-- Where nothing is escaped every text comes back. -/
theorem text_comes_back (t : Text) : (Json.Value.text t).Returns false :=
  nofun

/-- A record whose facts come back comes back as an object, where nothing is escaped. -/
theorem members_come_back (stamp message : Text) {record : Record}
    (hnames : (record.context.map (·.1)).Nodup)
    (hfacts : ∀ fact ∈ record.context, fact.2.Returns true) :
    (Json.Value.object (members stamp message record)).Returns false := by
  refine ⟨members_distinct stamp message hnames,
    Json.members_return_iff.2 fun m hm => ⟨text_comes_back m.1, ?_⟩⟩
  simp only [members, List.mem_append, List.mem_cons, List.mem_map, List.not_mem_nil, or_false] at hm
  -- All members but the facts are texts.
  rcases hm with ((rfl | rfl | rfl | rfl) | ⟨fact, hfact, rfl⟩) | ⟨_, _, rfl⟩
  case inl.inr => exact (hfacts fact hfact).any_layout
  all_goals exact text_comes_back _

/-! ## What is read from a line -/

/-- Whether the members of an object tell a record with some values attached: what it is about, those of
the values that are facts, and nothing else. The pairs of surrogates in the name of the logger and in the
text of the failure are joined. -/
structure Tells (object : List (Text × Json.Value)) (record : Record)
    (attached : List (Text × Json.Value)) : Prop where
  distinct : (object.map (·.1)).Nodup
  timestamp : Json.Value.lookup? "timestamp" object =
    (Calendar.stamp? "T" record.time).map Json.Value.text
  level : Json.Value.lookup? "level" object = some (.text (levelText record.level))
  logger : Json.Value.lookup? "logger" object = some (.text (Json.joined record.logger))
  message : Json.Value.lookup? "message" object = record.message.text?.map Json.Value.text
  facts : ∀ fact : Fact, Json.Value.lookup? fact.word object = Json.Value.lookup? fact.word attached
  failure : Json.Value.lookup? failureName object =
    record.problem.map fun problem => .text (Json.joined problem.text)
  known : ∀ name ∈ object.map (·.1),
    name ∈ headNames ∨ name = failureName ∨ ∃ fact : Fact, name = Text.ofString fact.word

theorem well_formed_two_digits (n : Nat) : (Calendar.twoDigits n).WellFormed := by
  refine Text.well_formed_append.2 ⟨fun c hc => ?_, Text.well_formed_of_nat n⟩
  rw [List.eq_of_mem_replicate hc]
  rfl

theorem stamp_is_some_iff {separator : Text} {seconds : Int} :
    (Calendar.stamp? separator seconds).isSome = true ↔ Calendar.IsShown seconds := by
  simp [Calendar.stamp?]

theorem well_formed_stamp {separator stamp : Text} {seconds : Int} (hseparator : separator.WellFormed)
    (h : Calendar.stamp? separator seconds = some stamp) : stamp.WellFormed := by
  unfold Calendar.stamp? at h
  split at h
  · cases h
    simp [Text.joinWith, well_formed_two_digits, hseparator]
  · cases h

theorem well_formed_level_text (level : Int) : (levelText level).WellFormed := by
  unfold levelText
  split
  · exact Text.well_formed_of_string _
  · exact Text.well_formed_string_append.2 (Text.well_formed_of_int level)

section

variable {stamp message : Text} {record : Record}

/-- Joining pairs changes no name of a record. -/
theorem joined_members_names :
    (Json.joinedMembers (members stamp message record)).map (·.1) =
      (members stamp message record).map (·.1) := by
  rw [Json.joined_members_eq, List.map_map]
  exact List.map_congr_left fun m hm => Json.joined_of_well_formed (members_names_well_formed hm)

theorem lookup_joined {name : Text} {value : Json.Value}
    (hnames : (record.context.map (·.1)).Nodup) (h : (name, value) ∈ members stamp message record) :
    Json.Value.lookup? name (Json.joinedMembers (members stamp message record)) = some value.joined := by
  refine Json.Value.lookup_of_mem ?_ ?_
  · rw [joined_members_names]
    exact members_distinct stamp message hnames
  · rw [Json.joined_members_eq, List.mem_map]
    exact ⟨_, h, Prod.ext (Json.joined_of_well_formed (members_names_well_formed h)) rfl⟩

theorem lookup_joined_none {name : Text} (h : name ∉ (members stamp message record).map (·.1)) :
    Json.Value.lookup? name (Json.joinedMembers (members stamp message record)) = none := by
  refine Json.Value.lookup_eq_none ?_
  rwa [joined_members_names]

/-- What is read from the line of a record tells the record. -/
theorem tells_joined {attached : List (Text × Json.Value)}
    (hstamp : Calendar.stamp? "T" record.time = some stamp)
    (hfill : record.message.text? = some message) (hmessage : message.WellFormed)
    (hattached : record.context = factsOf attached)
    (hfacts : ∀ fact ∈ record.context, fact.2.Returns true) :
    Tells (Json.joinedMembers (members stamp message record)) record attached := by
  have hnames : (record.context.map (·.1)).Nodup := hattached ▸ facts_of_nodup attached
  have hlookup : ∀ (name : Text) (value : Json.Value),
      (name, value) ∈ members stamp message record → _ := fun _ _ h => lookup_joined hnames h
  constructor
  case distinct =>
    rw [joined_members_names]
    exact members_distinct stamp message hnames
  case timestamp =>
    rw [hlookup "timestamp" (.text stamp) (by simp [members]), hstamp, Json.Value.joined,
      Json.joined_of_well_formed (well_formed_stamp (by decide) hstamp)]
    rfl
  case level =>
    rw [hlookup "level" (.text (levelText record.level)) (by simp [members]), Json.Value.joined,
      Json.joined_of_well_formed (well_formed_level_text record.level)]
  case logger =>
    rw [hlookup "logger" (.text record.logger) (by simp [members]), Json.Value.joined]
  case message =>
    rw [hlookup "message" (.text message) (by simp [members]), Json.Value.joined,
      Json.joined_of_well_formed hmessage, hfill]
    rfl
  -- A fact is looked up by its word, and no other member has that name.
  case facts =>
    intro fact
    cases hvalue : Json.Value.lookup? fact.word attached with
    | none =>
        refine lookup_joined_none fun hmem => ?_
        rcases mem_members_names.1 hmem with hhead | ⟨other, hother, hword⟩ | ⟨hfailure, _⟩
        · exact word_not_head fact hhead
        · obtain rfl := Fact.word_injective hword
          rw [hattached] at hother
          exact absurd (mem_facts_of.1 hother) (by simp [hvalue])
        · exact word_not_failure fact hfailure
    | some value =>
        have hfact : (fact, value) ∈ record.context := hattached ▸ mem_facts_of.2 hvalue
        rw [hlookup _ _ (fact_mem_members stamp message hfact), (hfacts _ hfact).joined_eq]
  case failure =>
    cases hproblem : record.problem with
    | none =>
        refine lookup_joined_none fun hmem => ?_
        rcases mem_members_names.1 hmem with hhead | ⟨other, _, hword⟩ | ⟨_, hsome⟩
        · exact absurd hhead (by decide)
        · exact word_not_failure other.1 hword.symm
        · rw [hproblem] at hsome
          cases hsome
    | some problem =>
        rw [hlookup failureName (.text problem.text) (by simp [members, hproblem, failureName]),
          Json.Value.joined]
        rfl
  case known =>
    intro name hname
    rw [joined_members_names] at hname
    rcases mem_members_names.1 hname with hhead | ⟨fact, _, hword⟩ | ⟨hfailure, _⟩
    · exact .inl hhead
    · exact .inr (.inr ⟨fact.1, hword⟩)
    · exact .inr (.inl hfailure)

/-- A record that the calendar shows and whose message can be filled is written, and what is read are its
members with the pairs of surrogates joined. -/
theorem json_line_read (hstamp : Calendar.stamp? "T" record.time = some stamp)
    (hfill : record.message.text? = some message) (hnames : (record.context.map (·.1)).Nodup)
    (hfacts : ∀ fact ∈ record.context, fact.2.Returns true) :
    ∃ line, jsonLine? record = some line ∧ (∀ c ∈ line, Json.IsPrintable c) ∧
      Json.read .plain line =
        .ok (.object (Json.joinedMembers (members stamp message record))) := by
  have hreturns := members_come_back stamp message hnames hfacts
  refine ⟨_, ?_, hreturns.printable_write 0, ?_⟩
  · rw [jsonLine?, hstamp, hfill]
    exact if_pos hreturns.is_writable
  · rw [Json.read_joined hreturns, Json.Value.joined, Json.last_wins_of_nodup]
    rw [joined_members_names]
    exact members_distinct stamp message hnames

theorem json_line_none (h : Calendar.stamp? "T" record.time = none ∨ record.message.text? = none) :
    jsonLine? record = none := by
  rw [jsonLine?]
  rcases h with hstamp | hfill
  · rw [hstamp]
    rfl
  · rw [hfill]
    cases Calendar.stamp? "T" record.time <;> rfl

end

/-- A record whose message and facts hold no surrogates, and whose facts hold no integers that are too
long, is written as JSON exactly if its message can be filled and the calendar shows its time. The line
is printable ASCII, and what is read from it tells the record. Its logger is read as it is unless two
surrogates of a pair stand next to each other in its name. -/
theorem json_line_tells (record : Record) (attached : List (Text × Json.Value))
    (hattached : record.context = factsOf attached)
    (hmessage : ∀ message, record.message.text? = some message → message.WellFormed)
    (hfacts : ∀ (fact : Fact) (value : Json.Value),
      Json.Value.lookup? fact.word attached = some value → value.All IsFactPart) :
    ((jsonLine? record).isSome = true ↔
      record.message.text?.isSome = true ∧ Calendar.IsShown record.time) ∧
      ∀ line, jsonLine? record = some line → (∀ c ∈ line, Json.IsPrintable c) ∧
        ∃ object, Json.read .plain line = .ok (.object object) ∧ Tells object record attached ∧
          (Json.Value.lookup? "logger" object = some (.text record.logger) ↔
            Json.PairFree record.logger) := by
  have hshown : (Calendar.stamp? "T" record.time).isSome = true ↔ _ := stamp_is_some_iff
  rw [← hshown]
  cases hstamp : Calendar.stamp? "T" record.time with
  | none =>
      rw [json_line_none (.inl hstamp)]
      exact ⟨by simp, nofun⟩
  | some stamp =>
      cases hfill : record.message.text? with
      | none =>
          rw [json_line_none (.inr hfill)]
          exact ⟨by simp, nofun⟩
      | some message =>
          -- Facts are what was attached under their words, so they come back as they are.
          have hreturns : ∀ fact ∈ record.context, fact.2.Returns true := by
            rintro ⟨fact, value⟩ hfact
            rw [hattached] at hfact
            exact fact_returns (hfacts fact value (mem_facts_of.1 hfact))
          obtain ⟨line, hline, hprintable, hread⟩ :=
            json_line_read hstamp hfill (hattached ▸ facts_of_nodup attached) hreturns
          have htells := tells_joined hstamp hfill (hmessage message hfill) hattached hreturns
          rw [hline]
          refine ⟨by simp, ?_⟩
          rintro _ ⟨⟩
          refine ⟨hprintable, _, hread, htells, ?_⟩
          rw [htells.logger, ← Json.joined_eq_iff]
          simp

/-- A template with a place in it, nested maps, characters of every kind, a surrogate in the name of the
logger and a pair of them in the text of a failure; what is no fact is left out. -/
theorem json_line_tells_nested :
    let attached : List (Text × Json.Value) :=
      [("program", .text "Vault \"\\\u0001\n😀"), ("level", .int 3),
        ("catalogs", .object [("types", .int (-12)), ("näme", .object [("", .text "\u007f")])])]
    let record : Record := ⟨25, Text.ofString "arch_idl." ++ [.surrogate 0x600, .surrogate 0x3D],
      ⟨"Ωmega\r: %d", [.int 7]⟩, factsOf attached,
      some ⟨"ValueError", [.surrogate 0x3D, .surrogate 0x600]⟩, 1700000000⟩
    ∃ line object, jsonLine? record = some line ∧ Json.read .plain line = .ok (.object object) ∧
      Tells object record attached ∧ record.message.text? = some (Text.ofString "Ωmega\r: 7") ∧
      Json.Value.lookup? "logger" object = some (.text record.logger) := by
  intro attached record
  have hfacts : ∀ (fact : Fact) (value : Json.Value),
      Json.Value.lookup? fact.word attached = some value → value.All IsFactPart := by
    have hall : ∀ m ∈ attached, ∀ part ∈ m.2.parts, IsFactPart part := by decide
    exact fun fact value hvalue => hall _ (Json.Value.mem_of_lookup hvalue)
  have hfill : record.message.text? = some (Text.ofString "Ωmega\r: 7") := by
    decide +kernel
  have hmessage : ∀ message, record.message.text? = some message → message.WellFormed := by
    intro message hsome
    rw [← Option.some.inj (hfill.symm.trans hsome)]
    exact Text.well_formed_of_string _
  obtain ⟨hsome, hlines⟩ := json_line_tells record attached rfl hmessage hfacts
  obtain ⟨line, hline⟩ := Option.isSome_iff_exists.1 (hsome.2 ⟨by rw [hfill]; rfl, by decide⟩)
  obtain ⟨_, object, hread, htells, hlogger⟩ := hlines line hline
  exact ⟨line, object, hline, hread, htells, hfill, hlogger.2 (by decide)⟩

/-- A record whose time the calendar does not show has no line, and a pair of surrogates in the name of a
logger is read as the one code point that it stands for. -/
theorem far_time_and_paired_logger :
    let far : Record := ⟨20, "arch_idl.x", Text.ofString "m", [], none, 100000000000000000⟩
    let paired : Record := ⟨20, [.surrogate 0x3D, .surrogate 0x600], Text.ofString "m", [], none, 0⟩
    jsonLine? far = none ∧ ∃ line object, jsonLine? paired = some line ∧
      Json.read .plain line = .ok (.object object) ∧
      Json.Value.lookup? "logger" object = some (.text [.scalar '😀']) := by
  intro far paired
  have hstamp : Calendar.stamp? "T" paired.time = some (Text.ofString "1970-01-01T00:00:00") := by
    decide
  have hfill : paired.message.text? = some (Text.ofString "m") := rfl
  have hnames : (paired.context.map (·.1)).Nodup := .nil
  obtain ⟨line, hline, _, hread⟩ := json_line_read hstamp hfill hnames nofun
  have hjoined : (Json.Value.text paired.logger).joined = .text [.scalar '😀'] :=
    congrArg Json.Value.text (by decide)
  exact ⟨by decide, line, _, hline, hread,
    (lookup_joined hnames (by simp [members])).trans (congrArg some hjoined)⟩

end Log

end ProgramInterface
