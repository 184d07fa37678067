import ProgramInterface.Schema.Scalar

/-!
# Checking values against schemas

A schema is a value itself. Checking goes through a value part by part, collects the faults of all
parts in order, and gives the value in its normal form: with coerced scalars, the members of records
under the names they are written with, and without members that are null. The schema of types is the
only one that contains itself; it is checked by recursion on the value, and in a value that came as an
object only to a bounded depth.
-/

namespace ProgramInterface

namespace Schema

/-- The results of some parts put together: all values, or all faults. -/
def gather {α : Type} : List (Except (List Fault) α) → Except (List Fault) (List α)
  | [] => .ok []
  | first :: rest =>
    match first, gather rest with
    | .ok a, .ok others => .ok (a :: others)
    | .ok _, .error faults => .error faults
    | .error faults, .ok _ => .error faults
    | .error faults, .error others => .error (faults ++ others)

/-- The result of a part seen from the value that holds it. -/
def under {α : Type} (step : Step) (result : Except (List Fault) α) : Except (List Fault) α :=
  result.mapError (·.map (Fault.under step))

/-- The results of the items of a list, each under its position. -/
def underIndices (results : List Checked) : List Checked :=
  results.zipIdx.map fun (result, index) => under (.index index) result

/-- The faults of the members whose names are not among those used. -/
def surplusFaults (used : List Text) (members : List (Text × Json.Value)) : List Fault :=
  (members.filter fun m => !used.contains m.1).map fun m => ⟨[.key m.1], .surplus⟩

/-- The values of some checked members as a record, unless there are faults in them or surplus
members. -/
def assemble (used : List Text) (members : List (Text × Json.Value))
    (results : List (Except (List Fault) (List (Text × Json.Value)))) : Checked :=
  match gather results, surplusFaults used members with
  | .ok parts, [] => .ok (.object parts.flatten)
  | .ok _, surplus => .error surplus
  | .error faults, surplus => .error (faults ++ surplus)

/-! ## Types -/

theorem sizeOf_lt_of_lookup? {name : Text} {members : List (Text × Json.Value)} {value : Json.Value}
    (h : Json.Value.lookup? name members = some value) : sizeOf value < sizeOf members := by
  induction members with
  | nil => simp [Json.Value.lookup?] at h
  | cons member rest ih =>
    obtain ⟨key, inner⟩ := member
    simp only [Json.Value.lookup?] at h
    split at h
    · have := ih (by simp_all)
      simp only [List.cons.sizeOf_spec]
      omega
    · split at h
      · simp only [Option.some.injEq] at h
        subst h
        simp only [List.cons.sizeOf_spec, Prod.mk.sizeOf_spec]
        omega
      · simp at h

/-- A record whose one member is written under a name and was found under another or the same. -/
def single (wire found : Text) (members : List (Text × Json.Value)) (result : Option Checked) :
    Checked :=
  match result with
  | none => assemble [] members [.error [⟨[.key wire], .missing⟩]]
  | some checked =>
    assemble [found] members [(under (.key found) checked).map fun value => [(wire, value)]]

/-- The first alternative that fits, or the faults of all, each under the name of its
alternative. -/
def firstOf (faults : List Fault) : List (String × Checked) → Checked
  | [] => .error faults
  | (name, result) :: rest =>
    match under (.key name) result with
    | .ok value => .ok value
    | .error more => firstOf (faults ++ more) rest

/-- The names of the forms that a type can have as a record. -/
def typeForms : List String :=
  ["IdlVec", "IdlTuple", "IdlOption", "IdlDefined"]

/-- The fault of a value that is no text, under the name of that alternative. -/
def notTextFault : Fault :=
  ⟨[.key "str"], .notText⟩

/-- The first of some names that a member has. -/
def foundName? (names : List Text) (members : List (Text × Json.Value)) : Option Text :=
  names.find? fun name => (Json.Value.lookup? name members).isSome

/-- The greatest number of fields and types, each in the one before it, that are checked in a value
that came as an object. -/
def nestingLimit : Nat :=
  255

/-- Whether a field or type is checked that is the last of a number of them, each in the one before
it. -/
def Origin.admits (origin : Origin) (depth : Nat) : Bool :=
  match origin with
  | .text => true
  | .object => depth ≤ nestingLimit

/-- The result for a value that is no text and fits none of the forms, each for a cause. -/
def refuseForms (cause : String → Cause) : Checked :=
  firstOf [notTextFault] (typeForms.map fun form => (form, reject (cause form)))

/-- A type: a text, or a record of one of four forms. `depth` is the number of fields and types around
the value. -/
def checkType (origin : Origin) (depth : Nat) (value : Json.Value) : Checked :=
  match value with
  | .text _ => .ok value
  | .object members =>
    if origin.admits (depth + 1) then
      let vector : Checked := single "vec" "vec" members <|
        match h : Json.Value.lookup? "vec" members with
        | none => none
        | some inner =>
          have := sizeOf_lt_of_lookup? h
          some (checkType origin (depth + 1) inner)
      let found? := foundName? ["tuple", "items"] members
      let tuple : Checked := single "tuple" (found?.getD []) members <|
        match found? with
        | none => none
        | some found =>
          match h : Json.Value.lookup? found members with
          | none => none
          | some (.array items) =>
            have := sizeOf_lt_of_lookup? h
            some <| (gather <| underIndices <| items.attach.map fun ⟨item, hitem⟩ =>
              have := List.sizeOf_lt_of_mem hitem
              checkType origin (depth + 1) item).map .array
          | some _ => some (reject .notList)
      let option : Checked := single "option" "option" members <|
        match h : Json.Value.lookup? "option" members with
        | none => none
        | some inner =>
          have := sizeOf_lt_of_lookup? h
          some (checkType origin (depth + 1) inner)
      let defined : Checked := single "defined" "defined" members <|
        (Json.Value.lookup? "defined" members).map (checkText 1 none)
      firstOf [notTextFault] (typeForms.zip [vector, tuple, option, defined])
    else refuseForms fun _ => .nesting
  | _ => refuseForms fun form => if origin.admits (depth + 1) then .notRecord form else .nesting
termination_by sizeOf value
decreasing_by all_goals simp_wf; first | omega | (simp_all; omega)

/-! ## Schemas -/

/-- How a member of a record is found: by the name it is written with, or else by another one; an
optional member may be left out. -/
structure Naming where
  wire : Text
  other : Option Text
  isOptional : Bool

/-- What a record lacks if its first member is a word: the member that must then be there, and the
rule that says so. -/
structure Need where
  word : Text
  member : Text
  rule : String

end Schema

/-- What a value must look like. -/
inductive Schema where
  | text (least : Nat)
  | integer
  | truth
  | word (choices : List String)
  | type
  | list (item : Schema)
  | nullable (inner : Schema)
  | record (name : String) (members : List (Schema.Naming × Schema)) (needs : List Schema.Need)

namespace Schema

/-- The name that a member of a record is found by. -/
def Naming.found? (naming : Naming) (members : List (Text × Json.Value)) : Option Text :=
  foundName? (naming.wire :: naming.other.toList) members

/-- The part of a record that a checked member becomes: none, if it is null. -/
def partOf (wire : Text) (value : Json.Value) : List (Text × Json.Value) :=
  match value with
  | .null => []
  | value => [(wire, value)]

/-- The rules that the members of a record break. -/
def brokenRules (needs : List Need) (parts : List (Text × Json.Value)) : List Fault :=
  needs.filterMap fun need =>
    match parts with
    | (_, .text kind) :: _ =>
      if kind = need.word ∧ !(parts.any fun p => p.1 == need.member) then
        some (.ofCause (.rule need.rule))
      else none
    | _ => none

/-- A record that breaks none of its rules. -/
def obey (needs : List Need) (record : Json.Value) : Checked :=
  match record with
  | .object parts =>
    match brokenRules needs parts with
    | [] => .ok record
    | faults => .error faults
  | _ => .ok record

mutual

/-- The normal form of a value that fits a schema, or its faults. A type has one field around it. -/
def check (origin : Origin) : Schema → Json.Value → Checked
  | text least, value => checkText least none value
  | integer, value => checkInteger value
  | truth, value => checkTruth value
  | word choices, value => checkWord choices value
  | type, value => checkType origin 1 value
  | list item, .array items => (gather (underIndices (items.map (check origin item)))).map .array
  | list _, _ => reject .notList
  | nullable _, .null => .ok .null
  | nullable inner, value => check origin inner value
  | record _ namings needs, .object members => do
    let used := namings.filterMap fun naming => naming.1.found? members
    obey needs (← assemble used members (checkMembers origin namings members))
  | record name _ _, _ => reject (.notRecord name)

/-- The members of a record, each in its normal form. -/
def checkMembers (origin : Origin) : List (Naming × Schema) → List (Text × Json.Value) →
    List (Except (List Fault) (List (Text × Json.Value)))
  | [], _ => []
  | (naming, schema) :: rest, members =>
    let result : Except (List Fault) (List (Text × Json.Value)) :=
      match naming.found? members with
      | none =>
        if naming.isOptional then .ok [] else .error [⟨[.key naming.wire], .missing⟩]
      | some found =>
        match Json.Value.lookup? found members with
        | none => .ok []
        | some value =>
          (under (.key found) (check origin schema value)).map (partOf naming.wire)
    result :: checkMembers origin rest members

end

end Schema

end ProgramInterface
