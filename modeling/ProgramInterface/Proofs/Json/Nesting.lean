import ProgramInterface.Json.Reader
import Mathlib.Data.List.Basic

/-!
# Nesting

How many arrays and objects lie around what a value holds (`Value.nesting`). An array or object
without parts adds nothing, since nothing lies in it. The strict dialect reads a value only if it is
not nested beyond a limit (`Dialect.admits`).
-/

namespace ProgramInterface

namespace Json

mutual

/-- The greatest number of arrays and objects around a part of a value, the value included. -/
def Value.nesting : Value → Nat
  | .array items => itemsNesting items
  | .object members => membersNesting members
  | _ => 0

/-- The greatest number of arrays and objects around a part of some items, with the array that holds
them. -/
def itemsNesting : List Value → Nat
  | [] => 0
  | item :: rest => max (item.nesting + 1) (itemsNesting rest)

/-- The greatest number of arrays and objects around a part of some members, with the object that
holds them. -/
def membersNesting : List (Text × Value) → Nat
  | [] => 0
  | (_, value) :: rest => max (value.nesting + 1) (membersNesting rest)

end

variable {n : Nat}

theorem nesting_array_le_iff {items : List Value} :
    (Value.array items).nesting ≤ n ↔ ∀ item ∈ items, item.nesting + 1 ≤ n := by
  rw [Value.nesting]
  induction items with
  | nil => simp [itemsNesting]
  | cons item rest ih => rw [itemsNesting, Nat.max_le, List.forall_mem_cons, ih]

theorem nesting_object_le_iff {members : List (Text × Value)} :
    (Value.object members).nesting ≤ n ↔ ∀ m ∈ members, m.2.nesting + 1 ≤ n := by
  rw [Value.nesting]
  induction members with
  | nil => simp [membersNesting]
  | cons member rest ih => rw [membersNesting, Nat.max_le, List.forall_mem_cons, ih]

theorem nesting_item_lt {items : List Value} {item : Value} (h : item ∈ items) :
    item.nesting < (Value.array items).nesting :=
  nesting_array_le_iff.1 (Nat.le_refl _) item h

theorem nesting_member_lt {members : List (Text × Value)} {m : Text × Value} (h : m ∈ members) :
    m.2.nesting < (Value.object members).nesting :=
  nesting_object_le_iff.1 (Nat.le_refl _) m h

theorem nesting_record_lt {members : List (String × Value)} {name : String} {value : Value}
    (h : (name, value) ∈ members) : value.nesting < (Value.record members).nesting := by
  have hmember : (Text.ofString name, value) ∈
      members.map fun member => (Text.ofString member.1, member.2) := List.mem_map_of_mem h
  exact nesting_member_lt hmember

/-! ## What a dialect admits -/

variable {dialect : Dialect} {depth height : Nat}

theorem admits_plain (depth : Nat) : Dialect.plain.admits depth = true :=
  rfl

theorem admits_strict_iff : Dialect.strict.admits depth = true ↔ depth ≤ nestingLimit :=
  decide_eq_true_iff

/-- A dialect that reads a value at some depth reads it less deep, too. -/
theorem Dialect.admits_of_le (h : dialect.admits depth = true) (hle : height ≤ depth) :
    dialect.admits height = true := by
  cases dialect with
  | plain => rfl
  | strict => exact admits_strict_iff.2 (Nat.le_trans hle (admits_strict_iff.1 h))

/-- Where an array is admitted its items are, one deeper. -/
theorem Dialect.admits_item {items : List Value} {item : Value}
    (h : dialect.admits (depth + (Value.array items).nesting) = true) (hitem : item ∈ items) :
    dialect.admits (depth + 1 + item.nesting) = true := by
  have hlt := nesting_item_lt hitem
  exact admits_of_le h (by omega)

/-- Where an object is admitted its members are, one deeper. -/
theorem Dialect.admits_member {members : List (Text × Value)} {m : Text × Value}
    (h : dialect.admits (depth + (Value.object members).nesting) = true) (hm : m ∈ members) :
    dialect.admits (depth + 1 + m.2.nesting) = true := by
  have hlt := nesting_member_lt hm
  exact admits_of_le h (by omega)

end Json

end ProgramInterface
