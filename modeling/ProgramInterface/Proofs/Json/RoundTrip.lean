import ProgramInterface.Proofs.Json.Reading
import ProgramInterface.Proofs.Json.Text

/-!
# Reading written values

A value that was written is read back as itself, in either dialect and under every layout
(`read_write`), if the dialect admits its nesting. It must hold no floating-point numbers, no member
name twice in one object, no integer that is too long, and, where code points beyond ASCII are
escaped, no surrogate.
-/

namespace ProgramInterface

namespace Json

mutual

/-- Whether a value is read back after it was written, its nesting aside. -/
def Value.Returns (asciiOnly : Bool) : Value → Prop
  | .null => True
  | .bool _ => True
  | .int n => IntegerText.fits n = true
  | .float _ => False
  | .text t => asciiOnly = true → t.WellFormed
  | .array items => ItemsReturn asciiOnly items
  | .object members =>
    (members.map (·.1)).Nodup ∧ MembersReturn asciiOnly members

/-- Whether some values are read back after they were written. -/
def ItemsReturn (asciiOnly : Bool) : List Value → Prop
  | [] => True
  | item :: rest => item.Returns asciiOnly ∧ ItemsReturn asciiOnly rest

/-- Whether some members are read back after they were written. -/
def MembersReturn (asciiOnly : Bool) : List (Text × Value) → Prop
  | [] => True
  | (name, value) :: rest =>
    ((asciiOnly = true → name.WellFormed) ∧ value.Returns asciiOnly) ∧
      MembersReturn asciiOnly rest

end

variable {dialect : Dialect} {layout : Layout} {depth fuel : Nat}

/-! ## Scalars -/

theorem of_int_starts (n : Int) : ∃ c t, Text.ofInt n = c :: t ∧ startsValue c = true := by
  cases n with
  | ofNat n =>
      obtain ⟨c, t, hn⟩ := List.exists_cons_of_ne_nil (Text.of_nat_ne_nil n)
      exact ⟨c, t, hn, starts_value_of_digit (is_digit_of_mem (n := n) (by simp [hn]))⟩
  | negSucc n => exact ⟨_, _, rfl, by decide⟩

theorem read_value_digit {c : CodePoint} {t : Text} (hadmits : dialect.admits depth = true)
    (h : isDigit c = true ∨ c = .scalar '-') :
    readValue dialect depth (fuel + 1) (c :: t) = readScalar dialect (c :: t) := by
  rw [readValue, if_pos hadmits]
  all_goals
    rintro tail ⟨⟩
    rcases h with h | h <;> cases h

theorem read_value_null (hadmits : dialect.admits depth = true) (rest : Text) :
    readValue dialect depth (fuel + 1) (Text.ofString "null" ++ rest) = .ok (.null, rest) := by
  have hword : Text.ofString "null" = Text.ofChars ['n', 'u', 'l', 'l'] := by decide
  rw [hword]
  exact if_pos hadmits

theorem read_value_bool (b : Bool) (hadmits : dialect.admits depth = true) (rest : Text) :
    readValue dialect depth (fuel + 1)
      ((if b then Text.ofString "true" else Text.ofString "false") ++ rest) =
        .ok (.bool b, rest) := by
  have htrue : Text.ofString "true" = Text.ofChars ['t', 'r', 'u', 'e'] := by decide
  have hfalse : Text.ofString "false" = Text.ofChars ['f', 'a', 'l', 's', 'e'] := by decide
  cases b with
  | true =>
      rw [if_pos rfl, htrue]
      exact if_pos hadmits
  | false =>
      rw [if_neg Bool.false_ne_true, hfalse]
      exact if_pos hadmits

theorem read_value_int {n : Int} {rest : Text} (hadmits : dialect.admits depth = true)
    (hrest : EndsNumber rest) (hn : IntegerText.fits n = true) :
    readValue dialect depth (fuel + 1) (Text.ofInt n ++ rest) = .ok (.int n, rest) := by
  rw [← read_scalar_of_int hrest hn]
  cases n with
  | ofNat n =>
      obtain ⟨c, t, hc⟩ := List.exists_cons_of_ne_nil (Text.of_nat_ne_nil n)
      have hdigit : isDigit c = true := is_digit_of_mem (n := n) (by simp [hc])
      show readValue dialect depth (fuel + 1) (Text.ofNat n ++ rest) =
        readScalar dialect (Text.ofNat n ++ rest)
      rw [hc]
      exact read_value_digit hadmits (.inl hdigit)
  | negSucc n => exact read_value_digit hadmits (.inr rfl)

theorem reads_string_write {asciiOnly : Bool} {t : Text} (ht : asciiOnly = true → t.WellFormed) :
    ReadsString dialect (writeText asciiOnly t) t :=
  ⟨⟨_, rfl⟩, read_string_write dialect ht⟩

/-! ## Values -/

theorem write_members_cons (layout : Layout) (level : Nat) (name : Text) (value : Value)
    (members : List (Text × Value)) :
    writeMembers layout level ((name, value) :: members) =
      (writeText layout.asciiOnly name ++
        (.scalar ':' :: .scalar ' ' :: value.write layout level)) ::
        writeMembers layout level members := by
  have hcolon : Text.ofString ": " = [.scalar ':', .scalar ' '] := by decide
  show (writeText layout.asciiOnly name ++ Text.ofString ": " ++ value.write layout level) :: _ = _
  rw [hcolon, List.append_assoc]
  rfl

/-- A text is read as a scalar if it is so at each depth and with any fuel at all. -/
theorem reads_as_of_fuel {t : Text} {value : Value}
    (hstarts : ∃ c tail, t = c :: tail ∧ startsValue c = true)
    (h : ∀ {depth fuel rest}, dialect.admits depth = true → EndsNumber rest →
      readValue dialect depth (fuel + 1) (t ++ rest) = .ok (value, rest)) :
    ReadsAs dialect t value := by
  refine ⟨hstarts, fun {rest depth fuel} hadmits hrest hfuel => ?_⟩
  obtain ⟨c, tail, rfl, _⟩ := hstarts
  obtain ⟨fuel, rfl⟩ : ∃ n, fuel = n + 1 := ⟨fuel - 1, by rw [List.length_cons] at hfuel; omega⟩
  exact h (Dialect.admits_of_le hadmits (Nat.le_add_right _ _)) hrest

mutual

/-- A value that was written is read back. -/
theorem Value.Returns.reads_as (level : Nat) : {v : Value} → v.Returns layout.asciiOnly →
    ReadsAs dialect (v.write layout level) v
  | .null, _ => reads_as_of_fuel ⟨_, _, rfl, by decide⟩
      fun hadmits _ => read_value_null hadmits _
  | .bool b, _ => reads_as_of_fuel (by cases b <;> exact ⟨_, _, rfl, by decide⟩)
      fun hadmits _ => read_value_bool b hadmits _
  | .int n, hn => reads_as_of_fuel (by rw [Value.write]; exact of_int_starts n)
      fun hadmits hrest => read_value_int hadmits hrest hn
  | .text _, ht => (reads_string_write ht).reads_as
  | .array _, h => reads_as_array (items_return_read (level + 1) h) layout level
  | .object members, h => by
      have hobject := reads_as_object (members_return_read (level + 1) h.2) layout level
      rw [last_wins_of_nodup h.1, ite_self] at hobject
      exact hobject

theorem items_return_read (level : Nat) : {items : List Value} →
    ItemsReturn layout.asciiOnly items →
      List.Forall₂ (ReadsAs dialect) (writeItems layout level items) items
  | [], _ => .nil
  | _ :: _, h => .cons (h.1.reads_as level) (items_return_read level h.2)

theorem members_return_read (level : Nat) : {members : List (Text × Value)} →
    MembersReturn layout.asciiOnly members →
      List.Forall₂ (ReadsMember dialect) (writeMembers layout level members) members
  | [], _ => .nil
  | (name, value) :: members, h => by
      rw [write_members_cons]
      exact .cons (.mk (reads_string_write h.1.1) (h.1.2.reads_as level))
        (members_return_read level h.2)

end

/-- A value that was written is read back. -/
theorem read_write {v : Value} (h : v.Returns layout.asciiOnly)
    (hadmits : dialect.admits v.nesting = true) (level : Nat) :
    read dialect (v.write layout level) = .ok v :=
  (h.reads_as level).read_whole hadmits

end Json

end ProgramInterface
