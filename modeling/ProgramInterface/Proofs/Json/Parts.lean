import Mathlib.Logic.Basic
import ProgramInterface.Proofs.Json.Value

/-!
# Parts of values

The parts of a value are the value itself and all that its arrays and objects hold. Whether a value
comes back after it was written is told by its parts one by one (`returns_iff`).
-/

namespace ProgramInterface

namespace Json

mutual

/-- A value and all values in it. -/
def Value.parts : Value → List Value
  | .array items => .array items :: itemParts items
  | .object members => .object members :: memberParts members
  | value => [value]

/-- All values in some items. -/
def itemParts : List Value → List Value
  | [] => []
  | item :: rest => item.parts ++ itemParts rest

/-- All values in some members. -/
def memberParts : List (Text × Value) → List Value
  | [] => []
  | (_, value) :: rest => value.parts ++ memberParts rest

end

/-- Whether every part of a value satisfies a condition. -/
def Value.All (p : Value → Prop) (v : Value) : Prop :=
  ∀ part ∈ v.parts, p part

variable {part v : Value} {p : Value → Prop}

theorem mem_item_parts {items : List Value} :
    part ∈ itemParts items ↔ ∃ item ∈ items, part ∈ item.parts := by
  induction items with
  | nil => simp [itemParts]
  | cons item rest ih => simp [itemParts, ih]

theorem mem_member_parts {members : List (Text × Value)} :
    part ∈ memberParts members ↔ ∃ m ∈ members, part ∈ m.2.parts := by
  induction members with
  | nil => simp [memberParts]
  | cons member rest ih => simp [memberParts, ih]

namespace Value

theorem mem_parts_self (v : Value) : v ∈ v.parts := by
  cases v <;> simp [parts]

theorem mem_parts_of_item {items : List Value} {item : Value} (h : item ∈ items)
    (hpart : part ∈ item.parts) : part ∈ (array items).parts :=
  List.mem_cons_of_mem _ (mem_item_parts.2 ⟨item, h, hpart⟩)

theorem mem_parts_of_member {members : List (Text × Value)} {m : Text × Value} (h : m ∈ members)
    (hpart : part ∈ m.2.parts) : part ∈ (object members).parts :=
  List.mem_cons_of_mem _ (mem_member_parts.2 ⟨m, h, hpart⟩)

mutual

/-- What is a part of a part is a part. -/
theorem parts_subset : {whole : Value} → {v : Value} → v ∈ whole.parts → v.parts ⊆ whole.parts
  | .null, _, h | .bool _, _, h | .int _, _, h | .float _, _, h | .text _, _, h => by
      cases List.mem_singleton.1 h
      exact List.Subset.refl _
  | .array items, v, h => by
      rcases List.mem_cons.1 h with rfl | hinner
      · exact List.Subset.refl _
      · exact fun x hx => List.mem_cons_of_mem _ (item_parts_subset hinner hx)
  | .object members, v, h => by
      rcases List.mem_cons.1 h with rfl | hinner
      · exact List.Subset.refl _
      · exact fun x hx => List.mem_cons_of_mem _ (member_parts_subset hinner hx)

theorem item_parts_subset : {items : List Value} → {v : Value} → v ∈ itemParts items →
    v.parts ⊆ itemParts items
  | item :: rest, v, h => by
      rcases List.mem_append.1 h with hfirst | hrest
      · exact fun x hx => List.mem_append_left _ (parts_subset hfirst hx)
      · exact fun x hx => List.mem_append_right _ (item_parts_subset hrest hx)

theorem member_parts_subset : {members : List (Text × Value)} → {v : Value} →
    v ∈ memberParts members → v.parts ⊆ memberParts members
  | (_, value) :: rest, v, h => by
      rcases List.mem_append.1 h with hfirst | hrest
      · exact fun x hx => List.mem_append_left _ (parts_subset hfirst hx)
      · exact fun x hx => List.mem_append_right _ (member_parts_subset hrest hx)

end

theorem mem_of_lookup {name : Text} {members : List (Text × Value)} {value : Value}
    (h : lookup? name members = some value) : (name, value) ∈ members := by
  induction members with
  | nil => cases h
  | cons member rest ih =>
      obtain ⟨key, first⟩ := member
      rw [lookup?] at h
      split at h
      · cases h
        exact List.mem_cons_of_mem _ (ih ‹_›)
      · split at h
        · cases h
          subst_vars
          exact List.mem_cons_self
        · cases h

/-- What a member holds is a part of the object. -/
theorem mem_parts_of_lookup {name : Text} {members : List (Text × Value)} {value : Value}
    (h : lookup? name members = some value) : value ∈ (object members).parts :=
  mem_parts_of_member (mem_of_lookup h) (mem_parts_self value)

theorem all_array {items : List Value} :
    (array items).All p ↔ p (array items) ∧ ∀ item ∈ items, item.All p := by
  constructor
  · intro h
    exact ⟨h _ (mem_parts_self _), fun item hitem part hpart => h part (mem_parts_of_item hitem hpart)⟩
  · rintro ⟨hself, hitems⟩ part hpart
    rcases List.mem_cons.1 hpart with rfl | hinner
    · exact hself
    · obtain ⟨item, hitem, hmem⟩ := mem_item_parts.1 hinner
      exact hitems item hitem part hmem

theorem all_object {members : List (Text × Value)} :
    (object members).All p ↔ p (object members) ∧ ∀ m ∈ members, m.2.All p := by
  constructor
  · intro h
    exact ⟨h _ (mem_parts_self _), fun m hm part hpart => h part (mem_parts_of_member hm hpart)⟩
  · rintro ⟨hself, hmembers⟩ part hpart
    rcases List.mem_cons.1 hpart with rfl | hinner
    · exact hself
    · obtain ⟨m, hm, hmem⟩ := mem_member_parts.1 hinner
      exact hmembers m hm part hmem

end Value

/-! ## Values that come back -/

variable {asciiOnly : Bool}

/-- Whether a value is read back after it was written, what it holds aside. -/
def Value.IsReadable (asciiOnly : Bool) : Value → Prop
  | .int n => IntegerText.fits n = true
  | .float _ => False
  | .text t => asciiOnly = true → t.WellFormed
  | .object members =>
    (members.map (·.1)).Nodup ∧ ∀ m ∈ members, asciiOnly = true → m.1.WellFormed
  | _ => True

/-- A value comes back if each of its parts does. -/
theorem returns_iff (v : Value) :
    v.Returns asciiOnly ↔ v.All (Value.IsReadable asciiOnly) := by
  match v with
  | .null | .bool _ | .int _ | .float _ | .text _ =>
      simp [Value.Returns, Value.All, Value.parts, Value.IsReadable]
  | .array items =>
      have hitems : ∀ item ∈ items, (item.Returns asciiOnly ↔ item.All _) :=
        fun item _ => returns_iff item
      rw [Value.Returns, Value.all_array, items_return_iff, forall₂_congr hitems]
      exact (and_iff_right trivial).symm
  | .object members =>
      have hmembers : ∀ m ∈ members, (m.2.Returns asciiOnly ↔ m.2.All _) :=
        fun m _ => returns_iff m.2
      rw [Value.Returns, Value.all_object, members_return_iff, Value.IsReadable, and_assoc,
        ← forall₂_and]
      refine and_congr_right fun _ => forall₂_congr fun m hm => ?_
      rw [hmembers m hm]
termination_by sizeOf v
decreasing_by
  · have := List.sizeOf_lt_of_mem ‹_›
    simp_wf
    omega
  · have := List.sizeOf_lt_of_mem ‹_›
    obtain ⟨name, value⟩ := m
    simp_wf
    simp only [Prod.mk.sizeOf_spec] at this
    omega

end Json

end ProgramInterface
