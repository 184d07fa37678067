import Mathlib.Data.List.Forall2
import Mathlib.Data.List.Nodup
import ProgramInterface.Json.Value
import ProgramInterface.Proofs.Text.WellFormed

/-!
# Equality of values

Two values are the same if they differ in nothing but the order in which objects hold their members
(`Value.Same`). Records with one list of names are the same only if they agree member by member
(`same_record`).
-/

namespace ProgramInterface

namespace Json

namespace Value

/-! ## Members by name -/

theorem lookup_eq_none {name : Text} {members : List (Text × Value)}
    (h : name ∉ members.map (·.1)) : lookup? name members = none := by
  induction members with
  | nil => rfl
  | cons member rest ih =>
      rw [List.map_cons, List.mem_cons, not_or] at h
      rw [lookup?, ih h.2]
      exact if_neg (Ne.symm h.1)

/-- Among members with different names each is found by its name. -/
theorem lookup_of_mem {name : Text} {value : Value} {members : List (Text × Value)}
    (hnodup : (members.map (·.1)).Nodup) (h : (name, value) ∈ members) :
    lookup? name members = some value := by
  induction members with
  | nil => cases h
  | cons member rest ih =>
      rw [List.map_cons, List.nodup_cons] at hnodup
      rcases List.mem_cons.1 h with rfl | hrest
      · rw [lookup?, lookup_eq_none hnodup.1]
        exact if_pos rfl
      · rw [lookup?, ih hnodup.2 hrest]

end Value

/-! ## Values up to the order of members -/

mutual

/-- Whether two values are the same up to the order of members in objects. -/
def Value.Same : Value → Value → Prop
  | .array items, other => ∃ others, other = .array others ∧ ItemsSame items others
  | .object members, other => ∃ others, other = .object others ∧
      members.length = others.length ∧ MembersSame members others
  | .null, other => other = .null
  | .bool b, other => other = .bool b
  | .int n, other => other = .int n
  | .float x, other => other = .float x
  | .text t, other => other = .text t

/-- Whether items are the same one by one. -/
def ItemsSame : List Value → List Value → Prop
  | [], others => others = []
  | item :: rest, others =>
    ∃ first behind, others = first :: behind ∧ item.Same first ∧ ItemsSame rest behind

/-- Whether each of some members has the same value among others. -/
def MembersSame : List (Text × Value) → List (Text × Value) → Prop
  | [], _ => True
  | (name, value) :: rest, others =>
    (∃ found, Value.lookup? name others = some found ∧ value.Same found) ∧
      MembersSame rest others

end

theorem items_same_iff {items others : List Value} :
    ItemsSame items others ↔ List.Forall₂ Value.Same items others := by
  induction items generalizing others with
  | nil => simp [ItemsSame]
  | cons item rest ih =>
      cases others with
      | nil => simp [ItemsSame]
      | cons first behind => simp [ItemsSame, ih]

theorem members_same_iff {members others : List (Text × Value)} :
    MembersSame members others ↔
      ∀ m ∈ members, ∃ found, Value.lookup? m.1 others = some found ∧ m.2.Same found := by
  induction members with
  | nil => simp [MembersSame]
  | cons member rest ih => rw [MembersSame, List.forall_mem_cons, ih]

theorem same_text {t s : Text} : (Value.text t).Same (.text s) ↔ t = s := by
  rw [Value.Same, Value.text.injEq, eq_comm]

theorem same_bool {b c : Bool} : (Value.bool b).Same (.bool c) ↔ b = c := by
  rw [Value.Same, Value.bool.injEq, eq_comm]

theorem same_int {n m : Int} : (Value.int n).Same (.int m) ↔ n = m := by
  rw [Value.Same, Value.int.injEq, eq_comm]

theorem same_array {items others : List Value} :
    (Value.array items).Same (.array others) ↔ List.Forall₂ Value.Same items others := by
  rw [← items_same_iff]
  constructor
  · rintro ⟨_, heq, h⟩
    cases heq
    exact h
  · exact fun h => ⟨others, rfl, h⟩

/-- Objects that are the same have as many members, and each member of the first is found in the
second. -/
theorem same_object {members others : List (Text × Value)}
    (h : (Value.object members).Same (.object others)) : members.length = others.length ∧
      ∀ m ∈ members, ∃ found, Value.lookup? m.1 others = some found ∧ m.2.Same found := by
  obtain ⟨_, heq, hlength, hmembers⟩ := h
  cases heq
  exact ⟨hlength, members_same_iff.1 hmembers⟩

/-- Arrays made of different things are the same only if these agree in what their values tell. -/
theorem map_eq_of_same {α β : Type} {toJson : α → Value} {normal : α → β}
    (hnormal : ∀ a b, (toJson a).Same (toJson b) → normal a = normal b) {items others : List α}
    (h : (Value.array (items.map toJson)).Same (.array (others.map toJson))) :
    items.map normal = others.map normal := by
  rw [same_array, List.forall₂_map_left_iff, List.forall₂_map_right_iff] at h
  induction h with
  | nil => rfl
  | cons hsame _ ih => rw [List.map_cons, List.map_cons, hnormal _ _ hsame, ih]

/-! ## Records -/

/-- Members of one name in records that are the same are the same. -/
theorem same_member {members others : List (String × Value)} {name : String} {value found : Value}
    (h : (Value.record members).Same (.record others)) (hnodup : (others.map (·.1)).Nodup)
    (hvalue : (name, value) ∈ members) (hfound : (name, found) ∈ others) : value.Same found := by
  have hothers : ((others.map fun m => (Text.ofString m.1, m.2)).map (·.1)).Nodup := by
    have htexts := List.Nodup.map Text.of_string_injective hnodup
    rwa [List.map_map] at htexts ⊢
  obtain ⟨other, hlookup, hsame⟩ := (same_object h).2 _ (List.mem_map_of_mem hvalue)
  have hfirst := Value.lookup_of_mem hothers (List.mem_map_of_mem hfound)
  rwa [Option.some.inj (hlookup.symm.trans hfirst)] at hsame

/-- Records with one list of names that are the same agree member by member. -/
theorem same_record {members others : List (String × Value)}
    (h : (Value.record members).Same (.record others))
    (hnames : members.map (·.1) = others.map (·.1)) (hnodup : (members.map (·.1)).Nodup) :
    List.Forall₂ (fun m n => m.2.Same n.2) members others := by
  have hsame : ∀ m ∈ members, ∀ n ∈ others, m.1 = n.1 → m.2.Same n.2 := by
    intro m hm n hn hname
    obtain ⟨name, value⟩ := m
    obtain ⟨_, found⟩ := n
    subst hname
    exact same_member h (hnames ▸ hnodup) hm hn
  clear h hnodup
  induction members generalizing others with
  | nil =>
      obtain rfl : others = [] := by simpa using hnames.symm
      exact .nil
  | cons member rest ih =>
      cases others with
      | nil => cases hnames
      | cons other behind =>
          rw [List.map_cons, List.map_cons] at hnames
          obtain ⟨hname, hnames⟩ := List.cons.inj hnames
          exact .cons (hsame _ (List.mem_cons_self ..) _ (List.mem_cons_self ..) hname)
            (ih hnames fun m hm n hn =>
              hsame m (List.mem_cons_of_mem _ hm) n (List.mem_cons_of_mem _ hn))

/-- Of two records with one member each both the names and the values are the same. -/
theorem same_single {name other : String} {value found : Value}
    (h : (Value.record [(name, value)]).Same (.record [(other, found)])) :
    name = other ∧ value.Same found := by
  have hname : name = other := by
    by_contra hne
    have hnot : Text.ofString name ∉ [(Text.ofString other, found)].map (·.1) := by
      simpa using fun heq => hne (Text.of_string_injective heq)
    obtain ⟨_, hlookup, _⟩ := (same_object h).2 _ (List.mem_cons_self ..)
    cases (Value.lookup_eq_none hnot).symm.trans hlookup
  subst hname
  exact ⟨rfl, (List.forall₂_cons.1 (same_record h rfl (by simp))).1⟩

end Json

end ProgramInterface
