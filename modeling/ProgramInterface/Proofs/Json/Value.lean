import ProgramInterface.Proofs.Json.Equality
import ProgramInterface.Proofs.Json.RoundTrip
import ProgramInterface.Proofs.Text.WellFormed

/-!
# Values that come back

Which arrays and records are read back after they were written, told by their parts
(`items_return_iff`, `record_returns`), and what the text is like that such a value is written as. A
value that comes back where code points beyond ASCII are escaped holds no surrogate, so it comes back
under every layout and is written without one (`Value.Returns.any_layout`,
`Value.Returns.well_formed_write`). Without line ends in the layout there are none in the text
(`Value.Returns.one_line_write`), and on one line with all but ASCII escaped it is printable
(`Value.Returns.printable_write`).
-/

namespace ProgramInterface

namespace Json

variable {asciiOnly : Bool}

/-! ## Parts -/

theorem items_return_iff {items : List Value} :
    ItemsReturn asciiOnly items ↔ ∀ item ∈ items, item.Returns asciiOnly := by
  induction items with
  | nil => simp [ItemsReturn]
  | cons item rest ih => rw [ItemsReturn, List.forall_mem_cons, ih]

theorem members_return_iff {members : List (Text × Value)} :
    MembersReturn asciiOnly members ↔
      ∀ m ∈ members, (asciiOnly = true → m.1.WellFormed) ∧ m.2.Returns asciiOnly := by
  induction members with
  | nil => simp [MembersReturn]
  | cons member rest ih => rw [MembersReturn, List.forall_mem_cons, ih]

/-- A record comes back if its members do and its names differ. -/
theorem record_returns {members : List (String × Value)} (hnodup : (members.map (·.1)).Nodup)
    (h : members.Forall fun m => m.2.Returns asciiOnly) :
    (Value.record members).Returns asciiOnly := by
  refine ⟨?_, members_return_iff.2 fun m hm => ?_⟩
  · rw [List.map_map]
    have hnames := List.Nodup.map Text.of_string_injective hnodup
    rwa [List.map_map] at hnames
  · obtain ⟨member, hmember, rfl⟩ := List.mem_map.1 hm
    exact ⟨fun _ => Text.well_formed_of_string _, List.forall_iff_forall_mem.1 h member hmember⟩

theorem map_returns {α : Type} {toJson : α → Value} {items : List α}
    (h : ∀ a ∈ items, (toJson a).Returns asciiOnly) :
    (Value.array (items.map toJson)).Returns asciiOnly := by
  refine items_return_iff.2 fun item hitem => ?_
  obtain ⟨a, ha, rfl⟩ := List.mem_map.1 hitem
  exact h a ha

/-! ## Layouts -/

mutual

/-- A value that comes back where code points beyond ASCII are escaped always comes back. -/
theorem Value.Returns.any_layout : {v : Value} → v.Returns true → v.Returns asciiOnly
  | .null, _ => trivial
  | .bool _, _ => trivial
  | .int _, h => h
  | .text _, h => fun _ => h rfl
  | .array _, h => items_return_any_layout h
  | .object _, h => ⟨h.1, members_return_any_layout h.2⟩

theorem items_return_any_layout : {items : List Value} → ItemsReturn true items →
    ItemsReturn asciiOnly items
  | [], _ => trivial
  | _ :: _, h => ⟨h.1.any_layout, items_return_any_layout h.2⟩

theorem members_return_any_layout : {members : List (Text × Value)} →
    MembersReturn true members → MembersReturn asciiOnly members
  | [], _ => trivial
  | _ :: _, h => ⟨⟨fun _ => h.1.1 rfl, h.1.2.any_layout⟩, members_return_any_layout h.2⟩

end

/-! ## Writing -/

mutual

/-- A value that comes back can be written. -/
theorem Value.Returns.is_writable : {v : Value} → v.Returns asciiOnly → v.isWritable = true
  | .null, _ => rfl
  | .bool _, _ => rfl
  | .int _, h => h
  | .text _, _ => rfl
  | .array _, h => items_return_writable h
  | .object _, h => members_return_writable h.2

theorem items_return_writable : {items : List Value} → ItemsReturn asciiOnly items →
    areWritable items = true
  | [], _ => rfl
  | _ :: _, h => Bool.and_eq_true_iff.2 ⟨h.1.is_writable, items_return_writable h.2⟩

theorem members_return_writable : {members : List (Text × Value)} →
    MembersReturn asciiOnly members → membersWritable members = true
  | [], _ => rfl
  | _ :: _, h => Bool.and_eq_true_iff.2 ⟨h.1.2.is_writable, members_return_writable h.2⟩

end

/-! ## Equality -/

mutual

/-- A value that comes back is the same as itself, since its objects name no member twice. -/
theorem Value.Returns.same_refl : {v : Value} → v.Returns asciiOnly → v.Same v
  | .null, _ => rfl
  | .bool _, _ => rfl
  | .int _, _ => rfl
  | .text _, _ => rfl
  | .array items, h => ⟨items, rfl, items_return_same_refl h⟩
  | .object members, h => ⟨members, rfl, rfl, members_return_same_refl h.1 h.2 fun _ hm => hm⟩

theorem items_return_same_refl : {items : List Value} → ItemsReturn asciiOnly items →
    ItemsSame items items
  | [], _ => rfl
  | item :: rest, h => ⟨item, rest, rfl, h.1.same_refl, items_return_same_refl h.2⟩

theorem members_return_same_refl {all : List (Text × Value)} (hnodup : (all.map (·.1)).Nodup) :
    {members : List (Text × Value)} → MembersReturn asciiOnly members →
      members ⊆ all → MembersSame members all
  | [], _, _ => trivial
  | (_, value) :: _, h, hall =>
    ⟨⟨value, Value.lookup_of_mem hnodup (hall (List.mem_cons_self ..)), h.1.2.same_refl⟩,
      members_return_same_refl hnodup h.2 fun _ hm => hall (List.mem_cons_of_mem _ hm)⟩

end

/-! ## Code points of written values -/

/-- Whether what a layout writes outside strings satisfies a condition: printable characters of ASCII
and, if there are line ends, these. -/
structure Layout.Admits (layout : Layout) (p : CodePoint → Prop) : Prop where
  printable : ∀ c : Char, 0x20 ≤ c.toNat → c.toNat < 0x7F → p (.scalar c)
  lineEnd : layout.indent ≠ none → p (.scalar '\n')

section

variable {layout : Layout} {p : CodePoint → Prop}

theorem Layout.Admits.string (h : layout.Admits p) {s : String}
    (hs : (s.toList.all fun c => 0x20 ≤ c.toNat && c.toNat < 0x7F) = true) :
    ∀ x ∈ Text.ofString s, p x := by
  intro x hx
  obtain ⟨c, hc, rfl⟩ := List.mem_map.1 hx
  have hrange := List.all_eq_true.1 hs c hc
  rw [Bool.and_eq_true, decide_eq_true_eq, decide_eq_true_eq] at hrange
  exact h.printable c hrange.1 hrange.2

theorem Layout.Admits.line_break (h : layout.Admits p) (level : Nat) :
    ∀ x ∈ layout.lineBreak level, p x := by
  intro x hx
  unfold Layout.lineBreak at hx
  split at hx
  · cases hx
  · rename_i hindent
    rcases List.mem_cons.1 hx with rfl | hspace
    · exact h.lineEnd (by simp [hindent])
    · rw [List.eq_of_mem_replicate hspace]
      exact h.printable ' ' (by decide) (by decide)

theorem Layout.Admits.separator (h : layout.Admits p) (level : Nat) :
    ∀ x ∈ layout.separator level, p x := by
  unfold Layout.separator
  split
  · exact h.string (by decide)
  · exact List.forall_mem_cons.2 ⟨h.printable ',' (by decide) (by decide), h.line_break level⟩

theorem Layout.Admits.join (h : layout.Admits p) (level : Nat) {items : List Text}
    (hitems : ∀ item ∈ items, ∀ x ∈ item, p x) :
    ∀ x ∈ Text.joinWith (layout.separator level) items, p x := by
  induction items with
  | nil => exact nofun
  | cons item rest ih =>
      obtain ⟨hitem, hrest⟩ := List.forall_mem_cons.1 hitems
      cases rest with
      | nil => exact hitem
      | cons next rest =>
          rw [join_cons_cons, List.forall_mem_append, List.forall_mem_append]
          exact ⟨⟨hitem, h.separator level⟩, ih hrest⟩

theorem Layout.Admits.enclose (h : layout.Admits p) (level : Nat) {opening closing : Char}
    (hbrackets : p (.scalar opening) ∧ p (.scalar closing)) {items : List Text}
    (hitems : ∀ item ∈ items, ∀ x ∈ item, p x) :
    ∀ x ∈ layout.enclose level opening closing items, p x := by
  cases items with
  | nil => simpa [Layout.enclose] using hbrackets
  | cons first items =>
      simp only [enclose_cons, List.forall_mem_cons, List.forall_mem_append]
      exact ⟨hbrackets.1, h.line_break (level + 1), h.join (level + 1) hitems,
        h.line_break level, hbrackets.2, List.forall_mem_nil _⟩

theorem Layout.Admits.write_text (h : layout.Admits p) {t : Text}
    (ht : ∀ c ∈ t, ∀ x ∈ writePoint layout.asciiOnly c, p x) :
    ∀ x ∈ writeText layout.asciiOnly t, p x := by
  have hquote : p (.scalar '"') := h.printable '"' (by decide) (by decide)
  have hpoints : ∀ x ∈ t.flatMap (writePoint layout.asciiOnly), p x := by
    intro x hx
    obtain ⟨c, hc, hmem⟩ := List.mem_flatMap.1 hx
    exact ht c hc x hmem
  unfold writeText
  simp only [List.forall_mem_append, List.forall_mem_cons]
  exact ⟨⟨hquote, hpoints⟩, hquote, nofun⟩

theorem Layout.Admits.digits (h : layout.Admits p) (n : Nat) : ∀ x ∈ Text.ofNat n, p x := by
  intro x hx
  obtain ⟨c, hc, rfl⟩ := List.mem_map.1 hx
  have hdigit : c.isDigit = true := Nat.isDigit_of_mem_toDigits (by decide) (by decide) hc
  simp only [Char.isDigit, Bool.and_eq_true, decide_eq_true_eq, UInt32.le_iff_toNat_le] at hdigit
  exact h.printable c (Nat.le_trans (by decide) hdigit.1)
    (Nat.lt_of_le_of_lt hdigit.2 (by decide))

theorem Layout.Admits.write_int (h : layout.Admits p) : (n : Int) → ∀ x ∈ Text.ofInt n, p x
  | .ofNat n => h.digits n
  | .negSucc n => List.forall_mem_cons.2 ⟨h.printable '-' (by decide) (by decide), h.digits (n + 1)⟩

/-- The code points that may stand in the strings of a value that comes back. -/
def MayStand (asciiOnly : Bool) (c : CodePoint) : Prop :=
  asciiOnly = true → c.isSurrogate = false

mutual

/-- The code points of a written value satisfy what those of a layout and of written strings do. -/
theorem Value.Returns.write_admitted (hlayout : layout.Admits p)
    (hpoint : ∀ c, MayStand asciiOnly c → ∀ x ∈ writePoint layout.asciiOnly c, p x) {level : Nat} :
    {v : Value} → v.Returns asciiOnly → ∀ x ∈ v.write layout level, p x
  | .null, _ => hlayout.string (by decide)
  | .bool true, _ => hlayout.string (by decide)
  | .bool false, _ => hlayout.string (by decide)
  | .int n, _ => by
      rw [Value.write]
      exact hlayout.write_int n
  | .text _, h => hlayout.write_text fun c hc => hpoint c fun hascii => h hascii c hc
  | .array _, h => hlayout.enclose level
      ⟨hlayout.printable '[' (by decide) (by decide), hlayout.printable ']' (by decide) (by decide)⟩
      (items_write_admitted hlayout hpoint h)
  | .object _, h => hlayout.enclose level
      ⟨hlayout.printable '\x7b' (by decide) (by decide),
        hlayout.printable '\x7d' (by decide) (by decide)⟩
      (members_write_admitted hlayout hpoint h.2)

theorem items_write_admitted (hlayout : layout.Admits p)
    (hpoint : ∀ c, MayStand asciiOnly c → ∀ x ∈ writePoint layout.asciiOnly c, p x) {level : Nat} :
    {items : List Value} → ItemsReturn asciiOnly items →
      ∀ t ∈ writeItems layout level items, ∀ x ∈ t, p x
  | [], _, _, ht => nomatch ht
  | item :: rest, h, t, ht => by
      rw [writeItems] at ht
      rcases List.mem_cons.1 ht with rfl | hrest
      · exact h.1.write_admitted hlayout hpoint
      · exact items_write_admitted hlayout hpoint h.2 t hrest

theorem members_write_admitted (hlayout : layout.Admits p)
    (hpoint : ∀ c, MayStand asciiOnly c → ∀ x ∈ writePoint layout.asciiOnly c, p x) {level : Nat} :
    {members : List (Text × Value)} → MembersReturn asciiOnly members →
      ∀ t ∈ writeMembers layout level members, ∀ x ∈ t, p x
  | [], _, _, ht => nomatch ht
  | (name, value) :: rest, h, t, ht => by
      rw [write_members_cons] at ht
      rcases List.mem_cons.1 ht with rfl | hrest
      · simp only [List.forall_mem_append, List.forall_mem_cons]
        exact ⟨hlayout.write_text fun c hc => hpoint c fun hascii => h.1.1 hascii c hc,
          hlayout.printable ':' (by decide) (by decide),
          hlayout.printable ' ' (by decide) (by decide), h.1.2.write_admitted hlayout hpoint⟩
      · exact members_write_admitted hlayout hpoint h.2 t hrest

end

end

/-- Whether a code point is a printable character of ASCII. -/
def IsPrintable (x : CodePoint) : Prop :=
  ∃ char : Char, x = .scalar char ∧ 0x20 ≤ char.toNat ∧ char.toNat < 0x7F

theorem unit_escape_printable (n : Nat) :
    ∀ c ∈ unitEscape n, 0x20 ≤ c.toNat ∧ c.toNat < 0x7F := by
  have hdigit : ∀ d < 16, 0x20 ≤ (Nat.digitChar d).toNat ∧ (Nat.digitChar d).toNat < 0x7F := by
    decide
  obtain ⟨digits, hsmall, hdigits, _⟩ := Text.to_digits_hex n
  have hdigits : ∀ c ∈ Nat.toDigits 16 n, 0x20 ≤ c.toNat ∧ c.toNat < 0x7F := by
    intro c hc
    rw [hdigits] at hc
    obtain ⟨d, hd, rfl⟩ := List.mem_map.1 hc
    exact hdigit d (hsmall d hd)
  have hzeros : ∀ k, ∀ c ∈ List.replicate k '0', 0x20 ≤ c.toNat ∧ c.toNat < 0x7F := by
    intro k c hc
    rw [List.eq_of_mem_replicate hc]
    decide
  simp only [unitEscape, Text.hexadecimal, List.forall_mem_cons, List.forall_mem_append]
  exact ⟨by decide, by decide, hzeros _, hdigits⟩

/-- A code point of a string is written as itself or in printable characters. It is no control
character where it stands for itself, and printable as well where all but ASCII is escaped. -/
theorem write_point_cases {asciiOnly : Bool} {c x : CodePoint} (h : x ∈ writePoint asciiOnly c) :
    (x = c ∧ 0x20 ≤ c.val ∧ (asciiOnly = true → c.val < 0x7F)) ∨ IsPrintable x := by
  have hchars : ∀ chars : List Char, (∀ c ∈ chars, 0x20 ≤ c.toNat ∧ c.toNat < 0x7F) →
      x ∈ Text.ofChars chars → IsPrintable x := by
    intro chars hprintable hx
    obtain ⟨char, hchar, rfl⟩ := List.mem_map.1 hx
    exact ⟨char, rfl, hprintable char hchar⟩
  unfold writePoint at h
  split at h
  · rename_i hmark
    rcases hmark with rfl | rfl
    · exact .inr (hchars ['\\', '"'] (by decide) h)
    · exact .inr (hchars ['\\', '\\'] (by decide) h)
  · split at h
    · rename_i letter hletter
      refine .inr (hchars _ ?_ h)
      unfold controlLetter? at hletter
      split at hletter <;> cases hletter <;> decide
    · split at h
      · refine .inr (hchars _ ?_ h)
        unfold pointEscape
        split
        · exact unit_escape_printable _
        · exact List.forall_mem_append.2 ⟨unit_escape_printable _, unit_escape_printable _⟩
      · rename_i hplain
        obtain ⟨hcontrol, hascii⟩ := not_or.1 hplain
        exact .inl ⟨List.mem_singleton.1 h, Nat.not_lt.1 hcontrol,
          fun honly => Nat.lt_of_not_le fun hhigh => hascii ⟨honly, hhigh⟩⟩

/-- Where all but ASCII is escaped, a string is written in printable characters. -/
theorem printable_write_point {c x : CodePoint} (h : x ∈ writePoint true c) : IsPrintable x := by
  rcases write_point_cases h with ⟨rfl, hlow, hhigh⟩ | hprintable
  · have hsmall : x.val < 0x7F := hhigh rfl
    cases x with
    | scalar char => exact ⟨char, rfl, hlow, hsmall⟩
    | surrogate index =>
        simp only [CodePoint.val] at hsmall
        omega
  · exact hprintable

/-- A value without surrogates is written without them. -/
theorem Value.Returns.well_formed_write {layout : Layout} {level : Nat} {v : Value}
    (h : v.Returns true) : (v.write layout level).WellFormed := by
  have hlayout : layout.Admits fun c => c.isSurrogate = false := ⟨fun _ _ _ => rfl, fun _ => rfl⟩
  refine h.write_admitted hlayout fun c hc x hx => ?_
  rcases write_point_cases hx with ⟨rfl, _⟩ | ⟨_, rfl, _⟩
  · exact hc rfl
  · rfl

/-- Without line ends in its layout a value is written on one line. -/
theorem Value.Returns.one_line_write {layout : Layout} {level : Nat} {v : Value}
    (h : v.Returns asciiOnly) (hlayout : layout.indent = none) :
    ∀ x ∈ v.write layout level, x ≠ .scalar '\n' ∧ x ≠ .scalar '\r' := by
  have hprintable : ∀ {x : CodePoint}, 0x20 ≤ x.val → x ≠ .scalar '\n' ∧ x ≠ .scalar '\r' := by
    intro x hx
    constructor <;> rintro rfl <;> exact absurd hx (by decide)
  have hadmits : layout.Admits fun x => x ≠ .scalar '\n' ∧ x ≠ .scalar '\r' :=
    ⟨fun c hc _ => hprintable (x := .scalar c) hc, fun hindent => absurd hlayout hindent⟩
  refine h.write_admitted hadmits fun c _ x hx => ?_
  rcases write_point_cases hx with ⟨rfl, hlow, _⟩ | ⟨_, rfl, hlow, _⟩ <;> exact hprintable hlow

/-- On one line, with all but ASCII escaped, a value is written in printable characters. -/
theorem Value.Returns.printable_write {v : Value} (h : v.Returns asciiOnly) (level : Nat) :
    ∀ x ∈ v.write Layout.line level, IsPrintable x := by
  have hadmits : Layout.line.Admits IsPrintable :=
    ⟨fun char hlow hhigh => ⟨char, rfl, hlow, hhigh⟩, fun hindent => absurd rfl hindent⟩
  exact h.write_admitted hadmits fun c _ x hx => printable_write_point hx

/-! ## Lengths

A written value is longer than each part of it. -/

section

variable {layout : Layout} {level : Nat}

theorem length_le_join {part : Text} {parts : List Text} (h : part ∈ parts) (separator : Text) :
    part.length ≤ (Text.joinWith separator parts).length := by
  induction parts with
  | nil => cases h
  | cons first rest ih =>
      cases rest with
      | nil =>
          rw [List.mem_singleton.1 h]
          exact Nat.le_refl _
      | cons next others =>
          have hjoin : Text.joinWith separator (first :: next :: others) =
              first ++ separator ++ Text.joinWith separator (next :: others) := rfl
          rw [hjoin, List.length_append, List.length_append]
          rcases List.mem_cons.1 h with rfl | hrest
          · omega
          · have := ih hrest
            omega

theorem length_le_enclose {part : Text} {parts : List Text} (h : part ∈ parts) (level : Nat)
    (opening closing : Char) :
    part.length + 2 ≤ (layout.enclose level opening closing parts).length := by
  have hparts : ¬ parts.isEmpty = true := by
    rw [List.isEmpty_iff]
    exact List.ne_nil_of_mem h
  have hpart := length_le_join h (layout.separator (level + 1))
  rw [Layout.enclose, if_neg hparts]
  simp only [List.length_append, List.length_cons, List.length_nil]
  omega

theorem mem_write_items {item : Value} {items : List Value} (h : item ∈ items) :
    item.write layout level ∈ writeItems layout level items := by
  induction items with
  | nil => cases h
  | cons first rest ih =>
      rw [writeItems]
      rcases List.mem_cons.1 h with rfl | hrest
      · exact List.mem_cons_self
      · exact List.mem_cons_of_mem _ (ih hrest)

theorem mem_write_members {name : Text} {value : Value} {members : List (Text × Value)}
    (h : (name, value) ∈ members) :
    writeText layout.asciiOnly name ++ ": " ++ value.write layout level ∈
      writeMembers layout level members := by
  induction members with
  | nil => cases h
  | cons first rest ih =>
      rw [writeMembers]
      rcases List.mem_cons.1 h with rfl | hrest
      · exact List.mem_cons_self
      · exact List.mem_cons_of_mem _ (ih hrest)

theorem length_le_write_text (asciiOnly : Bool) (t : Text) :
    t.length + 2 ≤ (writeText asciiOnly t).length := by
  have := length_le_write asciiOnly t
  simp only [writeText, List.length_append, List.length_cons, List.length_nil]
  omega

theorem length_item {item : Value} {items : List Value} (h : item ∈ items) :
    (item.write layout (level + 1)).length + 2 ≤ ((Value.array items).write layout level).length :=
  length_le_enclose (mem_write_items h) level '[' ']'

/-- A member takes its quoted name, two characters between name and value, and two brackets. -/
theorem length_member {name : String} {value : Value} {members : List (String × Value)}
    (h : (name, value) ∈ members) :
    (value.write layout (level + 1)).length + name.length + 6 ≤
      ((Value.record members).write layout level).length := by
  have hmember : (Text.ofString name, value) ∈ members.map fun m => (Text.ofString m.1, m.2) :=
    List.mem_map_of_mem h
  have hname := length_le_write_text layout.asciiOnly (Text.ofString name)
  have hwritten : (writeText layout.asciiOnly (Text.ofString name) ++ ": " ++
      value.write layout (level + 1)).length + 2 ≤
        ((Value.record members).write layout level).length :=
    length_le_enclose (mem_write_members hmember) level '\x7b' '\x7d'
  rw [List.length_append, List.length_append] at hwritten
  rw [Text.length_of_string] at hname
  have hcolon : (": " : Text).length = 2 := by decide
  omega

end

end Json

end ProgramInterface
