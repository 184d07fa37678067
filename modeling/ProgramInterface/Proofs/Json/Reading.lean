import Mathlib.Data.List.Forall2
import ProgramInterface.Proofs.Json.Nesting
import ProgramInterface.Proofs.Json.Number

/-!
# Reading arrays and objects

What an array or object is read as follows from what the texts between its brackets are read as. A text
is read as a value if it is so in front of anything that does not go on with it and wherever the dialect
admits its nesting (`ReadsAs`), whatever it was written from. Texts that are read as values make up an
array of these, and texts that are read as members an object, however the layout parts them
(`reads_as_array`, `reads_as_object`).
-/

namespace ProgramInterface

namespace Json

variable {dialect : Dialect} {layout : Layout}

/-! ## Gaps -/

/-- Whether a text is nothing but white space between the parts of a value. -/
def IsGapText (t : Text) : Prop :=
  ∀ c ∈ t, isGap c = true

theorem IsGapText.skip {gap : Text} (h : IsGapText gap) (t : Text) :
    skipGap (gap ++ t) = skipGap t :=
  List.dropWhile_append_of_pos h

theorem skip_gap_cons {c : CodePoint} (h : isGap c = false) (t : Text) :
    skipGap (c :: t) = c :: t := by
  simp [skipGap, h]

theorem is_gap_line_break (layout : Layout) (level : Nat) : IsGapText (layout.lineBreak level) := by
  intro c hc
  unfold Layout.lineBreak at hc
  split at hc
  · cases hc
  · rcases List.mem_cons.1 hc with rfl | hspace
    · rfl
    · rw [List.eq_of_mem_replicate hspace]
      rfl

theorem separator_eq (layout : Layout) (level : Nat) :
    ∃ gap, layout.separator level = .scalar ',' :: gap ∧ IsGapText gap := by
  unfold Layout.separator
  split
  · exact ⟨[.scalar ' '], by decide, by simp [IsGapText, isGap]⟩
  · exact ⟨_, rfl, is_gap_line_break layout level⟩

theorem ends_number_line_break {c : CodePoint} {t : Text} (h : EndsNumber (c :: t))
    (layout : Layout) (level : Nat) : EndsNumber (layout.lineBreak level ++ c :: t) := by
  unfold Layout.lineBreak
  split
  · exact h
  · exact ends_number_cons (by decide) (by decide) (by decide) (by decide)

/-! ## What a value begins with -/

/-- Whether a written value can begin with a code point. -/
def startsValue (c : CodePoint) : Bool :=
  !isGap c && c ≠ .scalar ']' && c ≠ .scalar '\x7d' && c ≠ .scalar ','

theorem starts_value_of_digit {c : CodePoint} (h : isDigit c = true) : startsValue c = true := by
  have hne : ∀ point, isDigit point = false → c ≠ point := by
    rintro point hpoint rfl
    rw [hpoint] at h
    cases h
  simp (disch := decide) [startsValue, isGap, hne]

theorem not_gap_of_starts {c : CodePoint} (h : startsValue c = true) : isGap c = false := by
  simp only [startsValue, Bool.and_eq_true, Bool.not_eq_true'] at h
  exact h.1.1.1

theorem enclose_starts (layout : Layout) (level : Nat) (opening closing : Char)
    (items : List Text) :
    ∃ t, layout.enclose level opening closing items = .scalar opening :: t := by
  unfold Layout.enclose
  split <;> exact ⟨_, rfl⟩

/-! ## What a text is read as -/

/-- Whether a text is read as a value in front of anything that does not go on with it, at each depth
that leaves room for its nesting. Two units of fuel for each character last: one for the value that
begins there and one for the step of the list in front of it. -/
structure ReadsAs (dialect : Dialect) (t : Text) (value : Value) : Prop where
  starts : ∃ c tail, t = c :: tail ∧ startsValue c = true
  read : ∀ {rest : Text} {depth fuel : Nat}, dialect.admits (depth + value.nesting) = true →
    EndsNumber rest → 2 * t.length ≤ fuel →
      readValue dialect depth fuel (t ++ rest) = .ok (value, rest)

/-- Whether a text is read as a string in front of anything. -/
structure ReadsString (dialect : Dialect) (t name : Text) : Prop where
  starts : ∃ tail, t = .scalar '"' :: tail
  read : ∀ rest, readString dialect (t ++ rest) = .ok (name, rest)

/-- Whether a text is read as a member of an object: a name, and behind it a value. -/
inductive ReadsMember (dialect : Dialect) : Text → Text × Value → Prop
  | mk {quoted written name : Text} {value : Value} : ReadsString dialect quoted name →
      ReadsAs dialect written value →
        ReadsMember dialect (quoted ++ (.scalar ':' :: .scalar ' ' :: written)) (name, value)

/-- What is read as a value is not taken for white space. -/
theorem ReadsAs.skip_gap {t : Text} {value : Value} (h : ReadsAs dialect t value) (rest : Text) :
    skipGap (t ++ rest) = t ++ rest := by
  obtain ⟨c, tail, rfl, hc⟩ := h.starts
  exact skip_gap_cons (not_gap_of_starts hc) _

theorem ReadsString.reads_as {t name : Text} (h : ReadsString dialect t name) :
    ReadsAs dialect t (.text name) := by
  obtain ⟨tail, rfl⟩ := h.starts
  refine ⟨⟨_, _, rfl, by decide⟩, fun {rest depth fuel} hadmits _ hfuel => ?_⟩
  obtain ⟨fuel, rfl⟩ : ∃ n, fuel = n + 1 := ⟨fuel - 1, by rw [List.length_cons] at hfuel; omega⟩
  have hread := h.read rest
  rw [List.cons_append] at hread ⊢
  rw [readValue, if_pos (Dialect.admits_of_le hadmits (Nat.le_add_right _ _)), hread]
  rfl

/-- A whole text that is read as a value denotes it. -/
theorem ReadsAs.read_whole {t : Text} {value : Value} (h : ReadsAs dialect t value)
    (hadmits : dialect.admits value.nesting = true) : Json.read dialect t = .ok value := by
  have hgap := h.skip_gap []
  have hvalue : readValue dialect 0 (2 * t.length + 2) _ = _ :=
    h.read ((Nat.zero_add value.nesting).symm ▸ hadmits) ends_number_nil (by omega)
  rw [List.append_nil] at hgap hvalue
  rw [Json.read, hgap, hvalue]
  rfl

/-! ## Texts between brackets -/

theorem join_cons_cons (separator t next : Text) (rest : List Text) :
    Text.joinWith separator (t :: next :: rest) =
      t ++ separator ++ Text.joinWith separator (next :: rest) :=
  rfl

/-- Joined texts begin with what the first of them begins with. -/
theorem join_starts (separator : Text) {first tail : Text} {c : CodePoint}
    (h : first = c :: tail) (rest : List Text) :
    ∃ t, Text.joinWith separator (first :: rest) = c :: t := by
  subst h
  cases rest with
  | nil => exact ⟨_, rfl⟩
  | cons next rest => exact ⟨_, rfl⟩

theorem enclose_cons (layout : Layout) (level : Nat) (opening closing : Char) (first : Text)
    (items : List Text) :
    layout.enclose level opening closing (first :: items) =
      .scalar opening :: (layout.lineBreak (level + 1) ++
        (Text.joinWith (layout.separator (level + 1)) (first :: items) ++
          (layout.lineBreak level ++ [.scalar closing]))) := by
  simp [Layout.enclose]

theorem ends_number_closing {closing : Char} (h : closing = ']' ∨ closing = '\x7d')
    (layout : Layout) (level : Nat) (rest : Text) :
    EndsNumber (layout.lineBreak level ++ .scalar closing :: rest) := by
  refine ends_number_line_break ?_ layout level
  rcases h with rfl | rfl <;>
    exact ends_number_cons (by decide) (by decide) (by decide) (by decide)

theorem ends_number_comma (rest : Text) : EndsNumber (.scalar ',' :: rest) :=
  ends_number_cons (by decide) (by decide) (by decide) (by decide)

/-! ## Arrays -/

theorem read_items_last {depth fuel : Nat} {done : List Value} {item : Value} {t gap rest : Text}
    (hgap : IsGapText gap)
    (h : readValue dialect depth fuel t = .ok (item, gap ++ .scalar ']' :: rest)) :
    readItems dialect depth (fuel + 1) done t = .ok (.array (done.reverse ++ [item]), rest) := by
  rw [readItems, h]
  simp only [hgap.skip, skip_gap_cons (c := .scalar ']') rfl]
  simp

theorem read_items_next {depth fuel : Nat} {done : List Value} {item : Value} {t gap next : Text}
    {c : CodePoint} (hgap : IsGapText gap) (hc : startsValue c = true)
    (h : readValue dialect depth fuel t = .ok (item, .scalar ',' :: (gap ++ c :: next))) :
    readItems dialect depth (fuel + 1) done t =
      readItems dialect depth fuel (item :: done) (c :: next) := by
  rw [readItems, h]
  simp only [skip_gap_cons (c := .scalar ',') rfl, hgap.skip,
    skip_gap_cons (not_gap_of_starts hc)]
  split
  · rename_i heq
    cases heq
  · rename_i heq
    cases heq
    cases hc
  · rfl

theorem read_value_items {depth fuel : Nat} {gap next : Text} {c : CodePoint}
    (hadmits : dialect.admits depth = true) (hgap : IsGapText gap) (hc : startsValue c = true) :
    readValue dialect depth (fuel + 1) (.scalar '[' :: (gap ++ c :: next)) =
      readItems dialect (depth + 1) fuel [] (c :: next) := by
  rw [readValue, if_pos hadmits, hgap.skip, skip_gap_cons (not_gap_of_starts hc)]
  split
  · rename_i heq
    cases heq
  · rename_i heq
    cases heq
    cases hc
  · rfl

/-- Texts that are read as values are read as the items of an array. -/
theorem ReadsAs.items {first : Text} {item : Value} {texts : List Text} {items : List Value}
    (hfirst : ReadsAs dialect first item) (hrest : List.Forall₂ (ReadsAs dialect) texts items)
    (layout : Layout) (level : Nat) {gap rest : Text} (hgap : IsGapText gap)
    (hends : EndsNumber (gap ++ .scalar ']' :: rest)) (done : List Value) {depth fuel : Nat}
    (hadmits : ∀ i ∈ item :: items, dialect.admits (depth + i.nesting) = true)
    (hfuel : 2 * (Text.joinWith (layout.separator level) (first :: texts)).length < fuel) :
    readItems dialect depth fuel done
        (Text.joinWith (layout.separator level) (first :: texts) ++ (gap ++ .scalar ']' :: rest)) =
      .ok (.array (done.reverse ++ item :: items), rest) := by
  induction hrest generalizing first item done fuel with
  | nil =>
      obtain ⟨fuel, rfl⟩ : ∃ n, fuel = n + 1 := ⟨fuel - 1, by omega⟩
      exact read_items_last hgap
        (hfirst.read (hadmits item List.mem_cons_self) hends (Nat.le_of_lt_succ hfuel))
  | @cons next nextItem texts items hnext hothers ih =>
      obtain ⟨fuel, rfl⟩ : ∃ n, fuel = n + 1 := ⟨fuel - 1, by omega⟩
      obtain ⟨space, hseparator, hspace⟩ := separator_eq layout level
      have hcomma := congrArg List.length hseparator
      rw [join_cons_cons] at hfuel ⊢
      simp only [List.length_append, List.length_cons] at hfuel hcomma
      obtain ⟨hadmitsFirst, hadmitsRest⟩ := List.forall_mem_cons.1 hadmits
      have hitem : readValue dialect depth fuel _ = _ :=
        hfirst.read hadmitsFirst (ends_number_comma (space ++
          (Text.joinWith (layout.separator level) (next :: texts) ++
            (gap ++ .scalar ']' :: rest)))) (by omega)
      have hitems : readItems dialect depth fuel (item :: done) _ = _ :=
        ih hnext (item :: done) hadmitsRest (by omega)
      -- The next item begins with no white space, so what stands behind the comma ends there.
      obtain ⟨c, _, hc, hstarts⟩ := hnext.starts
      obtain ⟨t, hjoin⟩ := join_starts (layout.separator level) hc texts
      rw [hjoin, List.cons_append] at hitem hitems
      rw [hjoin, hseparator]
      simp only [List.cons_append, List.append_assoc]
      rw [read_items_next hspace hstarts hitem, hitems]
      simp

theorem reads_as_array {texts : List Text} {items : List Value}
    (h : List.Forall₂ (ReadsAs dialect) texts items) (layout : Layout) (level : Nat) :
    ReadsAs dialect (layout.enclose level '[' ']' texts) (.array items) := by
  obtain ⟨tail, htail⟩ := enclose_starts layout level '[' ']' texts
  refine ⟨⟨_, tail, htail, by decide⟩, fun {rest depth fuel} hadmits _ hfuel => ?_⟩
  obtain ⟨fuel, rfl⟩ : ∃ n, fuel = n + 1 :=
    ⟨fuel - 1, by rw [htail, List.length_cons] at hfuel; omega⟩
  have hhere : dialect.admits depth = true := Dialect.admits_of_le hadmits (Nat.le_add_right _ _)
  cases h with
  | nil => exact if_pos hhere
  | @cons first item texts items hfirst hrest =>
      rw [enclose_cons] at hfuel ⊢
      simp only [List.length_cons, List.length_append] at hfuel
      have hitems : readItems dialect (depth + 1) fuel [] _ = _ :=
        hfirst.items hrest layout (level + 1) (is_gap_line_break layout level)
          (ends_number_closing (.inl rfl) layout level rest) []
          (fun _ hitem => Dialect.admits_item hadmits hitem) (by omega)
      -- An item does not begin with the closing bracket, so the array is not taken as empty.
      obtain ⟨c, _, hc, hstarts⟩ := hfirst.starts
      obtain ⟨t, hjoin⟩ := join_starts (layout.separator (level + 1)) hc texts
      simp only [List.cons_append, List.append_assoc, List.nil_append]
      rw [hjoin, List.cons_append] at hitems ⊢
      rw [read_value_items hhere (is_gap_line_break layout (level + 1)) hstarts, hitems]
      rfl

/-! ## Objects -/

theorem read_value_members {depth fuel : Nat} {gap next : Text} {c : CodePoint}
    (hadmits : dialect.admits depth = true) (hgap : IsGapText gap) (hc : startsValue c = true) :
    readValue dialect depth (fuel + 1) (.scalar '\x7b' :: (gap ++ c :: next)) =
      readMembers dialect (depth + 1) fuel [] .firstName (c :: next) := by
  rw [readValue, if_pos hadmits, hgap.skip, skip_gap_cons (not_gap_of_starts hc)]
  split
  · rename_i heq
    cases heq
    cases hc
  · rfl

theorem read_members_last {depth fuel : Nat} {done : List (Text × Value)} {want : Cause}
    {quoted name t gap rest : Text} {value : Value} (hname : ReadsString dialect quoted name)
    (ht : skipGap t = t) (hgap : IsGapText gap)
    (h : readValue dialect depth fuel t = .ok (value, gap ++ .scalar '\x7d' :: rest)) :
    readMembers dialect depth (fuel + 1) done want (quoted ++ (.scalar ':' :: .scalar ' ' :: t)) =
      .ok (.object (if dialect = .plain then Value.lastWins (done.reverse ++ [(name, value)])
        else done.reverse ++ [(name, value)]), rest) := by
  have hread := hname.read (.scalar ':' :: .scalar ' ' :: t)
  obtain ⟨tail, rfl⟩ := hname.starts
  have hspace : skipGap (.scalar ' ' :: t) = t := ht
  rw [List.cons_append] at hread ⊢
  rw [readMembers, hread]
  simp only [skip_gap_cons (c := .scalar ':') rfl, hspace, h, hgap.skip,
    skip_gap_cons (c := .scalar '\x7d') rfl, List.reverse_cons]

theorem read_members_next {depth fuel : Nat} {done : List (Text × Value)} {want : Cause}
    {quoted name t gap next : Text} {value : Value} {c : CodePoint}
    (hname : ReadsString dialect quoted name) (ht : skipGap t = t) (hgap : IsGapText gap)
    (hc : startsValue c = true)
    (h : readValue dialect depth fuel t = .ok (value, .scalar ',' :: (gap ++ c :: next))) :
    readMembers dialect depth (fuel + 1) done want (quoted ++ (.scalar ':' :: .scalar ' ' :: t)) =
      readMembers dialect depth fuel ((name, value) :: done) .nextName (c :: next) := by
  have hread := hname.read (.scalar ':' :: .scalar ' ' :: t)
  obtain ⟨tail, rfl⟩ := hname.starts
  have hspace : skipGap (.scalar ' ' :: t) = t := ht
  rw [List.cons_append] at hread ⊢
  rw [readMembers, hread]
  simp only [skip_gap_cons (c := .scalar ':') rfl, hspace, h, hgap.skip,
    skip_gap_cons (c := .scalar ',') rfl, skip_gap_cons (not_gap_of_starts hc)]

theorem ReadsMember.starts {t : Text} {member : Text × Value} (h : ReadsMember dialect t member) :
    ∃ tail, t = .scalar '"' :: tail := by
  obtain ⟨hname, _⟩ := h
  obtain ⟨tail, rfl⟩ := hname.starts
  exact ⟨_, rfl⟩

/-- Texts that are read as members are read as those of an object. -/
theorem ReadsMember.members {first : Text} {member : Text × Value} {texts : List Text}
    {members : List (Text × Value)} (hfirst : ReadsMember dialect first member)
    (hrest : List.Forall₂ (ReadsMember dialect) texts members) (layout : Layout) (level : Nat)
    {gap rest : Text} (hgap : IsGapText gap)
    (hends : EndsNumber (gap ++ .scalar '\x7d' :: rest)) (done : List (Text × Value)) (want : Cause)
    {depth fuel : Nat}
    (hadmits : ∀ m ∈ member :: members, dialect.admits (depth + m.2.nesting) = true)
    (hfuel : 2 * (Text.joinWith (layout.separator level) (first :: texts)).length < fuel) :
    readMembers dialect depth fuel done want
        (Text.joinWith (layout.separator level) (first :: texts) ++
          (gap ++ .scalar '\x7d' :: rest)) =
      .ok (.object (if dialect = .plain then Value.lastWins (done.reverse ++ member :: members)
        else done.reverse ++ member :: members), rest) := by
  induction hrest generalizing first member done want fuel with
  | nil =>
      obtain ⟨fuel, rfl⟩ : ∃ n, fuel = n + 1 := ⟨fuel - 1, by omega⟩
      obtain @⟨quoted, written, _, value, hname, hvalue⟩ := hfirst
      rw [Text.joinWith] at hfuel ⊢
      simp only [List.length_append, List.length_cons] at hfuel
      have hread : readValue dialect depth fuel _ = _ :=
        hvalue.read (hadmits _ List.mem_cons_self) hends (by omega)
      simp only [List.cons_append, List.append_assoc]
      exact read_members_last hname (hvalue.skip_gap _) hgap hread
  | @cons next nextMember texts members hnext hothers ih =>
      obtain ⟨fuel, rfl⟩ : ∃ n, fuel = n + 1 := ⟨fuel - 1, by omega⟩
      obtain @⟨quoted, written, name, value, hname, hvalue⟩ := hfirst
      obtain ⟨space, hseparator, hspace⟩ := separator_eq layout level
      have hcomma := congrArg List.length hseparator
      rw [join_cons_cons] at hfuel ⊢
      simp only [List.length_append, List.length_cons] at hfuel hcomma
      obtain ⟨hadmitsFirst, hadmitsRest⟩ := List.forall_mem_cons.1 hadmits
      have hread : readValue dialect depth fuel _ = _ :=
        hvalue.read hadmitsFirst (ends_number_comma (space ++
          (Text.joinWith (layout.separator level) (next :: texts) ++
            (gap ++ .scalar '\x7d' :: rest)))) (by omega)
      have hmembers : readMembers dialect depth fuel ((name, value) :: done) .nextName _ = _ :=
        ih hnext ((name, value) :: done) .nextName hadmitsRest (by omega)
      -- The next name begins with a quote, so the white space behind the comma ends there.
      obtain ⟨_, hquote⟩ := hnext.starts
      obtain ⟨t, hjoin⟩ := join_starts (layout.separator level) hquote texts
      rw [hjoin, List.cons_append] at hread hmembers
      rw [hjoin, hseparator]
      simp only [List.cons_append, List.append_assoc]
      rw [read_members_next hname (hvalue.skip_gap _) hspace rfl hread, hmembers]
      simp

theorem reads_as_object {texts : List Text} {members : List (Text × Value)}
    (h : List.Forall₂ (ReadsMember dialect) texts members) (layout : Layout) (level : Nat) :
    ReadsAs dialect (layout.enclose level '\x7b' '\x7d' texts)
      (.object (if dialect = .plain then Value.lastWins members else members)) := by
  obtain ⟨tail, htail⟩ := enclose_starts layout level '\x7b' '\x7d' texts
  refine ⟨⟨_, tail, htail, by decide⟩, fun {rest depth fuel} hadmits _ hfuel => ?_⟩
  obtain ⟨fuel, rfl⟩ : ∃ n, fuel = n + 1 :=
    ⟨fuel - 1, by rw [htail, List.length_cons] at hfuel; omega⟩
  have hhere : dialect.admits depth = true := Dialect.admits_of_le hadmits (Nat.le_add_right _ _)
  -- The plain dialect may drop members, but it admits all of them.
  have hinner : ∀ m ∈ members, dialect.admits (depth + 1 + m.2.nesting) = true := by
    intro m hm
    cases dialect with
    | plain => rfl
    | strict => exact Dialect.admits_member hadmits hm
  cases h with
  | nil =>
      cases dialect with
      | plain => rfl
      | strict => exact if_pos hhere
  | @cons first member texts members hfirst hrest =>
      rw [enclose_cons] at hfuel ⊢
      simp only [List.length_cons, List.length_append] at hfuel
      have hmembers : readMembers dialect (depth + 1) fuel [] .firstName _ = _ :=
        hfirst.members hrest layout (level + 1) (is_gap_line_break layout level)
          (ends_number_closing (.inr rfl) layout level rest) [] .firstName hinner (by omega)
      obtain ⟨_, hquote⟩ := hfirst.starts
      obtain ⟨t, hjoin⟩ := join_starts (layout.separator (level + 1)) hquote texts
      simp only [List.cons_append, List.append_assoc, List.nil_append]
      rw [hjoin, List.cons_append] at hmembers ⊢
      rw [read_value_members hhere (is_gap_line_break layout (level + 1)) rfl, hmembers]
      rfl

/-- Members with different names stay as they are. -/
theorem last_wins_of_nodup {members : List (Text × Value)} (h : (members.map (·.1)).Nodup) :
    Value.lastWins members = members := by
  -- The fold puts each member behind those kept before, so these go into the induction.
  have hfold : ∀ kept : List (Text × Value), ((kept ++ members).map (·.1)).Nodup →
      members.foldl (fun kept m => Value.put kept m.1 m.2) kept = kept ++ members := by
    clear h
    induction members with
    | nil => simp
    | cons member rest ih =>
        intro kept hkept
        have hnew : ¬ (kept.any fun m => m.1 == member.1) = true := by
          rw [List.map_append, List.nodup_append] at hkept
          simp only [List.any_eq_true, beq_iff_eq, not_exists, not_and]
          exact fun m hm => hkept.2.2 m.1 (List.mem_map_of_mem hm) member.1
            (List.mem_cons_self ..)
        rw [List.foldl_cons, Value.put, if_neg hnew, ih (kept ++ [member]) (by simpa using hkept)]
        simp
  exact hfold [] h

end Json

end ProgramInterface
