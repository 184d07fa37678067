import Mathlib.Data.List.Chain
import ProgramInterface.Proofs.Json.RoundTrip

/-!
# Reading written surrogates

Where all but ASCII is escaped, surrogates are written by number. The plain dialect reads the escape of a
surrogate that stands alone as this surrogate, but those of the two surrogates of a pair as the one code
point that the pair stands for. So a text is read back with its pairs joined, which leaves it as it is
exactly if there are none (`joined_eq_iff`), and a value is read back with the pairs in all its texts
joined (`read_joined`).
-/

namespace ProgramInterface

namespace Json

/-- Whether two code points are the surrogates of a pair, in order. -/
def isPair (first second : CodePoint) : Bool :=
  isHigh first.val && isLow second.val

/-- A text with the code point that it stands for in place of each pair of surrogates. -/
def joined : Text → Text
  | [] => []
  | [c] => [c]
  | first :: second :: rest =>
    if isPair first second then
      (CodePoint.ofNat? (joinPair first.val second.val)).getD default :: joined rest
    else first :: joined (second :: rest)

/-- Whether no pair of surrogates stands in a text. -/
def PairFree (t : Text) : Prop :=
  t.IsChain fun first second => isPair first second = false

instance (t : Text) : Decidable (PairFree t) :=
  inferInstanceAs (Decidable (t.IsChain _))

/-! ## Joined pairs -/

theorem length_joined_le (t : Text) : (joined t).length ≤ t.length := by
  induction t using joined.induct with
  | case1 => exact Nat.le_refl _
  | case2 c => exact Nat.le_refl _
  | case3 first second rest hpair ih =>
      rw [joined, if_pos hpair, List.length_cons, List.length_cons, List.length_cons]
      omega
  | case4 first second rest hpair ih =>
      rw [joined, if_neg hpair, List.length_cons, List.length_cons]
      exact Nat.succ_le_succ ih

/-- Joining the pairs of a text leaves it as it is exactly if there are none. -/
theorem joined_eq_iff (t : Text) : joined t = t ↔ PairFree t := by
  unfold PairFree
  induction t using joined.induct with
  | case1 => simp [joined]
  | case2 c => simp [joined]
  | case3 first second rest hpair ih =>
      -- A pair makes the text shorter.
      have hshort : joined (first :: second :: rest) ≠ first :: second :: rest := by
        have hle := length_joined_le rest
        refine fun heq => absurd (congrArg List.length heq) ?_
        rw [joined, if_pos hpair, List.length_cons, List.length_cons, List.length_cons]
        omega
      simp [hshort, hpair]
  | case4 first second rest hpair ih =>
      rw [joined, if_neg hpair, List.isChain_cons_cons, ← ih]
      simp [hpair]

theorem pair_free_of_well_formed {t : Text} (h : t.WellFormed) : PairFree t := by
  unfold PairFree
  induction t using joined.induct with
  | case1 => exact .nil
  | case2 c => exact .singleton c
  | case3 first second rest hpair ih =>
      cases first with
      | scalar char => simp [isPair, CodePoint.val, is_high_of_char] at hpair
      | surrogate index => cases h _ (List.mem_cons_self ..)
  | case4 first second rest hpair ih =>
      exact .cons_cons (Bool.eq_false_iff.2 hpair)
        (ih fun c hc => h c (List.mem_cons_of_mem _ hc))

/-! ## Escapes by number -/

variable {opening rest : Text}

/-- Whether a text does not go on with the escape of a second surrogate. -/
def EndsPair (rest : Text) : Prop :=
  ∀ digits, rest = .scalar '\\' :: .scalar 'u' :: digits →
    ∃ n after, readUnit .plain rest digits = .ok (n, after) ∧ isLow n = false

theorem ends_pair_quote (rest : Text) : EndsPair (.scalar '"' :: rest) :=
  nofun

/-- An escape by number is read as the code point with this number, unless that is a first surrogate and
the escape of a second one follows. -/
theorem read_numeric_alone (c : CodePoint) (hsmall : c.val < 0x10000) (start : Text)
    (hrest : rest ≠ []) (hends : isHigh c.val = true → EndsPair rest) :
    readNumeric .plain start (Text.ofChars (Text.hexadecimal 4 c.val) ++ rest) = .ok (c, rest) := by
  unfold readNumeric
  rw [read_unit_hexadecimal hsmall start hrest]
  simp only [bind, Except.bind, CodePoint.of_nat_val, Option.getD_some]
  split
  · rename_i hhigh
    split
    · rename_i digits
      obtain ⟨n, after, hread, hlow⟩ := hends hhigh digits rfl
      simp only [hread, hlow]
      simp
    · rfl
  · rfl

theorem not_low_of_high {n : Nat} (h : isHigh n = true) : n < 0x10000 ∧ isLow n = false := by
  simp only [isHigh, Bool.and_eq_true, decide_eq_true_eq] at h
  simp only [isLow, Bool.and_eq_false_iff, decide_eq_false_iff_not]
  omega

/-- Only a second surrogate is written as the escape of one. -/
theorem ends_pair_write {c : CodePoint} (h : isLow c.val = false) (hrest : rest ≠ []) :
    EndsPair (writePoint true c ++ rest) := by
  intro digits heq
  rw [heq]
  unfold writePoint at heq
  split at heq
  · rename_i hmark
    rcases hmark with rfl | rfl <;> cases heq
  · rename_i hmark
    split at heq
    · rename_i letter hletter
      unfold controlLetter? at hletter
      split at hletter <;> cases hletter <;> cases heq
    · split at heq
      · by_cases hsmall : c.val < 0x10000
        · rw [pointEscape, if_pos hsmall] at heq
          cases heq
          exact ⟨c.val, rest, read_unit_hexadecimal hsmall _ hrest, h⟩
        · -- Beyond `0xFFFF` the first of two escapes is that of a first surrogate.
          obtain ⟨high, low, hhigh, _, _, hescape⟩ :=
            point_escape_pair (Nat.not_lt.1 hsmall) c.val_lt
          obtain ⟨hbound, hlow⟩ := not_low_of_high hhigh
          rw [hescape, Text.ofChars, List.map_append, List.append_assoc] at heq
          cases heq
          exact ⟨high, _, read_unit_hexadecimal hbound _ (by simp [unitEscape]), hlow⟩
      · cases heq
        exact absurd (.inr rfl) hmark

/-! ## Strings -/

theorem write_point_surrogate (index : Fin 0x800) :
    writePoint true (.surrogate index) =
      .scalar '\\' :: .scalar 'u' ::
        Text.ofChars (Text.hexadecimal 4 (CodePoint.surrogate index).val) := by
  have hindex := index.isLt
  have hval : (CodePoint.surrogate index).val = 0xD800 + index.val := rfl
  have hletter : controlLetter? (0xD800 + index.val) = none := by
    refine Option.eq_none_iff_forall_ne_some.2 fun letter hsome => ?_
    exact Nat.not_lt.2 (Nat.le_add_right ..) (control_letter_escaped hsome).1
  rw [writePoint, if_neg (by simp), hval, hletter]
  dsimp only
  rw [if_pos (.inr ⟨rfl, by omega⟩), pointEscape, if_pos (by omega)]
  rfl

/-- A code point that was written is read back, unless it is a first surrogate and a second one
follows. -/
theorem read_string_alone {c : CodePoint} (done : Text) (fuel : Nat) (hrest : rest ≠ [])
    (hends : isHigh c.val = true → EndsPair rest) :
    readStringFrom .plain opening done (fuel + 1) (writePoint true c ++ rest) =
      readStringFrom .plain opening (c :: done) fuel rest := by
  cases c with
  | scalar char => exact read_string_point (fun _ => rfl) done fuel hrest
  | surrogate index =>
      have hsmall : (CodePoint.surrogate index).val < 0x10000 := by
        have hindex := index.isLt
        simp only [CodePoint.val]
        omega
      have hread := read_numeric_alone (.surrogate index) hsmall
        (.scalar 'u' :: (Text.ofChars (Text.hexadecimal 4 (CodePoint.surrogate index).val) ++ rest))
        hrest hends
      rw [write_point_surrogate, List.cons_append, List.cons_append, readStringFrom,
        if_neg (by decide), if_pos rfl, readEscape, hread]

theorem exists_char_of_pair {high low : Nat} (hhigh : isHigh high = true)
    (hlow : isLow low = true) : ∃ char : Char, joinPair high low = char.toNat := by
  simp only [isHigh, Bool.and_eq_true, decide_eq_true_eq] at hhigh
  simp only [isLow, Bool.and_eq_true, decide_eq_true_eq] at hlow
  have hvalid : (joinPair high low).isValidChar := by
    unfold joinPair Nat.isValidChar
    omega
  exact ⟨Char.ofNatAux _ hvalid, rfl⟩

/-- The two surrogates of a pair that were written are read as the code point that they stand for. -/
theorem read_string_pair {first second : CodePoint} (h : isPair first second = true) (done : Text)
    (fuel : Nat) (hrest : rest ≠ []) :
    readStringFrom .plain opening done (fuel + 1)
        (writePoint true first ++ (writePoint true second ++ rest)) =
      readStringFrom .plain opening
        ((CodePoint.ofNat? (joinPair first.val second.val)).getD default :: done) fuel rest := by
  obtain ⟨hhigh, hlow⟩ := Bool.and_eq_true_iff.1 h
  obtain ⟨char, hjoin⟩ := exists_char_of_pair hhigh hlow
  cases first with
  | scalar other => simp [CodePoint.val, is_high_of_char] at hhigh
  | surrogate index =>
      cases second with
      | scalar other => simp [CodePoint.val, is_low_of_char] at hlow
      | surrogate index' =>
          have hread : readNumeric .plain _ _ = _ := read_numeric_pair hhigh hlow hjoin
            (.scalar 'u' :: (Text.ofChars (Text.hexadecimal 4 (CodePoint.surrogate index).val) ++
              (writePoint true (.surrogate index') ++ rest))) hrest
          simp only [write_point_surrogate, List.cons_append] at hread ⊢
          rw [hjoin, CodePoint.of_nat_to_nat, Option.getD_some, readStringFrom,
            if_neg (by decide), if_pos rfl, readEscape, hread]

-- The induction is on the recursion of `joined`, so that a pair is read in one step and whatever else
-- stands behind a first surrogate is known not to be the escape of a second one.
theorem read_string_from_joined (t opening done rest : Text) {fuel : Nat}
    (hfuel : t.length < fuel) :
    readStringFrom .plain opening done fuel
        (t.flatMap (writePoint true) ++ .scalar '"' :: rest) =
      .ok (done.reverse ++ joined t, rest) := by
  induction t using joined.induct generalizing done fuel with
  | case1 =>
      obtain ⟨fuel, rfl⟩ : ∃ n, fuel = n + 1 := ⟨fuel - 1, by omega⟩
      simp [readStringFrom, joined]
  | case2 c =>
      rw [List.length_singleton] at hfuel
      obtain ⟨fuel, rfl⟩ : ∃ n, fuel = n + 2 := ⟨fuel - 2, by omega⟩
      rw [List.flatMap_singleton,
        read_string_alone done (fuel + 1) (by simp) fun _ => ends_pair_quote rest]
      simp [readStringFrom, joined]
  | case3 first second t hpair ih =>
      obtain ⟨fuel, rfl⟩ : ∃ n, fuel = n + 1 := ⟨fuel - 1, by omega⟩
      simp only [List.length_cons] at hfuel
      rw [joined, if_pos hpair, List.flatMap_cons, List.flatMap_cons, List.append_assoc,
        List.append_assoc, read_string_pair hpair done fuel (by simp), ih _ (by omega)]
      simp
  | case4 first second t hpair ih =>
      obtain ⟨fuel, rfl⟩ : ∃ n, fuel = n + 1 := ⟨fuel - 1, by omega⟩
      have hends : isHigh first.val = true →
          EndsPair ((second :: t).flatMap (writePoint true) ++ .scalar '"' :: rest) := by
        intro hhigh
        have hlow : isLow second.val = false := by simpa [isPair, hhigh] using hpair
        rw [List.flatMap_cons, List.append_assoc]
        exact ends_pair_write hlow (by simp)
      rw [joined, if_neg hpair, List.flatMap_cons, List.append_assoc,
        read_string_alone done fuel (by simp) hends, ih _ (by simpa using hfuel)]
      simp

/-- A text that was written as a string is read back with its pairs joined. -/
theorem reads_string_joined (t : Text) : ReadsString .plain (writeText true t) (joined t) := by
  refine ⟨⟨_, rfl⟩, fun rest => ?_⟩
  have hshape : writeText true t ++ rest =
      .scalar '"' :: (t.flatMap (writePoint true) ++ .scalar '"' :: rest) := by
    simp [writeText]
  have hlength := length_le_write true t
  rw [hshape, readString, List.drop_one, List.tail_cons]
  refine read_string_from_joined t _ [] rest ?_
  rw [List.length_cons, List.length_append]
  omega

/-! ## Values -/

mutual

/-- A value with the pairs in all its texts joined. Names that become the same by that are one. -/
def Value.joined : Value → Value
  | .text t => .text (Json.joined t)
  | .array items => .array (joinedItems items)
  | .object members => .object (Value.lastWins (joinedMembers members))
  | value => value

/-- Items with the pairs in all their texts joined. -/
def joinedItems : List Value → List Value
  | [] => []
  | item :: rest => item.joined :: joinedItems rest

/-- Members with the pairs in all their texts joined. -/
def joinedMembers : List (Text × Value) → List (Text × Value)
  | [] => []
  | (name, value) :: rest => (joined name, value.joined) :: joinedMembers rest

end

theorem joined_members_eq (members : List (Text × Value)) :
    joinedMembers members = members.map fun m => (joined m.1, m.2.joined) := by
  induction members with
  | nil => rfl
  | cons member rest ih => rw [joinedMembers, ih, List.map_cons]

mutual

/-- A value that comes back where nothing is escaped comes back with its pairs joined where all but ASCII
is. -/
theorem Value.Returns.reads_joined (level : Nat) : {v : Value} → v.Returns false →
    ReadsAs .plain (v.write Layout.line level) v.joined
  | .null, _ => Value.Returns.reads_as level trivial
  | .bool _, _ => Value.Returns.reads_as level trivial
  | .int _, h => Value.Returns.reads_as level h
  | .text t, _ => (reads_string_joined t).reads_as
  | .array _, h => reads_as_array (items_return_joined (level + 1) h) Layout.line level
  | .object _, h => reads_as_object (members_return_joined (level + 1) h.2) Layout.line level

theorem items_return_joined (level : Nat) : {items : List Value} → ItemsReturn false items →
    List.Forall₂ (ReadsAs .plain) (writeItems Layout.line level items) (joinedItems items)
  | [], _ => .nil
  | _ :: _, h => .cons (h.1.reads_joined level) (items_return_joined level h.2)

theorem members_return_joined (level : Nat) : {members : List (Text × Value)} →
    MembersReturn false members →
      List.Forall₂ (ReadsMember .plain) (writeMembers Layout.line level members)
        (joinedMembers members)
  | [], _ => .nil
  | (name, value) :: members, h => by
      rw [write_members_cons]
      exact .cons (.mk (reads_string_joined name) (h.1.2.reads_joined level))
        (members_return_joined level h.2)

end

theorem read_joined {v : Value} (h : v.Returns false) (level : Nat) :
    read .plain (v.write Layout.line level) = .ok v.joined :=
  (h.reads_joined level).read_whole (admits_plain _)

theorem joined_of_well_formed {t : Text} (h : t.WellFormed) : joined t = t :=
  (joined_eq_iff t).2 (pair_free_of_well_formed h)

mutual

/-- Without surrogates there are no pairs to join. -/
theorem Value.Returns.joined_eq : {v : Value} → v.Returns true → v.joined = v
  | .null, _ | .bool _, _ | .int _, _ => rfl
  | .text _, h => congrArg Value.text (joined_of_well_formed (h rfl))
  | .array _, h => congrArg Value.array (items_return_joined_eq h)
  | .object members, h => by
      rw [Value.joined, members_return_joined_eq h.2, last_wins_of_nodup h.1]

theorem items_return_joined_eq : {items : List Value} → ItemsReturn true items →
    joinedItems items = items
  | [], _ => rfl
  | _ :: _, h => List.cons_eq_cons.2 ⟨h.1.joined_eq, items_return_joined_eq h.2⟩

theorem members_return_joined_eq : {members : List (Text × Value)} →
    MembersReturn true members → joinedMembers members = members
  | [], _ => rfl
  | _ :: _, h => List.cons_eq_cons.2
      ⟨Prod.ext (joined_of_well_formed (h.1.1 rfl)) h.1.2.joined_eq, members_return_joined_eq h.2⟩

end

end Json

end ProgramInterface
