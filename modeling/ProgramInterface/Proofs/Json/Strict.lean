import Mathlib.Data.List.Induction
import Mathlib.Data.List.TakeWhile
import ProgramInterface.Proofs.Json.Parts

/-!
# What the strict dialect reads

The strict dialect reads no surrogate, no integer that is too long and nothing that is nested too deep.
Hence every part of a value that it reads could have been written for it (`read_strict`),
floating-point numbers and names that stand twice aside.
-/

namespace ProgramInterface

namespace Json

variable {start t rest : Text}

/-! ## Strings -/

theorem read_unit_rest {n : Nat} (h : readUnit .strict start t = .ok (n, rest)) : rest ⊆ t := by
  unfold readUnit at h
  dsimp only at h
  generalize (t.take 4).findIdx? (fun c => (hexDigit? c).isNone) = found at h
  split at h
  · cases h
  · cases found with
    | some i => cases h
    | none =>
        cases h
        exact List.drop_subset 4 t

/-- A number that is not that of a surrogate gives no surrogate. -/
theorem not_surrogate_of_escape {n : Nat} (h : CodePoint.isSurrogateNumber n = false) :
    ((CodePoint.ofNat? n).getD default).isSurrogate = false := by
  generalize hpoint : CodePoint.ofNat? n = point
  cases point with
  | none => rfl
  | some c => exact CodePoint.not_surrogate_of_number h hpoint

theorem not_surrogate_alone {n : Nat} (hhigh : ¬ isHigh n = true) (hlow : ¬ isLow n = true) :
    CodePoint.isSurrogateNumber n = false := by
  simp only [isHigh, isLow, CodePoint.isSurrogateNumber, Bool.and_eq_true, Bool.and_eq_false_iff,
    decide_eq_true_eq, decide_eq_false_iff_not] at *
  omega

theorem not_surrogate_joined (high low : Nat) :
    CodePoint.isSurrogateNumber (joinPair high low) = false := by
  have hlarge : 0x10000 ≤ joinPair high low := by
    unfold joinPair
    omega
  rw [CodePoint.isSurrogateNumber, Bool.and_eq_false_iff, decide_eq_false_iff_not,
    decide_eq_false_iff_not]
  omega

theorem read_numeric_strict {c : CodePoint} (h : readNumeric .strict start t = .ok (c, rest)) :
    c.isSurrogate = false ∧ rest ⊆ t := by
  obtain ⟨⟨n, after⟩, hunit, h⟩ := exists_of_bind_eq_ok h
  have hafter : after ⊆ t := read_unit_rest hunit
  dsimp only at h
  split at h
  · cases h
  · rename_i hlow
    split at h
    · split at h
      · obtain ⟨⟨m, last⟩, hsecond, h⟩ := exists_of_bind_eq_ok h
        dsimp only at h
        split at h
        · obtain ⟨rfl, rfl⟩ := Prod.mk.inj (Except.ok.inj h)
          refine ⟨not_surrogate_of_escape (not_surrogate_joined n m), fun x hx => hafter ?_⟩
          exact List.mem_cons_of_mem _ (List.mem_cons_of_mem _ (read_unit_rest hsecond hx))
        · cases h
      · cases h
      · cases h
    · rename_i hhigh
      obtain ⟨rfl, rfl⟩ := Prod.mk.inj (Except.ok.inj h)
      exact ⟨not_surrogate_of_escape (not_surrogate_alone hhigh hlow), hafter⟩

theorem read_escape_strict {opening : Text} {c : CodePoint}
    (h : readEscape .strict opening t = .ok (c, rest)) : c.isSurrogate = false ∧ rest ⊆ t := by
  unfold readEscape at h
  split at h
  · cases h
  · obtain ⟨hc, hrest⟩ := read_numeric_strict h
    exact ⟨hc, fun x hx => List.mem_cons_of_mem _ (hrest hx)⟩
  · split at h
    · cases h
      exact ⟨rfl, List.subset_cons_self _ _⟩
    · cases h

theorem read_string_from_strict {opening done s : Text} {fuel : Nat} (ht : t.WellFormed)
    (hdone : done.WellFormed) (h : readStringFrom .strict opening done fuel t = .ok (s, rest)) :
    s.WellFormed ∧ rest ⊆ t := by
  induction fuel generalizing done t with
  | zero => cases h
  | succ fuel ih =>
      cases t with
      | nil => cases h
      | cons c tail =>
          obtain ⟨hc, htail⟩ := Text.well_formed_cons.1 ht
          have hbehind : ∀ {after : Text}, after ⊆ tail → after ⊆ c :: tail :=
            fun hafter x hx => List.mem_cons_of_mem _ (hafter hx)
          rw [readStringFrom] at h
          split at h
          · cases h
            exact ⟨fun x hx => hdone x (List.mem_reverse.1 hx), List.subset_cons_self _ _⟩
          · split at h
            · split at h
              · rename_i point after hescape
                obtain ⟨hpoint, hafter⟩ := read_escape_strict hescape
                obtain ⟨hs, hrest⟩ := ih (fun x hx => htail x (hafter hx))
                  (Text.well_formed_cons.2 ⟨hpoint, hdone⟩) h
                exact ⟨hs, hbehind fun x hx => hafter (hrest hx)⟩
              · cases h
            · split at h
              · cases h
              · obtain ⟨hs, hrest⟩ := ih htail (Text.well_formed_cons.2 ⟨hc, hdone⟩) h
                exact ⟨hs, hbehind hrest⟩

theorem read_string_strict {s : Text} (ht : t.WellFormed)
    (h : readString .strict t = .ok (s, rest)) : s.WellFormed ∧ rest ⊆ t := by
  have hdrop : t.drop 1 ⊆ t := List.drop_subset 1 t
  obtain ⟨hs, hrest⟩ := read_string_from_strict (fun x hx => ht x (hdrop hx)) Text.well_formed_nil h
  exact ⟨hs, fun x hx => hdrop (hrest hx)⟩

/-! ## Numbers -/

theorem read_digits_eq_ok {digits : Text} (h : readDigits start t = .ok (digits, rest)) :
    digits ≠ [] ∧ (∀ c ∈ digits, isDigit c = true) ∧ rest ⊆ t := by
  unfold readDigits at h
  split at h
  · cases h
  · rename_i c tail
    split at h
    · rename_i hdigit
      cases h
      exact ⟨by simp [hdigit], fun x hx => List.mem_takeWhile_imp hx, List.dropWhile_subset _⟩
    · cases h

theorem digits_value_concat (digits : Text) (c : CodePoint) :
    digitsValue (digits ++ [c]) = digitsValue digits * 10 + (c.val - 0x30) := by
  rw [digitsValue, List.foldl_append]
  rfl

theorem digits_value_lt {digits : Text} (h : ∀ c ∈ digits, isDigit c = true) :
    digitsValue digits < Nat.pow 10 digits.length := by
  induction digits using List.reverseRecOn with
  | nil => exact Nat.zero_lt_one
  | append_singleton front last ih =>
      obtain ⟨hfront, hlast⟩ := List.forall_mem_append.1 h
      have hvalue := ih hfront
      have hdigit : isDigit last = true := hlast last (.head _)
      simp only [isDigit, Bool.and_eq_true, decide_eq_true_eq] at hdigit
      simp only [Nat.pow_eq] at hvalue ⊢
      rw [digits_value_concat, List.length_append, List.length_singleton, Nat.pow_succ]
      omega

theorem read_whole_eq_ok {dialect : Dialect} {whole : Text}
    (h : readWhole dialect start t = .ok (whole, rest)) :
    whole ≠ [] ∧ (∀ c ∈ whole, isDigit c = true) ∧ rest ⊆ t := by
  have hzero : ∀ {after whole rest : Text},
      (.ok ((.scalar '0' :: after).take 1, after) : Reading Text) = .ok (whole, rest) →
      whole ≠ [] ∧ (∀ c ∈ whole, isDigit c = true) ∧ rest ⊆ .scalar '0' :: after := by
    rintro after _ _ ⟨⟩
    exact ⟨nofun, by simp [isDigit, CodePoint.val], List.subset_cons_self _ _⟩
  unfold readWhole at h
  split at h
  · split at h
    · split at h
      · cases h
      · exact hzero h
    · exact hzero h
  · exact read_digits_eq_ok h

theorem read_fraction_rest {fraction : Option Text}
    (h : readFraction .strict start t = .ok (fraction, rest)) : rest ⊆ t := by
  unfold readFraction at h
  split at h
  · split at h
    · rename_i hdigits
      cases h
      obtain ⟨_, _, hrest⟩ := read_digits_eq_ok hdigits
      exact fun x hx => List.mem_cons_of_mem _ (hrest hx)
    · rename_i hdialect
      cases hdialect
    · cases h
  · cases h
    exact List.Subset.refl _

theorem read_exponent_rest {exponent : Option Int}
    (h : readExponent .strict start t = .ok (exponent, rest)) : rest ⊆ t := by
  unfold readExponent at h
  split at h
  · rename_i c tail
    split at h
    · dsimp only at h
      split at h
      · rename_i hdigits
        cases h
        obtain ⟨_, _, hrest⟩ := read_digits_eq_ok hdigits
        intro x hx
        have hbehind := hrest hx
        refine List.mem_cons_of_mem _ ?_
        -- Behind a sign the digits begin one code point later.
        split at hbehind
        · exact List.mem_cons_of_mem _ hbehind
        · exact List.mem_cons_of_mem _ hbehind
        · exact hbehind
      · rename_i hdialect
        cases hdialect
      · cases h
    · cases h
      exact List.Subset.refl _
  · cases h
    exact List.Subset.refl _

/-- Whether a value is one that the strict dialect reads, what it holds aside: a text without
surrogates, an integer that is short enough, or an object with such texts for names. -/
def Value.IsStrict : Value → Prop
  | .int n => IntegerText.fits n = true
  | .text t => t.WellFormed
  | .object members => ∀ m ∈ members, m.1.WellFormed
  | _ => True

/-- Whether a value is one that a text keeps, what it holds aside: no floating-point number, and an
object only with different names. -/
def Value.IsExact : Value → Prop
  | .float _ => False
  | .object members => (members.map (·.1)).Nodup
  | _ => True

/-- What comes back where all but ASCII is escaped is what the strict dialect reads at all and a text
keeps. -/
theorem readable_iff {v : Value} : v.IsReadable true ↔ v.IsExact ∧ v.IsStrict := by
  cases v <;> simp [Value.IsReadable, Value.IsExact, Value.IsStrict]

/-- The number that some digits denote is not longer than these. -/
theorem int_strict_of_digits (negative : Bool) {digits : Text} (hne : digits ≠ [])
    (hdigits : ∀ c ∈ digits, isDigit c = true) (h : digits.length ≤ IntegerText.decimalLimit) :
    (Value.int (if negative then -(digitsValue digits : Int) else digitsValue digits)).IsStrict := by
  have hlength : (Text.ofNat (digitsValue digits)).length ≤ digits.length :=
    (Text.length_of_nat_le_iff (List.length_pos_iff.2 hne)).2 (digits_value_lt hdigits)
  have hsize : (if negative then -(digitsValue digits : Int) else digitsValue digits).natAbs =
      digitsValue digits := by
    cases negative <;> simp
  rw [Value.IsStrict, IntegerText.fits_iff_length, hsize]
  exact Nat.le_trans hlength h

/-- A value without parts satisfies a condition with all its parts if it does so itself. -/
theorem all_scalar {v : Value} {p : Value → Prop} (hparts : v.parts = [v]) (h : p v) : v.All p := by
  rw [Value.All, hparts, List.forall_mem_singleton]
  exact h

theorem read_number_strict {negative : Bool} {v : Value}
    (h : readNumber .strict negative start t = .ok (v, rest)) :
    v.All Value.IsStrict ∧ v.nesting = 0 ∧ rest ⊆ t := by
  obtain ⟨⟨whole, afterWhole⟩, hwhole, h⟩ := exists_of_bind_eq_ok h
  obtain ⟨⟨fraction, afterFraction⟩, hfraction, h⟩ := exists_of_bind_eq_ok h
  obtain ⟨⟨exponent, afterExponent⟩, hexponent, h⟩ := exists_of_bind_eq_ok h
  obtain ⟨hne, hdigits, hbehind⟩ := read_whole_eq_ok hwhole
  have hrest : afterExponent ⊆ t := fun x hx =>
    hbehind (read_fraction_rest hfraction (read_exponent_rest hexponent hx))
  dsimp only at h
  split at h
  · split at h
    · cases h
    · rename_i hshort
      cases h
      have hint := int_strict_of_digits negative hne hdigits (Nat.not_lt.1 hshort)
      exact ⟨all_scalar rfl hint, rfl, hrest⟩
  · cases h
    exact ⟨all_scalar rfl trivial, rfl, hrest⟩

theorem read_word_rest {value v : Value} {letters : List Char}
    (h : readWord start value letters t = .ok (v, rest)) : v = value ∧ rest ⊆ t := by
  induction letters generalizing t with
  | nil =>
      cases h
      exact ⟨rfl, List.Subset.refl _⟩
  | cons letter letters ih =>
      cases t with
      | nil => cases h
      | cons c tail =>
          rw [readWord] at h
          split at h
          · obtain ⟨hv, hrest⟩ := ih h
            exact ⟨hv, fun x hx => List.mem_cons_of_mem _ (hrest hx)⟩
          · cases h

theorem read_scalar_strict {v : Value} (h : readScalar .strict t = .ok (v, rest)) :
    v.All Value.IsStrict ∧ v.nesting = 0 ∧ rest ⊆ t := by
  have hword : ∀ {start tail : Text} {value : Value} {letters : List Char},
      readWord start value letters tail = .ok (v, rest) → tail ⊆ t → value.All Value.IsStrict →
        value.nesting = 0 → v.All Value.IsStrict ∧ v.nesting = 0 ∧ rest ⊆ t := by
    intro start tail value letters h htail hvalue hflat
    obtain ⟨rfl, hrest⟩ := read_word_rest h
    exact ⟨hvalue, hflat, fun x hx => htail (hrest hx)⟩
  have hone : ∀ (c : CodePoint) (tail : Text), tail ⊆ c :: tail := List.subset_cons_self
  unfold readScalar at h
  split at h
  · exact hword h (hone _ _) (all_scalar rfl trivial) rfl
  · exact hword h (hone _ _) (all_scalar rfl trivial) rfl
  · exact hword h (hone _ _) (all_scalar rfl trivial) rfl
  · exact hword h (hone _ _) (all_scalar rfl trivial) rfl
  · exact hword h (hone _ _) (all_scalar rfl trivial) rfl
  · exact hword h (fun x hx => hone _ _ (hone _ _ hx)) (all_scalar rfl trivial) rfl
  · obtain ⟨hv, hflat, hrest⟩ := read_number_strict h
    exact ⟨hv, hflat, fun x hx => hone _ _ (hrest hx)⟩
  · split at h
    · exact read_number_strict h
    · cases h
  · cases h

/-! ## Values -/

theorem skip_gap_subset (t : Text) : skipGap t ⊆ t :=
  List.dropWhile_subset _

/-- Whether a value with a number of arrays and objects around it is one that the strict dialect
reads there. -/
structure Value.StrictAt (depth : Nat) (v : Value) : Prop where
  parts : v.All Value.IsStrict
  within : depth + v.nesting ≤ nestingLimit

theorem strict_at_items {depth : Nat} {items : List Value} (hdepth : depth ≤ nestingLimit)
    (h : ∀ item ∈ items, item.StrictAt (depth + 1)) :
    (Value.array items.reverse).StrictAt depth where
  parts := Value.all_array.2 ⟨trivial, fun item hitem => (h item (List.mem_reverse.1 hitem)).parts⟩
  within := by
    have hitems : (Value.array items.reverse).nesting ≤ nestingLimit - depth := by
      refine nesting_array_le_iff.2 fun item hitem => ?_
      have hwithin := (h item (List.mem_reverse.1 hitem)).within
      omega
    omega

theorem strict_at_members {depth : Nat} {members : List (Text × Value)}
    (hdepth : depth ≤ nestingLimit)
    (h : ∀ m ∈ members, m.1.WellFormed ∧ m.2.StrictAt (depth + 1)) :
    (Value.object members.reverse).StrictAt depth where
  parts := Value.all_object.2 ⟨fun m hm => (h m (List.mem_reverse.1 hm)).1,
    fun m hm => (h m (List.mem_reverse.1 hm)).2.parts⟩
  within := by
    have hmembers : (Value.object members.reverse).nesting ≤ nestingLimit - depth := by
      refine nesting_object_le_iff.2 fun m hm => ?_
      have hwithin := (h m (List.mem_reverse.1 hm)).2.within
      omega
    omega

theorem strict_at_scalar {depth : Nat} {v : Value} (hdepth : depth ≤ nestingLimit)
    (h : v.All Value.IsStrict) (hflat : v.nesting = 0) : v.StrictAt depth :=
  ⟨h, by rw [hflat]; exact hdepth⟩

/-- What the three readers of values, items and members give with some fuel. The last two are given
the depth of the parts, which is one more than that of the whole. -/
structure ReadsStrictly (fuel : Nat) : Prop where
  value : ∀ {depth : Nat} {t rest : Text} {v : Value}, t.WellFormed →
    readValue .strict depth fuel t = .ok (v, rest) → v.StrictAt depth ∧ rest ⊆ t
  items : ∀ {depth : Nat} {t rest : Text} {done : List Value} {v : Value}, t.WellFormed →
    depth ≤ nestingLimit → (∀ item ∈ done, item.StrictAt (depth + 1)) →
      readItems .strict (depth + 1) fuel done t = .ok (v, rest) → v.StrictAt depth ∧ rest ⊆ t
  members : ∀ {depth : Nat} {t rest : Text} {done : List (Text × Value)} {want : Cause} {v : Value},
    t.WellFormed → depth ≤ nestingLimit →
      (∀ m ∈ done, m.1.WellFormed ∧ m.2.StrictAt (depth + 1)) →
        readMembers .strict (depth + 1) fuel done want t = .ok (v, rest) →
          v.StrictAt depth ∧ rest ⊆ t

theorem ReadsStrictly.zero : ReadsStrictly 0 where
  value := by rintro _ _ _ _ _ ⟨⟩
  items := by rintro _ _ _ _ _ _ _ _ ⟨⟩
  members := by rintro _ _ _ _ _ _ _ _ _ ⟨⟩

/-- What stands behind white space and a mark stands in the text. -/
theorem behind_mark {mark : CodePoint} {tail : Text} (h : skipGap t = mark :: tail) :
    skipGap tail ⊆ t := fun _ hx =>
  skip_gap_subset t (h ▸ List.mem_cons_of_mem _ (skip_gap_subset tail hx))

theorem after_mark {mark : CodePoint} {tail : Text} (h : skipGap t = mark :: tail) :
    tail ⊆ t := fun _ hx =>
  skip_gap_subset t (h ▸ List.mem_cons_of_mem _ hx)

theorem ReadsStrictly.value_succ {depth fuel : Nat} (ih : ReadsStrictly fuel) {v : Value}
    (ht : t.WellFormed) (h : readValue .strict depth (fuel + 1) t = .ok (v, rest)) :
    v.StrictAt depth ∧ rest ⊆ t := by
  have hinner : ∀ {c : CodePoint} {tail : Text}, t = c :: tail → skipGap tail ⊆ t :=
    fun ht x hx => ht ▸ List.mem_cons_of_mem _ (skip_gap_subset _ hx)
  unfold readValue at h
  dsimp only at h
  split at h
  · rename_i hadmits
    have hdepth : depth ≤ nestingLimit := admits_strict_iff.1 hadmits
    split at h
    -- A string, an array, an object, or a scalar that is told by its first character.
    · rename_i tail
      cases hstring : readString .strict (.scalar '"' :: tail) with
      | error fault => rw [hstring] at h; cases h
      | ok found =>
          obtain ⟨s, after⟩ := found
          rw [hstring] at h
          cases h
          obtain ⟨hs, hrest⟩ := read_string_strict ht hstring
          exact ⟨strict_at_scalar hdepth (all_scalar rfl hs) rfl, hrest⟩
    · rename_i tail
      split at h
      · cases h
      · rename_i hclosing
        cases h
        exact ⟨strict_at_items hdepth (List.forall_mem_nil _),
          fun x hx => List.mem_cons_of_mem _ (after_mark hclosing hx)⟩
      · have hsubset := hinner rfl
        obtain ⟨hv, hrest⟩ :=
          ih.items (fun x hx => ht x (hsubset hx)) hdepth (List.forall_mem_nil _) h
        exact ⟨hv, fun x hx => hsubset (hrest hx)⟩
    · rename_i tail
      split at h
      · rename_i hclosing
        cases h
        exact ⟨strict_at_members hdepth (List.forall_mem_nil _),
          fun x hx => List.mem_cons_of_mem _ (after_mark hclosing hx)⟩
      · have hsubset := hinner rfl
        obtain ⟨hv, hrest⟩ :=
          ih.members (fun x hx => ht x (hsubset hx)) hdepth (List.forall_mem_nil _) h
        exact ⟨hv, fun x hx => hsubset (hrest hx)⟩
    · obtain ⟨hv, hflat, hrest⟩ := read_scalar_strict h
      exact ⟨strict_at_scalar hdepth hv hflat, hrest⟩
  · cases h

theorem ReadsStrictly.items_succ {depth fuel : Nat} (ih : ReadsStrictly fuel) {done : List Value}
    {v : Value} (ht : t.WellFormed) (hdepth : depth ≤ nestingLimit)
    (hdone : ∀ item ∈ done, item.StrictAt (depth + 1))
    (h : readItems .strict (depth + 1) (fuel + 1) done t = .ok (v, rest)) :
    v.StrictAt depth ∧ rest ⊆ t := by
  unfold readItems at h
  split at h
  · cases h
  · rename_i item after hitem
    obtain ⟨hvalue, hafter⟩ := ih.value ht hitem
    have hmore : ∀ part ∈ item :: done, part.StrictAt (depth + 1) :=
      List.forall_mem_cons.2 ⟨hvalue, hdone⟩
    split at h
    · rename_i hcomma
      have hnext := behind_mark hcomma
      split at h
      · cases h
      · cases h
      · obtain ⟨hv, hrest⟩ := ih.items (fun x hx => ht x (hafter (hnext hx))) hdepth hmore h
        exact ⟨hv, fun x hx => hafter (hnext (hrest hx))⟩
    · rename_i hclosing
      cases h
      exact ⟨strict_at_items hdepth hmore, fun x hx => hafter (after_mark hclosing hx)⟩
    · cases h

theorem ReadsStrictly.members_succ {depth fuel : Nat} (ih : ReadsStrictly fuel)
    {done : List (Text × Value)} {want : Cause} {v : Value} (ht : t.WellFormed)
    (hdepth : depth ≤ nestingLimit)
    (hdone : ∀ m ∈ done, m.1.WellFormed ∧ m.2.StrictAt (depth + 1))
    (h : readMembers .strict (depth + 1) (fuel + 1) done want t = .ok (v, rest)) :
    v.StrictAt depth ∧ rest ⊆ t := by
  unfold readMembers at h
  split at h
  · split at h
    · cases h
    · rename_i name afterName hname
      obtain ⟨hwellFormed, hbehindName⟩ := read_string_strict ht hname
      split at h
      · rename_i hcolon
        have hvalueText := behind_mark hcolon
        split at h
        · cases h
        · rename_i value afterValue hvalue
          obtain ⟨hstrict, hbehindValue⟩ :=
            ih.value (fun x hx => ht x (hbehindName (hvalueText hx))) hvalue
          have hafter : afterValue ⊆ _ := fun x hx => hbehindName (hvalueText (hbehindValue hx))
          -- The member is added to those that are done; a comma or the closing brace follows.
          have hmore : ∀ m ∈ (name, value) :: done, m.1.WellFormed ∧ m.2.StrictAt (depth + 1) :=
            List.forall_mem_cons.2 ⟨⟨hwellFormed, hstrict⟩, hdone⟩
          split at h
          · rename_i hcomma
            have hnext := behind_mark hcomma
            obtain ⟨hv, hrest⟩ := ih.members (fun x hx => ht x (hafter (hnext hx))) hdepth hmore h
            exact ⟨hv, fun x hx => hafter (hnext (hrest hx))⟩
          · rename_i hclosing
            cases h
            exact ⟨strict_at_members hdepth hmore, fun x hx => hafter (after_mark hclosing hx)⟩
          · cases h
      · cases h
  · cases h

/-- By induction on the fuel, which the three readers pass on in turn. -/
theorem reads_strictly (fuel : Nat) : ReadsStrictly fuel := by
  induction fuel with
  | zero => exact .zero
  | succ fuel ih => exact ⟨ih.value_succ, ih.items_succ, ih.members_succ⟩

/-- Every part of what the strict dialect reads is one that it reads, and none lies too deep. -/
theorem read_strict {v : Value} (ht : t.WellFormed) (h : read .strict t = .ok v) :
    v.StrictAt 0 := by
  obtain ⟨⟨value, after⟩, hvalue, h⟩ := exists_of_bind_eq_ok h
  have hread := (reads_strictly _).value (fun x hx => ht x (skip_gap_subset t hx)) hvalue
  dsimp only at h
  split at h
  · cases h
    exact hread.1
  · cases h

end Json

end ProgramInterface
