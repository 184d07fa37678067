import Mathlib.Data.List.Basic
import ProgramInterface.Catalogue.Types

/-!
# The first item of every name

Going through items and keeping the names seen gives, for every name but the empty one, the first
item with that name (`mem_first_by_name`). The names stand in the order in which they first occur
(`first_by_name_lists`).
-/

namespace ProgramInterface

/-- The name of an item; without one it is empty. -/
def itemName (item : Node) : Text :=
  Text.ofString (item.childText .name)

/-- Whether names are those that occur in a list, the empty one aside, each of them once and in the
order of their first occurrences. -/
structure ListsFirst (names occurrences : List Text) : Prop where
  nodup : names.Nodup
  mem_iff : ∀ name, name ∈ names ↔ name ≠ [] ∧ name ∈ occurrences
  ordered : names.Pairwise fun a b => occurrences.idxOf a < occurrences.idxOf b

theorem first_by_name_skip {seen : List Text} {item : Node} {rest : List Node}
    (h : itemName item = [] ∨ itemName item ∈ seen) :
    firstByName seen (item :: rest) = firstByName seen rest := by
  have hskip : ((itemName item).isEmpty || seen.contains (itemName item)) = true := by
    simpa using h
  rw [firstByName]
  exact if_pos hskip

theorem first_by_name_take {seen : List Text} {item : Node} {rest : List Node}
    (h : itemName item ≠ []) (hnew : itemName item ∉ seen) :
    firstByName seen (item :: rest) =
      (itemName item, item) :: firstByName (itemName item :: seen) rest := by
  have htake : ¬ ((itemName item).isEmpty || seen.contains (itemName item)) = true := by
    simp [h, hnew]
  rw [firstByName]
  exact if_neg htake

/-- An item is kept under its name if it is the first item with that name. -/
theorem mem_first_by_name {seen : List Text} {items : List Node} {name : Text} {item : Node} :
    (name, item) ∈ firstByName seen items ↔
      name ≠ [] ∧ name ∉ seen ∧ items.find? (itemName · == name) = some item := by
  induction items generalizing seen with
  | nil => simp [firstByName]
  | cons head rest ih =>
      by_cases hskip : itemName head = [] ∨ itemName head ∈ seen
      · rw [first_by_name_skip hskip, ih]
        -- A head that is left out has a name that nothing is kept under.
        refine and_congr_right fun hname => and_congr_right fun hseen => ?_
        have hne : itemName head ≠ name := by
          rintro rfl
          exact hskip.elim hname hseen
        rw [List.find?_cons_of_neg (by simpa using hne)]
      · obtain ⟨hfilled, hnew⟩ := not_or.1 hskip
        rw [first_by_name_take hfilled hnew, List.mem_cons, ih]
        by_cases hhead : itemName head = name
        · subst hhead
          rw [List.find?_cons_of_pos (by simp)]
          simp [hfilled, hnew, eq_comm]
        · rw [List.find?_cons_of_neg (by simpa using hhead)]
          simp [Ne.symm hhead]

theorem name_of_mem_first_by_name {seen : List Text} {items : List Node} {named : Text × Node}
    (h : named ∈ firstByName seen items) : itemName named.2 = named.1 := by
  obtain ⟨_, _, hfirst⟩ := mem_first_by_name.1 h
  simpa using List.find?_some hfirst

theorem name_mem_first_by_name {seen : List Text} {items : List Node} {name : Text} :
    name ∈ (firstByName seen items).map (·.1) ↔
      name ≠ [] ∧ name ∉ seen ∧ name ∈ items.map itemName := by
  constructor
  · intro h
    obtain ⟨⟨_, item⟩, hmem, rfl⟩ := List.mem_map.1 h
    obtain ⟨hname, hnew, hfind⟩ := mem_first_by_name.1 hmem
    exact ⟨hname, hnew, List.mem_map.2
      ⟨item, List.mem_of_find?_eq_some hfind, name_of_mem_first_by_name hmem⟩⟩
  · rintro ⟨hname, hnew, h⟩
    obtain ⟨item, hitem, rfl⟩ := List.mem_map.1 h
    have hsome : (items.find? (itemName · == itemName item)).isSome = true :=
      List.find?_isSome.2 ⟨item, hitem, by simp⟩
    obtain ⟨first, hfirst⟩ := Option.isSome_iff_exists.1 hsome
    exact List.mem_map.2 ⟨(itemName item, first), mem_first_by_name.2 ⟨hname, hnew, hfirst⟩, rfl⟩

/-- Items whose names are seen already are left out, and nothing else changes. -/
theorem first_by_name_seen {seen more : List Text} (h : ∀ name ∈ more, name ∈ seen)
    (items : List Node) :
    firstByName seen items =
      (firstByName more items).filter fun named => decide (named.1 ∉ seen) := by
  induction items generalizing seen more with
  | nil => rfl
  | cons head rest ih =>
      by_cases hskip : itemName head = [] ∨ itemName head ∈ more
      · rw [first_by_name_skip hskip, first_by_name_skip (hskip.imp_right (h _)), ih h]
      · obtain ⟨hfilled, hnew⟩ := not_or.1 hskip
        have hcons : ∀ name ∈ itemName head :: more, name ∈ itemName head :: seen := by
          intro name hname
          rcases List.mem_cons.1 hname with rfl | hmore
          · exact List.mem_cons_self ..
          · exact List.mem_cons_of_mem _ (h name hmore)
        rw [first_by_name_take hfilled hnew]
        by_cases hseen : itemName head ∈ seen
        · -- The name counts as seen either way, so taking it makes no difference behind the head.
          have hsame : ∀ name ∈ itemName head :: more, name ∈ seen := fun name hname =>
            (List.mem_cons.1 hname).elim (fun heq => heq ▸ hseen) (h name)
          rw [first_by_name_skip (.inr hseen), List.filter_cons_of_neg (by simpa using hseen),
            ih hsame]
        · have hrest : ∀ named ∈ firstByName (itemName head :: more) rest,
              decide (named.1 ∉ itemName head :: seen) = decide (named.1 ∉ seen) := by
            intro named hnamed
            have hne : named.1 ≠ itemName head := fun heq =>
              (name_mem_first_by_name.1 (List.mem_map_of_mem hnamed)).2.1
                (heq ▸ List.mem_cons_self ..)
            simp [hne]
          rw [first_by_name_take hfilled hseen, List.filter_cons_of_pos (by simpa using hseen),
            ih hcons, List.filter_congr hrest]

/-- Of items put behind others those are kept whose names none of the others has. -/
theorem first_by_name_append (front back : List Node) :
    firstByName [] (front ++ back) =
      firstByName [] front ++ (firstByName [] back).filter fun named =>
        decide (named.1 ∉ (firstByName [] front).map (·.1)) := by
  -- The names seen are carried along, so the induction is over any of them.
  have happend : ∀ seen, firstByName seen (front ++ back) =
      firstByName seen front ++ (firstByName [] back).filter fun named =>
        decide (named.1 ∉ seen ∧ named.1 ∉ (firstByName seen front).map (·.1)) := by
    induction front with
    | nil =>
        intro seen
        have hnone : ∀ name ∈ ([] : List Text), name ∈ seen := nofun
        rw [List.nil_append, first_by_name_seen hnone back]
        simp [firstByName]
    | cons head rest ih =>
        intro seen
        rw [List.cons_append]
        by_cases hskip : itemName head = [] ∨ itemName head ∈ seen
        · rw [first_by_name_skip hskip, first_by_name_skip hskip, ih]
        · obtain ⟨hfilled, hnew⟩ := not_or.1 hskip
          rw [first_by_name_take hfilled hnew, first_by_name_take hfilled hnew, ih,
            List.cons_append]
          congr 2
          refine List.filter_congr fun named _ => ?_
          simp only [List.map_cons, List.mem_cons, not_or, decide_eq_decide]
          tauto
  rw [happend []]
  simp

theorem first_by_name_nodup (seen : List Text) (items : List Node) :
    ((firstByName seen items).map (·.1)).Nodup := by
  induction items generalizing seen with
  | nil => exact List.nodup_nil
  | cons head rest ih =>
      by_cases hskip : itemName head = [] ∨ itemName head ∈ seen
      · rw [first_by_name_skip hskip]
        exact ih seen
      · obtain ⟨hfilled, hnew⟩ := not_or.1 hskip
        rw [first_by_name_take hfilled hnew, List.map_cons, List.nodup_cons]
        refine ⟨fun hmem => ?_, ih (itemName head :: seen)⟩
        exact (name_mem_first_by_name.1 hmem).2.1 (List.mem_cons_self ..)

theorem first_by_name_ordered (seen : List Text) (items : List Node) :
    ((firstByName seen items).map (·.1)).Pairwise fun a b =>
      (items.map itemName).idxOf a < (items.map itemName).idxOf b := by
  induction items generalizing seen with
  | nil => exact List.Pairwise.nil
  | cons head rest ih =>
      rw [List.map_cons]
      by_cases hskip : itemName head = [] ∨ itemName head ∈ seen
      · have hne : ∀ {a : Text}, a ∈ (firstByName seen rest).map (·.1) → itemName head ≠ a := by
          rintro _ ha rfl
          exact hskip.elim (name_mem_first_by_name.1 ha).1 (name_mem_first_by_name.1 ha).2.1
        -- In front of the other names it moves all first occurrences alike.
        rw [first_by_name_skip hskip]
        refine (ih seen).imp_of_mem fun ha hb hlt => ?_
        rw [List.idxOf_cons_ne _ (hne ha), List.idxOf_cons_ne _ (hne hb)]
        exact Nat.succ_lt_succ hlt
      · obtain ⟨hfilled, hnew⟩ := not_or.1 hskip
        have hne : ∀ {a : Text}, a ∈ (firstByName (itemName head :: seen) rest).map (·.1) →
            itemName head ≠ a := by
          rintro _ ha rfl
          exact (name_mem_first_by_name.1 ha).2.1 (List.mem_cons_self ..)
        rw [first_by_name_take hfilled hnew, List.map_cons, List.pairwise_cons]
        refine ⟨fun b hb => ?_, (ih (itemName head :: seen)).imp_of_mem fun ha hb hlt => ?_⟩
        · rw [List.idxOf_cons_self, List.idxOf_cons_ne _ (hne hb)]
          exact Nat.succ_pos _
        · rw [List.idxOf_cons_ne _ (hne ha), List.idxOf_cons_ne _ (hne hb)]
          exact Nat.succ_lt_succ hlt

/-- The kept names are those that occur, in the order of their first occurrences. -/
theorem first_by_name_lists (items : List Node) :
    ListsFirst ((firstByName [] items).map (·.1)) (items.map itemName) where
  nodup := first_by_name_nodup [] items
  mem_iff name := by simp [name_mem_first_by_name]
  ordered := first_by_name_ordered [] items

end ProgramInterface
