import ProgramInterface.Path

/-!
# Paths and their texts

A path that was read from a text is well-formed, and the text of a well-formed path is read as that
path (`of_text_text`).
-/

namespace ProgramInterface

namespace Path

/-- Whether the names of a path are such that reading the path's text keeps them. -/
def WellFormed (path : Path) : Prop :=
  ∀ name ∈ path.names, isName name = true ∧ .scalar '/' ∉ name

theorem is_name_iff {name : Text} : isName name = true ↔ name ≠ [] ∧ name ≠ Text.ofString "." := by
  simp [isName]

/-! ## Names between strokes -/

theorem not_mem_split_strokes {t part : Text} {done : List Text}
    (hdone : ∀ name ∈ done, .scalar '/' ∉ name) (hpart : .scalar '/' ∉ part) :
    ∀ name ∈ splitStrokes done part t, .scalar '/' ∉ name := by
  have hnext : ∀ name ∈ part.reverse :: done, .scalar '/' ∉ name :=
    List.forall_mem_cons.2 ⟨mt List.mem_reverse.1 hpart, hdone⟩
  induction t generalizing done part with
  | nil => exact hnext
  | cons c rest ih =>
      rw [splitStrokes]
      split
      · exact ih hnext (List.not_mem_nil) (List.forall_mem_cons.2 ⟨List.not_mem_nil, hnext⟩)
      · rename_i hstroke
        have hpart : .scalar '/' ∉ c :: part :=
          List.not_mem_cons_of_ne_of_not_mem (Ne.symm hstroke) hpart
        exact ih hdone hpart (List.forall_mem_cons.2 ⟨mt List.mem_reverse.1 hpart, hdone⟩)

/-- A path that was read is well-formed. -/
theorem well_formed_of_text (t : Text) : (ofText t).WellFormed := by
  intro name hname
  obtain ⟨hmem, hisName⟩ := List.mem_filter.1 hname
  have hstroke := not_mem_split_strokes (List.forall_mem_nil _) List.not_mem_nil name
    (List.mem_reverse.1 hmem)
  exact ⟨hisName, hstroke⟩

theorem split_strokes_append {name : Text} (h : .scalar '/' ∉ name) (done : List Text)
    (part rest : Text) :
    splitStrokes done part (name ++ rest) = splitStrokes done (name.reverse ++ part) rest := by
  induction name generalizing part with
  | nil => rfl
  | cons c name ih =>
      have hc : c ≠ .scalar '/' := (List.ne_of_not_mem_cons h).symm
      rw [List.cons_append, splitStrokes, if_neg hc, ih (List.not_mem_of_not_mem_cons h),
        List.reverse_cons, List.append_assoc, List.singleton_append]

theorem split_strokes_join {names : List Text} (h : ∀ name ∈ names, .scalar '/' ∉ name)
    (hne : names ≠ []) (done : List Text) :
    splitStrokes done [] (Text.joinWith "/" names) = names.reverse ++ done := by
  induction names generalizing done with
  | nil => contradiction
  | cons name rest ih =>
      obtain ⟨hname, hrest⟩ := List.forall_mem_cons.1 h
      cases rest with
      | nil =>
          have hsplit := split_strokes_append hname done [] []
          rw [List.append_nil, List.append_nil] at hsplit
          rw [Text.joinWith, hsplit, splitStrokes, List.reverse_reverse]
          rfl
      | cons next others =>
          show splitStrokes done [] (name ++ [.scalar '/'] ++ _) = _
          rw [List.append_assoc, split_strokes_append hname, List.singleton_append, splitStrokes,
            if_pos rfl, ih hrest (List.cons_ne_nil _ _)]
          simp

/-- The names of a text that begins with a root are those behind it. -/
theorem names_behind {names : List Text} (h : ∀ name ∈ names, isName name = true ∧ .scalar '/' ∉ name)
    (done : List Text) (hdone : ∀ name ∈ done, isName name = false) :
    (splitStrokes done [] (Text.joinWith "/" names)).reverse.filter isName = names := by
  have hnames : names.filter isName = names :=
    List.filter_eq_self.2 fun name hname => (h name hname).1
  have hdropped : done.filter isName = [] :=
    List.filter_eq_nil_iff.2 fun name hname => by simp [hdone name hname]
  cases names with
  | nil => simpa [Text.joinWith, splitStrokes, isName] using hdone
  | cons name rest =>
      rw [split_strokes_join (fun name hname => (h name hname).2) (List.cons_ne_nil _ _)]
      simp only [List.reverse_append, List.reverse_reverse, List.filter_append, hnames,
        List.filter_reverse, hdropped, List.reverse_nil, List.nil_append]

/-- Joined names do not begin with a stroke. -/
theorem join_head {names : List Text} (h : ∀ name ∈ names, isName name = true ∧ .scalar '/' ∉ name) :
    (Text.joinWith "/" names).head? ≠ some (.scalar '/') := by
  cases names with
  | nil => nofun
  | cons name rest =>
      obtain ⟨⟨hisName, hstroke⟩, _⟩ := List.forall_mem_cons.1 h
      cases name with
      | nil => exact absurd rfl (is_name_iff.1 hisName).1
      | cons c name =>
          have hc : c ≠ .scalar '/' := (List.ne_of_not_mem_cons hstroke).symm
          cases rest <;> simpa [Text.joinWith] using hc

theorem root_of_relative {t : Text} (h : t.head? ≠ some (.scalar '/')) : rootOf t = .relative := by
  obtain _ | ⟨c, rest⟩ := t
  · rfl
  · have hc : c ≠ .scalar '/' := fun heq => h (congrArg some heq)
    simp [rootOf, hc]

theorem root_of_absolute {t : Text} (h : t.head? ≠ some (.scalar '/')) :
    rootOf (.scalar '/' :: t) = .absolute := by
  obtain _ | ⟨c, rest⟩ := t
  · rfl
  · have hc : c ≠ .scalar '/' := fun heq => h (congrArg some heq)
    simp [rootOf, hc]

theorem root_of_doubled {t : Text} (h : t.head? ≠ some (.scalar '/')) :
    rootOf (.scalar '/' :: .scalar '/' :: t) = .doubled := by
  obtain _ | ⟨c, rest⟩ := t
  · rfl
  · have hc : c ≠ .scalar '/' := fun heq => h (congrArg some heq)
    simp [rootOf, hc]

/-- A well-formed path is read from its text. -/
theorem of_text_text {path : Path} (h : path.WellFormed) : ofText path.text = path := by
  obtain ⟨root, names⟩ := path
  have hhead := join_head h
  cases root with
  | relative =>
      cases names with
      | nil => rfl
      | cons name rest =>
          show Path.mk (rootOf (Text.joinWith "/" (name :: rest))) _ = _
          rw [root_of_relative hhead]
          exact congrArg (Path.mk .relative) (names_behind h [] nofun)
  | absolute =>
      show Path.mk (rootOf (.scalar '/' :: Text.joinWith "/" names)) _ = _
      rw [root_of_absolute hhead]
      exact congrArg (Path.mk .absolute) (names_behind h [[]] (by decide))
  | doubled =>
      show Path.mk (rootOf (.scalar '/' :: .scalar '/' :: Text.joinWith "/" names)) _ = _
      rw [root_of_doubled hhead]
      exact congrArg (Path.mk .doubled) (names_behind h [[], []] (by decide))

theorem text_ne_nil {path : Path} (h : path.WellFormed) : path.text ≠ [] := by
  intro htext
  have hpath := of_text_text h
  rw [htext] at hpath
  rw [← hpath] at htext
  exact absurd htext (by decide)

/-! ## Paths in a directory -/

/-- A path of names seen from a directory. -/
theorem append_relative (directory : Path) (names : List Text) :
    directory ++ (⟨.relative, names⟩ : Path) = ⟨directory.root, directory.names ++ names⟩ :=
  rfl

theorem join_sublist (names : List Text) (name : Text) :
    (Text.joinWith "/" names).Sublist (Text.joinWith "/" (names ++ [name])) := by
  induction names with
  | nil => exact List.nil_sublist _
  | cons first rest ih =>
      cases rest with
      | nil => exact (List.sublist_append_left ..).trans (List.sublist_append_left ..)
      | cons second others => exact (List.Sublist.refl _).append ih

/-- The text of a directory can be found in that of a path in it if that has a point, which is the
text of the current directory. -/
theorem text_sublist {name : Text} (hpoint : .scalar '.' ∈ name) (directory : Path) :
    directory.text.Sublist (directory ++ (⟨.relative, [name]⟩ : Path)).text := by
  rw [append_relative]
  obtain ⟨root, names⟩ := directory
  have hlong : (⟨root, names ++ [name]⟩ : Path).text =
      rootText root ++ Text.joinWith "/" (names ++ [name]) := by
    unfold text
    split
    · simp_all
    · rfl
  rw [hlong]
  unfold text
  split
  · rename_i hroot hnames
    obtain rfl : names = [] := hnames
    refine List.Sublist.trans ?_ (List.sublist_append_right ..)
    exact List.singleton_sublist.2 hpoint
  · exact (List.Sublist.refl _).append (join_sublist names name)

end Path

end ProgramInterface
