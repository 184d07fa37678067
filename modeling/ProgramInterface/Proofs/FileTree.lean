import ProgramInterface.FileTree

/-!
# Reading what was written

A file that was written holds what was written (`read_of_write`). The path leads to the same place
afterwards, since every directory on the way there is still in its place: a tree that extends another
one locates paths as that does (`Extends.locate`).
-/

namespace ProgramInterface

namespace FileTree

variable {tree : FileTree} {place other : Place} {item : Item} {path : Path}

/-- The items with that at a place replaced. -/
def replaced (place : Place) (item : Item) (items : List (Place × Item)) : List (Place × Item) :=
  items.map fun entry => if entry.1 = place then (place, item) else entry

theorem lookup_replaced_self {items : List (Place × Item)} (h : (items.lookup place).isSome = true) :
    (replaced place item items).lookup place = some item := by
  induction items with
  | nil => cases h
  | cons entry rest ih =>
      obtain ⟨key, found⟩ := entry
      by_cases hkey : key = place
      · simp [replaced, hkey]
      · have hne : (place == key) = false := beq_eq_false_iff_ne.2 (Ne.symm hkey)
        rw [List.lookup_cons, hne] at h
        simpa only [replaced, List.map_cons, hkey, if_false, List.lookup_cons, hne] using ih h

theorem lookup_replaced_of_ne (h : other ≠ place) (items : List (Place × Item)) :
    (replaced place item items).lookup other = items.lookup other := by
  induction items with
  | nil => rfl
  | cons entry rest ih =>
      obtain ⟨key, found⟩ := entry
      by_cases hkey : key = place
      · have hne : (other == place) = false := beq_eq_false_iff_ne.2 h
        simpa only [replaced, List.map_cons, hkey, if_true, List.lookup_cons, hne] using ih
      · simp only [replaced, List.map_cons, hkey, if_false, List.lookup_cons]
        cases other == key with
        | true => rfl
        | false => exact ih

theorem item_put_of_ne (h : other ≠ place) :
    (tree.put place item).item? other = tree.item? other := by
  have hlookup : (tree.put place item).items.lookup other = tree.items.lookup other := by
    unfold put
    split
    · exact lookup_replaced_of_ne h tree.items
    · have hne : (other == place) = false := beq_eq_false_iff_ne.2 h
      simp [List.lookup_append, List.lookup_cons, hne]
  rw [item?, item?, hlookup]
  rfl

/-- What is put where no directory stands is there. -/
theorem item_put_self (h : tree.item? place ≠ some .directory) :
    (tree.put place item).item? place = some item := by
  have hlookup : (tree.put place item).items.lookup place = some item := by
    unfold put
    split
    · rename_i hsome
      exact lookup_replaced_self hsome
    · rename_i hnone
      simp [List.lookup_append, Option.not_isSome_iff_eq_none.1 hnone]
  rw [item?] at h ⊢
  split at h
  · exact absurd rfl h
  · rename_i hcurrent
    exact (if_neg hcurrent).trans hlookup

/-! ## Trees that keep their directories -/

/-- Whether a tree has the current directory and all directories of the one before. -/
structure Extends (before after : FileTree) : Prop where
  current : after.current = before.current
  directories : ∀ place, before.item? place = some .directory →
    after.item? place = some .directory

theorem Extends.refl (tree : FileTree) : tree.Extends tree :=
  ⟨rfl, fun _ h => h⟩

theorem Extends.trans {before between after : FileTree} (h : before.Extends between)
    (hnext : between.Extends after) : before.Extends after :=
  ⟨hnext.current.trans h.current, fun place hplace =>
    hnext.directories place (h.directories place hplace)⟩

theorem Extends.put (h : tree.item? place ≠ some .directory) (item : Item) :
    tree.Extends (tree.put place item) where
  current := rfl
  directories other hother := by
    have hne : other ≠ place := fun heq => h (heq ▸ hother)
    exact (item_put_of_ne hne).trans hother

/-- A way goes through directories, so it leads to the same place while they stay. -/
theorem Extends.walk {before after : FileTree} (h : before.Extends after) {start : Place}
    {names : List Text} (hwalk : before.walk start names = .ok place) :
    after.walk start names = .ok place := by
  induction names generalizing start with
  | nil => exact hwalk
  | cons name rest ih =>
      rw [FileTree.walk] at hwalk ⊢
      split at hwalk
      · cases hwalk
      · cases hwalk
      · rename_i hstart
        rw [h.directories start hstart]
        dsimp only
        split at hwalk
        · cases hwalk
        · rename_i hshort
          rw [if_neg hshort]
          split at hwalk
          · rename_i hup
            rw [if_pos hup]
            exact ih hwalk
          · rename_i hdown
            rw [if_neg hdown]
            exact ih hwalk

/-- Whether a text can be handed to the system as a path: it holds no null character and no surrogate
and is not too long. -/
structure IsAddress (text : Text) : Prop where
  handed : handingFault? text = none
  short : byteLength text < pathLimit

/-- A text is handed to the system if its surrogates stand for bytes and it holds no null character. -/
theorem handing_fault_eq_none {t : Text} :
    handingFault? t = none ↔
      (∀ c ∈ t, c.isSurrogate = true → standsForByte c = true) ∧ .scalar '\x00' ∉ t := by
  unfold handingFault?
  split
  · rename_i first hfirst
    refine iff_of_false nofun fun h => ?_
    obtain ⟨hbound, hfault, -⟩ := List.findIdx?_eq_some_iff_getElem.1 hfirst
    obtain ⟨hsurrogate, hbyte⟩ := Bool.and_eq_true_iff.1 hfault
    rw [h.1 _ (List.getElem_mem hbound) hsurrogate] at hbyte
    cases hbyte
  · rename_i hnone
    have hall : ∀ c ∈ t, c.isSurrogate = true → standsForByte c = true := by
      simpa using hnone
    rw [and_iff_right hall]
    simp

/-- A path leads to a place if its text can be handed over and its names lead there. -/
theorem locate_eq_ok :
    tree.locate path = .ok place ↔
      IsAddress path.text ∧ tree.walk (tree.origin path) path.names = .ok place := by
  unfold locate
  dsimp only
  constructor
  · intro h
    split at h
    · cases h
    · rename_i hhanded
      split at h
      · cases h
      · rename_i hshort
        cases hwalk : tree.walk (tree.origin path) path.names with
        | error cause =>
            rw [hwalk] at h
            cases h
        | ok found =>
            rw [hwalk] at h
            cases h
            exact ⟨⟨hhanded, Nat.lt_of_not_le hshort⟩, rfl⟩
  · rintro ⟨⟨hhanded, hshort⟩, hwalk⟩
    rw [hhanded]
    dsimp only
    rw [if_neg (Nat.not_le.2 hshort), hwalk]
    rfl

theorem Extends.locate {before after : FileTree} (h : before.Extends after)
    (hlocate : before.locate path = .ok place) : after.locate path = .ok place := by
  obtain ⟨haddress, hwalk⟩ := locate_eq_ok.1 hlocate
  have horigin : after.origin path = before.origin path := by
    rw [origin, origin, h.current]
  exact locate_eq_ok.2 ⟨haddress, horigin ▸ h.walk hwalk⟩

theorem locate_put (hplace : tree.item? place ≠ some .directory) (h : tree.locate path = .ok place) :
    (tree.put place item).locate path = .ok place :=
  (Extends.put hplace item).locate h

/-- The last name of a way leads from a directory to what is directly in it. -/
theorem walk_snoc {start : Place} {names : List Text} {name : Text} (hname : name ≠ Text.ofString "..")
    (h : tree.walk start (names ++ [name]) = .ok place) :
    ∃ directory, tree.walk start names = .ok directory ∧
      tree.item? directory = some .directory ∧ place = directory ++ [name] := by
  induction names generalizing start with
  | nil =>
      rw [List.nil_append, walk] at h
      split at h
      · cases h
      · cases h
      · rename_i hstart
        split at h
        · cases h
        · cases h
          exact ⟨start, rfl, hstart, rfl⟩
  | cons first rest ih =>
      rw [List.cons_append, walk] at h
      rw [walk]
      split at h
      · cases h
      · cases h
      · rename_i hstart
        split at h
        · cases h
        · rename_i hshort
          rw [if_neg hshort]
          split at h
          -- The first name leads up or down; either way the last one is still to come.
          · rename_i hup
            rw [if_pos hup]
            exact ih h
          · rename_i hdown
            rw [if_neg hdown]
            exact ih h

/-! ## What a path leads to -/

theorem find_of_item (h : tree.locate path = .ok place) (hitem : tree.item? place = some item) :
    tree.find path = .ok item := by
  simp only [find, h, hitem, bind, Except.bind, pure, Except.pure]

/-- What is put where a path leads is what the path leads to. -/
theorem find_put (hplace : tree.item? place ≠ some .directory) (h : tree.locate path = .ok place) :
    (tree.put place item).find path = .ok item :=
  find_of_item (locate_put hplace h) (item_put_self hplace)

theorem read_put {content : List UInt8} (hplace : tree.item? place ≠ some .directory)
    (h : tree.locate path = .ok place) : (tree.put place (.file content)).read path = .ok content := by
  rw [read, find_put hplace h]
  rfl

end FileTree

namespace FileAction

/-- The bytes that a text is encoded as. -/
def encoded (content : Text) : List UInt8 :=
  Utf8.encodeChars (content.filterMap CodePoint.char?)

/-- What an action gives on a tree, and the tree afterwards. -/
def outcome {ε α : Type} (action : ExceptT ε (StateM FileTree) α) (tree : FileTree) :
    Except ε α × FileTree :=
  action.run.run tree

theorem outcome_bind {ε α β : Type} (action : ExceptT ε (StateM FileTree) α)
    (next : α → ExceptT ε (StateM FileTree) β) (tree : FileTree) :
    outcome (action >>= next) tree =
      match outcome action tree with
      | (.ok a, between) => outcome (next a) between
      | (.error fault, between) => (.error fault, between) := by
  have hbind : outcome (action >>= next) tree =
      (ExceptT.bindCont next (outcome action tree).1).run (outcome action tree).2 := rfl
  rw [hbind]
  rcases outcome action tree with ⟨result, between⟩
  cases result <;> rfl

/-- What looks at the tree first goes on with the tree that is there. -/
theorem outcome_get_bind {ε β : Type} (next : FileTree → ExceptT ε (StateM FileTree) β)
    (tree : FileTree) : outcome (get >>= next) tree = outcome (next tree) tree := rfl

/-- An action that succeeds does so in each of its steps. -/
theorem outcome_bind_eq_ok {ε α β : Type} {action : ExceptT ε (StateM FileTree) α}
    {next : α → ExceptT ε (StateM FileTree) β} {tree after : FileTree} {b : β}
    (h : outcome (action >>= next) tree = (.ok b, after)) :
    ∃ a between, outcome action tree = (.ok a, between) ∧
      outcome (next a) between = (.ok b, after) := by
  rw [outcome_bind] at h
  rcases hfirst : outcome action tree with ⟨result, between⟩
  rw [hfirst] at h
  cases result with
  | ok a => exact ⟨a, between, rfl, h⟩
  | error fault => cases h

theorem outcome_adapt {ε α : Type} (wrap : FileTree.Fault → ε) (action : FileAction α)
    (tree : FileTree) :
    outcome (ExceptT.adapt wrap action) tree =
      ((outcome action tree).1.mapError wrap, (outcome action tree).2) := rfl

theorem outcome_ask {α : Type} (question : FileTree → Except FileTree.Fault α) (tree : FileTree) :
    outcome (ask question) tree = (question tree, tree) := by
  show outcome (ask.liftExcept (question tree)) tree = _
  cases question tree <;> rfl

theorem clear_eq_ok {path : Path} {place : Place} {tree after : FileTree}
    (h : outcome (clear path) tree = (.ok place, after)) :
    tree.locate path = .ok place ∧ tree.item? place ≠ some .directory ∧
      after = tree.put place (.file []) := by
  obtain ⟨found, between, hask, h⟩ := outcome_bind_eq_ok h
  rw [outcome_ask, Prod.mk.injEq] at hask
  obtain ⟨hlocate, rfl⟩ := hask
  rw [outcome_get_bind] at h
  split at h
  · cases h
  · rename_i hplace
    cases h
    exact ⟨hlocate, hplace, rfl⟩

/-- Writing empties the file at a place first and then fills it. -/
theorem write_eq_ok {path : Path} {content : Text} {tree after : FileTree}
    (h : outcome (write path content) tree = (.ok (), after)) :
    ∃ place, tree.locate path = .ok place ∧ tree.item? place ≠ some .directory ∧
      after = (tree.put place (.file [])).put place (.file (encoded content)) := by
  obtain ⟨place, between, hclear, h⟩ := outcome_bind_eq_ok h
  obtain ⟨hlocate, hplace, rfl⟩ := clear_eq_ok hclear
  split at h
  · cases h
  · cases h
    exact ⟨place, hlocate, hplace, rfl⟩

/-- A file that was written holds what was written. -/
theorem read_of_write {path : Path} {content : Text} {tree after : FileTree}
    (h : outcome (write path content) tree = (.ok (), after)) :
    after.read path = .ok (encoded content) := by
  obtain ⟨place, hlocate, hplace, rfl⟩ := write_eq_ok h
  refine FileTree.read_put ?_ (FileTree.locate_put hplace hlocate)
  rw [FileTree.item_put_self hplace]
  nofun

end FileAction

end ProgramInterface
