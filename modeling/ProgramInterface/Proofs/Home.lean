import Mathlib.Data.List.DropRight
import ProgramInterface.Home
import ProgramInterface.Proofs.Path

/-!
# Tildes that are replaced

Putting a home directory in place of a tilde leaves a path on which doing it again has no effect,
whatever the home directories then are (`expand_settled`). Only a tilde with the name of a user who has
no home directory stands for nothing (`expand_unknown_iff`).
-/

namespace ProgramInterface

/-- Whether a path begins with a tilde. -/
def Path.BeginsWithTilde (path : Path) : Prop :=
  ∃ user names, path = ⟨.relative, (.scalar '~' :: user) :: names⟩

namespace Homes

variable {homes : Homes} {path found : Path}

/-- A user who can be looked up and has no home directory that a tilde can stand for. -/
structure IsStranger (homes : Homes) (user : Text) : Prop where
  named : user ≠ []
  sought : FileTree.handingFault? user = none
  unknown : ∀ entry, homes.ofUser? user = some entry →
    (dropStrokes entry).head? = some (.scalar '~')

/-- Whether a path begins in the home directory of a user who has none. -/
def LeadsToStranger (homes : Homes) (path : Path) : Prop :=
  ∃ user names, homes.IsStranger user ∧ path = ⟨.relative, (.scalar '~' :: user) :: names⟩

/-- Whether all home directories begin at the root. -/
structure AreAbsolute (homes : Homes) : Prop where
  own : homes.root ≠ .relative
  users : ∀ user entry, homes.ofUser? user = some entry → entry.head? = some (.scalar '/')

theorem directory_in_unknown_iff {entry : Text} :
    directoryIn entry = .error .unknown ↔ (dropStrokes entry).head? = some (.scalar '~') := by
  unfold directoryIn
  split
  · rename_i hempty
    exact iff_of_false nofun (by simp [hempty])
  · rename_i htilde
    exact iff_of_true rfl (by simp [htilde])
  · rename_i htilde
    refine iff_of_false nofun fun hhead => ?_
    obtain ⟨rest, hrest⟩ := List.head?_eq_some_iff.1 hhead
    exact htilde rest hrest

theorem directory_unknown_iff {user : Text} :
    homes.directoryOf user = .error .unknown ↔ homes.IsStranger user := by
  unfold directoryOf
  split
  · exact iff_of_false nofun fun h => h.named ‹_›
  rename_i hnamed
  split
  · rename_i hname
    exact iff_of_false nofun fun h => by simp [h.sought] at hname
  · rename_i hname hentry
    exact iff_of_true rfl ⟨hnamed, hname, by simp [hentry]⟩
  · rename_i entry hname hentry
    rw [directory_in_unknown_iff]
    exact ⟨fun h => ⟨hnamed, hname, fun _ heq => Option.some.inj (hentry.symm.trans heq) ▸ h⟩,
      fun h => h.unknown entry hentry⟩

/-- A tilde stands for nothing only if it has the name of a user without a home directory behind it. -/
theorem expand_unknown_iff : homes.expand path = .error .unknown ↔ homes.LeadsToStranger path := by
  unfold expand LeadsToStranger
  split
  · rename_i user names hroot hnames
    obtain ⟨root, pathNames⟩ := path
    obtain rfl : root = .relative := hroot
    obtain rfl : pathNames = (.scalar '~' :: user) :: names := hnames
    have hright : (∃ name others, homes.IsStranger name ∧
        (⟨.relative, (.scalar '~' :: user) :: names⟩ : Path) =
          ⟨.relative, (.scalar '~' :: name) :: others⟩) ↔ homes.IsStranger user := by
      simp
    rw [hright, ← directory_unknown_iff]
    cases homes.directoryOf user with
    | ok home => exact iff_of_false nofun nofun
    | error fault => simp [Except.map]
  · rename_i hother
    refine iff_of_false nofun ?_
    rintro ⟨user, names, _, rfl⟩
    exact hother user names rfl rfl

/-- A path that does not begin with a tilde is left as it is. -/
theorem expand_of_plain (h : ¬ path.BeginsWithTilde) (homes : Homes) :
    homes.expand path = .ok path := by
  unfold expand
  split
  · rename_i user names hroot hnames
    obtain ⟨root, pathNames⟩ := path
    obtain rfl : root = .relative := hroot
    obtain rfl : pathNames = (.scalar '~' :: user) :: names := hnames
    exact absurd ⟨user, names, rfl⟩ h
  · rfl

/-- A text that begins with a stroke is no relative path. -/
theorem root_of_stroke (rest : Text) : Path.rootOf (.scalar '/' :: rest) ≠ .relative := by
  unfold Path.rootOf
  split
  · nofun
  · nofun
  · nofun
  · rename_i hstroke
    exact absurd rfl (hstroke rest)

/-- Home directories are well-formed and begin at the root. -/
theorem directory_of_absolute (hhomes : homes.WellFormed) (habsolute : homes.AreAbsolute)
    {user : Text} {home : Path} (h : homes.directoryOf user = .ok home) :
    home.WellFormed ∧ home.root ≠ .relative := by
  unfold directoryOf at h
  split at h
  · cases h
    exact ⟨hhomes, habsolute.own⟩
  split at h
  · cases h
  · cases h
  · rename_i entry _ hentry
    have hprefix : dropStrokes entry <+: entry := List.rdropWhile_prefix _ entry
    unfold directoryIn at h
    split at h
    · cases h
      exact ⟨List.forall_mem_nil _, by decide⟩
    · cases h
    · rename_i hempty _
      cases h
      refine ⟨Path.well_formed_of_text _, ?_⟩
      obtain ⟨c, kept, hkept⟩ := List.exists_cons_of_ne_nil hempty
      obtain ⟨rest, hrest⟩ := hprefix
      have hhead := habsolute.users user entry hentry
      rw [← hrest, hkept] at hhead
      obtain rfl : c = .scalar '/' := Option.some.inj hhead
      rw [hkept]
      exact root_of_stroke kept

/-- What a tilde is replaced in is well-formed and has no tilde to be replaced. -/
theorem expand_settled (hhomes : homes.WellFormed) (habsolute : homes.AreAbsolute)
    (hpath : path.WellFormed) (h : homes.expand path = .ok found) :
    found.WellFormed ∧ ¬ found.BeginsWithTilde := by
  unfold expand at h
  split at h
  · rename_i user names _ hnames
    cases hhome : homes.directoryOf user with
    | error fault =>
        rw [hhome] at h
        cases h
    | ok home =>
        rw [hhome] at h
        cases h
        obtain ⟨hform, hroot⟩ := directory_of_absolute hhomes habsolute hhome
        refine ⟨fun name hname => ?_, ?_⟩
        · rcases List.mem_append.1 hname with hmem | hmem
          · exact hform name hmem
          · exact hpath name (hnames ▸ List.mem_cons_of_mem _ hmem)
        · rintro ⟨_, _, heq⟩
          exact hroot (congrArg Path.root heq)
  · rename_i hother
    cases h
    refine ⟨hpath, ?_⟩
    rintro ⟨user, names, rfl⟩
    exact hother user names rfl rfl

end Homes

end ProgramInterface
