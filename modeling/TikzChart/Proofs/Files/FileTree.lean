import TikzChart.Files.FileTree
import TikzChart.Proofs.Files.PathName
import TikzChart.Proofs.Outcome

/-!
What stands at the places of a tree after an entry was put or erased, and where path names lead.
Names are followed through directories alone, so a name leads to the same target in two trees with
the same directories.
-/

set_option autoImplicit false

namespace TikzChart.FileTree

variable {tree other : FileTree} {place start : Place} {path : String}

/-! ### Places -/

theorem entry?_of_below {tree : FileTree} {place : Place} (below : place ≠ []) :
    tree.entry? place = (tree.entries.find? (·.1 == place)).map Prod.snd :=
  if_neg below

theorem entry?_erase (tree : FileTree) (spot : Place) {place : Place} (below : place ≠ []) :
    entry? (tree.erase spot) place = if place = spot then none else tree.entry? place := by
  rw [entry?_of_below below, entry?_of_below below, erase, List.find?_filter]
  by_cases same : place = spot
  · rw [if_pos same, Option.map_eq_none_iff, List.find?_eq_none]
    intro found _ both
    obtain ⟨elsewhere, here⟩ := of_decide_eq_true both
    exact bne_iff_ne.mp elsewhere ((eq_of_beq here).trans same)
  · rw [if_neg same]
    congr 2
    funext found
    by_cases here : found.1 = place
    · simp [here, same]
    · simp [here]

theorem entry?_put (tree : FileTree) (spot : Place) {place : Place} (below : place ≠ [])
    (entry : Entry) :
    entry? (tree.put spot entry) place =
      if place = spot then some entry else tree.entry? place := by
  have erased := tree.entry?_erase spot below
  rw [entry?_of_below below] at erased ⊢
  rw [put, List.find?_append]
  by_cases same : place = spot
  · rw [if_pos same] at erased ⊢
    rw [Option.map_eq_none_iff.mp erased, same]
    simp
  · rw [if_neg same] at erased ⊢
    have notThere : [(spot, entry)].find? (·.1 == place) = none := by
      simp [Ne.symm same]
    rw [notThere, Option.or_none, erased]

theorem entry?_put_self {entry : Entry} (there : tree.entry? place = some entry) (other : Place) :
    entry? (tree.put place entry) other = tree.entry? other := by
  by_cases root : other = []
  · rw [root]
    rfl
  · rw [tree.entry?_put place root]
    by_cases same : other = place
    · rw [if_pos same, same, there]
    · rw [if_neg same]

@[simp] theorem entry?_root (tree : FileTree) : tree.entry? [] = some .directory := rfl

theorem put_put (tree : FileTree) (spot : Place) (first second : Entry) :
    (tree.put spot first).put spot second = tree.put spot second := by
  simp [put, erase, List.filter_append]

/-! ### Following path names -/

def SameDirectories (tree other : FileTree) : Prop :=
  ∀ place, tree.entry? place = some .directory ↔ other.entry? place = some .directory

theorem SameDirectories.refl (tree : FileTree) : tree.SameDirectories tree := fun _ => Iff.rfl

theorem SameDirectories.symm (same : tree.SameDirectories other) : other.SameDirectories tree :=
  fun place => (same place).symm

theorem SameDirectories.trans {last : FileTree} (same : tree.SameDirectories other)
    (next : other.SameDirectories last) : tree.SameDirectories last :=
  fun place => (same place).trans (next place)

theorem sameDirectories_put {spot : Place} (free : tree.entry? spot ≠ some .directory)
    (content : ByteArray) :
    tree.SameDirectories (tree.put spot (.file content)) := by
  intro place
  by_cases root : place = []
  · rw [root, entry?_root, entry?_root]
  · rw [tree.entry?_put spot root]
    by_cases same : place = spot
    · rw [if_pos same, same]
      exact iff_of_false free nofun
    · rw [if_neg same]

theorem sameDirectories_erase {spot : Place} (free : tree.entry? spot ≠ some .directory) :
    tree.SameDirectories (tree.erase spot) := by
  intro place
  by_cases root : place = []
  · rw [root, entry?_root, entry?_root]
  · rw [tree.entry?_erase spot root]
    by_cases same : place = spot
    · rw [if_pos same, same]
      exact iff_of_false free nofun
    · rw [if_neg same]

theorem lookup_eq_ok_iff {directory : Place} {name : String} {found : Option Entry} :
    tree.lookup directory name = .ok found ↔
      tree.entry? directory = some .directory ∧ name.utf8ByteSize ≤ maxNameSize ∧
        tree.entry? (directory ++ [name]) = found := by
  unfold lookup
  split
  · next isDirectory =>
      rw [isDirectory, and_iff_right rfl, ← Nat.not_lt]
      split
      · next long => exact iff_of_false nofun fun both => both.1 long
      · next short => rw [and_iff_right short, Except.ok.injEq]
  · next isFile =>
      rw [isFile]
      exact iff_of_false nofun (by simp)
  · next absent =>
      rw [absent]
      exact iff_of_false nofun (by simp)

theorem SameDirectories.walk (same : tree.SameDirectories other) {pieces : List (List Char)}
    (walked : tree.walk start pieces = .ok place) : other.walk start pieces = .ok place := by
  induction pieces generalizing start with
  | nil => exact walked
  | cons piece pieces ih =>
      unfold FileTree.walk at walked ⊢
      by_cases idle : PathName.isIdle piece = true
      · rw [if_pos idle] at walked ⊢
        exact ih walked
      · rw [if_neg idle] at walked ⊢
        by_cases up : piece = ['.', '.']
        · rw [if_pos up] at walked ⊢
          exact ih walked
        · rw [if_neg up] at walked ⊢
          split at walked
          · cases walked
          · next found =>
              obtain ⟨inDirectory, short, isDirectory⟩ := lookup_eq_ok_iff.mp found
              have foundToo := lookup_eq_ok_iff.mpr
                ⟨(same _).mp inDirectory, short, (same _).mp isDirectory⟩
              rw [foundToo]
              exact ih walked
          · cases walked
          · cases walked

theorem SameDirectories.target (same : tree.SameDirectories other) {found : Target}
    (led : tree.target start path = .ok found) : other.target start path = .ok found := by
  unfold FileTree.target at led ⊢
  split at led
  · cases led
  · next notEmpty =>
      rw [if_neg notEmpty]
      split at led
      · cases led
      · next noNul =>
          rw [if_neg noNul]
          split at led
          · cases led
          · next short =>
              rw [if_neg short]
              dsimp only at led ⊢
              split at led
              · exact led
              · next last isLast =>
                  obtain ⟨directory, walked, rest⟩ := Outcome.bind_eq_ok_iff.mp led
                  exact Outcome.bind_eq_ok_iff.mpr ⟨directory, same.walk walked, rest⟩

/-- A path name that ends in the name of an entry leads to an entry of that name. -/
theorem target_of_pieces {before : List (List Char)} {name : List Char}
    (cut : PathName.pieces path = before ++ [name]) (named : PathName.IsName name) {found : Target}
    (led : tree.target start path = .ok found) :
    ∃ directory, found = .entry directory (String.ofList name) false := by
  have body : (PathName.parts path).body = (PathName.Parts.ofDirectory before).body ++ [name] := by
    rw [PathName.parts_of_pieces cut (.inr named.notDot)]
    rfl
  have kept := @Text.dropTrailing_concat _ (· == []) name (beq_eq_false_iff_ne.mpr named.notEmpty)
  unfold target at led
  split at led
  · cases led
  · split at led
    · cases led
    · split at led
      · cases led
      · dsimp only at led
        rw [body, kept, List.getLast?_concat] at led
        obtain ⟨directory, _, last⟩ := Outcome.bind_eq_ok_iff.mp led
        rw [if_neg named.notDot, if_neg named.notParent, decide_eq_false (Nat.lt_irrefl _)] at last
        cases last
        exact ⟨directory, rfl⟩

end TikzChart.FileTree
