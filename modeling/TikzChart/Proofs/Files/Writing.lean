import TikzChart.Proofs.Files.FileTree

/-!
Files that are written under a name or removed. A file can be written under a name exactly when the
name leads to a place without a directory (`FileTree.spot`); what is written there is what is read,
and no other place changes. Removing files empties the places that their names lead to.
-/

set_option autoImplicit false

namespace TikzChart.FileTree

variable {tree other : FileTree} {place start : Place} {path : String}

/-! ### Writing and reading -/

/-- Where a file of a name is, or can be put. -/
def spot (tree : FileTree) (start : Place) (path : String) : Except OsError Place := do
  match ← tree.target start path with
  | .directory _ => .error .isADirectory
  | .entry directory name slashed =>
    if slashed then .error .isADirectory
    else
      match ← tree.lookup directory name with
      | some .directory => .error .isADirectory
      | _ => pure (directory ++ [name])

theorem spot_eq_ok_iff :
    tree.spot start path = .ok place ↔
      ∃ directory name, tree.target start path = .ok (.entry directory name false) ∧
        (∃ found, tree.lookup directory name = .ok found) ∧
        directory ++ [name] = place ∧ tree.entry? place ≠ some .directory := by
  unfold spot
  rw [Outcome.bind_eq_ok_iff]
  constructor
  · rintro ⟨found, led, rest⟩
    cases found with
    | directory => cases rest
    | entry directory name slashed =>
        cases slashed with
        | true => cases rest
        | false =>
            obtain ⟨found, looked, rest⟩ := Outcome.bind_eq_ok_iff.mp rest
            refine ⟨directory, name, led, ⟨found, looked⟩, ?_⟩
            obtain ⟨_, _, rfl⟩ := lookup_eq_ok_iff.mp looked
            split at rest
            · cases rest
            · next notDirectory =>
                cases rest
                exact ⟨rfl, notDirectory⟩
  · rintro ⟨directory, name, led, ⟨found, looked⟩, rfl, notDirectory⟩
    refine ⟨_, led, ?_⟩
    obtain ⟨_, _, same⟩ := lookup_eq_ok_iff.mp looked
    refine Outcome.bind_eq_ok_iff.mpr ⟨found, looked, ?_⟩
    rw [same] at notDirectory
    split
    · exact absurd rfl notDirectory
    · rfl

/-- What stays in front of the text that is written to a place. -/
def kept (tree : FileTree) (place : Place) (append : Bool) : ByteArray :=
  if append then (tree.content? place).getD .empty else .empty

theorem kept_append (tree : FileTree) (place : Place) (append : Bool) (content : ByteArray) :
    tree.kept place append ++ content =
      match tree.entry? place with
      | some (.file old) => if append then old ++ content else content
      | _ => content := by
  unfold kept content?
  cases append with
  | false => cases tree.entry? place with
    | none => exact ByteArray.empty_append
    | some entry => cases entry <;> exact ByteArray.empty_append
  | true => cases tree.entry? place with
    | none => exact ByteArray.empty_append
    | some entry =>
        cases entry with
        | directory => exact ByteArray.empty_append
        | file old => rfl

theorem write_eq (tree : FileTree) (start : Place) (path : String) (content : ByteArray)
    (append : Bool) :
    tree.write start path content append =
      (tree.spot start path).map fun place =>
        tree.put place (.file (tree.kept place append ++ content)) := by
  simp only [kept_append]
  unfold write spot
  cases led : tree.target start path with
  | error cause => rfl
  | ok found =>
      cases found with
      | directory => rfl
      | entry directory name slashed =>
          cases slashed with
          | true => rfl
          | false =>
              change (tree.lookup directory name).bind _ =
                ((tree.lookup directory name).bind _).map _
              cases looked : tree.lookup directory name with
              | error cause => rfl
              | ok found =>
                  obtain ⟨_, _, there⟩ := lookup_eq_ok_iff.mp looked
                  cases found with
                  | none =>
                      change Except.ok _ = Except.ok (tree.put (directory ++ [name]) _)
                      rw [there]
                  | some entry =>
                      cases entry with
                      | directory => rfl
                      | file old =>
                          change Except.ok _ = Except.ok (tree.put (directory ++ [name]) _)
                          rw [there]

/-- What is read under a name is what is at its place. -/
theorem read_of_spot (found : tree.spot start path = .ok place) :
    tree.read start path =
      match tree.content? place with
      | some content => .ok content
      | none => .error .notFound := by
  obtain ⟨directory, name, led, ⟨entry, looked⟩, rfl, notDirectory⟩ := spot_eq_ok_iff.mp found
  obtain ⟨_, _, rfl⟩ := lookup_eq_ok_iff.mp looked
  unfold read FileTree.open content?
  rw [led]
  change ((tree.lookup directory name).bind _).bind _ = _
  rw [looked]
  dsimp only [Except.bind]
  cases there : tree.entry? (directory ++ [name]) with
  | none => rfl
  | some entry =>
      cases entry with
      | directory => exact absurd there notDirectory
      | file content => rfl

theorem SameDirectories.spot (same : tree.SameDirectories other)
    (found : tree.spot start path = .ok place) : other.spot start path = .ok place := by
  obtain ⟨directory, name, led, ⟨entry, looked⟩, rfl, notDirectory⟩ := spot_eq_ok_iff.mp found
  obtain ⟨isDirectory, short, _⟩ := lookup_eq_ok_iff.mp looked
  have lookedToo := lookup_eq_ok_iff.mpr ⟨(same _).mp isDirectory, short, rfl⟩
  exact spot_eq_ok_iff.mpr ⟨directory, name, same.target led, ⟨_, lookedToo⟩, rfl,
    fun isNow => notDirectory ((same _).mpr isNow)⟩

theorem SameDirectories.spot_iff (same : tree.SameDirectories other) :
    tree.spot start path = .ok place ↔ other.spot start path = .ok place :=
  ⟨same.spot, same.symm.spot⟩

theorem below_of_spot (found : tree.spot start path = .ok place) : place ≠ [] := by
  obtain ⟨_, _, _, _, rfl, _⟩ := spot_eq_ok_iff.mp found
  exact List.append_ne_nil_of_right_ne_nil _ (List.cons_ne_nil _ _)

theorem notDirectory_of_spot (found : tree.spot start path = .ok place) :
    tree.entry? place ≠ some .directory := by
  obtain ⟨_, _, _, _, _, notDirectory⟩ := spot_eq_ok_iff.mp found
  exact notDirectory

/-- A file stands under the name that it is written under. -/
theorem getLast?_of_spot {before : List (List Char)} {name : List Char}
    (cut : PathName.pieces path = before ++ [name]) (named : PathName.IsName name)
    (found : tree.spot start path = .ok place) : place.getLast? = some (String.ofList name) := by
  obtain ⟨_, _, led, _, rfl, _⟩ := spot_eq_ok_iff.mp found
  obtain ⟨_, same⟩ := target_of_pieces cut named led
  cases same
  exact List.getLast?_concat

theorem SameDirectories.enter (same : tree.SameDirectories other)
    (entered : tree.enter start path = .ok place) : other.enter start path = .ok place := by
  obtain ⟨found, led, rest⟩ := Outcome.bind_eq_ok_iff.mp entered
  refine Outcome.bind_eq_ok_iff.mpr ⟨found, same.target led, ?_⟩
  cases found with
  | directory => exact rest
  | entry directory name slashed =>
      obtain ⟨found, looked, rest⟩ := Outcome.bind_eq_ok_iff.mp rest
      obtain ⟨isDirectory, short, there⟩ := lookup_eq_ok_iff.mp looked
      split at rest
      · have lookedToo := lookup_eq_ok_iff.mpr ⟨(same _).mp isDirectory, short, (same _).mp there⟩
        exact Outcome.bind_eq_ok_iff.mpr ⟨_, lookedToo, rest⟩
      · cases rest
      · cases rest

/-! ### Removing -/

section

variable {guarded : Place → Bool}

theorem remove_eq_ok_iff {after : FileTree} :
    tree.remove guarded start path = .ok after ↔
      ∃ place content, tree.spot start path = .ok place ∧
        tree.entry? place = some (.file content) ∧ guarded place = false ∧
        tree.erase place = after := by
  unfold remove
  rw [Outcome.bind_eq_ok_iff]
  constructor
  · rintro ⟨found, led, rest⟩
    cases found with
    | directory => cases rest
    | entry directory name slashed =>
        obtain ⟨found, looked, rest⟩ := Outcome.bind_eq_ok_iff.mp rest
        split at rest
        · cases rest
        · cases rest
        · next content =>
            cases slashed with
            | true => cases rest
            | false =>
                obtain ⟨_, _, there⟩ := lookup_eq_ok_iff.mp looked
                have isSpot : tree.spot start path = .ok (directory ++ [name]) :=
                  spot_eq_ok_iff.mpr
                    ⟨directory, name, led, ⟨_, looked⟩, rfl, by rw [there]; nofun⟩
                rw [if_neg Bool.false_ne_true] at rest
                split at rest
                · cases rest
                · next free =>
                    exact ⟨_, content, isSpot, there, Bool.eq_false_iff.mpr free,
                      Except.ok.inj rest⟩
  · rintro ⟨place, content, found, there, free, rfl⟩
    obtain ⟨directory, name, led, ⟨entry, looked⟩, rfl, _⟩ := spot_eq_ok_iff.mp found
    obtain ⟨_, _, rfl⟩ := lookup_eq_ok_iff.mp looked
    rw [there] at looked
    refine ⟨_, led, Outcome.bind_eq_ok_iff.mpr ⟨_, looked, ?_⟩⟩
    dsimp only
    rw [if_neg Bool.false_ne_true, free]
    rfl

/-- The tree without the file of a name, if there is one that can be removed. -/
def without (tree : FileTree) (guarded : Place → Bool) (start : Place) (path : String) :
    FileTree :=
  match tree.remove guarded start path with
  | .ok after => after
  | .error _ => tree

theorem without_cases (tree : FileTree) (guarded : Place → Bool) (start : Place) (path : String) :
    (∃ place content, tree.spot start path = .ok place ∧
        tree.entry? place = some (.file content) ∧ guarded place = false ∧
        tree.without guarded start path = tree.erase place) ∨
      (∀ place, tree.spot start path = .ok place → guarded place = false →
        tree.entry? place = none) ∧ tree.without guarded start path = tree := by
  unfold without
  cases removed : tree.remove guarded start path with
  | ok after =>
      obtain ⟨place, content, found, there, free, rfl⟩ := remove_eq_ok_iff.mp removed
      exact .inl ⟨place, content, found, there, free, rfl⟩
  | error cause =>
      refine .inr ⟨fun place found free => ?_, rfl⟩
      cases there : tree.entry? place with
      | none => rfl
      | some entry =>
          cases entry with
          | directory => exact absurd there (notDirectory_of_spot found)
          | file content =>
              have gone := remove_eq_ok_iff.mpr ⟨place, content, found, there, free, rfl⟩
              rw [removed] at gone
              cases gone

theorem sameDirectories_without (tree : FileTree) (guarded : Place → Bool) (start : Place)
    (path : String) : tree.SameDirectories (tree.without guarded start path) := by
  rcases tree.without_cases guarded start path with
    ⟨place, content, _, there, _, erased⟩ | ⟨_, same⟩
  · rw [erased]
    exact sameDirectories_erase (by rw [there]; nofun)
  · rw [same]
    exact .refl tree

theorem entry?_without (tree : FileTree) (guarded : Place → Bool) (start : Place) (path : String)
    (place : Place) :
    entry? (tree.without guarded start path) place =
      if tree.spot start path = .ok place ∧ guarded place = false then none
      else tree.entry? place := by
  rcases tree.without_cases guarded start path with
    ⟨spot, content, found, _, free, erased⟩ | ⟨absent, same⟩
  · rw [erased, found]
    by_cases here : place = spot
    · rw [if_pos ⟨congrArg Except.ok here.symm, here ▸ free⟩,
        tree.entry?_erase spot (here ▸ below_of_spot found), if_pos here]
    · rw [if_neg fun emptied => here (Except.ok.inj emptied.1).symm]
      by_cases root : place = []
      · rw [root]
        rfl
      · rw [tree.entry?_erase spot root, if_neg here]
  · rw [same]
    split
    · next emptied => exact absent place emptied.1 emptied.2
    · rfl

/-- The tree without the files of several names. -/
def withoutAll (tree : FileTree) (guarded : Place → Bool) (start : Place) (paths : List String) :
    FileTree :=
  paths.foldl (fun tree path => tree.without guarded start path) tree

theorem sameDirectories_withoutAll (tree : FileTree) (guarded : Place → Bool) (start : Place)
    (paths : List String) : tree.SameDirectories (tree.withoutAll guarded start paths) := by
  induction paths generalizing tree with
  | nil => exact .refl tree
  | cons path paths ih => exact (tree.sameDirectories_without guarded start path).trans (ih _)

/-- The places that the names lead to are empty then, but for those that are guarded. -/
theorem entry?_withoutAll (tree : FileTree) (guarded : Place → Bool) (start : Place)
    (paths : List String) (place : Place) :
    entry? (tree.withoutAll guarded start paths) place =
      if (∃ path ∈ paths, tree.spot start path = .ok place) ∧ guarded place = false then none
      else tree.entry? place := by
  induction paths generalizing tree with
  | nil => simp [withoutAll]
  | cons path paths ih =>
      have same := tree.sameDirectories_without guarded start path
      have step := ih (tree.without guarded start path)
      simp only [← same.spot_iff, entry?_without] at step
      change entry? ((tree.without guarded start path).withoutAll guarded start paths) place = _
      rw [step]
      by_cases first : tree.spot start path = .ok place
      · by_cases free : guarded place = false
        · simp [first, free]
        · simp [free]
      · simp [first]

/-- What has been removed is not removed again. -/
theorem entry?_withoutAll_again {paths : List String}
    (same : ∀ place, other.entry? place = entry? (tree.withoutAll guarded start paths) place)
    (place : Place) :
    entry? (other.withoutAll guarded start paths) place =
      entry? (tree.withoutAll guarded start paths) place := by
  have directories : tree.SameDirectories other := fun place => by
    rw [same place]
    exact tree.sameDirectories_withoutAll guarded start paths place
  rw [entry?_withoutAll, same place, entry?_withoutAll]
  simp only [directories.spot_iff]
  split
  · rfl
  · rfl

end

end TikzChart.FileTree
