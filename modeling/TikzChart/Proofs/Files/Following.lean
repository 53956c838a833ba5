import TikzChart.Proofs.Files.Writing

/-!
Path names are followed step by step (`FileTree.follow`), so where a name leads depends on its steps
alone, once it is short enough to be looked up. The name of an entry that is put behind the name of
a directory leads into that directory, to the entry.
-/

set_option autoImplicit false

namespace TikzChart

namespace FileTree

variable {tree : FileTree} {start place : Place} {path : String}

/-! ### Steps -/

/-- Takes the steps of a path name through directories that exist. -/
def follow (tree : FileTree) (start : Place) : List Component → Except OsError Place
  | [] => .ok start
  | .root :: steps => tree.follow [] steps
  | .current :: steps => tree.follow start steps
  | .parent :: steps => tree.follow start.dropLast steps
  | .name text :: steps =>
    match tree.lookup start (String.ofList text) with
    | .error cause => .error cause
    | .ok (some .directory) => tree.follow (start ++ [String.ofList text]) steps
    | .ok (some (.file _)) => .error .notADirectory
    | .ok none => .error .notFound

theorem follow_append (tree : FileTree) (start : Place) (steps more : List Component) :
    tree.follow start (steps ++ more) =
      (tree.follow start steps).bind fun place => tree.follow place more := by
  induction steps generalizing start with
  | nil => rfl
  | cons step steps ih =>
      cases step with
      | root => exact ih []
      | current => exact ih start
      | parent => exact ih start.dropLast
      | name text =>
          rw [List.cons_append, follow, follow]
          cases tree.lookup start (String.ofList text) with
          | error cause => rfl
          | ok found =>
              rcases found with _ | _ | _
              · rfl
              · exact ih _
              · rfl

theorem walk_eq_follow (tree : FileTree) (start : Place) (pieces : List (List Char)) :
    tree.walk start pieces =
      tree.follow start ((pieces.filter (!PathName.isIdle ·)).map PathName.component) := by
  induction pieces generalizing start with
  | nil => rfl
  | cons piece pieces ih =>
      unfold walk
      by_cases idle : PathName.isIdle piece = true
      · rw [if_pos idle, List.filter_cons_of_neg (by simp [idle]), ih]
      · rw [if_neg idle, List.filter_cons_of_pos (by simp [idle]), List.map_cons]
        unfold PathName.component
        by_cases up : piece = ['.', '.']
        · rw [if_pos up, if_pos up, follow, ih]
          rfl
        · rw [if_neg up, if_neg up, follow]
          simp only [ih]
          rfl

/-- Where the pieces of a path name start. -/
def origin (start : Place) (parts : PathName.Parts) : Place := if parts.rooted then [] else start

theorem follow_steps (tree : FileTree) (start : Place) (parts : PathName.Parts) :
    tree.follow start parts.steps = tree.walk (origin start parts) parts.body := by
  rw [walk_eq_follow]
  obtain ⟨rooted, dotted, body⟩ := parts
  cases rooted with
  | true => rfl
  | false =>
      cases dotted with
      | true => rfl
      | false => rfl

theorem walk_append (tree : FileTree) (start : Place) (pieces more : List (List Char)) :
    tree.walk start (pieces ++ more) =
      (tree.walk start pieces).bind fun place => tree.walk place more := by
  simp only [walk_eq_follow, List.filter_append, List.map_append, follow_append]

/-- Slashes at the end do not lead anywhere else. -/
theorem walk_dropTrailing (tree : FileTree) (start : Place) (pieces : List (List Char)) :
    tree.walk start (Text.dropTrailing (· == []) pieces) = tree.walk start pieces := by
  induction pieces using List.reverseRecOn with
  | nil => rfl
  | append_singleton pieces piece ih =>
      by_cases empty : piece = []
      · have dropped := List.rdropWhile_concat_pos (· == []) pieces piece (beq_iff_eq.mpr empty)
        change tree.walk start (List.rdropWhile (· == []) (pieces ++ [piece])) = _
        rw [dropped, walk_append, empty]
        change tree.walk start (Text.dropTrailing (· == []) pieces) = _
        rw [ih]
        cases tree.walk start pieces with
        | error cause => rfl
        | ok place => rfl
      · have stays := List.rdropWhile_concat_neg (· == []) pieces piece (by simp [empty])
        exact congrArg (tree.walk start) stays

/-! ### Whole names -/

/-- A path name that can be looked up at all. -/
structure Usable (path : String) : Prop where
  nonempty : path ≠ ""
  nulFree : '\x00' ∉ path.toList
  short : path.utf8ByteSize < maxPathSize

theorem usable_of_target {found : Target} (led : tree.target start path = .ok found) :
    Usable path := by
  unfold target at led
  split at led
  · cases led
  · next nonempty =>
      split at led
      · cases led
      · next nulFree =>
          split at led
          · cases led
          · next short =>
              refine ⟨fun nothing => nonempty (String.isEmpty_iff.mpr nothing), ?_,
                Nat.lt_of_not_le short⟩
              intro member
              exact nulFree (List.contains_iff_mem.mpr member)

/-- Where the last piece leads from the directory before it. -/
def Target.ofLast (directory : Place) (last : List Char) (slashed : Bool) : Target :=
  if last = ['.'] then .directory directory
  else if last = ['.', '.'] then .directory directory.dropLast
  else .entry directory (String.ofList last) slashed

theorem target_of_usable (usable : Usable path) {parts : PathName.Parts}
    (taken : PathName.parts path = parts) {body : List (List Char)}
    (kept : Text.dropTrailing (· == []) parts.body = body) :
    tree.target start path =
      match body.getLast? with
      | none => .ok (.directory (origin start parts))
      | some last =>
        (tree.walk (origin start parts) body.dropLast).bind fun directory =>
          .ok (.ofLast directory last (body.length < parts.body.length)) := by
  subst taken kept
  unfold target
  rw [if_neg fun nothing => usable.nonempty (String.isEmpty_iff.mp nothing),
    if_neg fun member => usable.nulFree (List.contains_iff_mem.mp member),
    if_neg usable.short.not_ge]
  dsimp only
  cases (Text.dropTrailing (· == []) (PathName.parts path).body).getLast? with
  | none => rfl
  | some last =>
      refine congrArg (Except.bind _) (funext fun directory => ?_)
      unfold Target.ofLast
      split
      · rfl
      · split
        · rfl
        · rfl

/-- One more piece, which is neither empty nor a single dot. -/
theorem walk_piece (tree : FileTree) (start : Place) {piece : List Char}
    (notEmpty : piece ≠ []) (notDot : piece ≠ ['.']) (notParent : piece ≠ ['.', '.']) :
    tree.walk start [piece] =
      match tree.lookup start (String.ofList piece) with
      | .error cause => .error cause
      | .ok (some .directory) => .ok (start ++ [String.ofList piece])
      | .ok (some (.file _)) => .error .notADirectory
      | .ok none => .error .notFound := by
  have busy : ¬PathName.isIdle piece = true := by simp [PathName.isIdle, notEmpty, notDot]
  unfold walk
  rw [if_neg busy, if_neg notParent]
  rfl

theorem last_of_kept {pieces body : List (List Char)} {last : List Char}
    (kept : Text.dropTrailing (· == []) pieces = body) (isLast : body.getLast? = some last) :
    last ≠ [] := by
  rintro rfl
  obtain ⟨init, split⟩ := List.getLast?_eq_some_iff.mp isLast
  have again : Text.dropTrailing (· == []) body = body := by
    rw [← kept]
    exact List.rdropWhile_idempotent (· == []) pieces
  have shorter : Text.dropTrailing (· == []) body = Text.dropTrailing (· == []) init := by
    rw [split]
    exact List.rdropWhile_concat_pos (· == []) init [] rfl
  have fits : (Text.dropTrailing (· == []) init).length ≤ init.length :=
    (List.rdropWhile_prefix (· == []) init).length_le
  rw [← shorter, again, split, List.length_append] at fits
  exact absurd fits (by simp)

theorem enter_of_usable (usable : Usable path) :
    tree.enter start path = tree.follow start (PathName.components path) := by
  rw [PathName.components_eq_steps, follow_steps, ← walk_dropTrailing]
  unfold enter
  rw [target_of_usable usable rfl rfl]
  cases isLast : (Text.dropTrailing (· == []) (PathName.parts path).body).getLast? with
  | none =>
      rw [List.getLast?_eq_none_iff.mp isLast]
      rfl
  | some last =>
      have notEmpty := last_of_kept rfl isLast
      obtain ⟨init, split⟩ := List.getLast?_eq_some_iff.mp isLast
      rw [split, List.dropLast_concat, walk_append]
      cases tree.walk (origin start (PathName.parts path)) init with
      | error cause => rfl
      | ok directory =>
          dsimp only [Except.bind]
          unfold Target.ofLast
          by_cases dot : last = ['.']
          · rw [if_pos dot, dot]
            rfl
          · rw [if_neg dot]
            by_cases up : last = ['.', '.']
            · rw [if_pos up, up]
              rfl
            · rw [if_neg up, walk_piece tree directory notEmpty dot up]
              change (tree.lookup directory (String.ofList last)).bind _ = _
              cases tree.lookup directory (String.ofList last) with
              | error cause => rfl
              | ok found =>
                  rcases found with _ | _ | _
                  · rfl
                  · rfl
                  · rfl

theorem enter_eq_ok_iff :
    tree.enter start path = .ok place ↔
      Usable path ∧ tree.follow start (PathName.components path) = .ok place := by
  constructor
  · intro entered
    obtain ⟨found, led, _⟩ := Outcome.bind_eq_ok_iff.mp entered
    have usable := usable_of_target led
    exact ⟨usable, (enter_of_usable usable).symm.trans entered⟩
  · rintro ⟨usable, followed⟩
    exact (enter_of_usable usable).trans followed

/-! ### Entries of directories -/

theorem target_of_entry {before : List (List Char)} {name : List Char}
    (cut : PathName.pieces path = before ++ [name]) (named : PathName.IsName name)
    (usable : Usable path) :
    tree.target start path =
      (tree.follow start (PathName.Parts.ofDirectory before).steps).bind fun directory =>
        .ok (.entry directory (String.ofList name) false) := by
  have kept := @Text.dropTrailing_concat _ (· == []) name (beq_eq_false_iff_ne.mpr named.notEmpty)
  rw [target_of_usable usable (PathName.parts_of_pieces cut (.inr named.notDot)) (kept _),
    follow_steps, List.getLast?_concat, List.dropLast_concat]
  dsimp only
  refine congrArg (Except.bind _) (funext fun directory => ?_)
  unfold Target.ofLast
  rw [if_neg named.notDot, if_neg named.notParent]
  exact congrArg (fun slashed => Except.ok (Target.entry directory _ slashed))
    (decide_eq_false (Nat.lt_irrefl _))

variable {directory : String} {inside : Place}

/-- The place of an entry of a directory that can be entered. -/
theorem spot_join (entered : tree.enter start directory = .ok inside) {name : String}
    (named : PathName.IsName name.toList) (nulFree : '\x00' ∉ name.toList) :
    tree.spot start (PathName.join directory name) = .ok place ↔
      (PathName.join directory name).utf8ByteSize < maxPathSize ∧
        (∃ found, tree.lookup inside name = .ok found) ∧ inside ++ [name] = place ∧
        tree.entry? place ≠ some .directory := by
  obtain ⟨usable, followed⟩ := enter_eq_ok_iff.mp entered
  obtain ⟨before, cut, steps⟩ := PathName.pieces_join directory named.slashFree
  have nonempty : name ≠ "" := by
    rintro rfl
    exact absurd named.notIdle (by decide)
  have joined (short : (PathName.join directory name).utf8ByteSize < maxPathSize) :
      tree.target start (PathName.join directory name) = .ok (.entry inside name false) := by
    have usableToo : Usable (PathName.join directory name) := by
      refine ⟨?_, ?_, short⟩
      · unfold PathName.join
        split
        · simp [nonempty]
        · simp [nonempty]
      · unfold PathName.join
        split
        · simp [usable.nulFree, nulFree]
        · simp [usable.nulFree, nulFree]
    rw [target_of_entry cut named usableToo, steps, followed, String.ofList_toList]
    rfl
  rw [spot_eq_ok_iff]
  constructor
  · rintro ⟨_, _, led, looked, placed, free⟩
    have short := (usable_of_target led).short
    cases (joined short).symm.trans led
    exact ⟨short, looked, placed, free⟩
  · rintro ⟨short, looked, placed, free⟩
    exact ⟨inside, name, joined short, looked, placed, free⟩

end FileTree

end TikzChart
