import TikzChart.Files.PathName
import TikzChart.Proofs.Text.Split

/-!
The steps of path names that are put together or taken apart. What stands before the last slash
leads to a directory and what stands behind it names an entry; the parent of a name has the steps
of that directory, and joining a directory with an entry adds one step, however the slashes and
single dots of the directory are written.
-/

set_option autoImplicit false

namespace TikzChart

theorem Text.filter_dropTrailing {α : Type} (test : α → Bool) (text : List α) :
    (dropTrailing test text).filter (!test ·) = text.filter (!test ·) := by
  have dropped (text : List α) :
      (text.dropWhile test).filter (!test ·) = text.filter (!test ·) := by
    induction text with
    | nil => rfl
    | cons c rest ih =>
        cases passes : test c with
        | true => rw [List.dropWhile_cons_of_pos passes, ih]; simp [passes]
        | false => rw [List.dropWhile_cons_of_neg (by simp [passes])]
  rw [dropTrailing, List.filter_reverse, dropped, List.filter_reverse, List.reverse_reverse]

theorem Text.dropTrailing_concat {α : Type} {test : α → Bool} {last : α}
    (stays : test last = false) (text : List α) :
    dropTrailing test (text ++ [last]) = text ++ [last] := by
  simp [dropTrailing, stays]

theorem Text.dropTrailing_append {α : Type} {test : α → Bool} (text : List α) {tail : List α}
    (passes : ∀ item ∈ tail, test item = true) :
    dropTrailing test (text ++ tail) = dropTrailing test text := by
  have passesBackwards : ∀ item ∈ tail.reverse, test item = true :=
    fun item member => passes item (List.mem_reverse.mp member)
  rw [dropTrailing, List.reverse_append, List.dropWhile_append_of_pos passesBackwards]
  rfl

namespace PathName

/-- A piece that is the name of an entry. -/
structure IsName (piece : List Char) : Prop where
  notIdle : isIdle piece = false
  notParent : piece ≠ ['.', '.']
  slashFree : '/' ∉ piece

theorem IsName.notDot {piece : List Char} (named : IsName piece) : piece ≠ ['.'] := by
  rintro rfl
  exact absurd named.notIdle (by decide)

theorem IsName.notEmpty {piece : List Char} (named : IsName piece) : piece ≠ [] := by
  rintro rfl
  exact absurd named.notIdle (by decide)

theorem component_of_name {piece : List Char} (named : IsName piece) :
    component piece = .name piece :=
  if_neg named.notParent

/-- Every path name is a directory, as pieces before the last slash, and what is behind the slash.
-/
theorem exists_pieces (path : String) : ∃ before last, pieces path = before ++ [last] :=
  ⟨_, _, (List.dropLast_append_getLast (Text.splitOn_ne_nil '/' path.toList)).symm⟩

theorem slashFree_of_mem_pieces (path : String) {piece : List Char}
    (member : piece ∈ pieces path) : '/' ∉ piece :=
  Text.not_mem_of_mem_splitOn member

/-! ### Steps of directories -/

namespace Parts

def front (parts : Parts) : List Component :=
  if parts.rooted then [.root] else if parts.dotted then [.current] else []

def steps (parts : Parts) : List Component :=
  parts.front ++ (parts.body.filter (!isIdle ·)).map component

/-- The parts of a directory, given by the pieces before the last slash. -/
def ofDirectory : List (List Char) → Parts
  | [] :: rest => ⟨true, false, rest⟩
  | ['.'] :: rest => ⟨false, true, rest⟩
  | body => ⟨false, false, body⟩

theorem ofDirectory_of_plain {first : List Char} (notEmpty : first ≠ []) (notDot : first ≠ ['.'])
    (rest : List (List Char)) :
    ofDirectory (first :: rest) = ⟨false, false, first :: rest⟩ := by
  unfold ofDirectory
  split
  · next same => exact absurd (List.cons.inj same).1 notEmpty
  · next same => exact absurd (List.cons.inj same).1 notDot
  · rfl

/-- An entry of the directory. -/
def entry (parts : Parts) (piece : List Char) : Parts :=
  { parts with body := parts.body ++ [piece] }

/-- The same directory without idle pieces at the end. -/
def trimmed (parts : Parts) : Parts :=
  { parts with body := Text.dropTrailing isIdle parts.body }

@[simp] theorem front_entry (parts : Parts) (piece : List Char) :
    (parts.entry piece).front = parts.front := rfl

@[simp] theorem front_trimmed (parts : Parts) : parts.trimmed.front = parts.front := rfl

theorem steps_entry_nil (parts : Parts) : (parts.entry []).steps = parts.steps := by
  rw [steps, front_entry, entry, List.filter_append, List.map_append, ← List.append_assoc]
  exact List.append_nil _

theorem steps_trimmed (parts : Parts) : parts.trimmed.steps = parts.steps := by
  rw [steps, front_trimmed, trimmed, Text.filter_dropTrailing, steps]

end Parts

theorem components_eq_steps (path : String) : components path = (parts path).steps := rfl

section

variable {path : String} {before rest : List (List Char)} {last : List Char}

/-- Pieces behind those of a directory stay behind them, as long as none of them is at the front. -/
theorem parts_of_cut (cut : pieces path = before ++ last :: rest)
    (visible : before ≠ [] ∨ last ≠ ['.'] ∧ (last = [] → rest = [])) :
    parts path = { Parts.ofDirectory before with
      body := (Parts.ofDirectory before).body ++ last :: rest } := by
  unfold parts
  rw [cut]
  cases before with
  | nil =>
      obtain ⟨notDot, alone⟩ := visible.resolve_left fun differs => differs rfl
      rw [List.nil_append]
      split
      · next same =>
          obtain ⟨isEmpty, more⟩ := List.cons.inj same
          rw [alone isEmpty] at more
          cases more
      · next same => exact absurd (List.cons.inj same).1 notDot
      · rfl
  | cons first behind =>
      by_cases empty : first = []
      · rw [empty]
        cases behind with
        | nil => rfl
        | cons next behind => rfl
      · by_cases dot : first = ['.']
        · rw [dot]
          rfl
        · rw [Parts.ofDirectory_of_plain empty dot, List.cons_append]
          split
          · next same => exact absurd (List.cons.inj same).1 empty
          · next same => exact absurd (List.cons.inj same).1 dot
          · rfl

/-- A path name as an entry of its directory. -/
theorem parts_of_pieces (cut : pieces path = before ++ [last])
    (visible : before ≠ [] ∨ last ≠ ['.']) :
    parts path = (Parts.ofDirectory before).entry last :=
  parts_of_cut cut (visible.imp_right fun notDot => ⟨notDot, fun _ => rfl⟩)

end

section

variable {path : String} {before idle : List (List Char)} {name : List Char}
  (cut : pieces path = before ++ name :: idle) (named : IsName name)

include cut named

theorem parts_of_name :
    parts path = { Parts.ofDirectory before with
      body := (Parts.ofDirectory before).body ++ name :: idle } :=
  parts_of_cut cut (.inr ⟨named.notDot, fun empty => absurd empty named.notEmpty⟩)

variable (idles : ∀ piece ∈ idle, isIdle piece = true)

include idles

/-- Slashes and single dots behind a name make no steps. -/
theorem components_of_name :
    components path = (Parts.ofDirectory before).steps ++ [.name name] := by
  have kept : (name :: idle).filter (!isIdle ·) = [name] := by
    rw [List.filter_cons_of_pos (by simp [named.notIdle]), List.filter_eq_nil_iff.mpr]
    intro piece member
    simp [idles piece member]
  rw [components_eq_steps, parts_of_name cut named, Parts.steps, List.filter_append, kept,
    List.map_append, ← List.append_assoc]
  simp only [List.map_cons, List.map_nil, component_of_name named]
  rfl

theorem parent?_of_name : parent? path = some (Parts.ofDirectory before).trimmed.text := by
  have kept : Text.dropTrailing isIdle ((Parts.ofDirectory before).body ++ name :: idle) =
      (Parts.ofDirectory before).body ++ [name] := by
    rw [List.append_cons, Text.dropTrailing_append _ idles,
      Text.dropTrailing_concat named.notIdle]
  unfold parent?
  rw [parts_of_name cut named]
  dsimp only
  rw [kept]
  simp [Parts.trimmed]

end

theorem components_of_pieces {path : String} {before : List (List Char)} {name : List Char}
    (cut : pieces path = before ++ [name]) (named : IsName name) :
    components path = (Parts.ofDirectory before).steps ++ [.name name] :=
  components_of_name cut named nofun

/-- A directory is the same with a slash at its end and without. -/
theorem components_of_slash {path : String} {before : List (List Char)}
    (cut : pieces path = before ++ [[]]) :
    components path = (Parts.ofDirectory before).steps := by
  rw [components_eq_steps, parts_of_pieces cut (.inr (by decide)), Parts.steps_entry_nil]

/-! ### Joining -/

/-- Only a name without any character is not the spelling of a directory. -/
theorem parts_eq_ofDirectory {path : String} (several : pieces path ≠ [[]]) :
    parts path = Parts.ofDirectory (pieces path) := by
  unfold parts
  split
  · next same => rw [same]; rfl
  · next same => rw [same]; rfl
  · next notRooted notDotted =>
      cases cut : pieces path with
      | nil => rfl
      | cons first rest =>
          rw [Parts.ofDirectory_of_plain]
          · rintro rfl
            cases rest with
            | nil => exact several cut
            | cons next rest => exact notRooted next rest cut
          · rintro rfl
            exact notDotted rest cut

theorem components_directory {directory : String} (nonempty : directory ≠ "") :
    components directory = (Parts.ofDirectory (pieces directory)).steps := by
  have several : pieces directory ≠ [[]] := by
    intro single
    have text := Text.joinWith_splitOn '/' directory.toList
    unfold pieces at single
    rw [single] at text
    exact nonempty (String.toList_eq_nil_iff.mp text.symm)
  rw [components_eq_steps, parts_eq_ofDirectory several]

theorem pieces_of_last {path : String} {before : List (List Char)} {last : List Char}
    (cut : pieces path = before ++ [last]) {tail : String} (free : '/' ∉ tail.toList) :
    pieces (path ++ tail) = before ++ [last ++ tail.toList] := by
  unfold pieces at cut ⊢
  rw [String.toList_append]
  exact Text.splitOn_append cut free

/-- Joining adds one step. -/
theorem pieces_join (directory : String) {name : String} (free : '/' ∉ name.toList) :
    ∃ before, pieces (join directory name) = before ++ [name.toList] ∧
      (Parts.ofDirectory before).steps = components directory := by
  obtain ⟨before, last, cut⟩ := exists_pieces directory
  have ends := Text.last_ne_nil_iff cut
  by_cases together : directory.isEmpty || directory.toList.getLast? == some '/'
  · have nothing : last = [] := by
      by_contra something
      obtain ⟨c, found, notSlash⟩ := ends.mp something
      simp [found, notSlash] at together
      rw [together] at found
      cases found
    refine ⟨before, ?_, (components_of_slash (nothing ▸ cut)).symm⟩
    rw [join, if_pos together, pieces_of_last cut free, nothing, List.nil_append]
  · have nonempty : directory ≠ "" := by
      rintro rfl
      exact together rfl
    refine ⟨pieces directory, ?_, (components_directory nonempty).symm⟩
    rw [join, if_neg together, pieces, String.toList_append, String.toList_append,
      List.append_assoc]
    exact Text.splitOn_concat _ free

theorem components_join (directory : String) {name : String} (named : IsName name.toList) :
    components (join directory name) = components directory ++ [.name name.toList] := by
  obtain ⟨before, whole, steps⟩ := pieces_join directory named.slashFree
  rw [components_of_pieces whole named, steps]

/-! ### Taking apart -/

theorem fileName?_of_pieces {path : String} {before : List (List Char)} {name : List Char}
    (cut : pieces path = before ++ [name]) (named : IsName name) :
    fileName? path = some name := by
  have last : lastPiece? path = some name := by
    rw [lastPiece?, parts_of_pieces cut (.inr named.notDot), Parts.entry, List.filter_append]
    simp [named.notIdle]
  rw [fileName?, last]
  exact if_neg named.notParent

/-- A spelling of a directory is read as the directory, unless it has no character. -/
theorem components_text {parts : Parts} {first : List Char} {rest : List (List Char)}
    (spelled : parts.text = String.ofList (Text.joinWith ['/'] (first :: rest)))
    (several : first :: rest ≠ [[]]) (free : ∀ piece ∈ first :: rest, '/' ∉ piece)
    (same : (Parts.ofDirectory (first :: rest)).steps = parts.steps) :
    components parts.text = parts.steps := by
  have cut : pieces parts.text = first :: rest := by
    rw [spelled, pieces, String.toList_ofList, Text.splitOn_joinWith (List.cons_ne_nil _ _) free]
  rw [components_eq_steps, parts_eq_ofDirectory (cut ▸ several), cut, same]

theorem components_text_rooted {body : List (List Char)} (free : ∀ piece ∈ body, '/' ∉ piece) :
    components (Parts.mk true false body).text = (Parts.mk true false body).steps := by
  cases body with
  | nil => rfl
  | cons piece rest =>
      have freeAll : ∀ other ∈ [] :: piece :: rest, '/' ∉ other :=
        List.forall_mem_cons.mpr ⟨List.not_mem_nil, free⟩
      exact components_text rfl (by simp) freeAll rfl

theorem components_text_dotted {body : List (List Char)} (free : ∀ piece ∈ body, '/' ∉ piece) :
    components (Parts.mk false true body).text = (Parts.mk false true body).steps := by
  have freeAll : ∀ other ∈ ['.'] :: body, '/' ∉ other :=
    List.forall_mem_cons.mpr ⟨by decide, free⟩
  exact components_text rfl (by simp) freeAll rfl

theorem components_text_plain {first : List Char} {rest : List (List Char)}
    (notEmpty : first ≠ []) (notDot : first ≠ ['.'])
    (free : ∀ piece ∈ first :: rest, '/' ∉ piece) :
    components (Parts.mk false false (first :: rest)).text =
      (Parts.mk false false (first :: rest)).steps := by
  have same := Parts.ofDirectory_of_plain notEmpty notDot rest
  exact components_text rfl (by simp [notEmpty]) free (congrArg Parts.steps same)

/-- A directory that is written without the idle pieces at its end has the same steps. -/
theorem components_text_trimmed {before : List (List Char)}
    (free : ∀ piece ∈ before, '/' ∉ piece) :
    components (Parts.ofDirectory before).trimmed.text = (Parts.ofDirectory before).steps := by
  have kept (pieces : List (List Char)) :
      Text.dropTrailing isIdle pieces <+: pieces := List.rdropWhile_prefix ..
  rw [← Parts.steps_trimmed]
  cases before with
  | nil => rfl
  | cons first rest =>
      have freeRest : ∀ piece ∈ Text.dropTrailing isIdle rest, '/' ∉ piece :=
        fun piece member => free piece (List.mem_cons_of_mem first ((kept rest).subset member))
      by_cases empty : first = []
      · subst empty
        exact components_text_rooted freeRest
      · by_cases dot : first = ['.']
        · subst dot
          exact components_text_dotted freeRest
        · have busy : isIdle first = false := by simp [isIdle, empty, dot]
          have plain : (Parts.ofDirectory (first :: rest)).trimmed =
              ⟨false, false, Text.dropTrailing isIdle (first :: rest)⟩ := by
            rw [Parts.ofDirectory_of_plain empty dot, Parts.trimmed]
          have freeAll : ∀ piece ∈ Text.dropTrailing isIdle (first :: rest), '/' ∉ piece :=
            fun piece member => free piece ((kept (first :: rest)).subset member)
          rw [plain]
          cases spelled : Text.dropTrailing isIdle (first :: rest) with
          | nil =>
              have idle := List.rdropWhile_eq_nil_iff.mp spelled first List.mem_cons_self
              rw [busy] at idle
              cases idle
          | cons piece others =>
              have same := (List.cons_prefix_cons.mp (spelled ▸ kept (first :: rest))).1
              rw [spelled] at freeAll
              exact components_text_plain (same ▸ empty) (same ▸ dot) freeAll

theorem parent?_of_pieces {path : String} {before : List (List Char)} {name : List Char}
    (cut : pieces path = before ++ [name]) (named : IsName name) :
    ∃ parent, parent? path = some parent ∧
      components parent = (Parts.ofDirectory before).steps := by
  have free : ∀ piece ∈ before, '/' ∉ piece := fun piece member =>
    slashFree_of_mem_pieces path (cut ▸ List.mem_append_left _ member)
  exact ⟨_, parent?_of_name cut named nofun, components_text_trimmed free⟩

end PathName

end TikzChart
