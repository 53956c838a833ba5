import TikzChart.Files.Render
import TikzChart.Proofs.Files.Page

/-!
A document to be rendered, under any path name that has a file name: behind it there may be slashes
and single dots. The directory and the file name of the job make up the document again, and the
files beside it have the name of the document with another ending.
-/

set_option autoImplicit false

namespace TikzChart

namespace PathName

theorem body_suffix (path : String) : (parts path).body <:+ pieces path := by
  unfold parts
  split
  · next first rest cut =>
      rw [cut]
      exact List.suffix_cons [] (first :: rest)
  · next rest cut =>
      rw [cut]
      exact List.suffix_cons ['.'] rest
  · exact List.suffix_rfl

variable {path : String} {name : List Char} {before idle : List (List Char)}

theorem pieces_of_fileName? (found : fileName? path = some name) :
    IsName name ∧ ∃ before idle, pieces path = before ++ name :: idle ∧
      ∀ piece ∈ idle, isIdle piece = true := by
  have last : lastPiece? path = some name ∧ name ≠ ['.', '.'] := by
    unfold fileName? at found
    split at found
    · next piece isLast =>
        split at found
        · cases found
        · next notParent =>
            cases found
            exact ⟨isLast, notParent⟩
    · cases found
  obtain ⟨front, filtered⟩ := List.getLast?_eq_some_iff.mp last.1
  obtain ⟨first, second, split, -, single⟩ := List.filter_eq_append_iff.mp filtered
  obtain ⟨between, idle, cut, -, busy, nothing⟩ := List.filter_eq_cons_iff.mp single
  obtain ⟨start, whole⟩ := body_suffix path
  rw [split, cut] at whole
  have isPiece : name ∈ pieces path := by
    rw [← whole]
    simp
  refine ⟨⟨by simpa using busy, last.2, slashFree_of_mem_pieces path isPiece⟩,
    start ++ (first ++ between), idle, ?_, ?_⟩
  · rw [← whole]
    simp only [List.append_assoc]
  · intro piece member
    have dropped := List.filter_eq_nil_iff.mp nothing piece member
    simpa using dropped

/-- The parent of a name has all its steps but the last one. -/
theorem components_parent (cut : pieces path = before ++ name :: idle) (named : IsName name)
    (idles : ∀ piece ∈ idle, isIdle piece = true) :
    components path = components (Parts.ofDirectory before).trimmed.text ++ [.name name] := by
  have free : ∀ piece ∈ before, '/' ∉ piece := fun piece member =>
    slashFree_of_mem_pieces path (cut ▸ List.mem_append_left _ member)
  rw [components_text_trimmed free, components_of_name cut named idles]

end PathName

open PathName

theorem PathName.mem_of_mem_stem {name : List Char} {c : Char} (member : c ∈ stem name) :
    c ∈ name := by
  have part : (name.reverse.dropWhile (· ≠ '.')).drop 1 ⊆ name.reverse :=
    List.Subset.trans (List.drop_subset 1 _) (List.dropWhile_subset _)
  unfold stem at member
  dsimp only at member
  split at member
  · exact member
  · exact List.mem_reverse.mp (part (List.mem_reverse.mp member))

namespace RenderJob

variable {document : String} {name : List Char} (found : fileName? document = some name)

include found

theorem file_ofDocument : (ofDocument document).file = String.ofList name := by
  unfold ofDocument
  rw [found]
  rfl

theorem stem_of_fileName : (ofDocument document).stem = String.ofList (PathName.stem name) := by
  unfold ofDocument
  rw [found]
  rfl

/-- The document is the file of that name in that directory. -/
theorem join_file_ofDocument :
    SameUpToDot (PathName.join (ofDocument document).directory (ofDocument document).file)
      document := by
  obtain ⟨named, before, idle, cut, idles⟩ := pieces_of_fileName? found
  have isParent := parent?_of_name cut named idles
  have steps := components_parent cut named idles
  generalize (Parts.ofDirectory before).trimmed.text = parent at isParent steps
  have directory : (ofDocument document).directory = if parent.isEmpty then "." else parent := by
    unfold ofDocument
    rw [isParent]
  unfold SameUpToDot
  rw [file_ofDocument found, components_join _ (by rwa [String.toList_ofList]),
    String.toList_ofList, directory, steps]
  by_cases nothing : parent.isEmpty = true
  · rw [if_pos nothing, String.isEmpty_iff.mp nothing]
    exact .inr rfl
  · rw [if_neg nothing]
    exact .inl rfl

theorem sibling_toList (extension : String) :
    ((ofDocument document).sibling extension).toList =
      PathName.stem name ++ ("." ++ extension).toList := by
  unfold sibling
  rw [stem_of_fileName found, String.append_assoc, String.toList_append, String.toList_ofList]

theorem isName_sibling {extension : String} (free : '/' ∉ extension.toList) {c : Char}
    (ends : extension.toList.getLast? = some c) (notDot : c ≠ '.') :
    IsName ((ofDocument document).sibling extension).toList := by
  obtain ⟨named, -⟩ := pieces_of_fileName? found
  have freeStem : '/' ∉ PathName.stem name := fun member =>
    named.slashFree (mem_of_mem_stem member)
  have tail : ("." ++ extension).toList = '.' :: extension.toList := String.toList_append
  rw [sibling_toList found, tail]
  refine isName_of_getLast? ?_ notDot (by simp [freeStem, free])
  rw [List.getLast?_append, List.getLast?_cons, ends]
  rfl

theorem sibling_ne {extension ending : String}
    (apart : ¬("." ++ extension).toList <:+ ending.toList)
    (apartToo : ¬ending.toList <:+ ("." ++ extension).toList) {other : String}
    (ends : ending.toList <:+ other.toList) : (ofDocument document).sibling extension ≠ other := by
  rintro rfl
  rw [sibling_toList found] at ends
  have ownEnd := List.suffix_append (PathName.stem name) ("." ++ extension).toList
  exact (List.suffix_or_suffix_of_suffix ownEnd ends).elim apart apartToo

end RenderJob

end TikzChart
