import TikzChart.Chart.Save
import TikzChart.Proofs.Files.PathName

/-!
Where a rendered page is found. The name of the page is made from the name of the document, which is
taken apart and put together again; it leads to the file that the base name announces, unless that
base name stops at a slash or has no character. The document is then named by its extension alone,
and the page has a second extension.
-/

set_option autoImplicit false

namespace TikzChart

namespace PathName

/-- The names have the same steps, but for a dot in front of the first one. -/
def SameUpToDot (path other : String) : Prop :=
  components path = components other ∨ components path = .current :: components other

theorem SameUpToDot.getLast? {path other : String} (same : SameUpToDot path other)
    {step : Component} (last : (components other).getLast? = some step) :
    (components path).getLast? = some step := by
  rcases same with equal | dotted
  · rw [equal, last]
  · rw [dotted, List.getLast?_cons, last]
    rfl

/-- Something stands behind the last slash. -/
def NamesFile (base : String) : Prop := ∃ c, base.toList.getLast? = some c ∧ c ≠ '/'

theorem isName_of_getLast? {piece : List Char} {c : Char} (ends : piece.getLast? = some c)
    (notDot : c ≠ '.') (free : '/' ∉ piece) : IsName piece := by
  have differs {other : List Char} (otherwise : other.getLast? ≠ some c) : piece ≠ other := by
    rintro rfl
    exact otherwise ends
  have notEmpty : piece ≠ [] := differs (by simp)
  have notSingle : piece ≠ ['.'] := differs (by simp [Ne.symm notDot])
  have notDouble : piece ≠ ['.', '.'] := differs (by simp [Ne.symm notDot])
  exact ⟨by simp [isIdle, notEmpty, notSingle], notDouble, free⟩

theorem stem_extension (name : List Char) {extension : List Char} (free : '.' ∉ extension) :
    stem (name ++ '.' :: extension) = if name = [] then '.' :: extension else name := by
  have noDot : ∀ c ∈ extension.reverse, decide (c ≠ '.') = true := by
    intro c member
    rw [List.mem_reverse] at member
    exact decide_eq_true fun same => free (same ▸ member)
  have cut : ((name ++ '.' :: extension).reverse.dropWhile (· ≠ '.')).drop 1 = name.reverse := by
    rw [List.reverse_append, List.reverse_cons, List.append_assoc,
      List.dropWhile_append_of_pos noDot]
    rfl
  unfold stem
  rw [cut]
  by_cases nothing : name = []
  · rw [nothing]
    rfl
  · simp [nothing]

end PathName

open PathName

/-! ### Taking the document apart -/

namespace RenderJob

variable {base : String} {before : List (List Char)} {final : List Char}
  (cut : pieces base = before ++ [final])

include cut

/-- A base name with something at its end, be it an extension or more. -/
theorem pieces_extended {tail : String} (free : '/' ∉ tail.toList) {c : Char}
    (ends : tail.toList.getLast? = some c) (notDot : c ≠ '.') :
    pieces (base ++ tail) = before ++ [final ++ tail.toList] ∧ IsName (final ++ tail.toList) := by
  have freeFinal : '/' ∉ final := slashFree_of_mem_pieces base (cut ▸ by simp)
  have endsSo : (final ++ tail.toList).getLast? = some c := by
    rw [List.getLast?_append, ends]
    rfl
  exact ⟨pieces_of_last cut free, isName_of_getLast? endsSo notDot (by simp [freeFinal, free])⟩

theorem components_extended {tail : String} (free : '/' ∉ tail.toList) {c : Char}
    (ends : tail.toList.getLast? = some c) (notDot : c ≠ '.') :
    components (base ++ tail) =
      (Parts.ofDirectory before).steps ++ [.name (final ++ tail.toList)] := by
  obtain ⟨whole, named⟩ := pieces_extended cut free ends notDot
  exact components_of_pieces whole named

/-- The document lies in the directory of the base name; only the current one gets a dot. -/
theorem components_directory_ofDocument :
    components (ofDocument (base ++ ".tex")).directory = (Parts.ofDirectory before).steps ∨
      (Parts.ofDirectory before).steps = [] ∧
        components (ofDocument (base ++ ".tex")).directory = [.current] := by
  obtain ⟨whole, named⟩ := @pieces_extended _ _ _ cut ".tex" (by decide) 'x' rfl (by decide)
  obtain ⟨parent, found, steps⟩ := parent?_of_pieces whole named
  unfold ofDocument
  rw [found]
  dsimp only
  cases empty : parent.isEmpty with
  | true =>
      have nothing : parent = "" := String.isEmpty_iff.mp empty
      rw [nothing] at steps
      rw [if_pos rfl]
      exact .inr ⟨steps.symm, rfl⟩
  | false => exact .inl steps

/-- What the job takes for the name without the extension. -/
def stemmed (base : String) (final : List Char) : String :=
  if final = [] then base ++ ".tex" else base

theorem stem_ofDocument :
    ∃ stem, (ofDocument (base ++ ".tex")).stem = String.ofList stem ∧
      pieces (stemmed base final) = before ++ [stem] := by
  obtain ⟨whole, named⟩ := @pieces_extended _ _ _ cut ".tex" (by decide) 'x' rfl (by decide)
  refine ⟨PathName.stem (final ++ ".tex".toList), ?_, ?_⟩
  · unfold ofDocument
    rw [fileName?_of_pieces whole named]
    rfl
  · have taken := @stem_extension final ['t', 'e', 'x'] (by decide)
    change pieces _ = before ++ [PathName.stem (final ++ '.' :: ['t', 'e', 'x'])]
    unfold stemmed
    rw [taken]
    by_cases nothing : final = []
    · rw [if_pos nothing, if_pos nothing, whole, nothing]
      rfl
    · rw [if_neg nothing, if_neg nothing, cut]

/-- A file beside the document, with its name but for the extension. -/
theorem sibling_ofDocument {extension : String} (free : '/' ∉ extension.toList) {c : Char}
    (ends : extension.toList.getLast? = some c) (notDot : c ≠ '.') :
    ∃ stem, pieces (stemmed base final) = before ++ [stem] ∧
      ((ofDocument (base ++ ".tex")).sibling extension).toList =
        stem ++ ("." ++ extension).toList ∧
      IsName ((ofDocument (base ++ ".tex")).sibling extension).toList ∧
      components (stemmed base final ++ ("." ++ extension)) = (Parts.ofDirectory before).steps ++
        [.name ((ofDocument (base ++ ".tex")).sibling extension).toList] := by
  obtain ⟨stem, isStem, cutStem⟩ := stem_ofDocument cut
  have tail : ("." ++ extension).toList = '.' :: extension.toList := String.toList_append
  have freeTail : '/' ∉ ("." ++ extension).toList := by simp [tail, free]
  have endsTail : ("." ++ extension).toList.getLast? = some c := by
    rw [tail, List.getLast?_cons, ends]
    rfl
  have sibling : ((ofDocument (base ++ ".tex")).sibling extension).toList =
      stem ++ ("." ++ extension).toList := by
    simp [RenderJob.sibling, isStem]
  refine ⟨stem, cutStem, sibling, ?_, ?_⟩
  · rw [sibling]
    exact (pieces_extended cutStem freeTail endsTail notDot).2
  · rw [sibling]
    exact components_extended cutStem freeTail endsTail notDot

theorem output_ofDocument {extension : String} (free : '/' ∉ extension.toList) {c : Char}
    (ends : extension.toList.getLast? = some c) (notDot : c ≠ '.') :
    SameUpToDot ((ofDocument (base ++ ".tex")).output extension)
      (stemmed base final ++ ("." ++ extension)) := by
  obtain ⟨_, _, _, named, target⟩ := sibling_ofDocument cut free ends notDot
  unfold SameUpToDot
  rw [output, components_join _ named, target]
  rcases components_directory_ofDocument cut with same | ⟨nothing, dot⟩
  · rw [same]
    exact .inl rfl
  · rw [nothing, dot]
    exact .inr rfl

end RenderJob

/-- The name that is made from the document by taking it apart. -/
def RenderJob.pageOf (base : String) : String :=
  (ofDocument (OutputPaths.ofBase base).document).output "pdf"

theorem RenderJob.pageOf_announced (base : String) :
    (SameUpToDot (pageOf base) (OutputPaths.ofBase base).rendered ↔ NamesFile base) ∧
      (¬NamesFile base →
        SameUpToDot (pageOf base) ((OutputPaths.ofBase base).document ++ ".pdf")) := by
  obtain ⟨before, final, cut⟩ := exists_pieces base
  have found : SameUpToDot (pageOf base) (stemmed base final ++ ".pdf") :=
    @output_ofDocument _ _ _ cut "pdf" (by decide) 'f' rfl (by decide)
  have namesFile : NamesFile base ↔ final ≠ [] := (Text.last_ne_nil_iff cut).symm
  rw [namesFile]
  by_cases nothing : final = []
  · rw [stemmed, if_pos nothing] at found
    refine ⟨iff_of_false ?_ (not_not_intro nothing), fun _ => found⟩
    intro announced
    have document := @pieces_extended _ _ _ cut ".tex" (by decide) 'x' rfl (by decide)
    have pageSteps := @components_extended _ _ _ document.1 ".pdf" (by decide) 'f' rfl (by decide)
    have announcedSteps := @components_extended _ _ _ cut ".pdf" (by decide) 'f' rfl (by decide)
    rw [nothing] at pageSteps announcedSteps
    have last := found.getLast? (pageSteps ▸ List.getLast?_concat)
    have lastAnnounced := announced.getLast? (announcedSteps ▸ List.getLast?_concat)
    rw [last] at lastAnnounced
    exact absurd lastAnnounced (by decide)
  · rw [stemmed, if_neg nothing] at found
    exact ⟨iff_of_true found nothing, fun impossible => absurd nothing impossible⟩

/-! ### Rendering -/

namespace Chart

variable {chart : Chart} {base : String} {backend : Backend} {workspace after : Workspace}

theorem name_of_saveTex {document : String}
    (saved : (chart.saveTex base).runOn workspace = (.ok document, after)) :
    document = (OutputPaths.ofBase base).document := by
  unfold saveTex at saved
  split at saved
  · cases saved
  · obtain ⟨_, _, _, saved⟩ := Step.ok_of_bind saved
    obtain ⟨_, _, _, saved⟩ := Step.ok_of_bind saved
    obtain ⟨_, _, _, saved⟩ := Step.ok_of_bind saved
    cases saved
    rfl

theorem name_of_render {document page : String}
    (rendered : (backend.render document).runOn workspace = (.ok page, after)) :
    page = (RenderJob.ofDocument document).output "pdf" := by
  obtain ⟨_, _, _, rendered⟩ := Step.ok_of_bind rendered
  obtain ⟨_, _, _, rendered⟩ := Step.ok_of_bind rendered
  cases rendered
  rfl

theorem name_of_savePdf {page : String}
    (saved : (chart.savePdf base backend).runOn workspace = (.ok page, after)) :
    page = RenderJob.pageOf base := by
  obtain ⟨document, _, savedDocument, rendered⟩ := Step.ok_of_bind saved
  rw [RenderJob.pageOf, ← name_of_saveTex savedDocument]
  exact name_of_render rendered

end Chart

/-- The page that is saved is the one that the base name announces, but for a dot in front, exactly
when the base name names a file. Otherwise it is the document with a second extension. -/
theorem saved_page_announced (base : String) :
    (SameUpToDot (RenderJob.pageOf base) (OutputPaths.ofBase base).rendered ↔ NamesFile base) ∧
    (¬NamesFile base →
      SameUpToDot (RenderJob.pageOf base) ((OutputPaths.ofBase base).document ++ ".pdf")) ∧
    ∀ (chart : Chart) (backend : Backend) (workspace after : Workspace) (page : String),
      (chart.savePdf base backend).runOn workspace = (.ok page, after) →
        page = RenderJob.pageOf base := by
  obtain ⟨announced, otherwise⟩ := RenderJob.pageOf_announced base
  refine ⟨announced, otherwise, ?_⟩
  intro chart backend workspace after page saved
  exact Chart.name_of_savePdf saved

/-- A directory to save in, and a tool that succeeds. -/
def pressroom : Workspace := { tree := ⟨[(["out"], .directory)]⟩, tools := [("pdflatex", 0)] }

theorem page_beside_document :
    ∃ after, (({} : Chart).savePdf "out/fig.v2" (.pdflatex "pdflatex")).runOn pressroom =
        (.ok "out/fig.v2.pdf", after) ∧
      SameUpToDot "out/fig.v2.pdf" (OutputPaths.ofBase "out/fig.v2").rendered := by
  have ended : ((({} : Chart).savePdf "out/fig.v2" (.pdflatex "pdflatex")).runOn pressroom).1 =
      .ok "out/fig.v2.pdf" := by decide +kernel
  have named : NamesFile "out/fig.v2" := ⟨'2', by decide +kernel, by decide⟩
  have saved := Step.runOn_of_outcome ended
  obtain ⟨announced, _, isPage⟩ := saved_page_announced "out/fig.v2"
  have same := announced.mpr named
  rw [← isPage _ _ _ _ _ saved] at same
  exact ⟨_, saved, same⟩

/-- A base name that stops at a slash is not kept. -/
theorem page_of_directory_not_announced :
    ((({} : Chart).savePdf "out/" (.pdflatex "pdflatex")).runOn pressroom).1 =
        .ok "out/.tex.pdf" ∧
      ¬SameUpToDot "out/.tex.pdf" (OutputPaths.ofBase "out/").rendered := by
  refine ⟨by decide +kernel, ?_⟩
  unfold SameUpToDot
  decide +kernel

end TikzChart
