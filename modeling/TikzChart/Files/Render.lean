import TikzChart.Files.Workspace

/-!
Turning a document into a page with the tools of TeX. The tools run one after the other in the
directory of the document; the first one that fails ends the run. When all have done their work,
what they leave behind is removed.
-/

set_option autoImplicit false

namespace TikzChart

inductive Backend where
  | dvips (typeset convert distill : String)
  | pdflatex (program : String)
deriving DecidableEq, Repr

structure RenderJob where
  directory : String
  file : String
  stem : String
deriving DecidableEq, Repr

namespace RenderJob

/-- A document without a directory lies in the current one. -/
def ofDocument (document : String) : RenderJob :=
  let name := (PathName.fileName? document).getD []
  { directory := match PathName.parent? document with
      | some parent => if parent.isEmpty then "." else parent
      | none => "."
    file := String.ofList name
    stem := String.ofList (PathName.stem name) }

def sibling (job : RenderJob) (extension : String) : String := job.stem ++ "." ++ extension

def output (job : RenderJob) (extension : String) : String :=
  PathName.join job.directory (job.sibling extension)

end RenderJob

namespace Backend

def id : Backend → String
  | dvips .. => "latex-dvips"
  | pdflatex _ => "pdflatex"

def stages (backend : Backend) (job : RenderJob) : List (String × List String) :=
  match backend with
  | dvips typeset convert distill =>
    [(typeset, ["-halt-on-error", job.file]), (convert, ["-q", job.sibling "dvi"]),
      (distill, [job.sibling "ps"])]
  | pdflatex program => [(program, ["-halt-on-error", "-interaction=nonstopmode", job.file])]

def leftovers : Backend → List String
  | dvips .. => ["aux", "log", "dvi", "ps"]
  | pdflatex _ => ["aux", "log"]

def runStages (job : RenderJob) : List (String × List String) → Work Unit
  | [] => pure ()
  | (tool, arguments) :: stages => do
    Work.launch job.directory tool arguments
    runStages job stages

/-- Removes what can be removed of the files with the given extensions. -/
def cleanUp (job : RenderJob) : List String → Work Unit
  | [] => pure ()
  | extension :: extensions => do
    Work.tryRemove (job.output extension)
    cleanUp job extensions

def render (backend : Backend) (document : String) : Work String := do
  let job := RenderJob.ofDocument document
  runStages job (backend.stages job)
  cleanUp job backend.leftovers
  pure (job.output "pdf")

end Backend

end TikzChart
