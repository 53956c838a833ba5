/-!
The reasons for which an operating system refuses a file operation or the start of a program,
with the texts and numbers it reports them under.
-/

set_option autoImplicit false

namespace TikzChart

inductive OsError where
  | notFound
  | alreadyExists
  | notADirectory
  | isADirectory
  | nameTooLong
  | permissionDenied
  | nulInName
  | nulInLaunch
  | other (description : String)
deriving DecidableEq, Repr

def OsError.message : OsError → String
  | notFound => "No such file or directory (os error 2)"
  | alreadyExists => "File exists (os error 17)"
  | notADirectory => "Not a directory (os error 20)"
  | isADirectory => "Is a directory (os error 21)"
  | nameTooLong => "File name too long (os error 36)"
  | permissionDenied => "Permission denied (os error 13)"
  | nulInName => "file name contained an unexpected NUL byte"
  | nulInLaunch => "nul byte found in provided data"
  | other description => description

end TikzChart
