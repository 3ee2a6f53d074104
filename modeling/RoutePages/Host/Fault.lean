import RoutePages.Text.Basic

/-!
# Faults of a file system
-/
namespace RoutePages

/-- Why an operation on files fails. -/
inductive Fault where
  | notFound
  | alreadyExists
  | notDirectory
  | isDirectory
  | nameTooLong
  | manyLinks
  /-- the path holds a character that ends a path -/
  | cutPath
  /-- the file was to be read as text and is none -/
  | notText
  /-- whatever else the machine tells -/
  | other (message : Text)
  deriving DecidableEq

def Fault.message : Fault → Text
  | notFound => "No such file or directory (os error 2)"
  | alreadyExists => "File exists (os error 17)"
  | notDirectory => "Not a directory (os error 20)"
  | isDirectory => "Is a directory (os error 21)"
  | nameTooLong => "File name too long (os error 36)"
  | manyLinks => "Too many levels of symbolic links (os error 40)"
  | cutPath => "file name contained an unexpected NUL byte"
  | notText => "stream did not contain valid UTF-8"
  | other message => message

end RoutePages
