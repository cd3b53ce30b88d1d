/-
  This file defines why an operation on files fails.

  Key definitions include:
    * `FileError`
    * `FileError.message`
-/

namespace Bindery

/- Why an operation on files fails. -/
inductive FileError where
| notFound
| alreadyExists
| notDirectory
| isDirectory
| directoryNotEmpty
| nameTooLong
| tooManyLinks
| invalidMove
| busy
| nulInPath
| notText
deriving DecidableEq, Repr

/- The wording of a file error. -/
def FileError.message : FileError → String
| .notFound => "No such file or directory (os error 2)"
| .alreadyExists => "File exists (os error 17)"
| .notDirectory => "Not a directory (os error 20)"
| .isDirectory => "Is a directory (os error 21)"
| .directoryNotEmpty => "Directory not empty (os error 39)"
| .nameTooLong => "File name too long (os error 36)"
| .tooManyLinks => "Too many levels of symbolic links (os error 40)"
| .invalidMove => "Invalid argument (os error 22)"
| .busy => "Device or resource busy (os error 16)"
| .nulInPath => "file name contained an unexpected NUL byte"
| .notText => "stream did not contain valid UTF-8"

end Bindery
