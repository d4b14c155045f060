/-!
# Faults of files

Why a file cannot be read or written, and the words in which the operating system says so.
-/

namespace BoardBlob

/-- What is wrong with a file or a directory. -/
inductive FileFault where
  /-- Nothing has this path. -/
  | notFound
  /-- A directory stands where a file is needed. -/
  | isDirectory
  /-- A file stands where a directory is needed. -/
  | notDirectory
  /-- The path names a directory by its relation to another, and so cannot be replaced. -/
  | busy
  /-- A path, or a name in it, is longer than any can be. -/
  | nameTooLong
  /-- A zero byte stands in the path, where no name can have one. -/
  | containsNul
  /-- The bytes of the file are not text. -/
  | notText
  /-- Any other fault, in the words of the system. -/
  | other (words : String)
  deriving DecidableEq, Repr

/-- The fault in words. -/
def FileFault.message : FileFault → String
  | notFound => "No such file or directory (os error 2)"
  | isDirectory => "Is a directory (os error 21)"
  | notDirectory => "Not a directory (os error 20)"
  | busy => "Device or resource busy (os error 16)"
  | nameTooLong => "File name too long (os error 36)"
  | containsNul => "file name contained an unexpected NUL byte"
  | notText => "stream did not contain valid UTF-8"
  | other words => words

end BoardBlob
