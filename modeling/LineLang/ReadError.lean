import LineLang.Text.Quoted

/-!
# What is wrong with a file

A file that cannot be read is reported with the number and the reason that the system gives.
-/

namespace LineLang

structure ReadError where
  number : Nat
  reason : String
  /-- The file is named if it could not be opened, and not if it broke off while it was read. -/
  named : Bool := true
  deriving DecidableEq, Repr

namespace ReadError

def missing : ReadError := { number := 2, reason := "No such file or directory" }

def forbidden : ReadError := { number := 13, reason := "Permission denied" }

def notDirectory : ReadError := { number := 20, reason := "Not a directory" }

def isDirectory : ReadError := { number := 21, reason := "Is a directory" }

def nameTooLong : ReadError := { number := 36, reason := "File name too long" }

def tooManyLinks : ReadError := { number := 40, reason := "Too many levels of symbolic links" }

def known : List ReadError := [missing, forbidden, notDirectory, isDirectory, nameTooLong, tooManyLinks]

/-- The known error with a number, or else one that is worded as the host words it. -/
def ofNumber (number : Nat) (reason : String) (named : Bool) : ReadError :=
  (known.find? (·.number == number)).getD { number, reason, named }

def message (e : ReadError) (name : String) : String :=
  let what := s!"[Errno {e.number}] {e.reason}"
  if e.named then s!"{what}: {Quoted.encode name}" else what

end ReadError

end LineLang
