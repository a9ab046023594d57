/-!
# Contents of files

What a program finds where a file is named: a text, or a reason why there is none.
-/
namespace BoundSql

/-- What reading a file finds. -/
inductive Content where
  | text (text : String)
  | missing
  /-- The path leads through something that is no directory. -/
  | blocked
  | denied
  | directory
  /-- Bytes that are no text. -/
  | binary

namespace Content

/-- The text, or the reason why there is none. -/
def text? : Content → Except String String
  | .text t => .ok t
  | .missing => .error "No such file or directory (os error 2)"
  | .blocked => .error "Not a directory (os error 20)"
  | .denied => .error "Permission denied (os error 13)"
  | .directory => .error "Is a directory (os error 21)"
  | .binary => .error "stream did not contain valid UTF-8"

end Content
end BoundSql
