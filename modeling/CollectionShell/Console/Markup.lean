import CollectionShell.Text.Basic

/-!
# Markup in error messages

An error message is printed as it is but for one thing. A bracket is a tag if a small
letter, a hash, a slash or an at sign follows it and a closing bracket ends it before the
next opening one. One backslash is lost in front of every bracket that is no tag.
-/

namespace CollectionShell.Console

/-- A character that can start a tag. -/
def startsTag (c : Char) : Bool := c.isLower || c == '#' || c == '/' || c == '@'

/-- An opening bracket with this behind it is a tag. -/
def isTagBody : Text → Bool
  | [] => false
  | c :: rest => startsTag c && (rest.find? fun d => d == '[' || d == ']') == some ']'

/-- The text as it is printed. -/
def printed : Text → Text
  | '\\' :: '[' :: rest =>
    if isTagBody rest then '\\' :: '[' :: printed rest else '[' :: printed rest
  | c :: rest => c :: printed rest
  | [] => []

end CollectionShell.Console
