import CollectionShell.Text.Basic

/-!
# Assignments of variables

A text of assignments gives values to variables, `NAME=VALUE` on a line of its own. A value
may stand in quotes, and then may span lines; a comment starts with a hash. A line that is
no assignment is skipped. `Assignment.ofText` reads a text and puts in what `${NAME}`
refers to.
-/

namespace CollectionShell.Settings

/-- A variable that a text names, with its value if it is given one. -/
structure Assignment where
  /-- The variable. -/
  name : Text
  /-- Its value. -/
  value : Option Text
  deriving DecidableEq, Repr

namespace Assignment

/-! ## Pieces of a line -/

/-- What reading a piece off a text gives, and the rest; a failure tells where it was met. -/
abbrev Reading (α : Type) : Type := Except Text (α × Text)

/-- A blank that ends no line. -/
def isInlineBlank (c : Char) : Bool := Text.isBlank c && c != '\n'

/-- The text without leading blanks that end no line. -/
def skipInline (t : Text) : Text := t.dropWhile isInlineBlank

/-- The text without the word `export` and blanks in front of a name. -/
def skipExport (t : Text) : Text :=
  let word := Text.ofString "export"
  let rest := t.drop word.length
  if word.isPrefixOf t && rest.head?.any isInlineBlank then skipInline rest else t

/-- A name up to a blank, an equals sign or a hash, or one in quotes. A comment has none. -/
def readName : Text → Reading (Option Text)
  | '#' :: rest => .ok (none, '#' :: rest)
  | '\'' :: rest =>
    let name := rest.takeWhile (· != '\'')
    match rest.drop name.length with
    | _ :: more => if name.isEmpty then .error ('\'' :: rest) else .ok (some name, more)
    | [] => .error ('\'' :: rest)
  | t =>
    let name := t.takeWhile fun c => !(Text.isBlank c || c == '=' || c == '#')
    if name.isEmpty then .error t else .ok (some name, t.drop name.length)

/-- A text up to the quote that ends it, and what follows. A quote behind a backslash ends it
only if no other does. -/
def upToQuote (q : Char) : Text → Option (Text × Text)
  | [] => none
  | '\\' :: c :: rest =>
    if c = q then
      match upToQuote q rest with
      | some (t, more) => some ('\\' :: c :: t, more)
      | none => some (['\\'], rest)
    else (upToQuote q (c :: rest)).map fun r => ('\\' :: r.1, r.2)
  | c :: rest => if c = q then some ([], rest) else (upToQuote q rest).map fun r => (c :: r.1, r.2)

/-- What an escape in single quotes denotes. -/
def singleEscape : Char → Option Char
  | '\\' => some '\\'
  | '\'' => some '\''
  | _ => none

/-- What an escape in double quotes denotes. -/
def doubleEscape : Char → Option Char
  | '\\' => some '\\'
  | '\'' => some '\''
  | '\x22' => some '\x22'
  | 'a' => some '\x07'
  | 'b' => some '\x08'
  | 'f' => some '\x0c'
  | 'n' => some '\n'
  | 'r' => some '\x0d'
  | 't' => some '\t'
  | 'v' => some '\x0b'
  | _ => none

/-- The text with every escape replaced by what it denotes. -/
def unescape (escape : Char → Option Char) : Text → Text
  | '\\' :: c :: rest =>
    match escape c with
    | some d => d :: unescape escape rest
    | none => '\\' :: unescape escape (c :: rest)
  | c :: rest => c :: unescape escape rest
  | [] => []

/-- The text in front of a hash that a blank precedes. -/
def beforeComment : Text → Text
  | c :: '#' :: rest => if Text.isBlank c then [] else c :: beforeComment ('#' :: rest)
  | c :: rest => c :: beforeComment rest
  | [] => []

/-- A value in quotes, the first of which was read. -/
def readQuoted (q : Char) (escape : Char → Option Char) (t : Text) : Reading Text :=
  match upToQuote q t with
  | some (value, rest) => .ok (unescape escape value, rest)
  | none => .error (q :: t)

/-- A value, in quotes or up to the end of the line. -/
def readValue : Text → Reading Text
  | '\'' :: rest => readQuoted '\'' singleEscape rest
  | '\x22' :: rest => readQuoted '\x22' doubleEscape rest
  | t =>
    let line := t.takeWhile (· != '\n')
    .ok (Text.trimRight (beforeComment line), t.drop line.length)

/-- An equals sign and a value, if a name is given one. -/
def readGiven : Text → Reading (Option Text)
  | '=' :: rest => (readValue (skipInline rest)).map fun r => (some r.1, r.2)
  | t => .ok (none, t)

/-- The end of a line, with a comment in front of it. -/
def readEnd (t : Text) : Reading Unit :=
  let afterComment := match skipInline t with
    | '#' :: rest => rest.dropWhile (· != '\n')
    | _ => t
  match skipInline afterComment with
  | [] => .ok ((), [])
  | '\n' :: rest => .ok ((), rest)
  | _ => .error afterComment

/-! ## Lines -/

/-- A line, which starts with no blank. -/
def readLine (t : Text) : Except Text (Option Assignment × Text) := do
  let (name, t) ← readName (skipExport t)
  let (value, t) ← readGiven (skipInline t)
  let (_, t) ← readEnd t
  return (name.map fun n => ⟨n, value⟩, t)

/-- The assignments of a text. Where a line is none, reading goes on behind its end. -/
def readAll (t : Text) : List Assignment :=
  match Text.trimLeft t with
  | [] => []
  | c :: line =>
    let (assignment, rest) := match readLine (c :: line) with
      | .ok r => r
      | .error rest => (none, (rest.dropWhile (· != '\n')).drop 1)
    if rest.length < t.length then assignment.toList ++ readAll rest else assignment.toList
termination_by t.length

/-- The text with every line break written as a line feed. -/
def unifyBreaks : Text → Text
  | '\x0d' :: '\n' :: rest => '\n' :: unifyBreaks rest
  | c :: rest => (if c = '\x0d' then '\n' else c) :: unifyBreaks rest
  | [] => []

/-! ## References -/

/-- The variables with one set : at its place if it is there, else at the end. -/
def set (a : Assignment) : List Assignment → List Assignment
  | [] => [a]
  | b :: rest => if b.name = a.name then a :: rest else b :: set a rest

/-- A character that can stand in the name of a reference. -/
def isReferenceName (c : Char) : Bool := c != '\x7d' && c != ':'

/-- The name and the default of a reference whose start was read, and what follows it. -/
def reference? (t : Text) : Option ((Text × Text) × Text) :=
  match t.dropWhile isReferenceName with
  | '\x7d' :: rest => some ((t.takeWhile isReferenceName, []), rest)
  | ':' :: '-' :: rest =>
    match rest.dropWhile (· != '\x7d') with
    | _ :: more => some ((t.takeWhile isReferenceName, rest.takeWhile (· != '\x7d')), more)
    | [] => none
  | _ => none

/-- What follows a reference is shorter than what follows its start. -/
theorem length_reference?_lt {t rest : Text} {r : Text × Text} (h : reference? t = some (r, rest)) :
    rest.length < t.length := by
  have ht := (List.dropWhile_sublist (l := t) isReferenceName).length_le
  unfold reference? at h
  split at h
  next more e =>
    obtain ⟨-, rfl⟩ := Prod.mk.inj (Option.some.inj h)
    simp only [e, List.length_cons] at ht
    omega
  next more e =>
    have hm := (List.dropWhile_sublist (l := more) (· != '\x7d')).length_le
    split at h
    next c last e' =>
      obtain ⟨-, rfl⟩ := Prod.mk.inj (Option.some.inj h)
      simp only [e, e', List.length_cons] at ht hm
      omega
    next => cases h
  next => cases h

/-- The text with every reference replaced by the value of its variable, or else by its
default. -/
def expand (value? : Text → Option Text) (t : Text) : Text :=
  match t with
  | '$' :: '\x7b' :: rest =>
    match _ : reference? rest with
    | some ((name, default), more) => (value? name).getD default ++ expand value? more
    | none => '$' :: expand value? ('\x7b' :: rest)
  | c :: rest => c :: expand value? rest
  | [] => []
termination_by t.length
decreasing_by
  · have := length_reference?_lt ‹_›
    simp
    omega
  · simp
  · simp

/-- The value that a reference has, which is empty for a variable without one. What the text
assigned so far wins over the environment. -/
def referred (environment : List (Text × Text)) (assigned : List Assignment) (name : Text) :
    Option Text :=
  ((assigned.find? (·.name == name)).map (·.value.getD [])).or (environment.lookup name)

/-- The variables of a text in an environment, each with the last value that it is given. -/
def ofText (environment : List (Text × Text)) (t : Text) : List Assignment :=
  (readAll (unifyBreaks t)).foldl (fun assigned a =>
    set ⟨a.name, a.value.map (expand (referred environment assigned))⟩ assigned) []

end Assignment

end CollectionShell.Settings
