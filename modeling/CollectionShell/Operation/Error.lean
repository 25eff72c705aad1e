import CollectionShell.Json.Fault
import CollectionShell.Operation.Method
import CollectionShell.Text.Quoted

/-!
# Parse errors

Why a text is no call, each with what it says about the text, and the wording of each.
-/

namespace CollectionShell.Operation

/-- What is wrong with the layout of a list of tokens. -/
inductive LayoutFlaw
  /-- There are not six tokens. -/
  | wrongCount
  /-- The token at a position is not the expected character. -/
  | misplaced (expected : Char) (position : Nat) (found : Text)
  deriving DecidableEq, Repr

/-- The wording of a layout flaw of `count` tokens. -/
def LayoutFlaw.message (count : Nat) : LayoutFlaw → String
  | .wrongCount => "expected 6 tokens, got " ++ toString count
  | .misplaced expected position found =>
    "expected " ++ String.ofList (Text.quoted [expected]) ++ " at position " ++
      toString position ++ ", got " ++ String.ofList (Text.quoted found)

/-- What a text leaves open, or closes too often. -/
structure Imbalance where
  /-- The text. -/
  text : Text
  /-- Opening less closing braces. -/
  braces : Int := 0
  /-- Opening less closing brackets. -/
  brackets : Int := 0
  /-- Opening less closing parentheses. -/
  parens : Int := 0
  /-- The text ends inside a string. -/
  unterminated : Bool := false
  deriving DecidableEq, Repr

/-- What is out of balance, in words. -/
def Imbalance.problems (i : Imbalance) : List String :=
  let depth (what : String) (n : Int) : List String :=
    if n = 0 then [] else [what ++ " depth " ++ toString n]
  depth "brace" i.braces ++ depth "bracket" i.brackets ++ depth "paren" i.parens ++
    if i.unterminated then ["unterminated string"] else []

/-- The two names of a call. -/
inductive NameRole
  | collection
  | method
  deriving DecidableEq, Repr

/-- The word for a name's role. -/
def NameRole.word : NameRole → String
  | .collection => "collection"
  | .method => "method"

/-- The bound that a number of arguments breaks. -/
inductive ArityBound
  | atLeast (n : Nat)
  | atMost (n : Nat)
  deriving DecidableEq, Repr

/-- The text of a bound. -/
def ArityBound.text : ArityBound → String
  | .atLeast n => ">=" ++ toString n
  | .atMost n => "<=" ++ toString n

/-- Why a text is no call. -/
inductive ParseError
  /-- The tokens are not laid out as a call. -/
  | structural (tokens : List Text) (flaw : LayoutFlaw)
  /-- Parentheses, braces, brackets or quotes are out of balance. -/
  | unbalanced (imbalance : Imbalance)
  /-- An argument is no JSON. -/
  | argument (segment : Text) (fault : Json.Fault)
  /-- A name is no identifier. -/
  | identifier (role : NameRole) (value : Text)
  /-- No method has the name. -/
  | unsupported (method : Text)
  /-- There are too few or too many arguments. -/
  | arity (method : Method) (bound : ArityBound) (actual : Nat)
  /-- An argument is of a kind that its parameter does not accept. -/
  | argumentKind (method : Method) (index : Nat) (parameter : Parameter) (actual : Json.Kind)
  deriving DecidableEq, Repr

/-- The name of a parse error in the log. -/
def ParseError.name : ParseError → String
  | .structural .. => "StructuralError"
  | .unbalanced .. => "UnbalancedStructureError"
  | .argument .. => "ArgumentDecodeError"
  | .identifier .. => "InvalidIdentifierError"
  | .unsupported .. => "UnsupportedMethodError"
  | .arity .. => "ArityError"
  | .argumentKind .. => "ArgumentTypeError"

/-- The wording of a parse error. -/
def ParseError.message : ParseError → String
  | .structural tokens flaw =>
    "Invalid operation format. Use: collection.method(args). " ++ flaw.message tokens.length ++
      "; tokens: " ++ String.ofList (Text.quotedList tokens)
  | .unbalanced i =>
    let problems := if i.problems = [] then ["unknown"] else i.problems
    "Unbalanced structure in " ++ String.ofList (Text.quoted i.text) ++ ": " ++
      ", ".intercalate problems
  | .argument segment fault =>
    "Invalid JSON argument: \"" ++ String.ofList segment ++ "\". " ++ fault.message segment
  | .identifier role value =>
    "Invalid " ++ role.word ++ " name: \"" ++ String.ofList value ++ "\""
  | .unsupported method =>
    "Unsupported operation: " ++ String.ofList method ++ ". Supported operations: " ++
      ", ".intercalate Method.names
  | .arity method bound actual =>
    method.name ++ " expects " ++ bound.text ++ " argument(s), got " ++ toString actual
  | .argumentKind method index parameter actual =>
    method.name ++ " argument " ++ toString index ++ " must be a " ++ parameter.expected ++
      ", got " ++ actual.word

end CollectionShell.Operation
