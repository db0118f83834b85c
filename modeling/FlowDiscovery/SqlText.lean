import FlowDiscovery.PyText

/-!
# Statements with named parameters

`sqlalchemy.text` takes a colon and a name for a parameter unless a colon, a word character
or a backslash stands before it or a colon behind it. So `:ip::inet` is no parameter, only
a name that stays in the statement, while `ip::text` and `:ip` are read as meant. A server
that is sent a name behind a single colon answers with a syntax error and does nothing.

A statement is the list of its fragments, with blanks or line breaks between them.
-/
namespace FlowDiscovery.SqlText
open PyText

/-- `\w` for ASCII characters. -/
def isWord (c : Char) : Bool := c.isAlphanum || c = '_'

def isNameChar (c : Char) : Bool := isWord c || c = '$'

/-- The name that opens behind a colon and that a colon closes. -/
def openName (before : Char) (rest : Text) : Option Text :=
  let name := rest.takeWhile isNameChar
  if before = ':' ∨ before = '\\' ∨ isWord before then none
  else if name ≠ [] ∧ (rest.dropWhile isNameChar).head? = some ':' then some name
  else none

/-- The names that stay in a statement, read from a character on. -/
def unbound (before : Char) : Text → List Text
  | [] => []
  | c :: rest => (if c = ':' then (openName before rest).toList else []) ++ unbound c rest

/-- No name stays in the statement. -/
def accepted (statement : List String) : Bool :=
  statement.all fun fragment => (unbound ' ' fragment.toList).isEmpty

@[simp] lemma accepted_append (statement statement' : List String) :
    accepted (statement ++ statement') = (accepted statement && accepted statement') :=
  List.all_append

lemma accepted_ite (given : Bool) (fragment : String) :
    accepted (if given then [fragment] else []) = (!given || accepted [fragment]) := by
  cases given <;> rfl

/-- The syntax error. -/
structure Refused where
  deriving DecidableEq, Repr

/-- `execute`, with what the server answers to a statement that it accepts. -/
def execute {α : Type*} (statement : List String) (result : α) : Except Refused α :=
  if accepted statement then .ok result else .error ⟨⟩

lemma execute_of_accepted {α : Type*} {statement : List String} (h : accepted statement)
    (result : α) : execute statement result = .ok result := if_pos h

lemma execute_of_not_accepted {α : Type*} {statement : List String}
    (h : accepted statement = false) (result : α) : execute statement result = .error ⟨⟩ := by
  rw [execute, h]
  rfl

example : unbound ' ' "a = :ip::inet AND b::text = :b".toList = ["ip".toList] := by decide

end FlowDiscovery.SqlText
