/-
# Reading TOML

Values with their containers, the statements of a document, and the document
as the entries of its top table.  The nesting of values bounds the recursion;
the loops over the parts of one container or document are bounded by the number
of characters ahead.
-/
import Gamebook.Toml.Scalar

namespace Gamebook.Toml

/-! ## Containers -/

/-- The items of an array, after its opening bracket.  Lines may end anywhere between them, and a
comma may follow the last. -/
def readItems? (value? : List Char → Option (Toml × List Char)) (taken : List Toml) :
    Nat → List Char → Option (List Toml × List Char)
  | 0, _ => none
  | steps + 1, cs =>
      match skipLines false cs with
      | ']' :: rest => some (taken.reverse, rest)
      | ahead =>
          match value? ahead with
          | none => none
          | some (item, rest) =>
              match skipLines false rest with
              | ',' :: rest => readItems? value? (item :: taken) steps rest
              | ']' :: rest => some ((item :: taken).reverse, rest)
              | _ => none

/-- A key, its value and what follows both. -/
def readAssignment? (value? : List Char → Option (Toml × List Char)) (cs : List Char) :
    Option ((List String × String × Toml) × List Char) := do
  let ((path, key), rest) ← readKey? cs
  let rest ← readMark? '=' rest
  let (value, rest) ← value? (skipBlanks rest)
  return ((path, key, value), rest)

/-- The entries of a table written as a value, from the first on.  All stand on one line, and no
comma follows the last. -/
def readEntries? (value? : List Char → Option (Toml × List Char)) (entries : Entries) :
    Nat → List Char → Option (Entries × List Char)
  | 0, _ => none
  | steps + 1, cs =>
      match readAssignment? value? cs with
      | none => none
      | some ((path, key, value), rest) =>
          match assign? path key value entries with
          | none => none
          | some entries =>
              match skipBlanks rest with
              | ',' :: rest => readEntries? value? entries steps rest
              | '\x7d' :: rest => some (entries, rest)
              | _ => none

/-- A table written as a value, after its opening brace. -/
def readInline? (value? : List Char → Option (Toml × List Char)) (cs : List Char) :
    Option (Toml × List Char) :=
  match skipBlanks cs with
  | '\x7d' :: rest => some (inline [], rest)
  | _ => (readEntries? value? [] cs.length cs).map fun p => (inline p.1, p.2)

/-- A value with containers nested at most `depth` deep. -/
def readValue? : Nat → List Char → Option (Toml × List Char)
  | 0, cs => readScalar? cs
  | depth + 1, cs =>
      match cs with
      | '[' :: rest =>
          (readItems? (readValue? depth) [] cs.length rest).map fun p => (array p.1, p.2)
      | '\x7b' :: rest => readInline? (readValue? depth) rest
      | _ => readScalar? cs

/-! ## Statements -/

/-- A header after its opening brackets. -/
def readHeader? (close : List Char) (cs : List Char) :
    Option ((List String × String) × List Char) := do
  let (name, rest) ← readKey? cs
  if close.isPrefixOf rest then return (name, rest.drop close.length) else none

def readStatement? (cs : List Char) : Option (Statement × List Char) :=
  match cs with
  | '[' :: '[' :: rest =>
      (readHeader? [']', ']'] rest).map fun p => (.elementHeader p.1.1 p.1.2, p.2)
  | '[' :: rest => (readHeader? [']'] rest).map fun p => (.tableHeader p.1.1 p.1.2, p.2)
  | _ =>
      (readAssignment? (readValue? maxDepth) cs).map fun p =>
        (.assignment p.1.1 p.1.2.1 p.1.2.2, p.2)

/-- The statements of a document, each acted on before the next is read. -/
def readStatements? (draft : Draft) : Nat → List Char → Option Draft
  | 0, _ => none
  | steps + 1, cs =>
      match skipLines false cs with
      | [] => some draft
      | ahead => do
          let (statement, rest) ← readStatement? ahead
          let draft ← draft.apply? statement
          readStatements? draft steps (← statementEnd? rest)

/-- The entries of the top table of a document.  A byte order mark in front is passed over. -/
def ofText? (source : String) : Option Entries :=
  let cs := match source.toList with
    | '\ufeff' :: rest => rest
    | cs => cs
  (readStatements? ⟨[], []⟩ (cs.length + 1) cs).map Draft.entries

end Gamebook.Toml
