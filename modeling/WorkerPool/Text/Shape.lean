import WorkerPool.Text.Quoted

/-!
# The text of a structured value

Values are shown by their shape: a word, a constructor applied to arguments, a record of named
fields, or a list. One printer puts a shape on one line, the other gives every part a line of its
own, indented by four blanks a level and closed by a comma.
-/

namespace WorkerPool.Text

/-- How a value is put together, as far as its text shows. -/
inductive Shape where
  /-- Text that is written as it stands. -/
  | word (text : String)
  /-- A constructor with at least one argument. -/
  | apply (name : String) (args : List Shape)
  /-- Named fields, in order. -/
  | record (name : String) (fields : List (String × Shape))
  /-- A list of values. -/
  | list (items : List Shape)
  deriving Repr, Inhabited

namespace Shape

/-- A natural number in decimal. -/
def nat (n : Nat) : Shape := word (Nat.repr n)

/-- A truth value. -/
def bool (b : Bool) : Shape := word (if b then "true" else "false")

/-- A quoted text. -/
def text (s : String) : Shape := word (quoted s)

/-- A value that may be missing. -/
def option {α : Type} (shape : α → Shape) : Option α → Shape
  | none => word "None"
  | some a => apply "Some" [shape a]

mutual

/-- The shape on one line. -/
def line : Shape → String
  | word s => s
  | apply name args => name ++ "(" ++ ", ".intercalate (lines args) ++ ")"
  | record name fields => name ++ " \x7b " ++ ", ".intercalate (fieldLines fields) ++ " \x7d"
  | list items => "[" ++ ", ".intercalate (lines items) ++ "]"

/-- Each shape on one line. -/
def lines : List Shape → List String
  | [] => []
  | s :: rest => s.line :: lines rest

/-- Each field on one line, after its name. -/
def fieldLines : List (String × Shape) → List String
  | [] => []
  | (name, s) :: rest => (name ++ ": " ++ s.line) :: fieldLines rest

end

/-- Four blanks a level. -/
def indent (depth : Nat) : String := String.ofList (List.replicate (4 * depth) ' ')

mutual

/-- The shape with each part on a line of its own, its first line already indented. -/
def block (depth : Nat) : Shape → String
  | word s => s
  | apply name args =>
      name ++ "(\n" ++ String.join (blocks (depth + 1) args) ++ indent depth ++ ")"
  | record name fields =>
      name ++ " \x7b\n" ++ String.join (fieldBlocks (depth + 1) fields) ++ indent depth ++ "\x7d"
  | list [] => "[]"
  | list items => "[\n" ++ String.join (blocks (depth + 1) items) ++ indent depth ++ "]"

/-- Each shape on lines of its own. -/
def blocks (depth : Nat) : List Shape → List String
  | [] => []
  | s :: rest => (indent depth ++ s.block depth ++ ",\n") :: blocks depth rest

/-- Each field on lines of its own, after its name. -/
def fieldBlocks (depth : Nat) : List (String × Shape) → List String
  | [] => []
  | (name, s) :: rest =>
      (indent depth ++ name ++ ": " ++ s.block depth ++ ",\n") :: fieldBlocks depth rest

end

/-- The shape over several lines, starting at the left margin. -/
def pretty (s : Shape) : String := s.block 0

end Shape

end WorkerPool.Text
