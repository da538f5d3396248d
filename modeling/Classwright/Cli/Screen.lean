import Classwright.Text.Blank

/-!
# What the program shows

The lines that the commands print: marked messages, boxes of fixed width, lists of files
as trees. A line with the time that a command took (`Line.timed`) is finished by whoever
prints it.
-/

namespace Classwright.Cli

/-- A line of output. -/
inductive Line where
  | text (s : String)
  | timed (s : String)
deriving DecidableEq, Repr, Inhabited

namespace Screen

/-- An empty line. -/
def blank : Line :=
  .text ""

/-- A line that starts with a mark. -/
def marked (mark message : String) : Line :=
  .text ("  " ++ mark ++ " " ++ message)

/-- The mark of what is done. -/
def filled : String := "◉"

/-- The mark of what went wrong. -/
def diamond : String := "◆"

/-- The mark of what is good to know. -/
def outline : String := "◇"

/-- The mark of an entry in a list. -/
def triangle : String := "▸"

/-- The mark of what comes next. -/
def arrow : String := "─▸"

/-- Something is done. -/
def success (message : String) : Line :=
  marked filled message

/-- Something went wrong. -/
def failure (message : String) : Line :=
  marked diamond message

/-- Something is good to know. -/
def note (message : String) : Line :=
  marked outline message

/-- A remark without a mark. -/
def remark (message : String) : Line :=
  .text ("  " ++ message)

/-- Something is done, and took time. -/
def timing (message : String) : Line :=
  .timed ("  " ++ outline ++ " " ++ message)

/-- A text filled up with blanks to a width. -/
def padded (width : Nat) (s : String) : String :=
  s ++ Text.copies (width - s.length) " "

/-- The width of a box. -/
def boxWidth : Nat := 55

/-- A line across the screen, set off by empty lines. -/
def divider : List Line :=
  [blank, remark (Text.copies (boxWidth - 2) "╌"), blank]

/-- The top of a box, with its title. -/
def boxTop (title : String) : Line :=
  remark ("╭─ " ++ title ++ " " ++ Text.copies (boxWidth - (title.length + 6)) "─" ++ "╮")

/-- A line in a box; a long one runs into its edge. -/
def boxLine (content : String) : Line :=
  remark ("│ " ++ padded (boxWidth - 2) content ++ "│")

/-- The bottom of a box. -/
def boxBottom : Line :=
  remark ("╰" ++ Text.copies (boxWidth - 2) "─" ++ "╯")

/-- A box with its title and its lines between empty ones. -/
def box (title : String) (content : List String) : List Line :=
  [boxTop title, boxLine ""] ++ content.map boxLine ++ [boxLine "", boxBottom]

/-- The directory at the root of a tree. -/
def treeRoot (directory : String) : Line :=
  marked triangle (directory ++ "/")

/-- An entry of a tree, with what is said about it. -/
def treeEntry (isLast : Bool) (name : String) (about? : Option String) : Line :=
  let about := match about? with
    | some about => "   " ++ about
    | none => ""
  .text ("     " ++ (if isLast then "╰──" else "├──") ++ "  " ++ name ++ about)

/-- Entries of a tree. -/
def tree : List String → List Line
  | [] => []
  | [name] => [treeEntry true name none]
  | name :: rest => treeEntry false name none :: tree rest

/-- A target with its language and the number of its files. -/
def targetLine (target language : String) (files : Nat) : Line :=
  marked triangle
    ("  " ++ padded 16 target ++ " " ++ padded 16 language ++ " " ++ toString files ++ " files")

/-- A number of things. -/
def counted (count : Nat) (noun : String) : String :=
  toString count ++ " " ++ noun ++ if count == 1 then "" else "s"

end Screen

end Classwright.Cli
