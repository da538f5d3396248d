import Classwright.Model.Shape

/-!
# Statements of setters

The setters of the two ECMAScript dialects are made of the same statements, one to a
line. The dialects differ in how they report a value of the wrong kind, and in some of
the tests. A statement that opens a block and one that closes it are lines of their own,
so that a body is a list of lines.
-/

namespace Classwright.Script

/-- The two dialects. -/
inductive Dialect where
  | javaScript
  | actionScript
deriving DecidableEq, Repr, Inhabited

/-- An expression. Variables, slots and literals are given by their text. -/
inductive Expr where
  | plain (text : String)
  | number (value : String)
  | text (value : String)
  | choice (test yes no : String)
  | construct (class_ value : String)
  | lookup (index value : String)
  | item (list index : String)
deriving DecidableEq, Repr, Inhabited

/-- A test of a value. That a setter was given a list (`given`) and that a value in it
is one (`list`) are written differently. -/
inductive Test where
  | notType (value type : String)
  | fraction (value : String)
  | given (value : String)
  | list (value : String)
  | notList (value : String)
  | notRecord (value : String)
  | record (value : String)
  | notInstance (value class_ : String)
  | envelope (value : String)
  | notNumber (value : String)
  | null (value : String)
  | unset (value : String)
  | missing (value : String)
deriving DecidableEq, Repr, Inhabited

/-- What a setter says about a value of the wrong kind. -/
inductive Report where
  | expects (label expected value : String)
  | fraction (label : String)
  | unknownResult (label : String)
deriving DecidableEq, Repr, Inhabited

/-- A statement on a line of its own. -/
inductive Statement where
  | report (r : Report)
  | check (test : Test) (r : Report)
  | elseCheck (test : Test) (r : Report)
  | elseReport (r : Report)
  | assign (target : String) (value : Expr)
  | assignIf (test : Test) (target : String) (value : Expr)
  | declare (name : String) (value? : Option Expr)
  | push (list : String) (value : Expr)
  | next
  | leave
  | answer (value : Expr)
  | openIf (test : Test)
  | openElse
  | openLoop (index list : String)
  | close
deriving DecidableEq, Repr, Inhabited

/-- A statement and how deep it is indented. -/
structure Line where
  /-- The number of tabs before the statement. -/
  depth : Nat
  /-- The statement. -/
  statement : Statement
deriving DecidableEq, Repr, Inhabited

/-! ## Texts -/

/-- The test whether a value is a list. -/
def listTest : Dialect → String → String
  | .javaScript, v => "Array.isArray(" ++ v ++ ")"
  | .actionScript, v => v ++ " instanceof Array"

/-- The test whether a value is a list, as an operand: a call needs no brackets around
it. -/
def listOperand : Dialect → String → String
  | .javaScript, v => listTest .javaScript v
  | .actionScript, v => "(" ++ listTest .actionScript v ++ ")"

/-- The function of an index that makes a result. -/
def lookupName : Dialect → String → String
  | .javaScript, index => index ++ ".createResult"
  | .actionScript, index => index ++ ".CreateResult"

/-- The text of an expression. -/
def Expr.code (d : Dialect) : Expr → String
  | .plain s => s
  | .number v => "Number(" ++ v ++ ")"
  | .text v => "String(" ++ v ++ ")"
  | .choice test yes no => test ++ " ? " ++ yes ++ " : " ++ no
  | .construct c v => "new " ++ c ++ "(" ++ v ++ ")"
  | .lookup index v => lookupName d index ++ "(" ++ v ++ ".component, " ++ v ++ ".data)"
  | .item list index => list ++ "[" ++ index ++ "]"

/-- The text of a test. -/
def Test.code (d : Dialect) : Test → String
  | .notType v type => "typeof(" ++ v ++ ") !== '" ++ type ++ "'"
  | .fraction v =>
    match d with
    | .javaScript => "!Number.isInteger(" ++ v ++ ")"
    | .actionScript => "Math.round(" ++ v ++ ") !== " ++ v
  | .given v => listTest d v
  | .list v => listOperand d v
  | .notList v => "!" ++ listOperand d v
  | .notRecord v => "typeof(" ++ v ++ ") !== 'object' || " ++ listOperand d v
  | .record v => "typeof(" ++ v ++ ") === 'object' && !" ++ listOperand d v
  | .notInstance v c => "!(" ++ v ++ " instanceof " ++ c ++ ")"
  | .envelope v => "typeof(" ++ v ++ ") === 'object' && typeof(" ++ v ++ ".component) === 'string'"
  | .notNumber v => "isNaN(" ++ v ++ ")"
  | .null v => v ++ " === null"
  | .unset v => v ++ " === null || typeof(" ++ v ++ ") === 'undefined'"
  | .missing v =>
    match d with
    | .javaScript => v ++ " === null || typeof(" ++ v ++ ") === 'undefined'"
    | .actionScript => v ++ " === null || " ++ v ++ " === undefined"

/-- The message of a report, as an expression. -/
def Report.messageCode : Report → String
  | .expects label expected v =>
    "'Type Mismatch: " ++ label ++ " expects " ++ expected ++ ", got ' + typeof(" ++ v ++ ")"
  | .fraction label => "'Type Mismatch: " ++ label ++ " expects an integer, got a float'"
  | .unknownResult label => "'Type Mismatch: " ++ label ++ " names an unknown component result'"

/-- The text of a report: one dialect warns and goes on, the other throws. -/
def Report.code (d : Dialect) (r : Report) : String :=
  match d with
  | .javaScript => "console.warn(" ++ r.messageCode ++ ");"
  | .actionScript => "throw new Error(" ++ r.messageCode ++ ");"

/-- The text of a statement. -/
def Statement.code (d : Dialect) : Statement → String
  | .report r => r.code d
  | .check t r => "if (" ++ t.code d ++ ") " ++ r.code d
  | .elseCheck t r => "else if (" ++ t.code d ++ ") " ++ r.code d
  | .elseReport r => "else " ++ r.code d
  | .assign target e => target ++ " = " ++ e.code d ++ ";"
  | .assignIf t target e => "if (" ++ t.code d ++ ") " ++ target ++ " = " ++ e.code d ++ ";"
  | .declare name none => "var " ++ name ++ ";"
  | .declare name (some e) => "var " ++ name ++ " = " ++ e.code d ++ ";"
  | .push list e => list ++ ".push(" ++ e.code d ++ ");"
  | .next => "continue;"
  | .leave => "return;"
  | .answer e => "return " ++ e.code d ++ ";"
  | .openIf t => "if (" ++ t.code d ++ ") \x7b"
  | .openElse => "\x7d else \x7b"
  | .openLoop i list =>
    "for (var " ++ i ++ " = 0; " ++ i ++ " < " ++ list ++ ".length; " ++ i ++ "++) \x7b"
  | .close => "\x7d"

/-- The text of a line. -/
def Line.code (d : Dialect) (l : Line) : String :=
  Text.copies l.depth "\t" ++ l.statement.code d

/-- The texts of lines. -/
def codeLines (d : Dialect) (ls : List Line) : List String :=
  ls.map (Line.code d)

end Classwright.Script
