import Classwright.Text.CaseTable

/-!
# Lower case

`lowercase` is the full Unicode mapping to small letters: every character by itself
(`smallForm`), and the Greek capital sigma by its place, since it has another small form
at the end of a word (`isFinal`).
-/

namespace Classwright.Text

/-- Whether a code point lies in one of the ranges. -/
def inRanges (n : Nat) (ranges : List (Nat × Nat)) : Bool :=
  ranges.any fun r => r.1 ≤ n && n ≤ r.2

/-- The small form of a code point beyond ASCII, found in the table of runs. -/
def smallCode (n : Nat) : List (Nat × Nat × Nat × Int) → Nat
  | [] => n
  | (first, last, step, distance) :: runs =>
    if first ≤ n && n ≤ last && (n - first) % step == 0 then (n + distance).toNat
      else smallCode n runs

/-- The small form of a character without regard to its place. -/
def smallForm (c : Char) : List Char :=
  let n := c.toNat
  if n < 0x80 then [c.toLower]
  else if n == 0x130 then ['i', Char.ofNat 0x307]
  else [Char.ofNat (smallCode n CaseTable.runs)]

/-- Whether the first character that is not passed over has case. -/
def casedNext (cs : List Char) : Bool :=
  match cs.dropWhile fun c => inRanges c.toNat CaseTable.caseIgnorable with
  | [] => false
  | c :: _ => inRanges c.toNat CaseTable.cased

/-- A sigma is final when a letter stands before it and none after it. `before` has the
nearest character first. -/
def isFinal (before after : List Char) : Bool :=
  casedNext before && !casedNext after

/-- Lower case of a text of which `before` is already read, nearest character first. -/
def lowercaseAfter (before : List Char) : List Char → List Char
  | [] => []
  | c :: rest =>
    let small :=
      if c == 'Σ' then [if isFinal before rest then 'ς' else 'σ'] else smallForm c
    small ++ lowercaseAfter (c :: before) rest

/-- A text in small letters. -/
def lowercase (s : String) : String :=
  String.ofList (lowercaseAfter [] s.toList)

end Classwright.Text
