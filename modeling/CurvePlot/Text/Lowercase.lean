import CurvePlot.Text.Blank
import CurvePlot.Text.CaseTable
/-!
# Lower case

`lowercase` is the full change to lower case of Unicode. Each character changes
by itself, except that a capital sigma becomes the final form at the end of a
word: behind a letter that has a case, and not before one, characters that do
not end a word left out of account.
-/

namespace CurvePlot.Text

/-- The lower case of a character away from its neighbours. -/
def lowerChar (c : Char) : List Char :=
  if c.toNat < 0x80 then [c.toLower]
  else if c.toNat = 0x130 then ['i', Char.ofNat 0x307]
  else
    let run? := lowerRuns.find? fun r =>
      r.first ≤ c.toNat && c.toNat ≤ r.last && (c.toNat - r.first) % r.step == 0
    match run? with
    | some r => [Char.ofNat (c.toNat + r.shift).toNat]
    | none => [c]

/-- Whether the nearest character that matters to a word has a case. -/
def meetsLetter (text : List Char) : Bool :=
  match text.dropWhile (inRanges caseIgnorableRanges) with
  | [] => false
  | c :: _ => inRanges casedRanges c

/-- The lower case of a text, given the characters before it, last first. -/
def lowercaseAfter (before : List Char) : List Char → List Char
  | [] => []
  | c :: rest =>
    let lowered :=
      if c.toNat = 0x3A3 then
        [Char.ofNat (if meetsLetter before && !meetsLetter rest then 0x3C2 else 0x3C3)]
      else lowerChar c
    lowered ++ lowercaseAfter (c :: before) rest

/-- The lower case of a text. -/
def lowercase (text : List Char) : List Char := lowercaseAfter [] text

end CurvePlot.Text
