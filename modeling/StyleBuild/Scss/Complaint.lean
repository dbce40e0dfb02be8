/-!
# Complaints about style sheets

What can be wrong with a style sheet, be it in its text or when it is run.
-/

namespace StyleBuild.Scss

inductive Complaint where
  | missingExpression
  | missing (c : Char)
  | openString (quote : Char)
  | missingString
  | missingName
  | missingDigit
  | openComment
  | unmatchedBrace
  | unknownFlag
  | strayAtRule
  | missingSelector
  | parentAtTop
  | undefinedVariable
  | importNotFound
  | importLoop
  | importsTooDeep
  deriving DecidableEq, Repr

def Complaint.message : Complaint → String
  | .missingExpression => "Error: Expected expression."
  | .missing c => "Error: expected \"" ++ c.toString ++ "\"."
  | .openString quote => "Error: Expected " ++ quote.toString ++ "."
  | .missingString => "Error: Expected string."
  | .missingName => "Error: Expected identifier."
  | .missingDigit => "Error: Expected digit."
  | .openComment => "Error: expected more input."
  | .unmatchedBrace => "Error: unmatched \"\x7d\"."
  | .unknownFlag => "Error: Invalid flag name."
  | .strayAtRule => "Error: This at-rule is not allowed here."
  | .missingSelector => "Error: expected selector."
  | .parentAtTop => "Error: Top-level selectors may not contain the parent selector \"&\"."
  | .undefinedVariable => "Error: Undefined variable."
  | .importNotFound => "Error: Can't find stylesheet to import."
  | .importLoop => "Error: This file is already being loaded."
  | .importsTooDeep => "Error: Imports are nested too deeply."

end StyleBuild.Scss
