/-!
# Faults of markup

What can be wrong with a marked-up text, where, and in which words it is reported.
-/

namespace Toolpath.Markup

/-- What is wrong with a piece of markup. -/
inductive Cause where
  | tagNotClosed
  | unknownMarkup
  | commentNotClosed
  | charactersNotClosed
  | doctypeNotClosed
  | doctypeWithoutName
  | instructionNotClosed
  /-- An end tag does not close the innermost open element. -/
  | mismatchedEnd (expected found : String)
  /-- An end tag stands where no element is open. -/
  | unmatchedEnd (found : String)
deriving DecidableEq, Repr

/-- What is wrong with an attribute of a tag. -/
inductive AttributeCause where
  | keyWithoutValue
  | duplicated (previous : Nat)
  | missingValue
  | unquotedValue
  | missingQuote (quote : Char)
deriving DecidableEq, Repr

/-- What is wrong with a reference to a character by its number. -/
inductive ReferenceCause where
  | signed
  | empty
  | invalidDigit
  | tooLarge
  | zero
  | notACharacter (code : Nat)
deriving DecidableEq, Repr

/-- A fault of a marked-up text. -/
inductive Fault where
  /-- Offsets are counted from the beginning of the text. -/
  | markup (offset : Nat) (cause : Cause)
  /-- Offsets are counted from the beginning of the tag. -/
  | tag (offset : Nat) (cause : AttributeCause)
  /-- No semicolon follows an ampersand; offsets are counted from the beginning of the value. -/
  | unterminatedEntity (offset length : Nat)
  /-- Offsets are counted from the beginning of the value. -/
  | unknownEntity (first last : Nat) (name : String)
  | reference (cause : ReferenceCause)
deriving DecidableEq, Repr

/-- The words for a cause. -/
def Cause.message : Cause → String
  | .tagNotClosed => "syntax error: tag not closed: `>` not found before end of input"
  | .unknownMarkup => "syntax error: unknown or missed symbol in markup"
  | .commentNotClosed => "syntax error: comment not closed: `-->` not found before end of input"
  | .charactersNotClosed => "syntax error: CDATA not closed: `]]>` not found before end of input"
  | .doctypeNotClosed => "syntax error: DOCTYPE not closed: `>` not found before end of input"
  | .doctypeWithoutName =>
    "ill-formed document: `<!DOCTYPE>` declaration does not contain a name of a document type"
  | .instructionNotClosed =>
    "syntax error: processing instruction or xml declaration not closed: `?>` not found before "
      ++ "end of input"
  | .mismatchedEnd expected found =>
    "ill-formed document: expected `</" ++ expected ++ ">`, but `</" ++ found ++ ">` was found"
  | .unmatchedEnd found =>
    "ill-formed document: close tag `</" ++ found ++ ">` does not match any open tag"

/-- The words for a cause. -/
def AttributeCause.message : AttributeCause → String
  | .keyWithoutValue => "attribute key must be directly followed by `=` or space"
  | .duplicated previous =>
    "duplicated attribute, previous declaration at position " ++ toString previous
  | .missingValue => "`=` must be followed by an attribute value"
  | .unquotedValue => "attribute value must be enclosed in `\"` or `'`"
  | .missingQuote quote => "missing closing quote `" ++ quote.toString ++ "` in attribute value"

/-- The words for a cause. -/
def ReferenceCause.message : ReferenceCause → String
  | .signed => "unexpected number sign"
  | .empty => "cannot parse integer from empty string"
  | .invalidDigit => "invalid digit found in string"
  | .tooLarge => "number too large to fit in target type"
  | .zero => "0x0 character is not permitted in XML"
  | .notACharacter code => "`" ++ toString code ++ "` is not a valid codepoint"

/-- The words for a fault. -/
def Fault.message : Fault → String
  | .markup offset cause => "at position " ++ toString offset ++ ": " ++ cause.message
  | .tag offset cause => "position " ++ toString offset ++ ": " ++ cause.message
  | .unterminatedEntity offset length =>
    "Error while escaping character at range " ++ toString offset ++ ".." ++ toString length
      ++ ": Cannot find ';' after '&'"
  | .unknownEntity first last name =>
    "at " ++ toString first ++ ".." ++ toString last ++ ": unrecognized entity `" ++ name ++ "`"
  | .reference cause => "invalid character reference: " ++ cause.message

end Toolpath.Markup
