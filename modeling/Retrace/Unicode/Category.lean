/-!
# General Category values

The thirty values of the General Category property with their two names, and the eight groups of
values that have names of their own. Which value a code point has is a table of its own.
-/

namespace Retrace.Unicode

/-- A value of the General Category property. -/
inductive Category where
  | uppercaseLetter | lowercaseLetter | titlecaseLetter | modifierLetter | otherLetter
  | nonspacingMark | spacingMark | enclosingMark
  | decimalNumber | letterNumber | otherNumber
  | connectorPunctuation | dashPunctuation | openPunctuation | closePunctuation
  | initialPunctuation | finalPunctuation | otherPunctuation
  | mathSymbol | currencySymbol | modifierSymbol | otherSymbol
  | spaceSeparator | lineSeparator | paragraphSeparator
  | control | format | surrogate | privateUse | unassigned
deriving DecidableEq, Repr

namespace Category

/-- The two-letter name. -/
def shortName : Category → String
  | uppercaseLetter => "Lu" | lowercaseLetter => "Ll" | titlecaseLetter => "Lt"
  | modifierLetter => "Lm" | otherLetter => "Lo"
  | nonspacingMark => "Mn" | spacingMark => "Mc" | enclosingMark => "Me"
  | decimalNumber => "Nd" | letterNumber => "Nl" | otherNumber => "No"
  | connectorPunctuation => "Pc" | dashPunctuation => "Pd" | openPunctuation => "Ps"
  | closePunctuation => "Pe" | initialPunctuation => "Pi" | finalPunctuation => "Pf"
  | otherPunctuation => "Po"
  | mathSymbol => "Sm" | currencySymbol => "Sc" | modifierSymbol => "Sk" | otherSymbol => "So"
  | spaceSeparator => "Zs" | lineSeparator => "Zl" | paragraphSeparator => "Zp"
  | control => "Cc" | format => "Cf" | surrogate => "Cs" | privateUse => "Co" | unassigned => "Cn"

/-- The long name, its words joined by underscores. -/
def longName : Category → String
  | uppercaseLetter => "Uppercase_Letter" | lowercaseLetter => "Lowercase_Letter"
  | titlecaseLetter => "Titlecase_Letter" | modifierLetter => "Modifier_Letter"
  | otherLetter => "Other_Letter"
  | nonspacingMark => "Nonspacing_Mark" | spacingMark => "Spacing_Mark"
  | enclosingMark => "Enclosing_Mark"
  | decimalNumber => "Decimal_Number" | letterNumber => "Letter_Number"
  | otherNumber => "Other_Number"
  | connectorPunctuation => "Connector_Punctuation" | dashPunctuation => "Dash_Punctuation"
  | openPunctuation => "Open_Punctuation" | closePunctuation => "Close_Punctuation"
  | initialPunctuation => "Initial_Punctuation" | finalPunctuation => "Final_Punctuation"
  | otherPunctuation => "Other_Punctuation"
  | mathSymbol => "Math_Symbol" | currencySymbol => "Currency_Symbol"
  | modifierSymbol => "Modifier_Symbol" | otherSymbol => "Other_Symbol"
  | spaceSeparator => "Space_Separator" | lineSeparator => "Line_Separator"
  | paragraphSeparator => "Paragraph_Separator"
  | control => "Control" | format => "Format" | surrogate => "Surrogate"
  | privateUse => "Private_Use" | unassigned => "Unassigned"

/-- Every value, in the order of the property's definition. -/
def all : List Category :=
  [uppercaseLetter, lowercaseLetter, titlecaseLetter, modifierLetter, otherLetter,
   nonspacingMark, spacingMark, enclosingMark, decimalNumber, letterNumber, otherNumber,
   connectorPunctuation, dashPunctuation, openPunctuation, closePunctuation,
   initialPunctuation, finalPunctuation, otherPunctuation,
   mathSymbol, currencySymbol, modifierSymbol, otherSymbol,
   spaceSeparator, lineSeparator, paragraphSeparator,
   control, format, surrogate, privateUse, unassigned]

/-- The value with the given two-letter name. -/
def ofShortName? (name : String) : Option Category := all.find? fun c => c.shortName = name

end Category

/-- A named set of General Category values. -/
structure CategoryGroup where
  shortName : String
  longName : String
  members : List Category

/-- Every named set of values. -/
def CategoryGroup.all : List CategoryGroup :=
  [⟨"L", "Letter",
     [.uppercaseLetter, .lowercaseLetter, .titlecaseLetter, .modifierLetter, .otherLetter]⟩,
   ⟨"LC", "Cased_Letter", [.uppercaseLetter, .lowercaseLetter, .titlecaseLetter]⟩,
   ⟨"M", "Mark", [.nonspacingMark, .spacingMark, .enclosingMark]⟩,
   ⟨"N", "Number", [.decimalNumber, .letterNumber, .otherNumber]⟩,
   ⟨"P", "Punctuation",
     [.connectorPunctuation, .dashPunctuation, .openPunctuation, .closePunctuation,
      .initialPunctuation, .finalPunctuation, .otherPunctuation]⟩,
   ⟨"S", "Symbol", [.mathSymbol, .currencySymbol, .modifierSymbol, .otherSymbol]⟩,
   ⟨"Z", "Separator", [.spaceSeparator, .lineSeparator, .paragraphSeparator]⟩,
   ⟨"C", "Other", [.control, .format, .surrogate, .privateUse, .unassigned]⟩]

end Retrace.Unicode
