import Retrace.Unicode.CategoryTable
import Retrace.Unicode.ScriptTable
import Retrace.Unicode.CaseTable

/-!
# Properties by name

A property escape names a General Category value, a group of such values or a script. Names of
properties and of category values are compared loosely: case, blanks, underscores and hyphens do
not count. Names of scripts are compared exactly, then once more with each word put in title case.
-/

namespace Retrace.Unicode

/-- A set of code points that a property escape can name. -/
inductive Property where
  /-- The code points whose General Category is in the list. -/
  | category (members : List Category)
  /-- The code points of one script. -/
  | script (script : Script)
deriving DecidableEq, Repr

/-- A property that can be named before an equals sign. -/
inductive PropertyKind where
  | generalCategory
  | script
deriving DecidableEq, Repr

namespace Property

/-- Whether a code point has the property. -/
def contains : Property → CodePoint → Bool
  | category members, cp => members.contains (generalCategory cp)
  | script expected, cp => Unicode.script cp = expected

end Property

/-- The lowercase form of a character, or the character itself if it has none. -/
def lowerChar (c : Char) : Char :=
  match lowercase? (CodePoint.ofChar c) with
  | some cp => CodePoint.toChar cp
  | none => c

/-- The uppercase form of a character, or the character itself if it has none. -/
def upperChar (c : Char) : Char :=
  match uppercase? (CodePoint.ofChar c) with
  | some cp => CodePoint.toChar cp
  | none => c

/-- What is compared of a loosely written name: lowercase, without blanks, underscores and
    hyphens. -/
def looseName (name : String) : List Char :=
  (name.toList.filter fun c => c ≠ '_' ∧ c ≠ '-' ∧ c ≠ ' ').map lowerChar

/-- Whether two names agree loosely. -/
def sameLoosely (a b : String) : Bool := looseName a = looseName b

/-- The name with every word between underscores in title case. -/
def titleCase (name : String) : String :=
  let word : List Char → List Char
    | [] => []
    | c :: rest => upperChar c :: rest.map lowerChar
  "_".intercalate ((name.splitOn "_").map fun w => String.ofList (word w.toList))

/-- The property that a name before an equals sign refers to. -/
def PropertyKind.ofName? (name : String) : Option PropertyKind :=
  if ["gc", "generalcategory"].any (sameLoosely name) then some .generalCategory
  else if ["sc", "script", "scx", "scriptextensions"].any (sameLoosely name) then some .script
  else none

/-- Further spellings of category values, with the two-letter names that they stand for. -/
def categorySpellings : List (String × String) :=
  [("digit", "Nd"), ("combiningmark", "M"), ("punct", "P"), ("cntrl", "Cc")]

namespace Property

/-- The categories that a value name stands for: a further spelling gives way to its two-letter
    name, then single values are looked up before groups. -/
def ofCategoryName? (value : String) : Option Property :=
  let name := match categorySpellings.find? fun s => sameLoosely s.1 value with
    | some (_, short) => short
    | none => value
  match Category.all.find? fun c => sameLoosely c.shortName name || sameLoosely c.longName name with
  | some c => some (category [c])
  | none =>
    (CategoryGroup.all.find? fun g =>
      sameLoosely g.shortName name || sameLoosely g.longName name).map fun g => category g.members

/-- The script that a value name stands for. -/
def ofScriptName? (value : String) : Option Property :=
  ((Script.ofLongName? value).orElse fun _ =>
    (Script.ofShortName? value).orElse fun _ =>
      (Script.ofLongName? (titleCase value)).orElse fun _ =>
        Script.ofShortName? (titleCase value)).map script

/-- The property that an escape with the given value names, and, if there is an equals sign, with
    the given name before it. Without a name, categories are looked up before scripts. -/
def resolve? (name : Option String) (value : String) : Option Property :=
  match name with
  | some name =>
    match PropertyKind.ofName? name with
    | some .generalCategory => ofCategoryName? value
    | some .script => ofScriptName? value
    | none => none
  | none => (ofCategoryName? value).orElse fun _ => ofScriptName? value

end Property

end Retrace.Unicode
