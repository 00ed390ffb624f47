/-
# Handoff.Stylesheet.Utility — utility classes for flat rules

Each declaration becomes utility classes of its own, in the order of the declarations. Some pairs of
property and value have a class of their own. Lengths of spacing and size use the default scale where a
step has exactly that many pixels. Everything else goes into a class with the value in square brackets,
in which blanks become underscores; a property without a class is written out there together with its
value.
-/

import Handoff.Decimal.Literal
import Handoff.Stylesheet.Reader

namespace Handoff.Stylesheet

/-! ## Values in brackets -/

/-- The words of a value, joined by underscores. -/
def joinedWords (value : String) : String :=
  "_".intercalate (Text.wordsOf value)

/-- A class with a value in brackets. -/
def bracketed (stem value : String) : String :=
  stem ++ "-[" ++ value ++ "]"

/-- The class of a property that has none of its own. -/
def literalClass (property value : String) : String :=
  "[" ++ property ++ ":" ++ joinedWords value ++ "]"

/-! ## The spacing scale -/

/-- The steps of the default scale: pixels and the name of the step. -/
def spacingScale : List (Nat × String) :=
  [(0, "0"), (1, "px"), (2, "0.5"), (4, "1"), (6, "1.5"), (8, "2"), (10, "2.5"), (12, "3"),
   (14, "3.5"), (16, "4"), (20, "5"), (24, "6"), (28, "7"), (32, "8"), (36, "9"), (40, "10"),
   (44, "11"), (48, "12"), (56, "14"), (64, "16"), (80, "20"), (96, "24"), (112, "28"),
   (128, "32"), (144, "36"), (160, "40"), (176, "44"), (192, "48"), (208, "52"), (224, "56"),
   (240, "60"), (256, "64"), (288, "72"), (320, "80"), (384, "96")]

/-- The number of pixels that a value states. -/
def pixels? (value : String) : Option Float :=
  match value.toList.reverse with
  | 'x' :: 'p' :: digits => Decimal.read? (String.ofList digits.reverse)
  | _ => none

/-- The name of the step with so many pixels. -/
def spacingStep? (pixels : Float) : Option String :=
  (spacingScale.find? fun step => Float.ofNat step.1 == pixels).map (·.2)

/-- The class of a length: the step of the scale, or the value in brackets. -/
def spacingClass (stem value : String) : String :=
  match (pixels? value).bind spacingStep? with
  | some step => stem ++ "-" ++ step
  | none => bracketed stem (joinedWords value)

/-- The classes of a padding: one for all sides, two for the axes or four for the sides. -/
def paddingClasses (value : String) : List String :=
  match Text.wordsOf value with
  | [all] => [spacingClass "p" all]
  | [y, x] => [spacingClass "py" y, spacingClass "px" x]
  | [t, r, b, l] =>
    [spacingClass "pt" t, spacingClass "pr" r, spacingClass "pb" b, spacingClass "pl" l]
  | _ => [literalClass "padding" value]

/-! ## Keywords -/

/-- The declarations that have a class of their own. -/
def keywordClasses : List (Declaration × String) :=
  [(⟨"position", "absolute"⟩, "absolute"), (⟨"position", "relative"⟩, "relative"),
   (⟨"position", "fixed"⟩, "fixed"), (⟨"position", "sticky"⟩, "sticky"),
   (⟨"position", "static"⟩, "static"), (⟨"display", "flex"⟩, "flex"),
   (⟨"display", "block"⟩, "block"), (⟨"display", "none"⟩, "hidden"),
   (⟨"flex-direction", "row"⟩, "flex-row"), (⟨"flex-direction", "column"⟩, "flex-col"),
   (⟨"justify-content", "flex-start"⟩, "justify-start"),
   (⟨"justify-content", "flex-end"⟩, "justify-end"),
   (⟨"justify-content", "center"⟩, "justify-center"),
   (⟨"justify-content", "space-between"⟩, "justify-between"),
   (⟨"align-items", "flex-start"⟩, "items-start"), (⟨"align-items", "flex-end"⟩, "items-end"),
   (⟨"align-items", "center"⟩, "items-center"), (⟨"align-items", "baseline"⟩, "items-baseline"),
   (⟨"flex-grow", "1"⟩, "grow"), (⟨"flex-grow", "0"⟩, "grow-0"),
   (⟨"text-align", "left"⟩, "text-left"), (⟨"text-align", "right"⟩, "text-right"),
   (⟨"text-align", "center"⟩, "text-center"), (⟨"text-align", "justify"⟩, "text-justify"),
   (⟨"vertical-align", "top"⟩, "align-top"), (⟨"vertical-align", "middle"⟩, "align-middle"),
   (⟨"vertical-align", "bottom"⟩, "align-bottom"),
   (⟨"text-decoration", "underline"⟩, "underline"),
   (⟨"text-decoration", "line-through"⟩, "line-through"),
   (⟨"line-height", "auto"⟩, "leading-normal"), (⟨"background-size", "cover"⟩, "bg-cover")]

/-! ## Properties -/

/-- How the value of a property enters its class. -/
inductive ClassForm where
  /-- As a length on the spacing scale. -/
  | spacing (stem : String)
  /-- In brackets, as it is. -/
  | verbatim (stem : String)
  /-- In brackets, with underscores for blanks. -/
  | joined (stem : String)

/-- The properties whose values enter a class. -/
def classForms : List (String × ClassForm) :=
  [("gap", .spacing "gap"), ("left", .spacing "left"), ("top", .spacing "top"),
   ("width", .spacing "w"), ("height", .spacing "h"), ("font-size", .verbatim "text"),
   ("letter-spacing", .verbatim "tracking"), ("line-height", .verbatim "leading"),
   ("opacity", .verbatim "opacity"), ("flex-grow", .verbatim "grow"), ("color", .joined "text"),
   ("background-color", .joined "bg"), ("background", .joined "bg"),
   ("background-image", .joined "bg"), ("border", .joined "border")]

def ClassForm.render (value : String) : ClassForm → String
  | .spacing stem => spacingClass stem value
  | .verbatim stem => bracketed stem value
  | .joined stem => bracketed stem (joinedWords value)

/-- The classes of a declaration without a class of its own. -/
def propertyClasses (d : Declaration) : List String :=
  if d.property = "padding" then paddingClasses d.value
  else if d.property = "border-radius" ∧ ' ' ∉ d.value.toList then [bracketed "rounded" d.value]
  else if d.property = "font-family" then [bracketed "font" ("'" ++ joinedWords d.value ++ "'")]
  else
    match classForms.lookup d.property with
    | some form => [form.render d.value]
    | none => [literalClass d.property d.value]

/-- The classes of a declaration. -/
def utilityClasses (d : Declaration) : List String :=
  match keywordClasses.lookup d with
  | some keyword => [keyword]
  | none => propertyClasses d

/-! ## Sheets -/

/-- The classes of one rule, separated by spaces. -/
structure RuleClasses where
  selector : String
  classes : String
  deriving DecidableEq, Inhabited

/-- What comes of a stylesheet: the classes of its rules, unless it could not be read. -/
inductive Outcome where
  | classes (results : List RuleClasses)
  | failed
  deriving DecidableEq, Inhabited

def ruleClasses (r : Rule) : RuleClasses :=
  ⟨r.selector, " ".intercalate (r.declarations.flatMap utilityClasses)⟩

/-- The classes of every rule that has declarations. -/
def toUtility (css : String) : Outcome :=
  match rulesOf css with
  | .ok rules => .classes ((rules.filter fun r => !r.declarations.isEmpty).map ruleClasses)
  | .error _ => .failed

end Handoff.Stylesheet
