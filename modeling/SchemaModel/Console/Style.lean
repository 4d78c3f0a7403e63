import SchemaModel.Number.Whole
import SchemaModel.Text.Blank
import SchemaModel.Text.Digit
import SchemaModel.Text.Lower
import SchemaModel.Text.Split

/-!
# Names of styles

A style is named by words: attributes, each with or without `not`, a colour, a background after
`on` and a target after `link`.  Names that mean the same style have one normal form, by which a
closing tag finds the tag that it closes; a name that means no style stands for itself in lower
case.  A colour given by three numbers of which one is missing is worse than no style: it makes the
whole text unprintable.
-/

namespace SchemaModel.Console

def attributeNames : List String :=
  ["bold", "dim", "italic", "underline", "blink", "blink2", "reverse", "conceal", "strike",
   "underline2", "frame", "encircle", "overline"]

def attributeAliases : List (String × String) :=
  [("d", "dim"), ("b", "bold"), ("i", "italic"), ("u", "underline"), ("r", "reverse"),
   ("c", "conceal"), ("s", "strike"), ("uu", "underline2"), ("o", "overline")]

def attribute? (word : String) : Option String :=
  if attributeNames.contains word then some word else attributeAliases.lookup word

def colourNames : List String :=
  ["black", "red", "green", "yellow", "blue", "magenta", "cyan", "white", "bright_black",
   "bright_red", "bright_green", "bright_yellow", "bright_blue", "bright_magenta", "bright_cyan",
   "bright_white", "grey0", "gray0", "navy_blue", "dark_blue", "blue3", "blue1", "dark_green",
   "deep_sky_blue4", "dodger_blue3", "dodger_blue2", "green4", "spring_green4", "turquoise4",
   "deep_sky_blue3", "dodger_blue1", "green3", "spring_green3", "dark_cyan", "light_sea_green",
   "deep_sky_blue2", "deep_sky_blue1", "spring_green2", "cyan3", "dark_turquoise", "turquoise2",
   "green1", "spring_green1", "medium_spring_green", "cyan2", "cyan1", "dark_red", "deep_pink4",
   "purple4", "purple3", "blue_violet", "orange4", "grey37", "gray37", "medium_purple4",
   "slate_blue3", "royal_blue1", "chartreuse4", "dark_sea_green4", "pale_turquoise4",
   "steel_blue", "steel_blue3", "cornflower_blue", "chartreuse3", "cadet_blue", "sky_blue3",
   "steel_blue1", "pale_green3", "sea_green3", "aquamarine3", "medium_turquoise", "chartreuse2",
   "sea_green2", "sea_green1", "aquamarine1", "dark_slate_gray2", "dark_magenta", "dark_violet",
   "purple", "light_pink4", "plum4", "medium_purple3", "slate_blue1", "yellow4", "wheat4",
   "grey53", "gray53", "light_slate_grey", "light_slate_gray", "medium_purple",
   "light_slate_blue", "dark_olive_green3", "dark_sea_green", "light_sky_blue3", "sky_blue2",
   "dark_sea_green3", "dark_slate_gray3", "sky_blue1", "chartreuse1", "light_green",
   "pale_green1", "dark_slate_gray1", "red3", "medium_violet_red", "magenta3", "dark_orange3",
   "indian_red", "hot_pink3", "medium_orchid3", "medium_orchid", "medium_purple2",
   "dark_goldenrod", "light_salmon3", "rosy_brown", "grey63", "gray63", "medium_purple1",
   "gold3", "dark_khaki", "navajo_white3", "grey69", "gray69", "light_steel_blue3",
   "light_steel_blue", "yellow3", "dark_sea_green2", "light_cyan3", "light_sky_blue1",
   "green_yellow", "dark_olive_green2", "dark_sea_green1", "pale_turquoise1", "deep_pink3",
   "magenta2", "hot_pink2", "orchid", "medium_orchid1", "orange3", "light_pink3", "pink3",
   "plum3", "violet", "light_goldenrod3", "tan", "misty_rose3", "thistle3", "plum2", "khaki3",
   "light_goldenrod2", "light_yellow3", "grey84", "gray84", "light_steel_blue1", "yellow2",
   "dark_olive_green1", "honeydew2", "light_cyan1", "red1", "deep_pink2", "deep_pink1",
   "magenta1", "orange_red1", "indian_red1", "hot_pink", "dark_orange", "salmon1", "light_coral",
   "pale_violet_red1", "orchid2", "orchid1", "orange1", "sandy_brown", "light_salmon1",
   "light_pink1", "pink1", "plum1", "gold1", "navajo_white1", "misty_rose1", "thistle1",
   "yellow1", "light_goldenrod1", "khaki1", "wheat1", "cornsilk1", "grey100", "gray100", "grey3",
   "gray3", "grey7", "gray7", "grey11", "gray11", "grey15", "gray15", "grey19", "gray19",
   "grey23", "gray23", "grey27", "gray27", "grey30", "gray30", "grey35", "gray35", "grey39",
   "gray39", "grey42", "gray42", "grey46", "gray46", "grey50", "gray50", "grey54", "gray54",
   "grey58", "gray58", "grey62", "gray62", "grey66", "gray66", "grey70", "gray70", "grey74",
   "gray74", "grey78", "gray78", "grey82", "gray82", "grey85", "gray85", "grey89", "gray89",
   "grey93", "gray93"]

/-- Why words name no style: a word is not known, or a number is missing or too long. -/
inductive StyleFault where
  | unknown
  | number
  deriving DecidableEq, Inhabited

/-- Whether characters are a number up to 255. -/
def isByteNumeral (digits : List Char) : Bool :=
  !digits.isEmpty && digits.all Char.isDigit && digitsValue digits ≤ 255

def between? (opening closing text : List Char) : Option (List Char) :=
  if opening.isPrefixOf text && closing.isSuffixOf (text.drop opening.length) then
    some ((text.drop opening.length).dropLast)
  else none

def isLowerHex (c : Char) : Bool :=
  c.isDigit || ('a' ≤ c && c ≤ 'f')

def maxColourDigits : Nat := 4300

def colourNumber (digits : List Char) : Except StyleFault Nat :=
  if digits.isEmpty || maxColourDigits < digits.length then .error .number
  else .ok (digits.foldl (fun value digit => 10 * value + (Text.digitValue? digit).getD 0) 0)

/-- Checks the three numbers of a colour.  Each of them must be there before any is found too
large. -/
def checkTriple (text : List Char) : Except StyleFault Unit :=
  if text.isEmpty || text.any fun c => c ≠ ',' && (Text.digitValue? c).isNone then .error .unknown
  else
    let parts := Text.split (· = ',') text
    if parts.length ≠ 3 then .error .unknown
    else do
      let numbers ← parts.mapM colourNumber
      if numbers.all (· ≤ 255) then .ok () else .error .unknown

def checkColour (word : String) : Except StyleFault Unit :=
  let chars := word.toList
  let known := word = "default" || colourNames.contains word ||
    (chars.head? = some '#' && chars.length = 7 && (chars.drop 1).all isLowerHex) ||
    (match between? "color(".toList [')'] chars with
      | some digits => digits.length ≤ 3 && isByteNumeral digits
      | none => false)
  if known then .ok ()
  else
    match between? "rgb(".toList [')'] chars with
    | some numbers => checkTriple numbers
    | none => .error .unknown

structure Style where
  attributes : List (String × Bool) := []
  colour : Option String := none
  background : Option String := none
  link : Option String := none

def lower (text : String) : String :=
  String.ofList (Text.lower text.toList)

def Style.set (style : Style) (name : String) (on : Bool) : Style :=
  { style with
    attributes := (name, on) :: style.attributes.filter fun other => other.1 ≠ name }

def Style.ofWords (style : Style) : List String → Except StyleFault Style
  | [] => .ok style
  | word :: words =>
    if lower word = "on" then
      match words with
      | [] => .error .unknown
      | colour :: words => do
        checkColour (lower colour)
        Style.ofWords { style with background := some (lower colour) } words
    else if lower word = "not" then
      match words with
      | [] => .error .unknown
      | name :: words =>
        match attribute? name with
        | some name => (style.set name false).ofWords words
        | none => .error .unknown
    else if lower word = "link" then
      match words with
      | [] => .error .unknown
      | target :: words => Style.ofWords { style with link := some target } words
    else
      match attribute? (lower word) with
      | some name => (style.set name true).ofWords words
      | none => do
        checkColour (lower word)
        Style.ofWords { style with colour := some (lower word) } words

def Style.text (style : Style) : String :=
  let attributes := attributeNames.filterMap fun name =>
    (style.attributes.lookup name).map fun on => if on then name else "not " ++ name
  let colour := style.colour.toList
  let background := style.background.toList.flatMap fun colour => ["on", colour]
  let link := style.link.toList.flatMap fun target => ["link", target]
  let words := attributes ++ colour ++ background ++ link
  if words.isEmpty then "none" else " ".intercalate words

def words (text : List Char) : List String :=
  ((Text.split Text.separatesWords text).filter fun piece => !piece.isEmpty).map String.ofList

def lacksNumber (text : List Char) : Bool :=
  match Style.ofWords {} (words text) with
  | .error .number => true
  | _ => false

/-- The normal form of the name of a style, unless a number is missing in it. -/
def styleName? (text : List Char) : Option String :=
  let trimmed := String.ofList (Text.trimWith Text.separatesWords text)
  if trimmed = "none" then some "none"
  else
    match Style.ofWords {} (words text) with
    | .ok style => some style.text
    | .error .unknown => some (lower trimmed)
    | .error .number => none

end SchemaModel.Console
