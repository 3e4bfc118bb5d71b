/-!
# Tags and the forms of plain scalars

Every node has a tag naming its type. Tags of the YAML types start with
`tag:yaml.org,2002:`. A plain scalar without a tag, or a node tagged with the lone `!`, takes
its tag from the form of its text, as YAML 1.1 describes:

* null: `~`, `null`, `Null`, `NULL` or nothing;
* truth values: `yes`, `no`, `true`, `false`, `on`, `off`, each in lower, capitalized or upper
  case;
* integers: binary `0b…`, octal `0…`, decimal, hexadecimal `0x…`, or base 60 `1:30`, with an
  optional sign and `_` as a separator;
* numbers: a decimal with a point and an optional signed exponent, a base-60 number with a
  fraction, `.inf` and `.nan` in three spellings;
* timestamps: a date `yyyy-mm-dd`, or a date and a time with an optional fraction and zone;
* the merge key `<<`, the value key `=`, and the indicators `!`, `&`, `*`.

Any other text is a string. A form may also be followed by one line feed at the very end.
-/

namespace TournamentDraw.Yaml

namespace Tag

/-- The common prefix of the tags of the YAML types. -/
def yamlPrefix : String := "tag:yaml.org,2002:"

/-- The tag of a YAML type. -/
def ofType (name : String) : String := yamlPrefix ++ name

def null : String := ofType "null"
def bool : String := ofType "bool"
def int : String := ofType "int"
def float : String := ofType "float"
def str : String := ofType "str"
def binary : String := ofType "binary"
def timestamp : String := ofType "timestamp"
def seq : String := ofType "seq"
def map : String := ofType "map"
def set : String := ofType "set"
def omap : String := ofType "omap"
def pairs : String := ofType "pairs"
def merge : String := ofType "merge"
def value : String := ofType "value"
def indicator : String := ofType "yaml"

end Tag

/-- Whether a character is a decimal digit. -/
def isDigit (ch : Char) : Bool := '0' ≤ ch && ch ≤ '9'

/-- Whether a character is a decimal digit or an underscore. -/
def isDigitOrBar (ch : Char) : Bool := isDigit ch || ch == '_'

/-- The characters after an optional sign. -/
def unsigned : List Char → List Char
  | '-' :: r | '+' :: r => r
  | r => r

/-- One part `:[0-5]?[0-9]` of a base-60 number at the front, and the characters after it. -/
def sexagesimalPart? : List Char → Option (List Char)
  | ':' :: a :: b :: rest =>
    if '0' ≤ a && a ≤ '5' && isDigit b then some rest
    else if isDigit a then some (b :: rest) else none
  | [':', a] => if isDigit a then some [] else none
  | _ => none

/-- The characters after all the base-60 parts at the front, if there is at least one. -/
def sexagesimalParts? (cs : List Char) : Option (List Char) :=
  let rec go : Nat → List Char → List Char
    | 0, cs => cs
    | fuel + 1, cs =>
      match sexagesimalPart? cs with
      | some rest => go fuel rest
      | none => cs
  (sexagesimalPart? cs).map (go cs.length)

/-- An exponent `[eE][-+][0-9]+`. -/
def exponentForm : List Char → Bool
  | e :: s :: ds => (e == 'e' || e == 'E') && (s == '-' || s == '+') && !ds.isEmpty && ds.all isDigit
  | _ => false

/-- Nothing, or an exponent. -/
def optExponent (cs : List Char) : Bool :=
  cs.isEmpty || exponentForm cs

/-- The form of a number. -/
def floatForm (cs : List Char) : Bool :=
  let pointed : Bool := match unsigned cs with
    | c :: rest =>
      isDigit c && match rest.dropWhile isDigitOrBar with
        | '.' :: r => optExponent (r.dropWhile isDigitOrBar)
        | r =>
          match sexagesimalParts? r with
          | some ('.' :: f) => f.all isDigitOrBar
          | _ => false
    | [] => false
  let bare : Bool := match cs with
    | '.' :: c :: rest => isDigit c && optExponent (rest.dropWhile isDigitOrBar)
    | _ => false
  let special : Bool :=
    [".inf", ".Inf", ".INF"].contains (String.ofList (unsigned cs)) ||
      [".nan", ".NaN", ".NAN"].contains (String.ofList cs)
  pointed || bare || special

/-- The form of an integer. -/
def intForm (cs : List Char) : Bool :=
  match unsigned cs with
  | '0' :: 'b' :: r => !r.isEmpty && r.all fun c => c == '0' || c == '1' || c == '_'
  | '0' :: 'x' :: r =>
    !r.isEmpty && r.all fun c => isDigitOrBar c || ('a' ≤ c && c ≤ 'f') || ('A' ≤ c && c ≤ 'F')
  | ['0'] => true
  | '0' :: r => r.all fun c => ('0' ≤ c && c ≤ '7') || c == '_'
  | c :: r =>
    '1' ≤ c && c ≤ '9' &&
      let rest := r.dropWhile isDigitOrBar
      rest.isEmpty || sexagesimalParts? rest == some []
  | [] => false

/-- Exactly `n` digits at the front, and the characters after them. -/
def digitsN? (n : Nat) (cs : List Char) : Option (List Char) :=
  if cs.length ≥ n && (cs.take n).all isDigit then some (cs.drop n) else none

/-- One or two digits at the front (two when there are two), and the characters after them. -/
def digits12? (cs : List Char) : Option (List Char) :=
  match cs with
  | a :: b :: rest => if isDigit a then (if isDigit b then some rest else some (b :: rest)) else none
  | [a] => if isDigit a then some [] else none
  | [] => none

/-- The time zone of a timestamp: blanks, then `Z` or a sign, one or two digits and an
optional `:mm`; and what follows. -/
def zoneForm? (cs : List Char) : Option (List Char) :=
  match cs.dropWhile fun c => c == ' ' || c == '\t' with
  | 'Z' :: rest => some rest
  | s :: rest =>
    if s == '-' || s == '+' then
      (digits12? rest).map fun r =>
        match r with
        | ':' :: more => (digitsN? 2 more).getD r
        | _ => r
    else none
  | [] => none

/-- The form of a timestamp. -/
def timestampForm (cs : List Char) : Bool :=
  let dateOnly : Bool := match digitsN? 4 cs with
    | some ('-' :: r) =>
      match digitsN? 2 r with
      | some ('-' :: r) => digitsN? 2 r == some []
      | _ => false
    | _ => false
  let full : Option (List Char) := do
    let r ← digitsN? 4 cs
    let r ← match r with | '-' :: r => some r | _ => none
    let r ← digits12? r
    let r ← match r with | '-' :: r => some r | _ => none
    let r ← digits12? r
    let r ← match r with
      | 'T' :: r | 't' :: r => some r
      | c :: r => if c == ' ' || c == '\t' then some (r.dropWhile fun c => c == ' ' || c == '\t') else none
      | [] => none
    let r ← digits12? r
    let r ← match r with | ':' :: r => digitsN? 2 r | _ => none
    let r ← match r with | ':' :: r => digitsN? 2 r | _ => none
    let r := match r with | '.' :: f => f.dropWhile isDigit | _ => r
    match zoneForm? r with
    | some rest => if rest.isEmpty then some [] else some r
    | none => some r
  dateOnly || full == some []

/-- The tag a plain scalar takes from the form of its text. Each form is tried only on texts
that start with one of its first characters; an empty text is tried as null alone. A form
also takes its text with one line break at the end. -/
def formTag (text : String) : String :=
  let cs := text.toList
  let fits (firsts : String) (p : List Char → Bool) : Bool :=
    (match cs with
     | c :: _ => firsts.contains c
     | [] => false) &&
    (p cs || (cs.getLast? == some '\n' && p cs.dropLast))
  let words (ws : List String) : List Char → Bool := fun cs => ws.contains (String.ofList cs)
  if cs.isEmpty then Tag.null
  else if fits "yYnNtTfFoO" (words ["yes", "Yes", "YES", "no", "No", "NO", "true", "True", "TRUE",
      "false", "False", "FALSE", "on", "On", "ON", "off", "Off", "OFF"]) then Tag.bool
  else if fits "-+0123456789." floatForm then Tag.float
  else if fits "-+0123456789" intForm then Tag.int
  else if fits "<" (words ["<<"]) then Tag.merge
  else if fits "~nN" (words ["~", "null", "Null", "NULL", ""]) then Tag.null
  else if fits "0123456789" timestampForm then Tag.timestamp
  else if fits "=" (words ["="]) then Tag.value
  else if fits "!&*" (words ["!", "&", "*"]) then Tag.indicator
  else Tag.str

/-- The tag of a scalar: the tag given, or, when none is given or it is the lone `!`, the tag
of its form if its form may decide (`byForm`), else that of a string. -/
def scalarTag (given : Option String) (byForm : Bool) (text : String) : String :=
  match given with
  | some "!" => formTag text
  | some t => t
  | none => if byForm then formTag text else Tag.str

end TournamentDraw.Yaml
