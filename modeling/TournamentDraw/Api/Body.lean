import TournamentDraw.Value.Json
import TournamentDraw.Text.Encoding
import TournamentDraw.Text.Quote

/-!
# Request bodies and their shapes

A route that reads a body states its shape: a record of named fields, each with its own shape
and, if it may be left out, the value it then takes. Checking a JSON value against a shape
either gives the value in a plain form (integers as integers, every field of a record present,
in the shape's order) or lists every problem found, each at its place: `body`, then the member
names and list positions that lead to it. A body is read in the encoding its bytes show
(`Text.bodyText`); a body that is not JSON has a single problem at the position where reading
stopped, and one that cannot be decoded, or holds an integer of more than 4300 digits, cannot
be read at all.

Checking is lenient where a reading is unambiguous:

* an integer may be written as `true` or `false`, as a whole number with a zero fraction, or
  as text: blanks around it are dropped, a sign is allowed, underscores may stand between the
  first and the last digit, and a fraction of one or more zeros such as `.000` is dropped; whole
  numbers of floating point must lie strictly between `-2 ^ 63` and `2 ^ 63`, and a text
  longer than 4300 bytes is refused for its size;
* a switch may be written as `0` or `1`, as a whole number `0.0` or `1.0`, or as one of the
  words `0`, `1`, `f`, `t`, `n`, `y`, `no`, `yes`, `off`, `on`, `false`, `true`, in any case;
* texts, choices, lists and records take only texts, texts, lists and objects;
* a text read as an integer, a switch or a choice, or as a text with bounds on its length, must
  not hold a lone surrogate; a text without bounds is taken as it is.

Each problem is reported with a message, the value found and, for a bound or a choice, the
bound or the choices; only its code and place are shown in an answer, but the rest is written
with them.
-/

namespace TournamentDraw.Api

-- Powers and sums of numbers are the core ones, with no other instance in scope taking over.
attribute [local instance (2000)] instPowNat Zero.ofOfNat0

/-- A step from a value to a part of it: a member name or a list position. -/
inductive Place where
  | key (name : String)
  | index (i : Nat)
  deriving Repr, DecidableEq

/-- A place as JSON. -/
def Place.toValue : Place → Value
  | .key name => .str name
  | .index i => .int i

/-- What is wrong with a value. -/
inductive Problem where
  | missing
  | intType
  | intParsing
  | intFromFloat
  | finiteNumber
  | intParsingSize
  | stringType
  | stringUnicode
  | stringTooShort (least : Nat)
  | stringTooLong (most : Nat)
  | boolType
  | boolParsing
  | enum (names : List String)
  | listType
  | modelAttributesType
  | greaterThanEqual (least : Int)
  | lessThanEqual (most : Int)
  | jsonInvalid
  deriving Repr, DecidableEq

/-- The code under which a problem is reported. -/
def Problem.code : Problem → String
  | .missing => "missing"
  | .intType => "int_type"
  | .intParsing => "int_parsing"
  | .intFromFloat => "int_from_float"
  | .finiteNumber => "finite_number"
  | .intParsingSize => "int_parsing_size"
  | .stringType => "string_type"
  | .stringUnicode => "string_unicode"
  | .stringTooShort _ => "string_too_short"
  | .stringTooLong _ => "string_too_long"
  | .boolType => "bool_type"
  | .boolParsing => "bool_parsing"
  | .enum _ => "enum"
  | .listType => "list_type"
  | .modelAttributesType => "model_attributes_type"
  | .greaterThanEqual _ => "greater_than_equal"
  | .lessThanEqual _ => "less_than_equal"
  | .jsonInvalid => "json_invalid"

/-- Choices as a message lists them: each quoted, the last after `or`. -/
def choiceList (names : List String) : String :=
  match names.reverse with
  | [] => ""
  | last :: rest =>
    let quoted := rest.reverse.map Text.quote
    if quoted.isEmpty then Text.quote last
    else ", ".intercalate quoted ++ " or " ++ Text.quote last

/-- The message of a problem. -/
def Problem.message : Problem → String
  | .missing => "Field required"
  | .intType => "Input should be a valid integer"
  | .intParsing => "Input should be a valid integer, unable to parse string as an integer"
  | .intFromFloat => "Input should be a valid integer, got a number with a fractional part"
  | .finiteNumber => "Input should be a finite number"
  | .intParsingSize => "Unable to parse input string as an integer, exceeded maximum size"
  | .stringType => "Input should be a valid string"
  | .stringUnicode =>
    "Input should be a valid string, unable to parse raw data as a unicode string"
  | .stringTooShort n =>
    s!"String should have at least {n} character" ++ (if n = 1 then "" else "s")
  | .stringTooLong n =>
    s!"String should have at most {n} character" ++ (if n = 1 then "" else "s")
  | .boolType => "Input should be a valid boolean"
  | .boolParsing => "Input should be a valid boolean, unable to interpret input"
  | .enum names => "Input should be " ++ choiceList names
  | .listType => "Input should be a valid list"
  | .modelAttributesType => "Input should be a valid dictionary or object to extract fields from"
  | .greaterThanEqual n => s!"Input should be greater than or equal to {n}"
  | .lessThanEqual n => s!"Input should be less than or equal to {n}"
  | .jsonInvalid => "JSON decode error"

/-- The bound or the choices a problem is about. The reason a text is not JSON is not kept:
it never holds a part of the request. -/
def Problem.context : Problem → Option Value
  | .stringTooShort n => some (.obj [("min_length", .int n)])
  | .stringTooLong n => some (.obj [("max_length", .int n)])
  | .enum names => some (.obj [("expected", .str (choiceList names))])
  | .greaterThanEqual n => some (.obj [("ge", .int n)])
  | .lessThanEqual n => some (.obj [("le", .int n)])
  | _ => none

/-- A problem at a place of the request, with the value found there (for a missing field, the
object that lacks it). -/
structure Detail where
  problem : Problem
  loc : List Place
  input : Value := .null
  deriving Repr

/-- A problem as JSON: its code and its place. -/
def Detail.toValue (d : Detail) : Value :=
  .obj [("type", .str d.problem.code), ("loc", .list (d.loc.map Place.toValue))]

/-- A problem as JSON with all it reports: its code, place, message, the value found and, if
it has one, its bound or choices. -/
def Detail.full (d : Detail) : Value :=
  .obj ([("type", .str d.problem.code), ("loc", .list (d.loc.map Place.toValue)),
    ("msg", .str d.problem.message), ("input", d.input)] ++
    (d.problem.context.map fun c => [("ctx", c)]).getD [])

mutual

/-- The shape of a value in a request body. -/
inductive Shape where
  /-- An integer within optional bounds, both included. -/
  | integer (least most : Option Int)
  /-- A text with optional bounds on its number of characters. -/
  | text (shortest longest : Option Nat)
  /-- A switch. -/
  | flag
  /-- One of the named choices. -/
  | oneOf (names : List String)
  /-- A list of values of one shape. -/
  | listOf (item : Shape)
  /-- A record of fields. -/
  | record (fields : Fields)
  /-- `null`, or a value of the shape. -/
  | nullable (inner : Shape)

/-- The fields of a record, each with its name, its shape, and the value it takes when it is
left out, if it may be. -/
inductive Fields where
  | nil
  | cons (name : String) (shape : Shape) (omitted : Option Value) (rest : Fields)

end

/-- Fields from a list of names, shapes and values taken when left out. -/
def Fields.ofList : List (String × Shape × Option Value) → Fields
  | [] => .nil
  | (name, s, d) :: rest => .cons name s d (Fields.ofList rest)

/-- Whether a character is a blank that is dropped around an integer's text. -/
def isTrimmed (c : Char) : Bool :=
  (9 ≤ c.toNat ∧ c.toNat ≤ 13) || c = ' ' || c.toNat = 0x85 || c.toNat = 0xA0 ||
    c.toNat = 0x1680 || (0x2000 ≤ c.toNat ∧ c.toNat ≤ 0x200A) || c.toNat = 0x2028 ||
    c.toNat = 0x2029 || c.toNat = 0x202F || c.toNat = 0x205F || c.toNat = 0x3000

/-- The value of ASCII digits among which underscores may stand, none if the text is empty,
starts or ends with an underscore, or holds another character. -/
def spacedDigits? (cs : List Char) : Option Nat :=
  if cs.head? = some '_' || cs.getLast? = some '_' || !cs.all (fun c => c.isDigit || c = '_') ||
      !cs.any Char.isDigit then none
  else some ((cs.filter Char.isDigit).foldl (fun n c => 10 * n + (c.toNat - '0'.toNat)) 0)

/-- An integer text: a minus sign not followed by a plus sign, or a plus sign not followed by
another, then digits among which underscores may stand. -/
def signedInteger? : List Char → Option Int
  | '-' :: ds =>
    match ds with
    | '+' :: _ => none
    | _ => (spacedDigits? ds).map fun n => -(n : Int)
  | '+' :: ds =>
    match ds with
    | '+' :: _ => none
    | _ => (spacedDigits? ds).map fun n => (n : Int)
  | ds => (spacedDigits? ds).map fun n => (n : Int)

/-- The part of a text before a fraction of one or more zeros, if it has one. -/
def zeroFractionDropped? (cs : List Char) : Option (List Char) :=
  let whole := cs.takeWhile (· ≠ '.')
  match cs.dropWhile (· ≠ '.') with
  | '.' :: frac => if !frac.isEmpty && frac.all (· = '0') then some whole else none
  | _ => none

/-- The integer a text stands for. -/
def integerText (s : String) : Except Problem Int :=
  let cs := ((s.toList.dropWhile isTrimmed).reverse.dropWhile isTrimmed).reverse
  if 4300 < (String.ofList cs).utf8ByteSize then .error .intParsingSize else
    match signedInteger? cs with
    | some n => .ok n
    | none =>
      match (zeroFractionDropped? cs).bind signedInteger? with
      | some n => .ok n
      | none => .error .intParsing

/-- The whole number a binary64 value stands for, if it lies strictly between `-2 ^ 63` and
`2 ^ 63`. -/
def wholeNumber (x : Double) : Except Problem Int :=
  match x with
  | .finite v =>
    let (a, b) := v.toFraction
    if a % (b : Int) ≠ 0 then .error .intFromFloat
    else
      let n := a / (b : Int)
      if -(2 ^ (63 : Nat) : Int) < n ∧ n < 2 ^ (63 : Nat) then .ok n else .error .intParsingSize
  | .negZero => .ok 0
  | .infinity _ | .nan => .error .finiteNumber

/-- Whether a text holds a lone surrogate. -/
def unpaired (s : String) : Bool :=
  (Text.firstSurrogate? s).isSome

/-- The integer a value stands for. -/
def integerOf : Value → Except Problem Int
  | .int n => .ok n
  | .bool b => .ok (if b then 1 else 0)
  | .str s => if unpaired s then .error .stringUnicode else integerText s
  | .float x => wholeNumber x
  | _ => .error .intType

/-- An integer checked against its bounds. -/
def bounded (least most : Option Int) (n : Int) : Except Problem Int :=
  match most.filter (· < n), least.filter (n < ·) with
  | some m, _ => .error (.lessThanEqual m)
  | none, some l => .error (.greaterThanEqual l)
  | none, none => .ok n

/-- The switch a number `0` or `1` stands for. -/
def switchOfInt (n : Int) : Except Problem Bool :=
  if n = 0 then .ok false else if n = 1 then .ok true else .error .boolParsing

/-- The words that stand for an open switch. -/
def offWords : List String := ["0", "off", "f", "false", "n", "no"]

/-- The words that stand for a closed switch. -/
def onWords : List String := ["1", "on", "t", "true", "y", "yes"]

/-- The switch a value stands for. -/
def switchOf : Value → Except Problem Bool
  | .bool b => .ok b
  | .str s =>
    let w := s.toLower
    if unpaired s then .error .stringUnicode
    else if offWords.contains w then .ok false
    else if onWords.contains w then .ok true
    else .error .boolParsing
  | .int n => if -(2 ^ (63 : Nat) : Int) ≤ n ∧ n < 2 ^ (63 : Nat) then switchOfInt n else .error .boolType
  | .float x =>
    match wholeNumber x with
    | .ok n => switchOfInt n
    | .error _ => .error .boolType
  | _ => .error .boolType

/-- The text a value stands for, within bounds on its number of code points. A text is only
read for its length when it has bounds, and then it must not hold a lone surrogate. -/
def textOf (shortest longest : Option Nat) : Value → Except Problem String
  | .str s =>
    let n := Text.pointCount s
    if (shortest.isSome || longest.isSome) && unpaired s then .error .stringUnicode
    else match shortest.filter (n < ·), longest.filter (· < n) with
      | some l, _ => .error (.stringTooShort l)
      | none, some m => .error (.stringTooLong m)
      | none, none => .ok s
  | _ => .error .stringType

/-- A single problem at a place, about the value found there. -/
def problemAt {α : Type} (loc : List Place) (v : Value) : Except Problem α → Except (List Detail) α
  | .ok a => .ok a
  | .error p => .error [⟨p, loc, v⟩]

/-- All values of a list of checks, or all their problems. -/
def gather : List (Except (List Detail) Value) → Except (List Detail) (List Value)
  | [] => .ok []
  | r :: rs =>
    match r, gather rs with
    | .ok v, .ok vs => .ok (v :: vs)
    | .ok _, .error e => .error e
    | .error e, .ok _ => .error e
    | .error e, .error e' => .error (e ++ e')

mutual

/-- Check a value, found at a place, against a shape. -/
def Shape.check : Shape → List Place → Value → Except (List Detail) Value
  | .integer least most, loc, v =>
    problemAt loc v ((integerOf v).bind (bounded least most)) |>.map .int
  | .text shortest longest, loc, v => problemAt loc v (textOf shortest longest v) |>.map .str
  | .flag, loc, v => problemAt loc v (switchOf v) |>.map .bool
  | .oneOf names, loc, v =>
    match v with
    | .str s =>
      if unpaired s then .error [⟨.stringUnicode, loc, v⟩]
      else if names.contains s then .ok (.str s) else .error [⟨.enum names, loc, v⟩]
    | _ => .error [⟨.enum names, loc, v⟩]
  | .listOf item, loc, v =>
    match v with
    | .list vs => (gather (vs.zipIdx.map fun (x, i) => item.check (loc ++ [.index i]) x)).map .list
    | _ => .error [⟨.listType, loc, v⟩]
  | .record fields, loc, v =>
    match v with
    | .obj ms => (fields.check loc ms).map .obj
    | _ => .error [⟨.modelAttributesType, loc, v⟩]
  | .nullable inner, loc, v =>
    match v with
    | .null => .ok .null
    | _ => inner.check loc v

/-- Check the members of an object, found at a place, against the fields of a record. -/
def Fields.check : Fields → List Place → List (String × Value) →
    Except (List Detail) (List (String × Value))
  | .nil, _, _ => .ok []
  | .cons name s omitted rest, loc, ms =>
    let here : Except (List Detail) Value :=
      match ms.lookup name, omitted with
      | some v, _ => s.check (loc ++ [.key name]) v
      | none, some d => .ok d
      | none, none => .error [⟨.missing, loc ++ [.key name], .obj ms⟩]
    match here, rest.check loc ms with
    | .ok v, .ok vs => .ok ((name, v) :: vs)
    | .ok _, .error e => .error e
    | .error e, .ok _ => .error e
    | .error e, .error e' => .error (e ++ e')

end

/-- Why a body cannot be read. -/
inductive BodyFault where
  /-- The text is not JSON: one problem, at the position where reading stopped. -/
  | invalid (d : Detail)
  /-- The bytes are not whole in the encoding they show, or an integer in the text has more
  than 4300 digits. -/
  | unreadable
  deriving Repr

/-- A body's text as a value, read in the encoding its bytes show: none when it is empty. -/
def readBody (text : String) : Except BodyFault (Option Value) :=
  if text.isEmpty then .ok none else
    match Text.bodyText text with
    | none => .error .unreadable
    | some t =>
      match Json.read t with
      | .ok v => .ok (some v)
      | .error (.longInteger _) => .error .unreadable
      | .error e => .error (.invalid ⟨.jsonInvalid, [.key "body", .index e.pos], .obj []⟩)

/-- What a route asks of its body. -/
inductive BodyRule where
  /-- The route reads no body. -/
  | unread
  /-- A body of the shape is required. -/
  | required (s : Shape)
  /-- A body of the shape, or `null`, may be sent. -/
  | optional (s : Shape)

/-- Check a body, read or absent, against what a route asks of it. -/
def BodyRule.check : BodyRule → Option Value → Except (List Detail) (Option Value)
  | .unread, _ => .ok none
  | .required _, none => .error [⟨.missing, [.key "body"], .null⟩]
  | .optional _, none | .optional _, some .null => .ok none
  | .required s, some v | .optional s, some v => (s.check [.key "body"] v).map some

end TournamentDraw.Api
