import TournamentDraw.Text.Quote

/-!
# Why a YAML text does not load

Most faults break the grammar of YAML or the rules by which nodes become values: they are
all alike to a reader of the text, who learns only that it is malformed. The others come from
converting a scalar into the value its tag asks for (an integer, a number, a truth value, a
date), or from an escape beyond the last code point, and each has its own message.
-/

namespace TournamentDraw.Yaml

/-- Why a YAML text does not load. -/
inductive LoadFault where
  /-- The text breaks the grammar, or a node cannot become the value its tag asks for. -/
  | malformed
  /-- An escape names a code point beyond `U+10FFFF`. -/
  | pointRange
  /-- A text that does not write an integer in the base. -/
  | notInteger (base : Nat) (text : String)
  /-- A decimal integer of more digits than are converted. -/
  | longInteger (digits : Nat)
  /-- A text that does not write a number. -/
  | notNumber (text : String)
  /-- An integer or number with no characters at all. -/
  | emptyNumber
  /-- A truth value that is none of the words for one, in lower case. -/
  | notTruth (word : String)
  /-- A timestamp without the form of one. -/
  | notTimestamp
  /-- A field of a date, a time or a time zone out of its range, with the complaint. -/
  | outOfRange (complaint : String)
  deriving Repr, DecidableEq

/-- The first `n` characters of a text. -/
def clip (n : Nat) (s : String) : String :=
  String.ofList (s.toList.take n)

/-- The message of a fault. -/
def LoadFault.message : LoadFault → String
  | .malformed => "the text is not well-formed YAML"
  | .pointRange => "chr() arg not in range(0x110000)"
  | .notInteger base text =>
    "invalid literal for int() with base " ++ toString base ++ ": " ++ clip 200 (Text.quote text)
  | .longInteger n =>
    "Exceeds the limit (4300 digits) for integer string conversion: value has " ++ toString n ++
      " digits; use sys.set_int_max_str_digits() to increase the limit"
  | .notNumber text => "could not convert string to float: " ++ Text.quote text
  | .emptyNumber => "string index out of range"
  | .notTruth word => word
  | .notTimestamp => "'NoneType' object has no attribute 'groupdict'"
  | .outOfRange complaint => complaint

end TournamentDraw.Yaml
