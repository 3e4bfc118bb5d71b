import TournamentDraw.Value
import TournamentDraw.Binary64.Shortest
import TournamentDraw.Text.Quote

/-!
# Values in messages

How a value is shown inside a message: null as `None`, truth values as `True` and `False`,
numbers in their shortest decimal text, a text as itself at the top and quoted inside a list
or object, lists in brackets and objects in braces with `key: value` members.
-/

namespace TournamentDraw.Value

mutual

/-- A value as shown inside a list or object: texts quoted. -/
def shown : Value → String
  | .str s => Text.quote s
  | .null => "None"
  | .bool b => if b then "True" else "False"
  | .int n => toString n
  | .float x => x.toText
  | .list xs => "[" ++ shownItems xs ++ "]"
  | .obj fs => "\x7b" ++ shownMembers fs ++ "\x7d"

/-- The items of a list, shown and comma separated. -/
def shownItems : List Value → String
  | [] => ""
  | [x] => shown x
  | x :: xs => shown x ++ ", " ++ shownItems xs

/-- The members of an object, shown and comma separated. -/
def shownMembers : List (String × Value) → String
  | [] => ""
  | [(k, v)] => Text.quote k ++ ": " ++ shown v
  | (k, v) :: fs => Text.quote k ++ ": " ++ shown v ++ ", " ++ shownMembers fs

end

/-- A value as shown in a message: a text as itself, anything else as `shown`. -/
def describe : Value → String
  | .str s => s
  | v => shown v

end TournamentDraw.Value
