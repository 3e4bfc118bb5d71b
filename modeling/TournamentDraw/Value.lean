import TournamentDraw.Binary64.Double

/-!
# Dynamic values

Settings files, request bodies and the answers of the service layer are trees of null, truth
values, integers, binary64 numbers, texts, lists and objects. An object keeps its members in
the order they were first written, because the order of group fixtures and of answer fields
follows it; writing a member again replaces its value in place.
-/

namespace TournamentDraw

/-- An association list with `key` set to `x`: replaced in place, else appended. -/
def assocSet {β : Type} (entries : List (String × β)) (key : String) (x : β) :
    List (String × β) :=
  if entries.any (·.1 == key) then entries.map (fun p => if p.1 == key then (key, x) else p)
  else entries ++ [(key, x)]

/-- A dynamic value of a settings file or a request or answer body. -/
inductive Value where
  | null
  | bool (b : Bool)
  | int (n : Int)
  | float (x : Double)
  | str (s : String)
  | list (xs : List Value)
  | obj (fields : List (String × Value))
  deriving Repr, Inhabited

namespace Value

/-- The member `key` of an object, if the value is an object that has it. -/
def get? (v : Value) (key : String) : Option Value :=
  match v with
  | .obj fields => fields.lookup key
  | _ => none

/-- Whether the value is an object with the member `key`. -/
def has (v : Value) (key : String) : Bool :=
  (v.get? key).isSome

/-- The fields of an object with `key` set to `x`: replaced in place, else appended. -/
def setField (fields : List (String × Value)) (key : String) (x : Value) :
    List (String × Value) :=
  assocSet fields key x

/-- An optional text as a value, missing as null. -/
def ofOptStr : Option String → Value
  | some s => .str s
  | none => .null

/-- An optional integer as a value, missing as null. -/
def ofOptInt : Option Int → Value
  | some n => .int n
  | none => .null

/-- Whether the value is null. -/
def isNull : Value → Bool
  | .null => true
  | _ => false

/-- The truth of a value: null, false, zero, the empty text and empty containers are false. -/
def truthy : Value → Bool
  | .null => false
  | .bool b => b
  | .int n => n != 0
  | .float x => !x.isZero
  | .str s => !s.isEmpty
  | .list xs => !xs.isEmpty
  | .obj fs => !fs.isEmpty

end Value

end TournamentDraw
