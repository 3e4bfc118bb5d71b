import TournamentDraw.Cli.Grammar
import TournamentDraw.Text.Similarity
import TournamentDraw.Text.Numeral

/-!
# Reading a command line

A command line is read in two passes. The first pass finds the options: an argument that
starts with a hyphen (a lone hyphen apart) names an option, `--` ends the options, and other
arguments are left over (a program stops at the first of them, which names its command). An
unknown long option is refused with the close spellings that exist; an unknown short one
without. The second pass checks the options one by one: those that end the run (help,
version) first, then the options given, in the order of their first appearance, then the
others, in the order they are declared. Each takes its last value, or its default, checks
that value's kind and, if it is required, that it is there. Arguments left over are refused
last, unless they name a command.
-/

namespace TournamentDraw.Cli

/-- An option as written: a value, or the switch's own or negative spelling. -/
inductive Written where
  | value (s : String)
  | on
  | off
  deriving Repr, DecidableEq

/-- What the first pass finds: the options in the order written, and the arguments left. -/
structure Scan where
  found : List (String × Written) := []
  rest : List String := []
  deriving Repr

/-- The option with a spelling. -/
def optNamed (opts : List Opt) (name : String) : Option Opt :=
  opts.find? (·.spellings.contains name)

/-- An argument split at its first `=` into a name and the value attached to it. -/
def splitAttached (arg : String) : String × Option String :=
  match arg.splitOn "=" with
  | [name] => (name, none)
  | name :: rest => (name, some ("=".intercalate rest))
  | [] => (arg, none)

/-- The first pass over the arguments, with `fuel` steps (one per argument suffices).
`interspersed` tells whether arguments that name no option may stand between options; if
not, the first of them ends the options. -/
def scan (opts : List Opt) (interspersed : Bool) : Nat → List String → Scan → Except UsageError Scan
  | 0, args, acc => .ok { acc with rest := acc.rest ++ args }
  | _, [], acc => .ok acc
  | fuel + 1, arg :: more, acc =>
    if arg = "--" then .ok { acc with rest := acc.rest ++ more }
    else if arg.startsWith "-" && 1 < arg.length then
      let (name, attached) := splitAttached arg
      match optNamed opts name with
      | some o =>
        if o.takesValue then
          match attached, more with
          | some v, _ => scan opts interspersed fuel more { acc with found := acc.found ++ [(o.key, .value v)] }
          | none, v :: more' => scan opts interspersed fuel more' { acc with found := acc.found ++ [(o.key, .value v)] }
          | none, [] => .error (.needsValue name)
        else if attached.isSome then .error (.takesNoValue name)
        else
          let w : Written := if name = o.long then .on else .off
          scan opts interspersed fuel more { acc with found := acc.found ++ [(o.key, w)] }
      | none =>
        if arg.startsWith "--" then
          .error (.noSuchOption name (Text.closeMatches name (opts.flatMap (·.spellings))))
        else .error (.noSuchOption (String.ofList ['-', (arg.toList.drop 1).headD '-']) [])
    else if interspersed then scan opts interspersed fuel more { acc with rest := acc.rest ++ [arg] }
    else .ok { acc with rest := acc.rest ++ arg :: more }

/-- The options in the order they are checked: those that end the run first, then those
given by their first appearance, then the rest as declared. -/
def checkOrder (opts : List Opt) (found : List (String × Written)) : List Opt :=
  let firstAt (o : Opt) : Nat := (found.findIdx? (·.1 == o.key)).getD found.length
  let rank (o : Opt) : Nat × Nat := (if o.effect = .none then 1 else 0, firstAt o)
  opts.mergeSort fun a b => decide ((rank a).1 < (rank b).1 ∨ ((rank a).1 = (rank b).1 ∧ (rank a).2 ≤ (rank b).2))

/-- A character with its case folded away: ASCII capitals, the long s, the Kelvin sign, the
sharp s and the Latin ligatures fold to ASCII; any other character is kept, since it cannot
fold into an ASCII text. -/
def foldChar (c : Char) : List Char :=
  match c.toNat with
  | 0x17F => ['s']
  | 0x212A => ['k']
  | 0xDF | 0x1E9E => ['s', 's']
  | 0xFB00 => ['f', 'f']
  | 0xFB01 => ['f', 'i']
  | 0xFB02 => ['f', 'l']
  | 0xFB03 => ['f', 'f', 'i']
  | 0xFB04 => ['f', 'f', 'l']
  | 0xFB05 | 0xFB06 => ['s', 't']
  | _ => [c.toLower]

/-- A text with its case folded away. -/
def foldCase (s : String) : List Char :=
  s.toList.flatMap foldChar

/-- The name of a choice that a text matches in any case. -/
def matchChoice (names : List String) (v : String) : Option String :=
  names.find? fun n => foldCase n == foldCase v

/-- A written value checked against the option's kind. -/
def convert (o : Opt) : Written → Except UsageError Given
  | .on => .ok (.flag true)
  | .off => .ok (.flag false)
  | .value v =>
    match o.kind with
    | .text => .ok (.text v)
    | .integer =>
      match Text.integer? v with
      | some n => .ok (.int n)
      | none => .error (.notInteger o.hint v "integer")
    | .bounded lo hi =>
      match Text.integer? v with
      | some n => if lo ≤ n ∧ n ≤ hi then .ok (.int n) else .error (.outOfRange o.hint n lo hi)
      | none => .error (.notInteger o.hint v "integer range")
    | .choice names =>
      match matchChoice names v with
      | some n => .ok (.text n)
      | none => .error (.notAChoice o.hint v names)
    | .switch _ => .ok (.flag true)

/-- How the second pass ends: with the values of the options, or by showing the help page or
the version. -/
inductive Reading where
  | values (given : List (String × Given))
  | help
  | version
  deriving Repr, DecidableEq

/-- The second pass: check the options in order and collect their values. -/
def collect (found : List (String × Written)) :
    List Opt → List (String × Given) → Except UsageError Reading
  | [], acc => .ok (.values acc)
  | o :: os, acc => do
    let written := (found.filter (·.1 == o.key)).getLast?.map (·.2)
    let value ← match written with
      | some w => (convert o w).map some
      | none => .ok o.default
    match value with
    | none => if o.required then .error (.missing o.hint (match o.kind with
        | .choice names => some names
        | _ => none)) else collect found os acc
    | some v =>
      match o.effect, v with
      | .help, .flag true => .ok .help
      | .version, .flag true => .ok .version
      | _, _ => collect found os (acc ++ [(o.key, v)])

/-- Read a command's arguments: its options' values, or a page to show. Arguments left over
are refused. -/
def readCommand (c : Command) (args : List String) : Except UsageError Reading := do
  let s ← scan c.opts true (args.length + 1) args {}
  let r ← collect s.found (checkOrder c.opts s.found) []
  match r, s.rest with
  | .values _, _ :: _ => .error (.extraArguments s.rest)
  | _, _ => .ok r

/-- Read a program's own options, which stop at the first argument that names none: the
reading and the arguments from the command on. -/
def readProgram (p : Program) (args : List String) : Except UsageError (Reading × List String) := do
  let s ← scan p.opts false (args.length + 1) args {}
  let r ← collect s.found (checkOrder p.opts s.found) []
  pure (r, s.rest)

/-- The text value of an option, if given or defaulted. -/
def textOf (vs : List (String × Given)) (key : String) : Option String :=
  match vs.lookup key with
  | some (.text s) => some s
  | _ => none

/-- The integer value of an option, if given or defaulted. -/
def intOf (vs : List (String × Given)) (key : String) : Option Int :=
  match vs.lookup key with
  | some (.int n) => some n
  | _ => none

/-- The switch value of an option, if given or defaulted. -/
def flagOf (vs : List (String × Given)) (key : String) : Option Bool :=
  match vs.lookup key with
  | some (.flag b) => some b
  | _ => none

end TournamentDraw.Cli
