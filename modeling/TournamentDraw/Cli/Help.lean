import TournamentDraw.Cli.Grammar
import TournamentDraw.Text.Wrap

/-!
# Help pages

A help page is 80 columns wide. It opens with the usage line, then the description, filled
and indented by two, then the options as a two-column list: the spellings with the kind of
value, and the help text with its bounds and whether the option is required. A program's
page lists its commands last, each with the first sentence of its description. A usage line
alone heads every usage error.
-/

namespace TournamentDraw.Cli

/-- The width of a help page. -/
def pageWidth : Nat := 80

/-- A run of blanks. -/
def blanks (n : Nat) : String :=
  String.ofList (List.replicate n ' ')

/-- The usage line: `Usage:`, the command's path and the pieces of its arguments, the pieces
filled to the page beside the prefix. -/
def usageLine (path pieces : String) : String :=
  let pre := "Usage: " ++ path ++ " "
  if pre.length + 20 ≤ pageWidth then
    "\n".intercalate (Text.fill pageWidth pre (blanks pre.length) pieces)
  else
    pre ++ "\n" ++ "\n".intercalate (Text.fill pageWidth (blanks (pre.length - 1 + 4))
      (blanks (pre.length - 1 + 4)) pieces)

/-- The word for the value an option reads, or `none` for a switch. -/
def Kind.placeholder : Kind → Option String
  | .text => some "TEXT"
  | .integer => some "INTEGER"
  | .bounded _ _ => some "INTEGER RANGE"
  | .choice names => some ("[" ++ "|".intercalate names ++ "]")
  | .switch _ => none

/-- An option's line on a help page: its spellings with the value it reads, and its help
text followed by its bounds and whether it is required. -/
def Opt.record (o : Opt) : String × String :=
  let spelled := o.spellings.map fun s =>
    match o.kind.placeholder with
    | some p => s ++ " " ++ p
    | none => s
  let extras := (match o.kind with
    | .bounded lo hi => [toString lo ++ "<=x<=" ++ toString hi]
    | _ => []) ++ (if o.required then ["required"] else [])
  let note := "; ".intercalate extras
  let help :=
    if extras.isEmpty then o.help
    else if o.help.isEmpty then "[" ++ note ++ "]"
    else o.help ++ "  [" ++ note ++ "]"
  (" / ".intercalate spelled, help)

/-- Rows of two columns indented by `indent`: the first column is as wide as its widest
entry, at most 30, and two blanks apart from the second; a longer entry puts the second
column on the next line. The second column is filled to what is left of the page. -/
def definitionList (indent : Nat) (rows : List (String × String)) : String :=
  let firstCol := min ((rows.map (·.1.length)).foldl max 0) 30 + 2
  let textWidth := max (pageWidth - firstCol - 2) 10
  String.join (rows.map fun (first, second) =>
    let head := blanks indent ++ first
    if second.isEmpty then head ++ "\n" else
      let pad :=
        if first.length ≤ firstCol - 2 then blanks (firstCol - first.length)
        else "\n" ++ blanks (firstCol + indent)
      match (Text.wrapParagraphs textWidth "" second).splitOn "\n" with
      | [] => head ++ pad ++ "\n"
      | l :: ls => head ++ pad ++ l ++ "\n" ++
          String.join (ls.map fun x => blanks (firstCol + indent) ++ x ++ "\n"))

/-- The words of a text, split at blanks. -/
def words (s : String) : List String :=
  ((s.toList.splitBy fun a b => Text.isBlank a == Text.isBlank b).filter
    fun w => !(w.all Text.isBlank)).map String.ofList

/-- Words dropped from the end of a summary cut at `i` words until its length, counted from the
ellipsis by steps of `step`, passes `limit`; with `fuel` steps. -/
def cutBack (step limit : Nat) : Nat → Nat → Nat → Nat
  | 0, i, _ => i
  | fuel + 1, i, total =>
    if i = 0 then 0 else
      if limit < total + step then i else cutBack step limit fuel (i - 1) (total + step)

/-- The summary of a description in at most `limit` characters: its first sentence if that
fits, else its first paragraph if that fits, else as many words as fit before an ellipsis. -/
def summary (doc : String) (limit : Nat) : String :=
  let para := (doc.splitOn "\n\n").headD ""
  let ws := words para
  let ws := if ws.head? = some "\x08" then ws.tail else ws
  let last := ws.length - 1
  -- the first word at which the summary stops, and why
  let rec scan : List String → Nat → Nat → Option (Nat × String) ⊕ Nat
    | [], _, _ => .inl none
    | w :: rest, i, total =>
      let total := total + w.length + (if 0 < i then 1 else 0)
      if limit < total then .inl (some (i, w))
      else if w.endsWith "." then .inr (i + 1)
      else if total = limit ∧ i ≠ last then .inl (some (i, w))
      else scan rest (i + 1) total
  match scan ws 0 0 with
  | .inr n => " ".intercalate (ws.take n)
  | .inl none => " ".intercalate ws
  | .inl (some (i, w)) =>
    let keep := cutBack (w.length + 1) limit i i 3
    " ".intercalate (ws.take keep) ++ "..."

/-- The help page of a command at a path, without the final line break. -/
def Command.page (c : Command) (path : String) : String :=
  let usage := usageLine path "[OPTIONS]" ++ "\n"
  let text := if c.doc.isEmpty then "" else "\n" ++ Text.wrapParagraphs pageWidth "  " c.doc ++ "\n"
  let opts := "\nOptions:\n" ++ definitionList 2 (c.opts.map Opt.record)
  String.ofList ((usage ++ text ++ opts).toList.reverse.dropWhile (· = '\n')).reverse

/-- The commands of a program in the order of their names. -/
def Program.sortedCommands (p : Program) : List Command :=
  p.commands.mergeSort fun a b => decide (a.name ≤ b.name)

/-- The help page of a program, without the final line break. -/
def Program.page (p : Program) : String :=
  let usage := usageLine p.name "[OPTIONS] COMMAND [ARGS]..." ++ "\n"
  let text := if p.doc.isEmpty then "" else "\n" ++ Text.wrapParagraphs pageWidth "  " p.doc ++ "\n"
  let opts := "\nOptions:\n" ++ definitionList 2 (p.opts.map Opt.record)
  let cs := p.sortedCommands
  let limit := pageWidth - 6 - (cs.map (·.name.length)).foldl max 0
  let cmds := if cs.isEmpty then "" else
    "\nCommands:\n" ++ definitionList 2 (cs.map fun c => (c.name, (summary c.doc limit).trimAscii.toString))
  String.ofList ((usage ++ text ++ opts ++ cmds).toList.reverse.dropWhile (· = '\n')).reverse

end TournamentDraw.Cli
