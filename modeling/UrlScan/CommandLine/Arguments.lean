import UrlScan.CommandLine.Word
import UrlScan.Settings.Value
import UrlScan.Text.Integer

/-!
# Arguments

The arguments of a command line are the directory to scan and the options. An option that is given
twice has its last value. The option `--version` ends the reading where it stands; a wrong command
line is one with an unknown or ambiguous option, a missing or superfluous value, a number that is
none, two options that exclude each other, or a second directory.
-/

namespace UrlScan

/-- How much of what happens is told. -/
inductive Verbosity
  | quiet
  | resultsOnly
  | verbose
deriving DecidableEq, Repr

structure Arguments where
  path : Text := ['.']
  scan : Option Text := none
  exclude : Option Text := none
  scanFile : Option Text := none
  excludeFile : Option Text := none
  maxDepth : Option Value := none
  ignoreDomains : Option Text := none
  includeComments : Bool := false
  includeSingleLabel : Bool := false
  noFallback : Bool := false
  forceFallback : Option Text := none
  context : Option Value := none
  format : Option Text := none
  output : Option Text := none
  onlyUrls : Bool := false
  noLineNumbers : Bool := false
  concurrency : Option Value := none
  failOnError : Bool := false
  verbosity : Option Verbosity := none

/-- What a command line asks for. -/
inductive Command
  | run (arguments : Arguments)
  | showVersion
  | showHelp
  /-- The command line is wrong. -/
  | refuse

namespace Arguments

/-- The text given to an option; the value `--` stands for no text. -/
def textOf (value : Text) : Text :=
  if value = ['-', '-'] then [] else value

/-- The number given to an option; the value `--` stands for an empty list. -/
def numberOf? (value : Text) : Option Value :=
  if value = ['-', '-'] then some (.list []) else (Text.integer? value).map .number

def withVerbosity? (a : Arguments) (verbosity : Verbosity) : Option Arguments :=
  if a.verbosity.all (· == verbosity) then some { a with verbosity := some verbosity } else none

/-- The arguments after an option with its value, or a command that ends the reading. -/
def apply (a : Arguments) (o : CommandOption) (value : Text) : Except Command Arguments :=
  let number (set : Value → Arguments) : Except Command Arguments :=
    match numberOf? value with
    | some n => .ok (set n)
    | none => .error .refuse
  let verbosity (v : Verbosity) : Except Command Arguments :=
    match a.withVerbosity? v with
    | some a => .ok a
    | none => .error .refuse
  match o with
  | .help => .error .showHelp
  | .version => .error .showVersion
  | .scan => .ok { a with scan := some (textOf value) }
  | .exclude => .ok { a with exclude := some (textOf value) }
  | .scanFile => .ok { a with scanFile := some (textOf value) }
  | .excludeFile => .ok { a with excludeFile := some (textOf value) }
  | .maxDepth => number fun n => { a with maxDepth := some n }
  | .ignoreDomains => .ok { a with ignoreDomains := some (textOf value) }
  | .includeComments => .ok { a with includeComments := true }
  | .includeSingleLabel => .ok { a with includeSingleLabel := true }
  | .noFallback => .ok { a with noFallback := true }
  | .forceFallback => .ok { a with forceFallback := some (textOf value) }
  | .context => number fun n => { a with context := some n }
  | .format => .ok { a with format := some (textOf value) }
  | .output => .ok { a with output := some (textOf value) }
  | .onlyUrls => .ok { a with onlyUrls := true }
  | .noLineNumbers => .ok { a with noLineNumbers := true }
  | .concurrency => number fun n => { a with concurrency := some n }
  | .failOnError => .ok { a with failOnError := true }
  | .quiet => verbosity .quiet
  | .resultsOnly => verbosity .resultsOnly
  | .verbose => verbosity .verbose

def applyAll (a : Arguments) : List (CommandOption × Text) → Except Command Arguments
  | [] => .ok a
  | (o, value) :: rest => do
    let a ← a.apply o value
    a.applyAll rest

/-- The options in a word that begins with a short option: what is attached is the value of an
option that has one, and further short options otherwise. The last option may lack its value. -/
def shortGroup? (o : CommandOption) : Text → Option (List (CommandOption × Option Text))
  | [] => some [(o, none)]
  | c :: rest =>
    if o.takesValue then some [(o, some (c :: rest))]
    else do
      let next ← CommandOption.ofSpelling? ['-', c]
      let more ← shortGroup? next rest
      return (o, none) :: more

/-- The options in an option word; none when something is attached that may not be. -/
def group? (o : CommandOption) (long : Bool) :
    Option Text → Option (List (CommandOption × Option Text))
  | none => some [(o, none)]
  | some value =>
    if o.takesValue then some [(o, some value)]
    else if long || value.isEmpty then none
    else shortGroup? o value

/-- Gives the last option the word behind it as its value, if it needs one; none when it needs one
and there is none. -/
def complete? (words : List CommandWord) :
    List (CommandOption × Option Text) → Option (List (CommandOption × Text) × List CommandWord)
  | [] => some ([], words)
  | (o, none) :: [] =>
    if o.takesValue then
      match words with
      | .plain value :: rest => some ([(o, value)], rest)
      | _ => none
    else some ([(o, [])], words)
  | (o, value) :: more => do
    let (options, words) ← complete? words more
    return ((o, value.getD []) :: options, words)

/-- No more words are left than there were. -/
theorem complete?_length {words rest : List CommandWord}
    {group : List (CommandOption × Option Text)} {options : List (CommandOption × Text)}
    (completed : complete? words group = some (options, rest)) : rest.length ≤ words.length := by
  fun_induction complete? words group generalizing options rest with
  | case1 => simp_all
  | case2 => simp_all
  | case3 => simp_all
  | case4 => simp_all
  | case5 o value more _ ih =>
    simp only [Option.bind_eq_bind, Option.bind_eq_some_iff, Prod.exists] at completed
    obtain ⟨_, _, found, result⟩ := completed
    have := ih found
    simp_all

/-- Reads words. `path` tells whether the directory is given, `extra` whether there was a word too
many; that is refused only at the end. -/
def readFrom (a : Arguments) (path extra : Bool) (words : List CommandWord) : Command :=
  match words with
  | [] => if extra then .refuse else .run a
  | .unknown :: rest => readFrom a path true rest
  | .plain t :: .separator :: rest =>
    if path || extra || !rest.isEmpty then .refuse else .run { a with path := t }
  | .plain t :: rest =>
    if path then readFrom a path true rest else readFrom { a with path := t } true extra rest
  | .separator :: rest =>
    match path || extra, rest with
    | false, [] => .run a
    | false, [.plain t] => .run { a with path := t }
    | _, _ => .refuse
  | .option o long attached :: rest =>
    match group? o long attached with
    | none => .refuse
    | some group =>
      match _completed : complete? rest group with
      | none => .refuse
      | some (options, rest') =>
        match a.applyAll options with
        | .error command => command
        | .ok a => readFrom a path extra rest'
termination_by words.length
decreasing_by
  all_goals simp only [List.length_cons]
  any_goals omega
  have := complete?_length _completed
  omega

end Arguments

/-- What a command line asks for. -/
def Command.ofWords (words : List Text) : Command :=
  match CommandWord.readAll? words with
  | none => .refuse
  | some words => Arguments.readFrom {} false false words

end UrlScan
