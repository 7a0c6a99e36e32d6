import UrlScan.Yaml.Cursor

/-!
# Plain scalars

A plain scalar is written without quotation marks. It ends at a comment, at a colon with spacing
behind it, and in a flow collection at a mark of the collection. It may go on over several lines,
which are joined with a space; a line end more than needed stays.
-/

namespace UrlScan.Yaml

/-- The characters that end a plain scalar in a flow collection. -/
def flowMarks : List Char := [',', '?', '[', ']', '\x7b', '\x7d']

/-- The characters that begin no plain scalar. -/
def marks : List Char := "-?:,[]\x7b\x7d#&*!|>'\"%@\x60".toList

/-- Whether a plain scalar may begin here. -/
def beginsPlain (flow : Bool) (t : Text) : Bool :=
  match t with
  | [] => false
  | c :: rest =>
    !(isSpacing c || marks.contains c)
      || (!endsOr isSpacing rest && (c == '-' || (!flow && (c == '?' || c == ':'))))

/-- Whether the colon before `t` ends a plain scalar. -/
def endsKey (flow : Bool) (t : Text) : Bool :=
  endsOr (fun c => isSpacing c || (flow && c != '?' && flowMarks.contains c)) t

/-- The characters of a plain scalar up to the next spacing or to its end. -/
def plainRun (flow : Bool) : Text → Text
  | [] => []
  | c :: rest =>
    if isSpacing c || (c == ':' && endsKey flow rest) || (flow && flowMarks.contains c) then []
    else c :: plainRun flow rest

/-- The line ends behind the first one between two lines of a plain scalar; none when a document
ends before the next line. -/
def plainBreaks : (fuel : Nat) → Cursor → Option Text × Cursor
  | 0, c => (some [], c)
  | fuel + 1, c =>
    let c := c.skipWhile (· == ' ')
    match c.lineEnd? with
    | none => (some [], c)
    | some (d, after) =>
      if after.atSeparator then (none, after)
      else
        let (further, stop) := plainBreaks fuel after
        (further.map (d :: ·), stop)

/-- What stands between two runs of a plain scalar, the place behind it, and whether a line ended
there. -/
def plainGap (c : Cursor) : Text × Cursor × Bool :=
  let blanks := c.rest.takeWhile (· == ' ')
  let c := c.skipWhile (· == ' ')
  match c.lineEnd? with
  | none => (blanks, c, false)
  | some (first, after) =>
    if after.atSeparator then ([], after, true)
    else
      match plainBreaks (after.rest.length + 1) after with
      | (some further, stop) => (joint first further, stop, true)
      | (none, stop) => ([], stop, true)

/-- A plain scalar behind the gap before its next run. Its further lines begin at column `floor` or
later, unless it is in a flow collection. The flag tells whether a line ended behind it. -/
def plainText (flow : Bool) (floor : Int) (gap : Text) (ended : Bool) :
    (fuel : Nat) → Cursor → Text × Cursor × Bool
  | 0, c => ([], c, ended)
  | fuel + 1, c =>
    let run := if c.at? '#' then [] else plainRun flow c.rest
    if run.isEmpty then ([], c, ended)
    else
      let (nextGap, stop, nextEnded) := plainGap (c.skip run.length)
      if nextGap.isEmpty || stop.at? '#' || (!flow && stop.column < floor) then
        (gap ++ run, stop, nextEnded)
      else
        let (more, stop, ended) := plainText flow floor nextGap nextEnded fuel stop
        (gap ++ run ++ more, stop, ended)

end UrlScan.Yaml
