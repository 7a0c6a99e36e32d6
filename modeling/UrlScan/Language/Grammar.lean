import UrlScan.Language.Basic
import UrlScan.SyntaxTree.Sketch

/-!
# Grammars

An engine makes parsers for one grammar and parses with them. Engines come from a grammar package,
which may not be installed and may not have every grammar; a package is asked at most once for a
grammar that it has. A grammar is an engine in the service of a language.
-/

namespace UrlScan

/-- What makes parsers and parses with them. -/
structure Engine where
  /-- Why no parser can be made, if none can. -/
  creationFault : Option Text
  /-- The tree of a file, or why it cannot be parsed. -/
  parse : Bytes → Except Text SyntaxTree

def Engine.sketch : Engine :=
  ⟨none, fun bytes => .ok (SyntaxTree.sketch bytes)⟩

/-- Where a grammar comes from. -/
inductive GrammarSource
  /-- It was registered together with its language. -/
  | registered
  | package
deriving DecidableEq, Repr

/-- An engine in the service of a language. -/
structure Grammar where
  /-- Distinguishes grammars that were made for the same language at different times. -/
  serial : Nat
  language : Language
  source : GrammarSource
  engine : Engine

/-- Why the grammar of a language could not be loaded. -/
structure GrammarError where
  language : Text
  reason : Text
deriving DecidableEq, Repr

def GrammarError.message (e : GrammarError) : String :=
  let message := "Failed to load " ++ String.ofList e.language ++ " parser"
  if e.reason.isEmpty then message else message ++ ": " ++ String.ofList e.reason

/-- A grammar package: the engine for a grammar identifier, or why there is none. -/
abbrev GrammarPackage := Text → Except Text Engine

structure GrammarLibrary where
  /-- The grammar package, if it is installed. -/
  package : Option GrammarPackage
  loaded : List (Text × Engine)
  /-- The identifiers that the package was asked for, in the order of the requests. -/
  requests : List Text

namespace GrammarLibrary

def ofPackage (package : Option GrammarPackage) : GrammarLibrary :=
  ⟨package, [], []⟩

def notInstalled : Text :=
  "tree-sitter-language-pack not installed".toList

/-- The engine for a grammar identifier. The package is asked only for what is not loaded yet. -/
def load (library : GrammarLibrary) (source : Text) : Except Text Engine × GrammarLibrary :=
  match library.loaded.lookup source with
  | some engine => (.ok engine, library)
  | none =>
    match library.package with
    | none => (.error notInstalled, library)
    | some package =>
      let asked := { library with requests := library.requests ++ [source] }
      match package source with
      | .ok engine => (.ok engine, { asked with loaded := (source, engine) :: asked.loaded })
      | .error reason => (.error reason, asked)

end GrammarLibrary

end UrlScan
