import UrlScan.Language.Basic

/-!
# Built-in languages

The languages that a registry knows from the start, in the order in which they are asked. In Bash
and YAML a URL often stands without quotes, so bare words and plain scalars count as strings there.
-/

namespace UrlScan.Language

/-- A language whose grammar has the name of the language. -/
def builtIn (name displayName : String) (extensions filenames strings comments : List String) :
    Language :=
  { name := name.toList
    grammarSource := name.toList
    extensions := extensions.map String.toList
    filenames := filenames.map String.toList
    displayName := some displayName.toList
    kinds := ⟨strings.map String.toList, comments.map String.toList⟩ }

/-- The languages known from the start. -/
def builtIns : List Language :=
  [builtIn "javascript" "JavaScript" [".js", ".jsx", ".mjs", ".cjs"] []
      ["string", "template_string"] ["comment"],
   builtIn "typescript" "TypeScript" [".ts", ".mts", ".cts"] []
      ["string", "template_string"] ["comment"],
   builtIn "tsx" "TSX" [".tsx"] [] ["string", "template_string"] ["comment"],
   builtIn "html" "HTML" [".html", ".htm", ".xhtml"] []
      ["quoted_attribute_value", "attribute_value", "text", "raw_text"] ["comment"],
   builtIn "css" "CSS" [".css"] [] ["string_value", "call_expression"] ["comment"],
   builtIn "c" "C" [".c", ".h"] [] ["string_literal", "system_lib_string"] ["comment"],
   builtIn "cpp" "C++" [".cpp", ".cc", ".cxx", ".hpp", ".hh", ".hxx"] []
      ["string_literal", "raw_string_literal", "system_lib_string"] ["comment"],
   builtIn "csharp" "C#" [".cs"] []
      ["string_literal", "verbatim_string_literal", "raw_string_literal",
        "interpolated_string_expression"]
      ["comment"],
   builtIn "go" "Go" [".go"] [] ["interpreted_string_literal", "raw_string_literal"] ["comment"],
   builtIn "rust" "Rust" [".rs"] []
      ["string_literal", "raw_string_literal"] ["line_comment", "block_comment"],
   builtIn "java" "Java" [".java"] []
      ["string_literal", "text_block"] ["line_comment", "block_comment"],
   builtIn "kotlin" "Kotlin" [".kt", ".kts"] []
      ["string_literal", "multiline_string_literal"] ["line_comment", "multiline_comment"],
   builtIn "scala" "Scala" [".scala", ".sc"] []
      ["string", "interpolated_string"] ["comment", "block_comment"],
   builtIn "swift" "Swift" [".swift"] []
      ["line_string_literal", "multi_line_string_literal", "raw_string_literal"]
      ["comment", "multiline_comment"],
   builtIn "python" "Python" [".py", ".pyw", ".pyi"] [] ["string"] ["comment"],
   builtIn "ruby" "Ruby" [".rb", ".rake", ".gemspec"] ["Rakefile", "Gemfile"]
      ["string", "heredoc_body"] ["comment"],
   builtIn "php" "PHP" [".php"] [] ["string", "encapsed_string", "heredoc", "nowdoc"] ["comment"],
   builtIn "bash" "Bash" [".sh", ".bash", ".zsh"] []
      ["string", "raw_string", "word", "heredoc_body"] ["comment"],
   builtIn "json" "JSON" [".json"] [] ["string"] ["comment"],
   builtIn "yaml" "YAML" [".yaml", ".yml"] []
      ["double_quote_scalar", "single_quote_scalar", "plain_scalar", "block_scalar"] ["comment"],
   builtIn "toml" "TOML" [".toml"] [] ["string"] ["comment"]]

end UrlScan.Language
