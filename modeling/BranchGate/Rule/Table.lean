import BranchGate.Rule.Pattern

/-! The two rule tables: the denylist that the gate enforces and the keywords of the pre-check.
The order of a table decides which rule is reported. -/
namespace BranchGate

def Rule.disallow (code : Text) (pattern : Pattern) (what : Text) : Rule :=
  ⟨code, pattern, "Expression contains disallowed syntax: " ++ what⟩

def denylist : List Rule := [
  .disallow "assign" .assignment "assignment",
  .disallow "exec.eval" (.word ["eval"]) "eval",
  .disallow "exec.function" (.word ["Function"]) "Function constructor",
  .disallow "exec.import" (.word ["import"]) "import",
  .disallow "exec.require" (.word ["require"]) "require",
  .disallow "exec.new" (.word ["new"]) "new",
  .disallow "flow"
    (.word ["while", "for", "do", "switch", "try", "catch", "finally", "throw", "return"])
    "control flow keyword",
  .disallow "global" (.word ["process", "global", "globalThis", "window", "document"])
    "global object access",
  .disallow "proto" (.either (.fragment ["__proto__"]) (.word ["constructor", "prototype"]))
    "prototype access",
  .disallow "incdec" (.fragment ["++", "--"]) "increment/decrement",
  .disallow "shift" (.fragment ["<<", ">>"]) "bitwise shift",
  .disallow "semicolon" (.fragment [";"]) "statement separator",
  .disallow "object" (.fragment ["\x7b", "\x7d"]) "object literal or block",
  .disallow "comma" (.fragment [","]) "comma or array literal",
  .disallow "template" (.fragment ["\x60"]) "template literal"]

/-- A name that begins with an underscore is found inside other names too. -/
def keywordPattern (keyword : Text) : Pattern :=
  if keyword.head? = some '_' then .fragment [keyword] else .word [keyword]

def Rule.keyword (keyword : Text) : Rule :=
  ⟨"kw." ++ keyword.map Char.toLower, keywordPattern keyword,
    "Expression contains disallowed keyword \"" ++ keyword ++ "\""⟩

def keywordRules : List Rule :=
  (["eval", "Function", "import", "require", "process", "global", "window", "document",
    "__proto__", "constructor", "prototype"] : List Text).map Rule.keyword

/-- The first rule of a table that applies. -/
def Rule.first? (rules : List Rule) (s : Text) : Option Rule := rules.find? (·.applies s)

end BranchGate
