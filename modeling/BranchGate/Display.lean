import BranchGate.Value.Plain

/-! Escaping of text that is shown inside markup. The ampersand stays, so entities already in
the text are not escaped again. -/
namespace BranchGate.Display

def escapeChar (c : Char) : Text :=
  if c = '<' then "&lt;"
  else if c = '>' then "&gt;"
  else if c = '\x22' then "&quot;"
  else if c = '\x27' then "&#39;"
  else [c]

def escape (t : Text) : Text := t.flatMap escapeChar

/-- Replaces the four entities by their characters, in one pass. -/
def unescape : Text → Text
  | '&' :: 'l' :: 't' :: ';' :: rest => '<' :: unescape rest
  | '&' :: 'g' :: 't' :: ';' :: rest => '>' :: unescape rest
  | '&' :: 'q' :: 'u' :: 'o' :: 't' :: ';' :: rest => '\x22' :: unescape rest
  | '&' :: '#' :: '3' :: '9' :: ';' :: rest => '\x27' :: unescape rest
  | c :: rest => c :: unescape rest
  | [] => []

/-- A value that is no text is rendered plainly first, if it can be; null shows as nothing. -/
def render (v : Value) : Option Text :=
  match v with
  | .null => some []
  | v => v.plain.map escape

end BranchGate.Display
