/-!
# Text — quoted segments

The two halves of quoting.  `enquote` writes a text between quotes with every quote and every
backslash doubled.  `readQuoted` reads what follows an opening quote: a doubled quote stands for one
quote, a backslash for the character after it, and a lone quote closes the segment.  A segment
without a closing quote reaches to the end of the text.
-/

namespace RowLiteral.Text

/-- The segment that follows an opening quote, and what comes after its closing quote; `none` where
no quote closes it. -/
def readQuoted : List Char → List Char × Option (List Char)
  | [] => ([], none)
  | '"' :: '"' :: cs => let (text, rest) := readQuoted cs; ('"' :: text, rest)
  | '"' :: cs => ([], some cs)
  | '\\' :: c :: cs => let (text, rest) := readQuoted cs; (c :: text, rest)
  | c :: cs => let (text, rest) := readQuoted cs; (c :: text, rest)

/-- Quotes and backslashes, which are written twice. -/
def isDoubled (c : Char) : Bool := c == '"' || c == '\\'

/-- Every quote and every backslash twice. -/
def doubled (cs : List Char) : List Char := cs.flatMap fun c => if isDoubled c then [c, c] else [c]

/-- A text between quotes. -/
def enquote (cs : List Char) : List Char := '"' :: doubled cs ++ ['"']

/-- A backslash before every quote. -/
def escapeQuotes (cs : List Char) : List Char :=
  cs.flatMap fun c => if c == '"' then ['\\', '"'] else [c]

/-! ### What a segment takes -/

/-- The segment and what follows it take up less than what was read and its opening quote. -/
theorem readQuoted_length (cs : List Char) :
    (readQuoted cs).1.length + ((readQuoted cs).2.getD []).length ≤ cs.length := by
  fun_induction readQuoted cs <;> simp_all <;> omega

end RowLiteral.Text
