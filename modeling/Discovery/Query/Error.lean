import Discovery.Text.Quoted

/-!
# Malformed queries

Each cause keeps the whole text that was refused. A message quotes every piece of that text, so
the text cannot pose as part of the message.
-/

namespace Discovery

/-- Why a text is no query. -/
inductive Query.Error where
  | empty
  /-- Nothing stands where `separator` promises a value. -/
  | missingOperand (input : String) (separator : Char)
  /-- The options have a key that is not known. -/
  | unsupportedOption (input key : String)
  /-- The options have a key twice. -/
  | duplicateOption (input key : String)
  | nameRequired (input : String)
  deriving DecidableEq, Repr

/-- What every message begins with. -/
def Query.Error.preamble : String := "catalog.service: invalid format: "

def Query.Error.message : Query.Error → String
  | .empty => preamble ++ "empty query"
  | .missingOperand input separator =>
    preamble ++ Text.quoted input ++ ": missing value after " ++ Text.quotedChar separator
  | .unsupportedOption input key =>
    preamble ++ Text.quoted input ++ ": unsupported option " ++ Text.quoted key
  | .duplicateOption input key =>
    preamble ++ Text.quoted input ++ ": option " ++ Text.quoted key ++ " given more than once"
  | .nameRequired input => preamble ++ Text.quoted input ++ ": name required"

end Discovery
