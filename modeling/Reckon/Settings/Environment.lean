/-
Settings from environment variables. The variables share a beginning of their
names; one that is empty counts as absent.
-/
import Reckon.Settings
import Reckon.Text
import Reckon.Text.Case

namespace Reckon

/-- The variables of an environment whose names begin in one way. -/
structure Environment where
  /-- The common beginning of the names. -/
  stem : String
  entries : List (String × String)

namespace Environment

/-- The value of the variable of a name after the stem, unless it is empty. -/
def get? (env : Environment) (name : String) : Option String :=
  (env.entries.lookup (env.stem ++ name)).filter (!·.isEmpty)

/-- The name of a journal level, if there is one. -/
def logLevel? (env : Environment) : Option String := env.get? "LOG_LEVEL"

/-- A value without blanks around it, in lower case. -/
def tidy (s : String) : String := Text.lower (Text.trimText Text.isBlank s)

/-- The words that mean yes; all others mean no. -/
def yesWords : List String := ["1", "true", "yes", "on"]

/-- The settings that the variables give, as a record. -/
def fields (env : Environment) : Bindings :=
  let field (name : String) (value : Option Datum) : Bindings :=
    (value.map fun d => (name, d)).toList
  field "null_policy" ((env.get? "NULL_POLICY").map fun s => .text (tidy s)) ++
    field "international_format"
      ((env.get? "INTERNATIONAL_FORMAT").map fun s => .bool (yesWords.contains (tidy s))) ++
    field "max_tree_nodes" ((env.get? "MAX_TREE_NODES").map .text) ++
    field "max_nesting_depth" ((env.get? "MAX_NESTING_DEPTH").map .text)

/-- The settings that an environment gives, and the events of settling on a policy. -/
def settings (env : Environment) : Except ValidationError Settings × List Event :=
  Settings.ofDatum (.record env.fields)

end Environment

end Reckon
