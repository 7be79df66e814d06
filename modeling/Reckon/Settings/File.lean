/-
Settings from a file: JSON if its name ends in `.json`, in any case of letters,
and YAML otherwise. A blank JSON file gives the standard settings, and so does
YAML that holds nothing.
-/
import Reckon.Json
import Reckon.Settings
import Reckon.Text
import Reckon.Text.Case
import Reckon.Yaml

namespace Reckon.SettingsFile

/-- Why a file gives no settings. -/
inductive ReadError where
  | missing
  | encoding
  | json
  | yaml
  | invalid (e : ValidationError)

/-- The end of a file's name from its last point on; a point at either end of the name does not
count. -/
def extension (name : String) : String :=
  let after := name.toList.reverse.takeWhile (· != '.')
  let before := name.toList.reverse.dropWhile (· != '.')
  if after.isEmpty || before.length ≤ 1 then "" else String.ofList ('.' :: after.reverse)

/-- The datum that the text of a file holds. -/
def datumOf (name content : String) : Except ReadError Datum :=
  if Text.lower (extension name) = ".json" then
    if (Text.trimText Text.isBlank content).isEmpty then .ok (.record [])
    else match Json.read? content with
      | some d => .ok d
      | none => .error .json
  else match Yaml.read? content with
    | some d => .ok (if d.isNothing then .record [] else d)
    | none => .error .yaml

/-- The text of a file that may not be there. -/
def textOf : Option ByteArray → Except ReadError String
  | none => .error .missing
  | some bytes =>
    match String.fromUTF8? bytes with
    | some content => .ok content
    | none => .error .encoding

/-- The settings of the file of a name, given its bytes if it is there, with what is to be
reported. -/
def load (name : String) (bytes : Option ByteArray) : Except ReadError Settings × List Event :=
  match (textOf bytes).bind (datumOf name) with
  | .error e => (.error e, [])
  | .ok d =>
    match Settings.ofDatum d with
    | (.ok settings, events) => (.ok settings, events ++ [.settingsLoaded])
    | (.error e, events) => (.error (.invalid e), events)

end Reckon.SettingsFile
