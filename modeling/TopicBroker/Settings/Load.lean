import TopicBroker.Record.Setting
import TopicBroker.Settings.Environment
import TopicBroker.Settings.Layer
import TopicBroker.Toml.Reader

/-!
# Loading settings

Settings are what the environment gives, or else what a file gives, or else the standard ones, key
by key. Only settings that a broker can run with are loaded.
-/

namespace TopicBroker.Settings

/-- Where settings come from: the text of a file, if there is one, and variables. -/
structure Sources where
  file : Option String
  environment : List (String × String)
  deriving Repr

inductive LoadFault where
  /-- The file is no document. -/
  | unreadableFile
  | setting (fault : SettingFault)
  | invalid (defect : Defect)
  deriving DecidableEq, Repr

def LoadFault.message : LoadFault → String
  | unreadableFile => "the settings file cannot be read"
  | setting (.wrongType key) => "the value of " ++ key ++ " cannot be converted"
  | setting (.misplaced key) => "the value of " ++ key ++ " is of the wrong kind"
  | invalid defect => defect.message

/-- What the file gives. The mark that may stand in front of a file is no part of its document. -/
def fileSettings (file : Option String) : Except LoadFault (List (String × Setting)) :=
  match file with
  | none => .ok []
  | some text =>
    match Toml.read? (String.ofList (Utf8.dropMark text.toList)) with
    | some members => .ok (Setting.ofTomlMembers members)
    | none => .error .unreadableFile

def given (sources : Sources) : Except LoadFault Setting := do
  let file ← fileSettings sources.file
  .ok (Setting.layAll (Environment.settings sources.environment)
    (Setting.layAll file (.table [])))

def layer (sources : Sources) : Except LoadFault Layer := do
  let setting ← given sources
  (Record.ofSetting setting).mapError .setting

def load (sources : Sources) : Except LoadFault Settings := do
  let layer ← layer sources
  let settings := layer.applyTo standard
  match settings.defect? with
  | some defect => .error (.invalid defect)
  | none => .ok settings

end TopicBroker.Settings
