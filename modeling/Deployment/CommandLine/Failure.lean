import Deployment.Manifest.Parse
import Deployment.Template.Renderer

namespace Deployment.CommandLine

open Host (IoError)

inductive SettingsError where
  | reading (path : String) (error : IoError)
  | malformed (path reason : String)
  deriving DecidableEq

def SettingsError.message : SettingsError → String
  | .reading path e => "config error: reading " ++ path ++ ": " ++ e.message
  | .malformed path reason => "config error: " ++ path ++ ": " ++ reason

inductive TreeFormat where
  | json
  | yaml
  deriving DecidableEq

def TreeFormat.name : TreeFormat → String
  | .json => "JSON"
  | .yaml => "YAML"

inductive Failure where
  | settings (error : SettingsError)
  | manifest (error : ManifestError)
  | unknownJob (job deployment : String)
  | context (error : ContextError)
  | unprintable (format : TreeFormat) (reason : String)
  | rendering (source : String) (error : RenderError)

def Failure.message : Failure → String
  | .settings e => e.message
  | .manifest e => e.message
  | .unknownJob job deployment =>
    "no job named '" ++ job ++ "' in deployment '" ++ deployment ++ "'"
  | .context e => e.message
  | .unprintable format reason => format.name ++ " serialization failed: " ++ reason
  | .rendering source e => "rendering " ++ source ++ ": " ++ e.message

def failureLine (message : String) : String :=
  "error: " ++ message ++ "\n"

/-- The exit code for the message of a failure: 2 for a manifest, 3 for rendering, 1 otherwise. -/
def exitCode (message : String) : UInt8 :=
  if message.startsWith "parsing deployment manifest" then 2
  else if message.startsWith "rendering " then 3
  else 1

end Deployment.CommandLine
