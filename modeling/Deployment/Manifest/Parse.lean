import Deployment.Manifest.Section
import Deployment.Text.Blank
import Deployment.Yaml.Decoding
import Deployment.Yaml.MergeKey
import Deployment.Yaml.Printer

/-!
From the octets of a manifest to the deployment it describes. Events tell what was noticed on the
way; the first fault ends the work and is reported with its whole chain of causes.
-/

namespace Deployment

open Yaml (Value Mismatch DecodeError MergeError)

inductive LogEvent where
  | started (origin : String)
  | decoded (origin : String) (document : Value)
  | unknownKey (origin key : String)
  | nonStringKey (origin : String) (key : Value)
  | finished (manifest : Manifest)

inductive LogLevel where
  | error
  | warn
  | info
  | debug
  | trace
  deriving DecidableEq

namespace LogEvent

def level : LogEvent → LogLevel
  | .started _ => .info
  | .decoded .. => .debug
  | .unknownKey .. => .warn
  | .nonStringKey .. => .warn
  | .finished _ => .info

def message : LogEvent → String
  | .started origin => "parsing deployment manifest " ++ origin
  | .decoded origin document =>
    "decoded manifest document " ++ origin ++ ": " ++ document.describe
  | .unknownKey origin key =>
    "ignoring unrecognized top-level key '" ++ key ++ "' in " ++ origin
  | .nonStringKey origin key =>
    "ignoring non-string top-level key " ++ key.describe ++ " in " ++ origin
  | .finished m =>
    "parsed deployment '" ++ m.name ++ "': " ++ Decimal.ofNat m.networks.length ++
      " networks, " ++ Decimal.ofNat m.resourcePools.length ++ " resource pools, " ++
      Decimal.ofNat m.diskPools.length ++ " disk pools, " ++ Decimal.ofNat m.jobs.length ++
      " jobs"

end LogEvent

inductive DocumentError where
  | text (error : DecodeError)
  | merge (error : MergeError)
  | shape (mismatch : Mismatch)

def DocumentError.describe (ofText : DecodeError → String) : DocumentError → String
  | .text e => ofText e
  | .merge e => e.message
  | .shape m => m.message

inductive ManifestFault where
  | read (reason : String)
  | decode (error : DocumentError)
  | missingName
  | entries (error : SectionError)
  | properties (error : PropertyError)
  | watchTime (error : WatchTimeError)

def ManifestFault.describe (ofText : DecodeError → String) : ManifestFault → String
  | .read reason => "reading manifest: " ++ reason
  | .decode e => "decoding manifest: " ++ e.describe ofText
  | .missingName => "deployment name must not be empty"
  | .entries e => e.message
  | .properties e => "parsing global properties: " ++ e.message
  | .watchTime e => "parsing update watch time: " ++ e.message

structure ManifestError where
  origin : String
  fault : ManifestFault

def ManifestError.describe (ofText : DecodeError → String) (e : ManifestError) : String :=
  "parsing deployment manifest '" ++ e.origin ++ "': " ++ e.fault.describe ofText

def ManifestError.message (e : ManifestError) : String :=
  e.describe DecodeError.message

namespace Manifest

/-- The expression that a watch time value stands for. A value that is neither text, number nor
truth value is written out as a document. -/
def watchTimeExpression : Value → String
  | .string s => s
  | .number n => n.text
  | .bool b => toString b
  | v => (v.print.map fun text => String.ofList (Text.trimRight text.toList)).getD ""

def watchTimeOf (e : UpdateEntry) : Except WatchTimeError WatchTime :=
  match e.watchTime with
  | some v => WatchTime.parse (watchTimeExpression v)
  | none => .ok .standard

def keyEvents (origin : String) : Value → List LogEvent
  | .mapping es => es.filterMap fun (k, _) =>
    match k.asString? with
    | some key =>
      if ManifestEntry.keys.contains key then none else some (.unknownKey origin key)
    | none => some (.nonStringKey origin k)
  -- Under a tag no key is looked at, although decoding reads what is there.
  | _ => []

def documentValue (octets : List UInt8) : Except DocumentError Value :=
  ((Value.ofOctets octets).mapError .text).bind fun v =>
    (Yaml.MergeKey.resolve v).mapError .merge

/-- The entries of a document, and what is noticed on the way to them. A document of nothing but
blanks or null has no entries. -/
def decode (origin : String) (octets : List UInt8) :
    List LogEvent × Except ManifestFault ManifestEntry :=
  if octets.all Text.isBlankOctet then ([], .ok {})
  else
    match documentValue octets with
    | .error e => ([], .error (.decode e))
    | .ok v =>
      -- The keys are told before decoding, which may refuse one of them.
      (.decoded origin v :: keyEvents origin v,
        match v with
        | .null => .ok {}
        | _ => (ManifestEntry.read v).mapError fun m => .decode (.shape m))

/-- The manifest that the entries describe. The name is checked first, then the sections in order,
the global properties and the watch time. -/
def ofEntry (e : ManifestEntry) : Except ManifestFault Manifest := do
  if Text.trimString e.name = "" then .error .missingName
  let networks ← (parseNetworks e.networks).mapError .entries
  let resourcePools ← (parseResourcePools e.resourcePools).mapError .entries
  let diskPools ← (parseDiskPools e.diskPools).mapError .entries
  let jobs ← (parseJobs e.jobs).mapError .entries
  let properties ← (PropertyMap.build e.properties).mapError .properties
  let watchTime ← (watchTimeOf e.update).mapError .watchTime
  return { name := e.name, watchTime, networks, resourcePools, diskPools, jobs, properties }

/-- What comes of reading a source, and what is noticed on the way. Octets that could not be read
are given by the reason. -/
def parse (origin : String) (octets : Except String (List UInt8)) :
    List LogEvent × Except ManifestError Manifest :=
  let (events, result) : List LogEvent × Except ManifestFault Manifest :=
    match octets with
    | .error reason => ([], .error (.read reason))
    | .ok octets =>
      let (events, entry) := decode origin octets
      (events, entry.bind ofEntry)
  match result with
  | .error fault => (.started origin :: events, .error ⟨origin, fault⟩)
  | .ok m => (.started origin :: events ++ [.finished m], .ok m)

end Manifest

end Deployment
