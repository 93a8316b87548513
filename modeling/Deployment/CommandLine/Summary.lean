import Deployment.Manifest.Model

namespace Deployment.CommandLine

def summaryLine (title value : String) : String :=
  String.ofList (title.toList ++ List.replicate (16 - title.length) ' ' ++ value.toList ++ ['\n'])

def summaryOfJob (j : Job) : String :=
  "  " ++ j.name ++ " x" ++ Decimal.ofNat j.instances.toNat ++ " (" ++ j.lifecycle.text ++ ") [" ++
    ", ".intercalate (j.templates.map (·.name)) ++ "]\n"

def summary (m : Manifest) : String :=
  summaryLine "deployment:" m.name ++
    summaryLine "watch time:" m.watchTime.text ++
    summaryLine "networks:" (Decimal.ofNat m.networks.length) ++
    summaryLine "resource pools:" (Decimal.ofNat m.resourcePools.length) ++
    summaryLine "disk pools:" (Decimal.ofNat m.diskPools.length) ++
    summaryLine "properties:" (Decimal.ofNat m.properties.length) ++
    summaryLine "jobs:" (Decimal.ofNat m.jobs.length) ++
    String.join (m.jobs.map summaryOfJob)

end Deployment.CommandLine
