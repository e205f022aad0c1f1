import Sinkhole.Fetch.Settings
import Sinkhole.Sizing
import Sinkhole.Source.Basic
import Sinkhole.Path

/-! The configuration: where the store is, how to fetch and take in, and which sources
are registered whenever the store is opened. -/
namespace Sinkhole

/-- Everything that can be configured. -/
structure Config where
  database : String
  /-- Where downloads are kept until they are taken in. -/
  tempDir : Option String
  userAgent : String
  http : Fetch.HttpSettings
  pipeline : PipelineSettings
  sources : List Registration
  deriving DecidableEq, Repr

namespace Config

def version : String := "0.1.0"

/-- Where the configuration is looked for unless the command line tells. -/
def standardPath : String := "/etc/hostsieve/config.yaml"

def standardSources : List Registration :=
  [{ label := "StevenBlack unified hosts"
     location := "https://raw.githubusercontent.com/StevenBlack/hosts/master/hosts" },
   { label := "AdAway", location := "https://adaway.org/hosts.txt" },
   { label := "EasyList (domains)", location := "https://easylist.to/easylist/easylist.txt"
     enabled := false }]

/-- The configuration where no file gives another. -/
def standard : Config :=
  { database := "/var/lib/hostsieve/hosts.db", tempDir := none
    userAgent := "hostsieve/" ++ version
    http := {}, pipeline := {}, sources := standardSources }

/-- The file that whoever writes to the store holds locked; it lies beside the store. -/
def lockPath (c : Config) : String :=
  let path := c.database.toList
  let name := (Path.fileName? path).getD "hostsieve.db".toList
  String.ofList (Path.withFileName path (name ++ ".lock".toList))

end Config

end Sinkhole
