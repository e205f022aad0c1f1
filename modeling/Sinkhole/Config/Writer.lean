import Sinkhole.Config.Reader
import Sinkhole.Yaml.Printer
import Sinkhole.Yaml.Reader

/-! Configurations as files.

`text` writes every field, also those that are as in the standard configuration, and
`ofText?` reads any file of that kind. -/
namespace Sinkhole.Config

def ofNat (n : Nat) : Value := .whole n

def ofNat? (n : Option Nat) : Value := (n.map ofNat).getD .null

def ofFields (fields : List (String × Value)) : Value :=
  .record (fields.map fun (name, value) => (some name, value))

def httpValue (h : Fetch.HttpSettings) : Value :=
  ofFields
    [("timeout_secs", ofNat h.timeoutSecs), ("connect_timeout_secs", ofNat h.connectTimeoutSecs),
      ("probe_timeout_secs", ofNat h.probeTimeoutSecs), ("max_retries", ofNat h.maxRetries),
      ("retry_delay_ms", ofNat h.retryDelayMs), ("max_redirects", ofNat h.maxRedirects),
      ("ca_certificates", .list (h.certificates.map .text))]

def pipelineValue (p : PipelineSettings) : Value :=
  ofFields
    [("batch_size", ofNat p.batchSize), ("classifiers_per_source", ofNat p.classifiersPerSource),
      ("line_queue", ofNat p.lineQueue), ("entry_queue", ofNat p.entryQueue),
      ("poll_interval_ms", ofNat p.pollIntervalMs),
      ("download_parallelism", ofNat? p.downloadParallelism),
      ("parse_parallelism", ofNat? p.parseParallelism), ("active_parses", ofNat? p.activeParses),
      ("dedup_cap", ofNat? p.dedupCap), ("memory_bytes", ofNat? p.memoryBytes)]

def registrationValue (r : Registration) : Value :=
  ofFields
    [("label", .text r.label), ("location", .text r.location), ("enabled", .flag r.enabled),
      ("allow_list", .flag r.allowList), ("redirects", .flag r.redirects)]

def toValue (c : Config) : Value :=
  ofFields
    [("database", .text c.database), ("temp_dir", (c.tempDir.map Value.text).getD .null),
      ("user_agent", .text c.userAgent), ("http", httpValue c.http),
      ("pipeline", pipelineValue c.pipeline), ("sources", .list (c.sources.map registrationValue))]

/-- A configuration as a file holds it. -/
def text (c : Config) : String := Yaml.print c.toValue

/-- The configuration that a file holds. -/
def ofText? (text : List Char) : Option Config := do
  let (v, known) ← Yaml.read? text
  ofValue? known v

end Sinkhole.Config
