import Sinkhole.Config.Basic
import Sinkhole.Config.Value

/-! Configurations as values.

Whatever a file leaves out is as in the standard configuration, and what it says
beyond that is ignored; a source needs a label and a location. -/
namespace Sinkhole.Config

open Value

def limit64 : Nat := Text.greatest 64

def limit32 : Nat := Text.greatest 32

/-! What names in a file stand for is `known`. -/

def texts? (known : Names) (v : Value) : Option (List String) := do
  (← v.items? known).mapM text?

def readHttp? (known : Names) (v : Value) : Option Fetch.HttpSettings := do
  let fields ← v.fields? known ["timeout_secs", "connect_timeout_secs", "probe_timeout_secs",
    "max_retries", "retry_delay_ms", "max_redirects", "ca_certificates"]
  let missing : Fetch.HttpSettings := {}
  let number := natural? limit64
  return {
    timeoutSecs := ← fieldOr fields "timeout_secs" number missing.timeoutSecs
    connectTimeoutSecs := ← fieldOr fields "connect_timeout_secs" number missing.connectTimeoutSecs
    probeTimeoutSecs := ← fieldOr fields "probe_timeout_secs" number missing.probeTimeoutSecs
    maxRetries := ← fieldOr fields "max_retries" (natural? limit32) missing.maxRetries
    retryDelayMs := ← fieldOr fields "retry_delay_ms" number missing.retryDelayMs
    maxRedirects := ← fieldOr fields "max_redirects" number missing.maxRedirects
    certificates := ← fieldOr fields "ca_certificates" (texts? known) missing.certificates }

def readPipeline? (known : Names) (v : Value) : Option PipelineSettings := do
  let fields ← v.fields? known ["batch_size", "classifiers_per_source", "line_queue", "entry_queue",
    "poll_interval_ms", "download_parallelism", "parse_parallelism", "active_parses", "dedup_cap",
    "memory_bytes"]
  let missing : PipelineSettings := {}
  let number := natural? limit64
  let setting := optional? number
  return {
    batchSize := ← fieldOr fields "batch_size" number missing.batchSize
    classifiersPerSource :=
      ← fieldOr fields "classifiers_per_source" number missing.classifiersPerSource
    lineQueue := ← fieldOr fields "line_queue" number missing.lineQueue
    entryQueue := ← fieldOr fields "entry_queue" number missing.entryQueue
    pollIntervalMs := ← fieldOr fields "poll_interval_ms" number missing.pollIntervalMs
    downloadParallelism := ← fieldOr fields "download_parallelism" setting none
    parseParallelism := ← fieldOr fields "parse_parallelism" setting none
    activeParses := ← fieldOr fields "active_parses" setting none
    dedupCap := ← fieldOr fields "dedup_cap" setting none
    memoryBytes := ← fieldOr fields "memory_bytes" setting none }

def readRegistration? (known : Names) (v : Value) : Option Registration := do
  let fields ← v.fields? known ["label", "location", "enabled", "allow_list", "redirects"]
  return {
    label := ← field? fields "label" text?
    location := ← field? fields "location" text?
    enabled := ← fieldOr fields "enabled" flag? true
    allowList := ← fieldOr fields "allow_list" flag? false
    redirects := ← fieldOr fields "redirects" flag? false }

def readSources? (known : Names) (v : Value) : Option (List Registration) := do
  (← v.items? known).mapM (readRegistration? known)

/-- The configuration that a value stands for. -/
def ofValue? (known : Names) (v : Value) : Option Config := do
  let fields ← v.fields? known ["database", "temp_dir", "user_agent", "http", "pipeline", "sources"]
  return {
    database := ← fieldOr fields "database" text? standard.database
    tempDir := ← fieldOr fields "temp_dir" (optional? text?) standard.tempDir
    userAgent := ← fieldOr fields "user_agent" text? standard.userAgent
    http := ← fieldOr fields "http" (readHttp? known) standard.http
    pipeline := ← fieldOr fields "pipeline" (readPipeline? known) standard.pipeline
    sources := ← fieldOr fields "sources" (readSources? known) standard.sources }

end Sinkhole.Config
