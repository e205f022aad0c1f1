import Sinkhole.Config.Basic
import Sinkhole.Fetch.Backoff

/-! What a configuration has to keep to. -/
namespace Sinkhole

/-- What is wrong with a configuration. -/
inductive Complaint where
  | noBatch
  | noClassifier
  | noQueue
  | noPollInterval
  | noTimeout
  | tooManyRetries
  | brokenUserAgent
  | unsupportedLocation (label location : String)
  | redirectingAllowList (label : String)
  deriving DecidableEq, Repr

def Complaint.message : Complaint → String
  | noBatch => "pipeline.batch_size must be at least 1"
  | noClassifier => "pipeline.classifiers_per_source must be at least 1"
  | noQueue => "pipeline queue capacities must be at least 1"
  | noPollInterval => "pipeline.poll_interval_ms must be at least 1"
  | noTimeout => "http timeouts must be at least 1 second"
  | tooManyRetries => "http.max_retries must be at most " ++ toString Fetch.mostAttempts
  | brokenUserAgent => "user_agent must not contain line breaks"
  | unsupportedLocation label location =>
    "Source '" ++ label ++
      "' location must be an http(s):// URL, a file:// URL or an absolute path: " ++ location
  | redirectingAllowList label =>
    "Source '" ++ label ++ "' is an allow list and cannot carry redirects"

/-- Whether content can be had from a location; the user's own source has none. -/
def Location.isSupported (location : String) : Bool :=
  match Location.ofText location with
  | .ok (.remote _) => true
  | .ok (.local _) => true
  | _ => false

namespace Registration

def complaint? (r : Registration) : Option Complaint :=
  if !Location.isSupported r.location then some (.unsupportedLocation r.label r.location)
  else if r.allowList && r.redirects then some (.redirectingAllowList r.label)
  else none

end Registration

namespace Config

/-- The first thing that is wrong with a configuration. -/
def complaint? (c : Config) : Option Complaint :=
  if c.pipeline.batchSize = 0 then some .noBatch
  else if c.pipeline.classifiersPerSource = 0 then some .noClassifier
  else if c.pipeline.lineQueue = 0 || c.pipeline.entryQueue = 0 then some .noQueue
  else if c.pipeline.pollIntervalMs = 0 then some .noPollInterval
  else if c.http.timeoutSecs = 0 || c.http.probeTimeoutSecs = 0 then some .noTimeout
  else if c.http.maxRetries > Fetch.mostAttempts then some .tooManyRetries
  else if c.userAgent.toList.any fun ch => ch == '\r' || ch == '\n' then some .brokenUserAgent
  else c.sources.findSome? Registration.complaint?

end Config

end Sinkhole
