/-! The configuration file to start from, with every setting explained. -/
namespace Sinkhole.Config

def templateLines : List String :=
  ["# hostsieve configuration",
    "",
    "# SQLite database holding sources, list items and the host table",
    "database: /var/lib/hostsieve/hosts.db",
    "",
    "# Where downloaded list bodies are staged (system temp dir if unset)",
    "# temp_dir: /var/tmp/hostsieve",
    "",
    "http:",
    "  timeout_secs: 120",
    "  connect_timeout_secs: 15",
    "  # HEAD probes and DNS pre-flight",
    "  probe_timeout_secs: 10",
    "  max_retries: 3",
    "  retry_delay_ms: 2000",
    "  max_redirects: 10",
    "  # Extra PEM root certificates trusted for downloads",
    "  ca_certificates: []",
    "",
    "pipeline:",
    "  batch_size: 100",
    "  classifiers_per_source: 2",
    "  line_queue: 4096",
    "  entry_queue: 4096",
    "  poll_interval_ms: 100",
    "  # Detected from the machine when unset:",
    "  # download_parallelism: 8",
    "  # parse_parallelism: 4",
    "  # active_parses: 2",
    "  # dedup_cap: 1000000",
    "  # memory_bytes: 2147483648",
    "",
    "# Imported into the database on every start, matched by location.",
    "# allow_list: lines are host patterns to exempt (* and ? wildcards)",
    "# redirects: hosts-file lines with a non-sinkhole IP become redirects",
    "sources:",
    "  - label: StevenBlack unified hosts",
    "    location: https://raw.githubusercontent.com/StevenBlack/hosts/master/hosts",
    "    enabled: true",
    "",
    "  - label: AdAway",
    "    location: https://adaway.org/hosts.txt",
    "    enabled: true",
    "",
    "  - label: EasyList (domains)",
    "    location: https://easylist.to/easylist/easylist.txt",
    "    enabled: false",
    "",
    "  # - label: Local overrides",
    "  #   location: /etc/hostsieve/local.hosts",
    "  #   redirects: true",
    "",
    "  # - label: Allowed hosts",
    "  #   location: /etc/hostsieve/allow.txt",
    "  #   allow_list: true"]

def template : String := String.join (templateLines.map (· ++ "\n"))

end Sinkhole.Config
