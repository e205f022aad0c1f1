import Sinkhole.Updater

/-! Whether there is a network at all.

Before anything is fetched the hosts of the remote sources are looked up, and if none
of them has an address there is no point in going on. An address written as a host
has itself. -/
namespace Sinkhole.Update

variable {σ : Type}

/-- Whether a host of a URL is an address, in brackets or not. -/
def isAddressHost (host : List Char) : Bool :=
  Address.isText (Text.dropEndWhile (· == ']') (host.dropWhile (· == '[')))

/-- Whether one of the hosts can be found; of no hosts none is missed. -/
def isReachable (w : World σ) (hosts : List (List Char)) : Bool :=
  hosts.isEmpty || hosts.any fun host => isAddressHost host || w.resolves host

def preflight (w : World σ) (sources : List Source) : Work σ Unit :=
  if isReachable w (sources.filterMap Source.remoteHost?) then return () else throw .noConnection

end Sinkhole.Update
