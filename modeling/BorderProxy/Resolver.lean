import BorderProxy.Address.Literal
import BorderProxy.Network
import BorderProxy.Time

/-! Host names and the cache of their addresses. An entry counts for strictly less than the cache's life
time; names are kept in lower case; a literal address needs no entry. -/

namespace BorderProxy

structure CacheEntry where
  host : Text
  ip : Ip
  stored : Instant
  deriving DecidableEq, Repr

structure Resolver where
  lifeTime : Duration
  entries : List CacheEntry := []
  deriving DecidableEq, Repr

/-- What is known about hosts without a look-up. -/
abbrev KnownHosts := Text → Option Ip

namespace Resolver

/-- Whether an entry still counts. -/
def isFresh (r : Resolver) (now : Instant) (e : CacheEntry) : Bool := now.since e.stored < r.lifeTime

/-- The address of a literal or of a host with an entry that still counts. -/
def cached (r : Resolver) (now : Instant) : KnownHosts := fun host =>
  match Ip.readHost host with
  | some ip => some ip
  | none =>
    ((r.entries.find? fun e => e.host == Text.lower host).filter (r.isFresh now)).map (·.ip)

/-- Stores the address of a host, and drops the entries that no longer count. -/
def insert (r : Resolver) (now : Instant) (host : Text) (ip : Ip) : Resolver :=
  let key := Text.lower host
  let kept := r.entries.filter fun e => r.isFresh now e && e.host != key
  { r with entries := ⟨key, ip, now⟩ :: kept }

/-- The address to use of those a look-up gave: the first of version 4, or else the first. -/
def preferred (ips : List Ip) : Option Ip := (ips.find? Ip.isV4).or ips.head?

/-- The address of a host: the cached one, or else the preferred one of a look-up, which is stored. -/
def resolve (r : Resolver) (network : Network) (now : Instant) (host : Text) :
    Except Fault Ip × Resolver :=
  match r.cached now host with
  | some ip => (.ok ip, r)
  | none =>
    match preferred (network.addressesOf host) with
    | some ip => (.ok ip, r.insert now host ip)
    | none => (.error (.unresolvableHost host), r)

end Resolver

end BorderProxy
